/-
What the file helpers of the outbox do, under every schedule of kills and of failing writes.

* `wp_writeAll` — a loop of partial writes stores its whole value; a kill leaves a prefix;
* `wp_truncateIncompleteTail` — the reading from the end finds the last line break for any
  block size, and exactly the unfinished line is cut off;
* `wp_writeAtomicJson` — a kill leaves the old file or the new one.

Each rule takes what is to hold of every set of files in between (`K`) and of the end (`Q`).
-/
import LogStack.Outbox

open FileProgram Lines

namespace Outbox

variable {allowed : Call String → Fate → Prop} {K : Files String → Prop} {ob : Outbox}
  {w : World String}

/-- Replacing what a file holds, when it exists. -/
def replace (files : Files String) (path : String) (data : Bytes) : Files String :=
  Function.update files path ((files path).map fun _ => data)

theorem wp_writeAllFrom {Q : Except Failure Unit → Outbox → World String → Prop} {fd : ℕ}
    {path : String} {data value : Bytes} {passes : ℕ} (hE : Throws allowed Q K ob w)
    (hfd : w.fds fd = some (.file path)) (hfile : w.files path = some data)
    (hpasses : value.length ≤ passes)
    (hK : ∀ n, K (Function.update w.files path (some (data ++ value.take n))))
    (hQ : ∀ w' : World String, w'.files = Function.update w.files path (some (data ++ value)) →
      w.Kept w' → Q (.ok ()) ob w') :
    wp allowed Q K (writeAllFrom fd passes value) ob w := by
  induction passes generalizing data value w with
  | zero =>
    obtain rfl := List.eq_nil_of_length_eq_zero (Nat.le_zero.mp hpasses)
    have hsame : w.files = Function.update w.files path (some (data ++ [])) := by
      rw [List.append_nil, ← hfile, Function.update_eq_self]
    exact wp_pure (hQ w hsame (.refl w))
  | succ passes ih =>
    cases value with
    | nil =>
      have hsame : w.files = Function.update w.files path (some (data ++ [])) := by
        rw [List.append_nil, ← hfile, Function.update_eq_self]
      exact wp_pure (hQ w hsame (.refl w))
    | cons b rest =>
      refine wp_bind (wp_writeSync hE.andThen hfd (List.cons_ne_nil b rest) ?_ ?_)
      · simpa only [hfile, Option.getD_some] using hK
      · intro n hpos hn w' hfiles _ hkept
        have hfile' : w'.files path = some (data ++ (b :: rest).take n) := by
          rw [hfiles, Function.update_self, hfile, Option.getD_some]
        have hfd' : w'.fds fd = some (.file path) := by
          rename_i hfds
          rw [hfds, hfd]
        have hupdate : ∀ d, Function.update w'.files path d = Function.update w.files path d :=
          fun d => by rw [hfiles, Function.update_idem]
        show wp allowed Q K (if n = 0 then _ else writeAllFrom fd passes ((b :: rest).drop n)) ob w'
        rw [if_neg hpos.ne']
        -- a call writes at least one byte, so that there are passes enough for what remains
        refine ih (hE.mono hkept) hfd' hfile' ?_ ?_ ?_
        · rw [List.length_drop]
          omega
        · intro k
          rw [hupdate, List.append_assoc, ← List.take_add]
          exact hK (n + k)
        · intro w'' hfiles'' hkept'
          refine hQ w'' ?_ (hkept.trans hkept')
          rw [hfiles'', hupdate, List.append_assoc, List.take_append_drop]

/-- Partial writes are continued: the value is stored whole, and a kill leaves a prefix. -/
theorem wp_writeAll {Q : Except Failure Unit → Outbox → World String → Prop} {fd : ℕ}
    {path : String} {data value : Bytes} (hE : Throws allowed Q K ob w)
    (hfd : w.fds fd = some (.file path)) (hfile : w.files path = some data)
    (hK : ∀ n, K (Function.update w.files path (some (data ++ value.take n))))
    (hQ : ∀ w' : World String, w'.files = Function.update w.files path (some (data ++ value)) →
      w.Kept w' → Q (.ok ()) ob w') :
    wp allowed Q K (writeAll fd value) ob w :=
  wp_writeAllFrom hE hfd hfile le_rfl hK hQ

theorem wp_fsyncAndClose {Q : Except Failure Unit → Outbox → World String → Prop}
    {w₀ : World String} {fd : ℕ} {handle : Handle String} (hE : Throws allowed Q K ob w₀)
    (hfd : w₀.Opened fd handle w) (hK : K w.files)
    (hQ : ∀ w', w'.files = w.files → w₀.Kept w' → Q (.ok ()) ob w') :
    wp allowed Q K (fsyncAndClose fd) ob w := by
  have hclose : ∀ (r : Except Failure Unit) w', K w'.files → w₀.Kept w' →
      Fails allowed (.close fd) (andThen (fun _ : Unit => Q r) Q) ob w' :=
    fun _ w' hK' hkept code n hf => hE _ code n hf w' hK' hkept
  refine wp_tryFinally (wp_fsyncSync ?_ hfd.handle hK ?_)
  · intro c code n hf w' hK' hkept
    exact wp_closeSync_any (fun w'' hfiles hkept' => hclose _ w'' (hfiles ▸ hK') hkept')
      (hfd.trans hkept) hK' fun w'' hfiles hkept' => hE c code n hf w'' (hfiles ▸ hK') hkept'
  · exact wp_closeSync_any (fun w'' hfiles hkept' => hclose _ w'' (hfiles ▸ hK) hkept') hfd hK hQ

theorem wp_fsyncDirectory {Q : Except Failure Unit → Outbox → World String → Prop}
    (hE : Throws allowed Q K ob w) (hK : K w.files)
    (hQ : ∀ w', w'.files = w.files → w.Kept w' → Q (.ok ()) ob w') :
    wp allowed Q K fsyncDirectory ob w := by
  refine wp_bind (wp_openDirSync_any (hE.andThen.fails hK _) hK fun fd w' hfiles hopen => ?_)
  exact wp_fsyncAndClose hE hopen (hfiles ▸ hK) fun w'' hfiles' hkept =>
    hQ w'' (hfiles'.trans hfiles) hkept

theorem wp_writeSynced {Q : Except Failure Unit → Outbox → World String → Prop} {path : String}
    {data : Bytes} (hE : Throws allowed Q K ob w)
    (hK : ∀ d, K (Function.update w.files path d))
    (hQ : ∀ w' : World String, w'.files = Function.update w.files path (some data) → w.Kept w' →
      Q (.ok ()) ob w') :
    wp allowed Q K (writeSynced path data) ob w := by
  have hbefore : K w.files := by simpa using hK (w.files path)
  refine wp_bind (wp_writeFileSync hE.andThen hbefore (fun n => hK _) fun w₁ hfiles₁ hkept₁ => ?_)
  have hdata₁ : w₁.files path = some data := by rw [hfiles₁, Function.update_self]
  have hK₁ : K w₁.files := hfiles₁ ▸ hK _
  have hE₁ : Throws allowed Q K ob w₁ := hE.mono hkept₁
  rw [andThen_ok]
  refine wp_bind (wp_openSync_any (hE₁.andThen.fails hK₁ _) hdata₁ hK₁
    fun fd w₂ hfiles₂ hopen => ?_)
  exact wp_fsyncAndClose hE₁ hopen (hfiles₂ ▸ hK₁) fun w₃ hfiles₃ hkept₃ =>
    hQ w₃ ((hfiles₃.trans hfiles₂).trans hfiles₁) (hkept₁.trans hkept₃)

variable [Sturdy allowed]

theorem wp_statSize {Q : Except Failure ℕ → Outbox → World String → Prop} {path : String}
    (hK : K w.files) (hQ : Q (.ok ((w.files path).getD []).length) ob w) :
    wp allowed Q K (statSize path) ob w := by
  refine wp_bind (wp_existsSync hK ?_)
  cases hfile : w.files path with
  | none =>
    rw [hfile] at hQ
    exact hQ
  | some data =>
    rw [hfile] at hQ
    exact wp_statSync hfile hK hQ

/-! ### Cutting off an unfinished line -/

theorem closedLength_append {xs ys : Bytes} :
    closedLength newline (xs ++ ys) = match lastIndexOf newline ys with
      | some index => xs.length + index + 1
      | none => closedLength newline xs := by
  cases h : lastIndexOf newline ys with
  | some index => rw [closedLength, lastIndexOf_append_some newline h]
  | none =>
    rw [closedLength, lastIndexOf_append_of_notMem newline ((lastIndexOf_eq_none newline).mp h)]
    rfl

/-- Reading blocks of any size from the end finds the last line break. -/
theorem wp_tailLength {Q : Except Failure ℕ → Outbox → World String → Prop} {fd : ℕ}
    {path : String} {data : Bytes} {blockBytes passes position : ℕ}
    (hfd : w.fds fd = some (.file path)) (hfile : w.files path = some data) (hK : K w.files)
    (hblock : 0 < blockBytes) (hpasses : position ≤ passes) (hposition : position ≤ data.length)
    (hQ : Q (.ok (closedLength newline (data.take position))) ob w) :
    wp allowed Q K (tailLength fd blockBytes passes position) ob w := by
  induction passes generalizing position with
  | zero =>
    obtain rfl := Nat.le_zero.mp hpasses
    exact wp_pure hQ
  | succ passes ih =>
    cases position with
    | zero => exact wp_pure hQ
    | succ position =>
      set count := min blockBytes (position + 1) with hcount
      set block := (data.drop (position + 1 - count)).take count with hblk
      have hlength : block.length = count := by
        rw [hblk, List.length_take, List.length_drop]
        omega
      -- a last line break is in this block, or else before it
      have hsplit : data.take (position + 1) = data.take (position + 1 - count) ++ block := by
        rw [hblk, ← List.take_add]
        congr 1
        omega
      have hbefore : (data.take (position + 1 - count)).length = position + 1 - count := by
        rw [List.length_take]
        omega
      refine wp_bind (wp_readSync hfd hK ?_)
      rw [hfile, Option.getD_some]
      show wp allowed Q K (if block.length ≠ count then _ else _) ob w
      rw [if_neg (not_not.mpr hlength)]
      rw [hsplit, closedLength_append, hbefore] at hQ
      cases h : lastIndexOf newline block with
      | some index =>
        rw [h] at hQ
        exact wp_pure hQ
      | none =>
        rw [h] at hQ
        exact ih (by omega) (by omega) hQ

/-- Exactly the unfinished line is cut off, and the answer says whether there was one. -/
theorem wp_truncateIncompleteTailBy {Q : Except Failure ℕ → Outbox → World String → Prop}
    {blockBytes : ℕ} {path : String} {ls : List Bytes} {t : Bytes} (hblock : 0 < blockBytes)
    (hE : Throws allowed Q K ob w)
    (hfile : (w.files path).getD [] = unlines newline ls ++ t) (ht : newline ∉ t)
    (hK : K w.files) (hK' : K (replace w.files path (unlines newline ls)))
    (hQ : ∀ w', w'.files = replace w.files path (unlines newline ls) → w.Kept w' →
      Q (.ok (if t = [] then 0 else 1)) ob w') :
    wp allowed Q K (truncateIncompleteTailBy blockBytes path) ob w := by
  cases hdata : w.files path with
  | none =>
    have hsame : w.files = replace w.files path (unlines newline ls) := by
      rw [replace, hdata, Option.map_none, ← hdata, Function.update_eq_self]
    rw [hdata, Option.getD_none] at hfile
    have hnil : t = [] := (List.append_eq_nil_iff.mp hfile.symm).2
    refine wp_bind (wp_attempt (wp_openSync_none hdata (by decide) hK ?_))
    have h := hQ w hsame (.refl w)
    rw [if_pos hnil] at h
    exact h
  | some data =>
    have hreplace : replace w.files path (unlines newline ls)
        = Function.update w.files path (some (unlines newline ls)) := by
      rw [replace, hdata, Option.map_some]
    rw [hdata, Option.getD_some] at hfile
    have hclosed : closedLength newline data = (unlines newline ls).length := by
      rw [hfile, closedLength_unlines_append newline ls ht]
    have htake : data.take (unlines newline ls).length = unlines newline ls := by
      rw [hfile, List.take_left]
    refine wp_bind (wp_attempt (wp_openSync hdata hK fun fd w₁ hfiles₁ hopen => ?_))
    have hdata₁ : w₁.files path = some data := by rw [hfiles₁, hdata]
    have hK₁ : K w₁.files := hfiles₁ ▸ hK
    have hnil : t = [] ↔ (unlines newline ls).length = data.length := by
      rw [hfile, List.length_append, ← List.length_eq_zero_iff]
      omega
    -- the file is as it was when nothing is cut, that is, when `t` is empty
    have huncut : (unlines newline ls).length = data.length → ∀ w₂ : World String,
        w₂.files = w₁.files → w.Kept w₂ → Q (.ok 0) ob w₂ := by
      intro hlen w₂ hfiles₂ hkept
      have h := hQ w₂ ?_ hkept
      · rwa [if_pos (hnil.mpr hlen)] at h
      · rw [hlen, List.take_length] at htake
        rw [hfiles₂, hreplace, ← htake, ← hdata, Function.update_eq_self, hfiles₁]
    refine wp_bind (wp_tryFinally (wp_bind (wp_fstatSync hopen.handle hK₁ ?_)))
    rw [hdata₁, Option.getD_some]
    show wp allowed _ K (if data.length = 0 then _ else _) ob w₁
    split_ifs with hzero
    · refine wp_pure (wp_closeSync hopen hK₁ fun w₂ hfiles₂ hkept => ?_)
      refine huncut ?_ w₂ hfiles₂ hkept
      rw [hfile, List.length_append] at hzero ⊢
      omega
    refine wp_bind (wp_tailLength hopen.handle hdata₁ hK₁ hblock le_rfl le_rfl ?_)
    rw [List.take_length, hclosed]
    show wp allowed _ K (if (unlines newline ls).length = data.length then _ else _) ob w₁
    split_ifs with hlen
    · refine wp_pure (wp_closeSync hopen hK₁ fun w₂ hfiles₂ hkept => ?_)
      exact huncut hlen w₂ hfiles₂ hkept
    refine wp_bind (wp_ftruncateSync hopen.handle hK₁ fun w₂ hfiles₂ hfds₂ hkept₂ => ?_)
    rw [hdata₁, Option.getD_some, htake, hfiles₁, ← hreplace] at hfiles₂
    have hK₂ : K w₂.files := hfiles₂ ▸ hK'
    refine ⟨hK₂, wp_bind (wp_fsyncSync ?_ (hfds₂ ▸ hopen.handle) hK₂ ?_)⟩
    · intro c code n hf w₃ hK₃ hkept₃
      exact wp_closeSync ((hopen.trans hkept₂).trans hkept₃) hK₃ fun w₄ hfiles₄ hkept₄ =>
        hE c code n hf w₄ (hfiles₄ ▸ hK₃) hkept₄
    · rw [andThen_ok]
      refine wp_pure (wp_closeSync (hopen.trans hkept₂) hK₂ fun w₃ hfiles₃ hkept₃ => ?_)
      refine wp_bind (wp_fsyncDirectory ?_ (hfiles₃ ▸ hK₂) fun w₄ hfiles₄ hkept₄ => ?_)
      · exact (hE.mono hkept₃).andThen
      · have h := hQ w₄ (hfiles₄.trans (hfiles₃.trans hfiles₂)) (hkept₃.trans hkept₄)
        rwa [if_neg (mt hnil.mp hlen)] at h

theorem wp_truncateIncompleteTail {Q : Except Failure ℕ → Outbox → World String → Prop}
    {path : String} {ls : List Bytes} {t : Bytes} (hE : Throws allowed Q K ob w)
    (hfile : (w.files path).getD [] = unlines newline ls ++ t) (ht : newline ∉ t)
    (hK : K w.files) (hK' : K (replace w.files path (unlines newline ls)))
    (hQ : ∀ cut w', w'.files = replace w.files path (unlines newline ls) → w.Kept w' →
      Q (.ok cut) ob w') :
    wp allowed Q K (truncateIncompleteTail path) ob w :=
  wp_truncateIncompleteTailBy (by decide) hE hfile ht hK hK' fun w' hfiles hkept =>
    hQ _ w' hfiles hkept

/-! ### Replacing a file atomically -/

/-- The files after a value is stored through the temporary file. -/
def stored (files : Files String) (path : String) (data : Bytes) : Files String :=
  Function.update (Function.update files (tmpPath path) none) path (some data)

theorem stored_self {files : Files String} {path : String} {data : Bytes} :
    stored files path data path = some data := Function.update_self _ _ _

theorem stored_of_ne {files : Files String} {path p : String} {data : Bytes} (hp : p ≠ path)
    (htmp : p ≠ tmpPath path) : stored files path data p = files p := by
  rw [stored, Function.update_of_ne hp, Function.update_of_ne htmp]

omit [Sturdy allowed] in
/-- A kill leaves the old value or the new one. -/
theorem wp_writeAtomicJson {Q : Except Failure Unit → Outbox → World String → Prop}
    (J : JsonText) {path : String} {value : Json} (hE : Throws allowed Q K ob w)
    (hK : ∀ tmp, K (Function.update w.files (tmpPath path) tmp))
    (hK' : K (stored w.files path (J.stringify value)))
    (hQ : ∀ w' : World String, w'.files = stored w.files path (J.stringify value) → w.Kept w' →
      Q (.ok ()) ob w') :
    wp allowed Q K (writeAtomicJson J path value) ob w := by
  refine wp_bind (wp_writeSynced hE.andThen hK fun w₁ hfiles₁ hkept₁ => ?_)
  have hdata₁ : w₁.files (tmpPath path) = some (J.stringify value) := by
    rw [hfiles₁, Function.update_self]
  have hK₁ : K w₁.files := hfiles₁ ▸ hK _
  rw [andThen_ok]
  refine wp_bind (wp_renameSync_any ((hE.mono hkept₁).andThen.fails hK₁ _) hdata₁ hK₁
    fun w₂ hfiles₂ hkept₂ => ?_)
  rw [hfiles₁, Function.update_idem] at hfiles₂
  have hK₂ : K w₂.files := hfiles₂ ▸ hK'
  have hkept := hkept₁.trans hkept₂
  refine ⟨hK₂, wp_fsyncDirectory (hE.mono hkept) hK₂ fun w₃ hfiles₃ hkept₃ => ?_⟩
  exact hQ w₃ (hfiles₃.trans hfiles₂) (hkept.trans hkept₃)

end Outbox
