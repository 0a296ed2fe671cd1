/-
The failed journal and its bounded cache.

The outbox answers whether an event id is already in `failed.jsonl` from three sources: a
cache of at most `failedIdCacheLimit` ids, the comparison of the cache's size with the
number of distinct ids, and a scan of the file.

* `wp_forFailedJournalIdsBy` — the scan, whatever the size of its blocks, is a loop over the
  records of the file, or over those before an offset, and throws behind an unfinished line;
* `Cached` — the cache holds the first distinct ids, and the count is their number;
* `wp_hasFailedId` — the three sources together decide membership in the file, for every
  limit;
* `wp_loadFailedEventIds`, `wp_quarantine` — opening establishes `Cached`, and quarantining
  appends one record for each new id.
-/
import LogStack.OutboxState
import Mathlib.Data.Finset.Card

open FileProgram Lines

/-! ### Distinct elements, first occurrences first -/

section Distinct

variable {α : Type} [BEq α] [LawfulBEq α] {xs : List α} {x : α}

theorem eraseDups_concat_of_mem (h : x ∈ xs) : (xs ++ [x]).eraseDups = xs.eraseDups := by
  rw [List.eraseDups_append]
  simp [List.removeAll, h]

theorem eraseDups_concat_of_notMem (h : x ∉ xs) :
    (xs ++ [x]).eraseDups = xs.eraseDups ++ [x] := by
  rw [List.eraseDups_append]
  simp [List.removeAll, h, List.eraseDups_cons]

theorem nodup_eraseDups (xs : List α) : xs.eraseDups.Nodup := by
  induction xs using List.reverseRecOn with
  | nil => exact List.nodup_nil
  | append_singleton xs x ih =>
    by_cases h : x ∈ xs
    · rw [eraseDups_concat_of_mem h]
      exact ih
    · rw [eraseDups_concat_of_notMem h]
      refine List.nodup_append.mpr ⟨ih, List.nodup_singleton x, fun a ha b hb hab => h ?_⟩
      rw [← List.mem_singleton.mp hb, ← hab]
      exact List.mem_eraseDups.mp ha

theorem length_eraseDups [DecidableEq α] (xs : List α) :
    xs.eraseDups.length = xs.toFinset.card := by
  rw [← List.toFinset_card_of_nodup (nodup_eraseDups xs)]
  congr 1
  ext x
  simp only [List.mem_toFinset, List.mem_eraseDups]

end Distinct

/-- A complete record of the failed journal. -/
structure FailedLine (J : JsonText) where
  text : Bytes
  id : JsString
  newline_not_mem : newline ∉ text
  record : Outbox.failedRecordId J text = .ok id

namespace Outbox

variable {J : JsonText} {allowed : Call String → Fate → Prop} {K : Files String → Prop}
  {ob : Outbox} {w : World String} {files : Files String} {σ : Type}

def failedText (ls : List (FailedLine J)) : Bytes := unlines newline (ls.map FailedLine.text)

@[simp] theorem failedText_nil : failedText ([] : List (FailedLine J)) = [] := rfl

@[simp] theorem failedText_append (ls ls' : List (FailedLine J)) :
    failedText (ls ++ ls') = failedText ls ++ failedText ls' := by
  simp [failedText]

theorem failedText_cons (l : FailedLine J) (ls : List (FailedLine J)) :
    failedText (l :: ls) = l.text ++ newline :: failedText ls := by
  simp [failedText]

theorem newline_not_mem_texts (ls : List (FailedLine J)) :
    ∀ l ∈ ls.map FailedLine.text, newline ∉ l := by
  intro l hl
  obtain ⟨line, _, rfl⟩ := List.mem_map.mp hl
  exact line.newline_not_mem

theorem take_failedText (ls : List (FailedLine J)) (n : ℕ) :
    ∃ k t, (failedText ls).take n = failedText (ls.take k) ++ t ∧ newline ∉ t := by
  obtain ⟨k, t, h, ht⟩ := take_unlines newline (newline_not_mem_texts ls) n
  refine ⟨k, t, ?_, ht⟩
  rw [failedText, h, failedText, List.map_take]

theorem take_failedText_append (ls : List (FailedLine J)) {tail : Bytes} (htail : newline ∉ tail)
    (n : ℕ) :
    ∃ k t, (failedText ls ++ tail).take n = failedText (ls.take k) ++ t ∧ newline ∉ t := by
  rcases Nat.le_total n (failedText ls).length with hn | hn
  · obtain ⟨k, t, htake, ht⟩ := take_failedText ls n
    exact ⟨k, t, by rw [List.take_append_of_le_length hn, htake], ht⟩
  · obtain ⟨m, rfl⟩ := Nat.exists_eq_add_of_le hn
    refine ⟨ls.length, tail.take m, ?_, fun h => htail (List.mem_of_mem_take h)⟩
    rw [List.take_length_add_append, List.take_length]

theorem failedText_eq_nil {ls : List (FailedLine J)} : failedText ls = [] ↔ ls = [] := by
  refine ⟨fun h => ?_, fun h => by rw [h, failedText_nil]⟩
  cases ls with
  | nil => rfl
  | cons l ls =>
    rw [failedText_cons] at h
    exact absurd h (by simp)

/-! ### The scan -/

/-- The part of a text that a scan with a stop looks at. -/
def upTo (stop : Option ℕ) (data : Bytes) : Bytes := stop.elim data data.take

/-- A loop body keeps `I` from record to record until the loop ends with `D`, and leaves
files and older descriptors alone. -/
def LoopBody (allowed : Call String → Fate → Prop) (K : Files String → Prop)
    (files : Files String) (lines : List (FailedLine J))
    (I : List (FailedLine J) → σ → Outbox → Prop) (D : σ → Outbox → Prop)
    (body : JsString → ℕ → σ → OutboxM (ForInStep σ)) : Prop :=
  ∀ seen line rest, seen ++ line :: rest = lines → ∀ s ob w, w.files = files → I seen s ob →
    wp allowed (fun r ob' w' => w'.files = files ∧ w.Kept w' ∧ ∃ step, r = .ok step ∧
      match step with
      | .yield s' => I (seen ++ [line]) s' ob'
      | .done s' => D s' ob') K (body line.id (failedText seen).length s) ob w

/-- A loop over records may be cut short by a call that fails and stores nothing. -/
def LoopThrows (allowed : Call String → Fate → Prop) (files : Files String)
    (I : List (FailedLine J) → σ → Outbox → Prop) (D : σ → Outbox → Prop)
    (Q : Except Failure σ → Outbox → World String → Prop) (w : World String) : Prop :=
  ∀ c code n, ¬Call.Stores c → allowed c (.fail code n) → ∀ seen s ob w',
    I seen s ob ∨ D s ob → w'.files = files → w.Kept w' → Q (.error (.errno code)) ob w'

theorem loopThrows_of_sturdy [Sturdy allowed] {I : List (FailedLine J) → σ → Outbox → Prop}
    {D : σ → Outbox → Prop} {Q : Except Failure σ → Outbox → World String → Prop} :
    LoopThrows allowed files I D Q w :=
  fun c code n hstores hf => absurd (Sturdy.stores c code n hf) hstores

theorem LoopThrows.mono {I : List (FailedLine J) → σ → Outbox → Prop} {D : σ → Outbox → Prop}
    {Q : Except Failure σ → Outbox → World String → Prop} {w' : World String}
    (h : LoopThrows allowed files I D Q w) (hw : w.Kept w') : LoopThrows allowed files I D Q w' :=
  fun c code n hstores hf seen s ob w'' hI hfiles hkept =>
    h c code n hstores hf seen s ob w'' hI hfiles (hw.trans hkept)

section Scan

variable {lines : List (FailedLine J)} {I : List (FailedLine J) → σ → Outbox → Prop}
  {D : σ → Outbox → Prop} {body : JsString → ℕ → σ → OutboxM (ForInStep σ)} {s : σ}

theorem wp_yieldRecords {Q : Except Failure (ForInStep (ℕ × σ)) → Outbox → World String → Prop}
    {seen block : List (FailedLine J)} (rest : List (FailedLine J))
    (hbody : LoopBody allowed K files lines I D body)
    (hlines : seen ++ (block ++ rest) = lines) (hw : w.files = files) (hI : I seen s ob)
    (hyield : ∀ s' ob' w', w'.files = files → w.Kept w' → I (seen ++ block) s' ob' →
      Q (.ok (.yield ((failedText (seen ++ block)).length, s'))) ob' w')
    (hdone : ∀ n s' ob' w', w'.files = files → w.Kept w' → D s' ob' →
      Q (.ok (.done (n, s'))) ob' w') :
    wp allowed Q K (yieldRecords J body (block.map FailedLine.text) (failedText seen).length s)
      ob w := by
  induction block generalizing seen s ob w with
  | nil =>
    rw [List.append_nil] at hyield
    exact hyield s ob w hw (.refl w) hI
  | cons line block ih =>
    rw [List.map_cons, yieldRecords, line.record]
    refine wp_bind (wp_ofExcept (wp_bind ?_))
    refine wp_mono (hbody seen line (block ++ rest) hlines s ob w hw hI) ?_ fun _ hd => hd
    rintro r ob' w' ⟨hfiles, hkept, step, rfl, hstep⟩
    cases step with
    | done s' => exact hdone _ s' ob' w' hfiles hkept hstep
    | yield s' =>
      have hlength : (failedText seen).length + (line.text.length + 1)
          = (failedText (seen ++ [line])).length := by
        simp [failedText]
      rw [andThen_ok, hlength]
      refine ih (by simpa using hlines) hfiles hstep ?_ ?_
      · intro s'' ob'' w'' hfiles' hkept' hI'
        have h := hyield s'' ob'' w'' hfiles' (hkept.trans hkept') (by simpa using hI')
        simpa using h
      · exact fun n s'' ob'' w'' hfiles' hkept' =>
          hdone n s'' ob'' w'' hfiles' (hkept.trans hkept')

/-- What is left of a text after the bytes of one block, when some of its lines are read. -/
theorem split_block (block rest : Bytes) {unfinished tail : Bytes} {todo : List (FailedLine J)}
    (htail : newline ∉ tail) (htext : unfinished ++ (block ++ rest) = failedText todo ++ tail) :
    ∃ k t, splitLines newline (unfinished ++ block) = ((todo.take k).map FailedLine.text, t) ∧
      newline ∉ t ∧ t ++ rest = failedText (todo.drop k) ++ tail := by
  obtain ⟨k, t, htake, ht⟩ := take_failedText_append todo htail (unfinished ++ block).length
  rw [← htext, ← List.append_assoc, List.take_left] at htake
  refine ⟨k, t, ?_, ht, ?_⟩
  · rw [htake, failedText, splitLines_unlines_append newline (newline_not_mem_texts _) ht]
  · rw [← List.append_right_inj (failedText (todo.take k))]
    rw [← List.append_assoc, ← htake, List.append_assoc, htext, ← List.append_assoc,
      ← failedText_append, List.take_append_drop]

/-- What the scan throws at an unfinished last line. -/
def incompleteLine : Failure := .error "failed journal contains incomplete line"

/-- A block is read from the part of the text in front of the stop. -/
theorem take_drop_upTo (stop : Option ℕ) (data : Bytes) (blockBytes position : ℕ) :
    (data.drop position).take (stop.elim blockBytes fun stop => min blockBytes (stop - position))
      = ((upTo stop data).drop position).take blockBytes := by
  cases stop with
  | none => rfl
  | some n =>
    show (data.drop position).take (min blockBytes (n - position))
      = ((data.take n).drop position).take blockBytes
    rw [List.drop_take, List.take_take]

theorem drop_length_take (blockBytes : ℕ) (remaining : Bytes) :
    remaining.drop (remaining.take blockBytes).length = remaining.drop blockBytes := by
  rw [List.length_take]
  rcases Nat.le_total blockBytes remaining.length with h | h
  · rw [Nat.min_eq_left h]
  · rw [Nat.min_eq_right h, List.drop_length, List.drop_of_length_le h]

/-- At the end only the unfinished last line of the text is left. -/
theorem wp_scanEnd {Q : Except Failure σ → Outbox → World String → Prop} {tail : Bytes}
    {seen todo : List (FailedLine J)} {unfinished : Bytes} (hlines : seen ++ todo = lines)
    (htext : unfinished = failedText todo ++ tail) (hunfinished : newline ∉ unfinished)
    (hI : I seen s ob) (hQ : tail = [] → I lines s ob → Q (.ok s) ob w)
    (hT : tail ≠ [] → I lines s ob → Q (.error incompleteLine) ob w) :
    wp allowed Q K (if unfinished.length ≠ 0 then .throw incompleteLine else pure s) ob w := by
  have htodo : todo = [] := by
    cases todo with
    | nil => rfl
    | cons l ls =>
      rw [htext, failedText_cons] at hunfinished
      exact absurd (by simp) hunfinished
  rw [htodo, List.append_nil] at hlines
  rw [htodo, failedText_nil, List.nil_append] at htext
  rw [htext]
  split_ifs with hlength
  · exact hT (fun hnil => hlength (List.length_eq_zero_iff.mpr hnil)) (hlines ▸ hI)
  · exact hQ (List.length_eq_zero_iff.mp (not_not.mp hlength)) (hlines ▸ hI)

/-- By induction on the passes, each of which reads a block. -/
theorem wp_scanBlocks {Q : Except Failure σ → Outbox → World String → Prop} {fd : ℕ}
    {path : String} {data tail : Bytes} {stop : Option ℕ} {blockBytes passes position : ℕ}
    {seen todo : List (FailedLine J)} {unfinished : Bytes}
    (hbody : LoopBody allowed K files lines I D body) (hE : LoopThrows allowed files I D Q w)
    (hlines : seen ++ todo = lines) (hfile : files path = some data) (hK : K files)
    (hblock : 0 < blockBytes)
    (hpasses : ((upTo stop data).drop position).length < passes) (htail : newline ∉ tail)
    (htext : unfinished ++ (upTo stop data).drop position = failedText todo ++ tail)
    (hunfinished : newline ∉ unfinished) (hw : w.files = files)
    (hfd : w.fds fd = some (.file path)) (hfd_lt : fd < w.nextFd) (hI : I seen s ob)
    (hQ : ∀ s' ob' w', w'.files = files → w.Kept w' → tail = [] ∧ I lines s' ob' ∨ D s' ob' →
      Q (.ok s') ob' w')
    (hT : tail ≠ [] → ∀ s' ob' w', w'.files = files → w.Kept w' → I lines s' ob' →
      Q (.error incompleteLine) ob' w') :
    wp allowed Q K (scanBlocks J fd blockBytes stop body passes position (failedText seen).length
      unfinished s) ob w := by
  induction passes generalizing position seen todo unfinished s ob w with
  | zero => exact absurd hpasses (Nat.not_lt_zero _)
  | succ passes ih =>
    have hK' : K w.files := hw ▸ hK
    have hfinish : (upTo stop data).drop position = [] →
        wp allowed Q K (if unfinished.length ≠ 0 then .throw incompleteLine else pure s) ob w := by
      intro hend
      rw [hend, List.append_nil] at htext
      exact wp_scanEnd hlines htext hunfinished hI
        (fun hnil hall => hQ s ob w hw (.refl w) (.inl ⟨hnil, hall⟩))
        fun hne hall => hT hne s ob w hw (.refl w) hall
    rw [scanBlocks]
    by_cases hstop : stop.all fun stop => decide (position < stop)
    · rw [if_pos hstop]
      refine wp_bind (wp_readSync_any (fun code n hf =>
        hE _ code n id hf seen s ob w (.inl hI) hw (.refl w)) hfd hK' ?_)
      rw [hw, hfile, Option.getD_some, take_drop_upTo]
      set remaining := (upTo stop data).drop position with hremaining
      rw [andThen_ok]
      by_cases hlength : (remaining.take blockBytes).length = 0
      · rw [if_pos hlength]
        refine hfinish ?_
        rw [List.length_take] at hlength
        exact List.eq_nil_of_length_eq_zero (by omega)
      rw [if_neg hlength]
      -- the block completes the next `k` lines and leaves the start of another
      obtain ⟨k, t, hsplit, ht, hrest'⟩ := split_block (remaining.take blockBytes)
        (remaining.drop blockBytes) htail (by rwa [List.take_append_drop])
      rw [hsplit]
      refine wp_bind (wp_yieldRecords (todo.drop k) hbody
        (by rw [List.take_append_drop, hlines]) hw hI ?_ ?_)
      · intro s' ob' w' hfiles hkept hI'
        have hnext : (upTo stop data).drop (position + (remaining.take blockBytes).length)
            = remaining.drop blockBytes := by
          rw [← List.drop_drop, ← hremaining, drop_length_take]
        refine ih (hE.mono hkept) (show (seen ++ todo.take k) ++ todo.drop k = lines by
          rw [List.append_assoc, List.take_append_drop, hlines]) ?_ ?_ ht hfiles ?_ ?_ hI' ?_ ?_
        · rw [hnext, List.length_drop]
          rw [List.length_take] at hlength
          omega
        · rw [hnext, hrest']
        · rw [hkept.2 fd hfd_lt, hfd]
        · exact lt_of_lt_of_le hfd_lt hkept.1
        · exact fun s'' ob'' w'' hfiles' hkept' => hQ s'' ob'' w'' hfiles' (hkept.trans hkept')
        · exact fun hne s'' ob'' w'' hfiles' hkept' =>
            hT hne s'' ob'' w'' hfiles' (hkept.trans hkept')
      · exact fun _ s' ob' w' hfiles hkept hD => hQ s' ob' w' hfiles hkept (.inr hD)
    · rw [if_neg hstop]
      refine hfinish ?_
      cases stop with
      | none => exact absurd rfl hstop
      | some n =>
        simp only [Option.all_some, decide_eq_true_eq, not_lt] at hstop
        show (data.take n).drop position = []
        rw [List.drop_eq_nil_iff, List.length_take]
        omega

/-- The loop over a failed journal visits its records in order, each with its offset, and throws
behind them where a line is unfinished. -/
theorem wp_forFailedJournalIdsBy {Q : Except Failure σ → Outbox → World String → Prop}
    {path : String} {data tail : Bytes} {stop : Option ℕ} {blockBytes : ℕ} (hblock : 0 < blockBytes)
    (hbody : LoopBody allowed K files lines I D body) (hE : LoopThrows allowed files I D Q w)
    (hfile : files path = some data) (htail : newline ∉ tail)
    (htext : upTo stop data = failedText lines ++ tail) (hK : K files)
    (hw : w.files = files) (hI : I [] s ob)
    (hQ : ∀ s' ob' w', w'.files = files → w.Kept w' → tail = [] ∧ I lines s' ob' ∨ D s' ob' →
      Q (.ok s') ob' w')
    (hT : tail ≠ [] → ∀ s' ob' w', w'.files = files → w.Kept w' → I lines s' ob' →
      Q (.error incompleteLine) ob' w') :
    wp allowed Q K (forFailedJournalIdsBy J blockBytes path stop body s) ob w := by
  subst hw
  refine wp_bind (wp_openSync_any (fun code n hf =>
    hE _ code n id hf [] s ob w (.inl hI) rfl (.refl w))
    hfile hK fun fd w₁ hfiles₁ hopen => ?_)
  -- the descriptor is closed behind the loop and behind a failed read
  have hclose : ∀ seen s' ob' w₂, I seen s' ob' ∨ D s' ob' → w₂.files = w.files → w₁.Kept w₂ →
      ∀ r : Except Failure σ, (∀ w₃, w₃.files = w.files → w.Kept w₃ → Q r ob' w₃) →
      wp allowed (andThen (fun _ : Unit => Q r) Q) K (closeSync fd) ob' w₂ := by
    intro seen s' ob' w₂ hI' hfiles₂ hkept₂ r hr
    refine wp_closeSync_any (fun w₃ hfiles₃ hkept₃ code n hf => ?_) (hopen.trans hkept₂)
      (hfiles₂ ▸ hK) fun w₃ hfiles₃ hkept₃ => hr w₃ (hfiles₃.trans hfiles₂) hkept₃
    exact hE _ code n id hf seen s' ob' w₃ hI' (hfiles₃.trans hfiles₂) hkept₃
  refine wp_tryFinally (wp_scanBlocks hbody ?_ (show [] ++ lines = lines from rfl) hfile hK
    hblock ?_ htail ?_ (by simp) hfiles₁ hopen.handle hopen.lt hI ?_ ?_)
  · intro c code n hstores hf seen s' ob' w₂ hI' hfiles₂ hkept₂
    exact hclose seen s' ob' w₂ hI' hfiles₂ hkept₂ _ fun w₃ hfiles₃ hkept₃ =>
      hE c code n hstores hf seen s' ob' w₃ hI' hfiles₃ hkept₃
  · rw [hfiles₁, hfile, Option.getD_some, List.drop_zero, Nat.lt_succ_iff]
    cases stop with
    | none => exact le_rfl
    | some n => exact List.length_take_le' n data
  · rw [List.drop_zero, List.nil_append, htext]
  · intro s' ob' w₂ hfiles₂ hkept₂ hend
    exact hclose lines s' ob' w₂ (hend.imp And.right id) hfiles₂ hkept₂ _ fun w₃ hfiles₃ hkept₃ =>
      hQ s' ob' w₃ hfiles₃ hkept₃ hend
  · intro hne s' ob' w₂ hfiles₂ hkept₂ hI'
    exact hclose lines s' ob' w₂ (.inl hI') hfiles₂ hkept₂ _ fun w₃ hfiles₃ hkept₃ =>
      hT hne s' ob' w₃ hfiles₃ hkept₃ hI'

/-- Where every line is finished, the loop throws nothing of its own. -/
theorem wp_forFailedJournalIds_any {Q : Except Failure σ → Outbox → World String → Prop}
    {path : String} {data : Bytes} {stop : Option ℕ}
    (hbody : LoopBody allowed K files lines I D body) (hE : LoopThrows allowed files I D Q w)
    (hfile : files path = some data) (htext : upTo stop data = failedText lines) (hK : K files)
    (hw : w.files = files) (hI : I [] s ob)
    (hQ : ∀ s' ob' w', w'.files = files → w.Kept w' → I lines s' ob' ∨ D s' ob' →
      Q (.ok s') ob' w') :
    wp allowed Q K (forFailedJournalIds J path stop body s) ob w :=
  wp_forFailedJournalIdsBy (by decide) hbody hE hfile List.not_mem_nil
    (by rw [htext, List.append_nil]) hK hw hI
    (fun s' ob' w' hfiles hkept hend => hQ s' ob' w' hfiles hkept (hend.imp And.right id))
    fun hne => absurd rfl hne

variable [Sturdy allowed]

theorem wp_forFailedJournalIds {Q : Except Failure σ → Outbox → World String → Prop}
    {path : String} {data : Bytes} {stop : Option ℕ}
    (hbody : LoopBody allowed K files lines I D body) (hfile : files path = some data)
    (htext : upTo stop data = failedText lines) (hK : K files) (hw : w.files = files)
    (hI : I [] s ob)
    (hQ : ∀ s' ob' w', w'.files = files → w.Kept w' → I lines s' ob' ∨ D s' ob' →
      Q (.ok s') ob' w') :
    wp allowed Q K (forFailedJournalIds J path stop body s) ob w :=
  wp_forFailedJournalIds_any hbody loopThrows_of_sturdy hfile htext hK hw hI hQ

end Scan

/-! ### The cache -/

/-- The cache and the count stand for the ids `ids` of the failed journal. -/
structure Cached (ob : Outbox) (ids : List JsString) : Prop where
  cache : ob.failedEventIds = ids.eraseDups.take ob.failedIdCacheLimit
  count : ob.failedUniqueCount = ids.eraseDups.length
  writable : ob.failedWriteFault = false

/-- Two outboxes that differ at most in what they know about the failed journal. -/
def SameJournal (ob ob' : Outbox) : Prop :=
  ob' = { ob with
    failedEventIds := ob'.failedEventIds
    failedUniqueCount := ob'.failedUniqueCount
    failedWriteFault := ob'.failedWriteFault }

theorem SameJournal.refl (ob : Outbox) : SameJournal ob ob := rfl

theorem SameJournal.trans {ob' ob'' : Outbox} (h : SameJournal ob ob')
    (h' : SameJournal ob' ob'') : SameJournal ob ob'' := by
  unfold SameJournal at *
  rw [h', h]

theorem Live.sameJournal {gone head pending : List Event} {ob' : Outbox}
    (h : Live J ob w gone head pending) (hob : SameJournal ob ob') :
    Live J ob' w gone head pending := by
  rw [SameJournal] at hob
  rw [hob]
  exact ⟨h.journal, h.checkpoint, h.manifest, h.queue, h.state, h.entryCount, h.fd_lt, h.handle⟩

/-- The effect of `countFailedId`. -/
def counted (ob : Outbox) (id : JsString) : Outbox :=
  { ob with
    failedEventIds :=
      if ob.failedEventIds.length < ob.failedIdCacheLimit ∧ id ∉ ob.failedEventIds then
        ob.failedEventIds ++ [id]
      else ob.failedEventIds
    failedUniqueCount := ob.failedUniqueCount + 1 }

theorem sameJournal_counted (id : JsString) : SameJournal ob (counted ob id) := rfl

theorem wp_countFailedId {Q : Except Failure Unit → Outbox → World String → Prop} {id : JsString}
    (hQ : Q (.ok ()) (counted ob id) w) : wp allowed Q K (countFailedId id) ob w := by
  have heffect : ∀ g : Outbox → Outbox,
      (g ob = if ob.failedEventIds.length < ob.failedIdCacheLimit ∧ id ∉ ob.failedEventIds then
        { ob with failedEventIds := ob.failedEventIds ++ [id] } else ob) →
      ({ g ob with failedUniqueCount := (g ob).failedUniqueCount + 1 } : Outbox)
        = counted ob id := by
    intro g hg
    rw [hg, counted]
    split_ifs <;> rfl
  have hdone := heffect (fun ob =>
    if ob.failedEventIds.length < ob.failedIdCacheLimit ∧ id ∉ ob.failedEventIds then
      { ob with failedEventIds := ob.failedEventIds ++ [id] } else ob) rfl
  rw [← hdone] at hQ
  exact hQ

namespace Cached

variable {ids : List JsString} {id : JsString}

theorem mem_of_mem_cache (h : Cached ob ids) (hid : id ∈ ob.failedEventIds) : id ∈ ids := by
  rw [h.cache] at hid
  exact List.mem_eraseDups.mp (List.mem_of_mem_take hid)

/-- Without overflow a miss in the cache is a miss in the file. -/
theorem not_mem_of_not_overflow (h : Cached ob ids)
    (hcount : ob.failedUniqueCount ≤ ob.failedEventIds.length) (hid : id ∉ ob.failedEventIds) :
    id ∉ ids := by
  rw [h.cache, h.count, List.length_take] at hcount
  rw [h.cache, List.take_of_length_le (by omega)] at hid
  exact fun hmem => hid (List.mem_eraseDups.mpr hmem)

theorem length_cache_le (h : Cached ob ids) : ob.cachedFailedIdCount ≤ ob.failedIdCacheLimit := by
  rw [cachedFailedIdCount, h.cache]
  exact List.length_take_le _ _

theorem concat_of_mem (h : Cached ob ids) (hid : id ∈ ids) : Cached ob (ids ++ [id]) := by
  have hdups : (ids ++ [id]).eraseDups = ids.eraseDups := eraseDups_concat_of_mem hid
  exact ⟨hdups ▸ h.cache, hdups ▸ h.count, h.writable⟩

theorem counted (h : Cached ob ids) (hid : id ∉ ids) :
    Cached (counted ob id) (ids ++ [id]) := by
  have hdups : (ids ++ [id]).eraseDups = ids.eraseDups ++ [id] :=
    eraseDups_concat_of_notMem hid
  have hcache : id ∉ ob.failedEventIds := fun hmem => hid (h.mem_of_mem_cache hmem)
  have hlength : ob.failedEventIds.length = min ob.failedIdCacheLimit ids.eraseDups.length := by
    rw [h.cache, List.length_take]
  refine ⟨?_, ?_, h.writable⟩
  · show (if _ then _ else _) = List.take ob.failedIdCacheLimit _
    rw [hdups]
    split_ifs with hroom
    · have hle : ids.eraseDups.length < ob.failedIdCacheLimit := by
        have := hroom.1
        omega
      rw [h.cache, List.take_of_length_le hle.le, List.take_of_length_le]
      rw [List.length_append, List.length_singleton]
      exact hle
    · have hle : ob.failedIdCacheLimit ≤ ids.eraseDups.length := by
        by_contra hlt
        exact hroom ⟨by omega, hcache⟩
      rw [h.cache, List.take_append_of_le_length hle]
  · show ob.failedUniqueCount + 1 = _
    rw [hdups, List.length_append, List.length_singleton, h.count]

end Cached

variable [Sturdy allowed]

/-- **Membership is decided for every cache limit**: the answer does not depend on it. -/
theorem wp_hasFailedId {Q : Except Failure Bool → Outbox → World String → Prop} {id : JsString}
    {stop : Option ℕ} {lines : List (FailedLine J)}
    (hcache : Cached ob (lines.map FailedLine.id))
    (htext : upTo stop ((w.files failedPath).getD []) = failedText lines) (hK : K w.files)
    (hQ : ∀ w', w'.files = w.files → w.Kept w' →
      Q (.ok (decide (id ∈ lines.map FailedLine.id))) ob w') :
    wp allowed Q K (hasFailedId J id stop) ob w := by
  refine wp_fields ?_
  by_cases hmem : id ∈ ob.failedEventIds
  · rw [if_pos hmem]
    have h := hQ w rfl (.refl w)
    rwa [decide_eq_true (hcache.mem_of_mem_cache hmem)] at h
  rw [if_neg hmem]
  by_cases hcount : ob.failedUniqueCount ≤ ob.failedEventIds.length
  · rw [if_pos hcount]
    have h := hQ w rfl (.refl w)
    rwa [decide_eq_false (hcache.not_mem_of_not_overflow hcount hmem)] at h
  rw [if_neg hcount]
  -- the cache has overflowed, so there are records, and the file exists
  obtain ⟨data, hdata⟩ : ∃ data, w.files failedPath = some data := by
    cases hfile : w.files failedPath with
    | some data => exact ⟨data, rfl⟩
    | none =>
      have hnil : failedText lines = [] := by
        rw [← htext, hfile]
        cases stop <;> simp [upTo]
      rw [failedText_eq_nil.mp hnil] at hcache
      rw [hcache.count] at hcount
      exact absurd (Nat.zero_le _) hcount
  rw [hdata, Option.getD_some] at htext
  refine wp_forFailedJournalIds
    (I := fun seen found ob' => found = false ∧ ob' = ob ∧ id ∉ seen.map FailedLine.id)
    (D := fun found ob' => found = true ∧ ob' = ob ∧ id ∈ lines.map FailedLine.id)
    ?_ hdata htext hK rfl ⟨rfl, rfl, List.not_mem_nil⟩ ?_
  · rintro seen line rest hlines found ob' w' hfiles ⟨rfl, rfl, hseen⟩
    refine wp_pure ⟨hfiles, .refl w', _, rfl, ?_⟩
    by_cases heq : line.id = id
    · rw [if_pos heq]
      refine ⟨rfl, rfl, ?_⟩
      rw [← hlines, ← heq]
      simp
    · rw [if_neg heq]
      refine ⟨rfl, rfl, ?_⟩
      simpa using ⟨fun x hx h => hseen (List.mem_map.mpr ⟨x, hx, h⟩), Ne.symm heq⟩
  · rintro found ob' w' hfiles hkept (⟨rfl, rfl, hnot⟩ | ⟨rfl, rfl, hin⟩)
    · have h := hQ w' hfiles hkept
      rwa [decide_eq_false hnot] at h
    · have h := hQ w' hfiles hkept
      rwa [decide_eq_true hin] at h

/-- Opening reads the failed journal into the cache, duplicates included. -/
theorem wp_loadFailedEventIds {Q : Except Failure Unit → Outbox → World String → Prop}
    {lines : List (FailedLine J)} (hcache : Cached ob [])
    (htext : (w.files failedPath).getD [] = failedText lines) (hK : K w.files)
    (hQ : ∀ ob' w', Cached ob' (lines.map FailedLine.id) → SameJournal ob ob' →
      w'.files = w.files → w.Kept w' → Q (.ok ()) ob' w') :
    wp allowed Q K (loadFailedEventIds J) ob w := by
  cases hdata : w.files failedPath with
  | none =>
    rw [hdata, Option.getD_none] at htext
    rw [failedText_eq_nil.mp htext.symm] at hQ
    exact wp_bind (wp_attempt (wp_statSync_none hdata hK (hQ ob w hcache (.refl ob) rfl (.refl w))))
  | some data =>
    rw [hdata, Option.getD_some] at htext
    refine wp_bind (wp_attempt (wp_statSync hdata hK ?_))
    refine wp_forFailedJournalIds
      (I := fun seen _ ob' => Cached ob' (seen.map FailedLine.id) ∧ SameJournal ob ob')
      (D := fun _ _ => False) ?_ hdata htext hK rfl ⟨hcache, .refl ob⟩ ?_
    · -- a record is counted when its identifier does not stand in an earlier line
      rintro seen line rest hlines _ ob' w' hfiles ⟨hcache', hsame⟩
      -- the scan for earlier lines stops where this one starts
      have hbefore : upTo (some (failedText seen).length) ((w'.files failedPath).getD [])
          = failedText seen := by
        show ((w'.files failedPath).getD []).take _ = _
        rw [hfiles, hdata, Option.getD_some, htext, ← hlines, failedText_append, List.take_left]
      refine wp_bind (wp_hasFailedId hcache' hbefore (hfiles ▸ hK) fun w'' hfiles' hkept => ?_)
      rw [andThen_ok]
      by_cases hmem : line.id ∈ seen.map FailedLine.id
      · rw [decide_eq_true hmem, if_pos rfl]
        refine wp_pure ⟨hfiles'.trans hfiles, hkept, _, rfl, ?_, hsame⟩
        rw [List.map_append]
        exact hcache'.concat_of_mem hmem
      · rw [decide_eq_false hmem, if_neg Bool.false_ne_true]
        refine wp_bind (wp_countFailedId ?_)
        rw [andThen_ok]
        refine wp_pure ⟨hfiles'.trans hfiles, hkept, _, rfl, ?_, ?_⟩
        · rw [List.map_append]
          exact hcache'.counted hmem
        · exact hsame.trans (sameJournal_counted line.id)
    · rintro _ ob' w' hfiles hkept (⟨hcache', hsame⟩ | hfalse)
      · exact hQ ob' w' hcache' hsame hfiles hkept
      · exact hfalse.elim

end Outbox
