/-
Text in lines, each closed by a separator.

An append-only file holds `unlines nl ls` and, after an interrupted append, a last line
without its separator.  For lines that do not contain the separator:

* `splitLines` — the closed lines of a text and what follows them; inverse to `unlines`
  (`splitLines_unlines_append`);
* `take_unlines` — cutting a text anywhere keeps some of its first lines and a separator-free
  part of the next one;
* `lastIndexOf`, `closedLength` — finding the last separator from the end, which is how the
  unfinished line is cut off (`closedLength_unlines_append`);
* `LongestClosed` — what that leaves of a text (`longestClosed_unlines`);
* `lineOffset` — where each line starts.
-/
import Mathlib.Data.List.Basic
import Mathlib.Data.List.TakeDrop
import Mathlib.Algebra.Order.Group.Nat
import Mathlib.Tactic.Common

namespace Lines

variable {α : Type} (nl : α)

def unlines (ls : List (List α)) : List α := (ls.map (· ++ [nl])).flatten

@[simp] theorem unlines_nil : unlines nl [] = [] := rfl

@[simp] theorem unlines_cons (l : List α) (ls : List (List α)) :
    unlines nl (l :: ls) = l ++ nl :: unlines nl ls := by
  simp [unlines]

@[simp] theorem unlines_append (ls ls' : List (List α)) :
    unlines nl (ls ++ ls') = unlines nl ls ++ unlines nl ls' := by
  simp [unlines]

/-- Joining non-empty lines by separators and closing the last one. -/
theorem intercalate_append_singleton {ls : List (List α)} (hls : ls ≠ []) :
    List.intercalate [nl] ls ++ [nl] = unlines nl ls := by
  induction ls with
  | nil => exact absurd rfl hls
  | cons l ls ih =>
    cases ls with
    | nil => simp
    | cons l' ls =>
      rw [List.intercalate_cons_cons, List.append_assoc, List.append_assoc,
        ih (List.cons_ne_nil _ _)]
      simp

/-- A text cut anywhere: some first lines, and a part of the next without a separator. -/
theorem take_unlines {ls : List (List α)} (hls : ∀ l ∈ ls, nl ∉ l) (n : ℕ) :
    ∃ k t, (unlines nl ls).take n = unlines nl (ls.take k) ++ t ∧ nl ∉ t := by
  induction ls generalizing n with
  | nil => exact ⟨0, [], by simp, by simp⟩
  | cons l ls ih =>
    by_cases hn : n ≤ l.length
    · refine ⟨0, l.take n, ?_, fun h => hls l List.mem_cons_self (List.mem_of_mem_take h)⟩
      rw [unlines_cons, List.take_append_of_le_length hn]
      rfl
    · obtain ⟨k, t, hkt, ht⟩ := ih (fun l' hl' => hls l' (List.mem_cons_of_mem _ hl'))
        (n - l.length - 1)
      refine ⟨k + 1, t, ?_, ht⟩
      obtain ⟨j, rfl⟩ : ∃ j, n = l.length + (j + 1) := ⟨n - l.length - 1, by omega⟩
      have hj : l.length + (j + 1) - l.length - 1 = j := by omega
      rw [hj] at hkt
      rw [unlines_cons, List.take_length_add_append, List.take_succ_cons, hkt]
      simp

/-! ### Line offsets -/

/-- Where line `k` starts. -/
def lineOffset (ls : List (List α)) (k : ℕ) : ℕ := (unlines nl (ls.take k)).length

/-! ### Splitting -/

variable [DecidableEq α]

/-- The closed lines of a text, and the rest after the last separator. -/
def splitLines : List α → List (List α) × List α
  | [] => ([], [])
  | x :: xs =>
    let (ls, rest) := splitLines xs
    if x = nl then ([] :: ls, rest)
    else match ls with
      | [] => ([], x :: rest)
      | l :: ls => ((x :: l) :: ls, rest)

theorem splitLines_of_notMem {t : List α} (ht : nl ∉ t) : splitLines nl t = ([], t) := by
  induction t with
  | nil => rfl
  | cons x xs ih =>
    obtain ⟨hx, hxs⟩ : x ≠ nl ∧ nl ∉ xs := by
      rw [List.mem_cons, not_or] at ht
      exact ⟨Ne.symm ht.1, ht.2⟩
    simp [splitLines, ih hxs, hx]

theorem splitLines_line {l : List α} (hl : nl ∉ l) (xs : List α) :
    splitLines nl (l ++ nl :: xs) = (l :: (splitLines nl xs).1, (splitLines nl xs).2) := by
  induction l with
  | nil => simp [splitLines]
  | cons x l ih =>
    obtain ⟨hx, hl⟩ : x ≠ nl ∧ nl ∉ l := by
      rw [List.mem_cons, not_or] at hl
      exact ⟨Ne.symm hl.1, hl.2⟩
    rw [List.cons_append, splitLines, ih hl]
    simp [hx]

/-- Splitting inverts joining. -/
theorem splitLines_unlines_append {ls : List (List α)} {t : List α} (hls : ∀ l ∈ ls, nl ∉ l)
    (ht : nl ∉ t) : splitLines nl (unlines nl ls ++ t) = (ls, t) := by
  induction ls with
  | nil => simpa using splitLines_of_notMem nl ht
  | cons l ls ih =>
    rw [unlines_cons, List.append_assoc, List.cons_append,
      splitLines_line nl (hls l List.mem_cons_self),
      ih fun l' hl' => hls l' (List.mem_cons_of_mem _ hl')]

theorem splitLines_unlines {ls : List (List α)} (hls : ∀ l ∈ ls, nl ∉ l) :
    splitLines nl (unlines nl ls) = (ls, []) := by
  simpa using splitLines_unlines_append nl hls (t := []) (by simp)

/-- Whole lines at the head of a text are its first lines. -/
theorem isPrefix_of_unlines {ls ls' : List (List α)} {t : List α} (hls : ∀ l ∈ ls, nl ∉ l)
    (hls' : ∀ l ∈ ls', nl ∉ l) (ht : nl ∉ t) (h : unlines nl ls <+: unlines nl ls' ++ t) :
    ls <+: ls' := by
  induction ls generalizing ls' with
  | nil => exact List.nil_prefix
  | cons l ls ih =>
    obtain ⟨r, hr⟩ := h
    rw [unlines_cons, List.append_assoc, List.cons_append] at hr
    cases ls' with
    | nil =>
      rw [unlines_nil, List.nil_append] at hr
      exact absurd (hr ▸ List.mem_append_right _ List.mem_cons_self) ht
    | cons l' ls' =>
      rw [unlines_cons, List.append_assoc, List.cons_append] at hr
      have hsplit := congrArg (splitLines nl) hr
      rw [splitLines_line nl (hls l List.mem_cons_self),
        splitLines_line nl (hls' l' List.mem_cons_self)] at hsplit
      obtain rfl : l = l' := (List.cons.inj (congrArg Prod.fst hsplit)).1
      rw [List.append_cancel_left_eq, List.cons.injEq] at hr
      refine (List.prefix_cons_inj l).mpr (ih (fun l' h => hls l' (List.mem_cons_of_mem _ h))
        (fun l' h => hls' l' (List.mem_cons_of_mem _ h)) ⟨r, hr.2⟩)

/-! ### The last separator -/

/-- The last place of a separator, as `lastIndexOf`. -/
def lastIndexOf : List α → Option ℕ
  | [] => none
  | x :: xs =>
    match lastIndexOf xs with
    | some i => some (i + 1)
    | none => if x = nl then some 0 else none

/-- The length of the longest beginning that is empty or ends in a separator. -/
def closedLength (xs : List α) : ℕ :=
  match lastIndexOf nl xs with
  | some i => i + 1
  | none => 0

theorem lastIndexOf_eq_none {xs : List α} : lastIndexOf nl xs = none ↔ nl ∉ xs := by
  induction xs with
  | nil => simp [lastIndexOf]
  | cons x xs ih =>
    rw [lastIndexOf]
    cases h : lastIndexOf nl xs with
    | some i =>
      have hmem : nl ∈ xs := by
        by_contra hc
        rw [ih.mpr hc] at h
        exact absurd h (by simp)
      simp [hmem]
    | none =>
      have hmem := ih.mp h
      by_cases hx : x = nl
      · simp [hx]
      · simp [hx, Ne.symm hx, hmem]

theorem lastIndexOf_append_of_notMem {t : List α} (ht : nl ∉ t) (xs : List α) :
    lastIndexOf nl (xs ++ t) = lastIndexOf nl xs := by
  induction xs with
  | nil => simpa [lastIndexOf] using (lastIndexOf_eq_none nl).mpr ht
  | cons x xs ih => simp [lastIndexOf, ih]

theorem lastIndexOf_append_some {xs : List α} {i : ℕ} (h : lastIndexOf nl xs = some i)
    (ys : List α) : lastIndexOf nl (ys ++ xs) = some (ys.length + i) := by
  induction ys with
  | nil => simpa using h
  | cons y ys ih =>
    rw [List.cons_append, lastIndexOf, ih, List.length_cons]
    simp only [Option.some_inj]
    omega

theorem lastIndexOf_concat (xs : List α) : lastIndexOf nl (xs ++ [nl]) = some xs.length := by
  simpa [lastIndexOf] using
    lastIndexOf_append_some nl (show lastIndexOf nl [nl] = some 0 by simp [lastIndexOf]) xs

/-- Cutting at the last separator removes exactly the unfinished line. -/
theorem closedLength_unlines_append (ls : List (List α)) {t : List α} (ht : nl ∉ t) :
    closedLength nl (unlines nl ls ++ t) = (unlines nl ls).length := by
  rw [closedLength, lastIndexOf_append_of_notMem nl ht]
  rcases List.eq_nil_or_concat' ls with rfl | ⟨ls, l, rfl⟩
  · simp [lastIndexOf]
  · have hlast : unlines nl (ls ++ [l]) = (unlines nl ls ++ l) ++ [nl] := by simp
    rw [hlast, lastIndexOf_concat]
    simp [Nat.add_assoc]

/-! ### The longest closed beginning -/

omit [DecidableEq α] in
/-- Every text is lines and an unfinished one. -/
theorem exists_unlines_append (xs : List α) :
    ∃ ls t, xs = unlines nl ls ++ t ∧ nl ∉ t := by
  induction xs with
  | nil => exact ⟨[], [], rfl, List.not_mem_nil⟩
  | cons x xs ih =>
    obtain ⟨ls, t, rfl, ht⟩ := ih
    by_cases hx : x = nl
    · exact ⟨[] :: ls, t, by rw [hx]; simp, ht⟩
    · cases ls with
      | nil => exact ⟨[], x :: t, rfl, by simpa [Ne.symm hx] using ht⟩
      | cons l ls => exact ⟨(x :: l) :: ls, t, by simp, ht⟩

/-- A text without an unfinished line. -/
def Closed (xs : List α) : Prop := xs = [] ∨ xs.getLast? = some nl

/-- The longest beginning of a text that has no unfinished line. -/
structure LongestClosed (xs kept : List α) : Prop where
  isPrefix : kept <+: xs
  closed : Closed nl kept
  longest : ∀ p, p <+: xs → Closed nl p → p <+: kept

omit [DecidableEq α] in
theorem closed_unlines (ls : List (List α)) : Closed nl (unlines nl ls) := by
  rcases List.eq_nil_or_concat' ls with rfl | ⟨ls, l, rfl⟩
  · exact .inl rfl
  · right
    rw [unlines_append, unlines_cons, unlines_nil, ← List.append_assoc]
    exact List.getLast?_concat

omit [DecidableEq α] in
theorem longestClosed_unlines (ls : List (List α)) {t : List α} (ht : nl ∉ t) :
    LongestClosed nl (unlines nl ls ++ t) (unlines nl ls) := by
  refine ⟨List.prefix_append _ _, closed_unlines nl ls, fun p hp hclosed => ?_⟩
  rcases List.prefix_or_prefix_of_prefix hp (List.prefix_append (unlines nl ls) t) with h | h
  · exact h
  · obtain ⟨r, rfl⟩ := h
    have hr : r <+: t := (List.prefix_append_right_inj _).mp hp
    cases r with
    | nil => simp only [List.append_nil, List.prefix_refl]
    | cons x r =>
      -- the text would end in a separator of the unfinished line
      rcases hclosed with hnil | hlast
      · exact absurd (List.append_eq_nil_iff.mp hnil).2 (List.cons_ne_nil x r)
      · rw [List.getLast?_append_of_ne_nil _ (List.cons_ne_nil x r)] at hlast
        exact absurd (hr.subset (List.mem_of_getLast? hlast)) ht

end Lines
