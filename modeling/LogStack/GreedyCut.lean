/-
Cutting a list greedily.

A list is cut into pieces from the front; each piece is as long as a condition allows, and a
single element is a piece whatever the condition says.  Where the condition passes from a list
to its beginnings, its first piece is determined (`IsHead.unique`) and the cut goes on behind it
(`Cut.of_head`), so that two loops which cut greedily agree without a comparison of their
bookkeeping.

* `IsHead` — the first piece;
* `Cut` — all of them;
* `Cut.flush`, `Cut.last` — how a loop over the elements makes its pieces.
-/
import Mathlib.Data.List.Infix

namespace GreedyCut

variable {α : Type*} (fits : List α → Prop)

/-- The condition passes to the beginnings of a list. -/
def Hereditary : Prop := ∀ p q : List α, p <+: q → fits q → fits p

/-- What may be a piece. -/
def Admits (piece : List α) : Prop := fits piece ∨ piece.length = 1

/-- The longest piece at the front. -/
structure IsHead (xs head : List α) : Prop where
  isPrefix : head <+: xs
  ne_nil : head ≠ []
  admits : Admits fits head
  maximal : ∀ x, head ++ [x] <+: xs → ¬fits (head ++ [x])

/-- The pieces of a list. -/
inductive Cut : List α → List (List α) → Prop
  | nil : Cut [] []
  | cons {head rest : List α} {pieces : List (List α)} :
      IsHead fits (head ++ rest) head → Cut rest pieces → Cut (head ++ rest) (head :: pieces)

variable {fits} {xs head head' : List α} {pieces pieces' : List (List α)}

/-- A longer piece would contain an extension of the shorter one. -/
theorem IsHead.length_le (hfits : Hereditary fits) (h : IsHead fits xs head)
    (h' : IsHead fits xs head') : head'.length ≤ head.length := by
  by_contra hlt
  rw [Nat.not_le] at hlt
  obtain ⟨r, rfl⟩ := List.prefix_of_prefix_length_le h.isPrefix h'.isPrefix hlt.le
  have hpos := List.length_pos_iff.mpr h.ne_nil
  cases r with
  | nil => exact absurd hlt (by simp)
  | cons x r =>
    have hext : head ++ [x] <+: head ++ x :: r := ⟨r, by simp⟩
    rcases h'.admits with hall | hone
    · exact h.maximal x (hext.trans h'.isPrefix) (hfits _ _ hext hall)
    · rw [List.length_append, List.length_cons] at hone
      omega

theorem IsHead.unique (hfits : Hereditary fits) (h : IsHead fits xs head)
    (h' : IsHead fits xs head') : head = head' := by
  have hle := h.length_le hfits h'
  have hge := h'.length_le hfits h
  exact (List.prefix_of_prefix_length_le h.isPrefix h'.isPrefix hge).eq_of_length
    (le_antisymm hge hle)

/-- Behind what has been cut off, the cut goes on. -/
theorem Cut.of_head (hfits : Hereditary fits) (h : Cut fits xs pieces)
    (hhead : IsHead fits xs head) :
    ∃ rest pieces', pieces = head :: pieces' ∧ xs = head ++ rest ∧ Cut fits rest pieces' := by
  cases h with
  | nil => exact absurd (List.prefix_nil.mp hhead.isPrefix) hhead.ne_nil
  | @cons head' rest pieces' hhead' hrest =>
    obtain rfl := hhead'.unique hfits hhead
    exact ⟨rest, pieces', rfl, rfl, hrest⟩

theorem Cut.admits (h : Cut fits xs pieces) : ∀ piece ∈ pieces, Admits fits piece := by
  induction h with
  | nil => exact fun _ h => absurd h List.not_mem_nil
  | cons hhead _ ih => exact List.forall_mem_cons.mpr ⟨hhead.admits, ih⟩

theorem Cut.flatten (h : Cut fits xs pieces) : pieces.flatten = xs := by
  induction h with
  | nil => rfl
  | cons _ _ ih => rw [List.flatten_cons, ih]

theorem Cut.eq_nil_iff (h : Cut fits xs pieces) : pieces = [] ↔ xs = [] := by
  cases h with
  | nil => simp
  | cons hhead _ => simp [hhead.ne_nil]

/-- A piece that the next element would make too long is finished. -/
theorem Cut.flush {current rest : List α} {x : α} (hne : current ≠ [])
    (hadmits : Admits fits current) (hx : ¬fits (current ++ [x]))
    (h : Cut fits (x :: rest) pieces) : Cut fits (current ++ x :: rest) (current :: pieces) := by
  refine .cons ⟨List.prefix_append _ _, hne, hadmits, fun y hy => ?_⟩ h
  obtain ⟨t, ht⟩ := hy
  rw [List.append_assoc] at ht
  obtain ⟨rfl, -⟩ := List.cons.inj (List.append_cancel_left ht)
  exact hx

/-- At the end of the list every piece is finished. -/
theorem Cut.last {current : List α} (hne : current ≠ []) (hadmits : Admits fits current) :
    Cut fits current [current] := by
  have hhead : IsHead fits (current ++ []) current := by
    refine ⟨List.prefix_append _ _, hne, hadmits, fun y hy => ?_⟩
    have hlength := hy.length_le
    rw [List.append_nil, List.length_append, List.length_singleton] at hlength
    omega
  have h := Cut.cons hhead .nil
  rwa [List.append_nil] at h

end GreedyCut
