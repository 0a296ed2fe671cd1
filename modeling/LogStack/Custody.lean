/-
Items in custody.

Items are recorded, and wait until each of them is given up or stored.  An item that is tried may
be tried again, at any time and in any company, but the verdict on it is always the same:
`doomed` are the items that can only be given up.

* `State`, `Moves` — where the items are, and what one move may do;
* `Safe` — nothing that was recorded is lost, and what became of an item fits its verdict;
* `Safe.moves` — every move keeps it;
* `Safe.disjoint`, `Safe.resolved_once` — no item is given up and stored, and once nothing waits
  every item is one of them.
-/
import Mathlib.Data.Set.Basic

namespace Custody

variable {ε : Type}

/-- Where the items are. An item that has been given up or stored may still wait. -/
structure State (ε : Type) where
  recorded : Set ε
  pending : Set ε
  failed : Set ε
  stored : Set ε

/-- No item has been recorded. -/
def State.empty : State ε := ⟨∅, ∅, ∅, ∅⟩

variable (doomed : Set ε)

/-- What one move may do. -/
structure Moves (s s' : State ε) : Prop where
  recorded : s.recorded ⊆ s'.recorded
  /-- Only recorded items wait. -/
  pending : s'.pending ⊆ s'.recorded
  /-- A new item waits. -/
  waits : s'.recorded ⊆ s.recorded ∪ s'.pending
  failed : s.failed ⊆ s'.failed
  stored : s.stored ⊆ s'.stored
  /-- Given up is what the verdict says. -/
  gives_up : s'.failed ⊆ s.failed ∪ s'.recorded ∩ doomed
  /-- Stored is what the verdict says. -/
  stores : s'.stored ⊆ s.stored ∪ s'.recorded \ doomed
  /-- An item waits until it is resolved. -/
  resolves : s.pending ⊆ s'.pending ∪ (s'.failed ∪ s'.stored)

structure Safe (s : State ε) : Prop where
  pending : s.pending ⊆ s.recorded
  failed : s.failed ⊆ s.recorded ∩ doomed
  stored : s.stored ⊆ s.recorded \ doomed
  recorded : s.recorded ⊆ s.pending ∪ (s.failed ∪ s.stored)

variable {doomed} {s s' : State ε}

theorem safe_empty : Safe doomed (State.empty : State ε) :=
  ⟨subset_rfl, Set.empty_subset _, Set.empty_subset _, Set.empty_subset _⟩

/-- **Every move is safe.** -/
theorem Safe.moves (h : Safe doomed s) (hmove : Moves doomed s s') : Safe doomed s' where
  pending := hmove.pending
  failed := by
    intro x hx
    rcases hmove.gives_up hx with hold | hnew
    · exact ⟨hmove.recorded (h.failed hold).1, (h.failed hold).2⟩
    · exact hnew
  stored := by
    intro x hx
    rcases hmove.stores hx with hold | hnew
    · exact ⟨hmove.recorded (h.stored hold).1, (h.stored hold).2⟩
    · exact hnew
  recorded := by
    intro x hx
    rcases hmove.waits hx with hold | hwaits
    · -- it waited before, or it was resolved and stays so
      rcases h.recorded hold with hpending | hfailed | hstored
      · exact hmove.resolves hpending
      · exact .inr (.inl (hmove.failed hfailed))
      · exact .inr (.inr (hmove.stored hstored))
    · exact .inl hwaits

/-- No item is given up and stored. -/
theorem Safe.disjoint (h : Safe doomed s) : ∀ x ∈ s.failed, x ∉ s.stored :=
  fun _ hfailed hstored => (h.stored hstored).2 (h.failed hfailed).2

/-- **Once nothing waits, every item is resolved in one way.** -/
theorem Safe.resolved_once (h : Safe doomed s) (hpending : s.pending = ∅) {x : ε}
    (hx : x ∈ s.recorded) : Xor (x ∈ s.failed) (x ∈ s.stored) := by
  rcases h.recorded hx with hwaits | hfailed | hstored
  · rw [hpending] at hwaits
    exact absurd hwaits (Set.notMem_empty x)
  · exact .inl ⟨hfailed, h.disjoint x hfailed⟩
  · exact .inr ⟨hstored, fun hfailed => h.disjoint x hfailed hstored⟩

end Custody
