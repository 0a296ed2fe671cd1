/-
Forward simulation along the runs of a machine.

A machine answers each input and moves; an abstract state follows it.  `Along` says of a run
that one sequence of abstract states explains every step of it (`Effect`), and that machine
and abstract state fit together (`P`) before and after each step.

* `along_of_invariant` — an invariant that every step keeps gives `Along` for every run.
-/
import Mathlib.Tactic.Common

namespace Simulation

variable {S I O A : Type}

/-- A machine with inputs `I`, answers `O` and states `S`. -/
structure Machine (S I O : Type) where
  enabled : I → S → Prop
  step : I → S → O × S

variable (M : Machine S I O) (Effect : I → O → S → A → A → Prop) (P : S → A → Prop)

/-- One sequence of abstract states explains the run on the given inputs. -/
def Along : List I → S → A → Prop
  | [], s, a => P s a
  | i :: is, s, a => P s a ∧ (M.enabled i s →
      ∃ a', Effect i (M.step i s).1 (M.step i s).2 a a' ∧ Along is (M.step i s).2 a')

variable {M Effect P}

/-- **Forward simulation**: what every step keeps holds along every run. -/
theorem along_of_invariant (Inv : S → A → Prop) (hP : ∀ s a, Inv s a → P s a)
    (hstep : ∀ i s a, Inv s a → M.enabled i s →
      ∃ a', Effect i (M.step i s).1 (M.step i s).2 a a' ∧ Inv (M.step i s).2 a')
    {is : List I} {s : S} {a : A} (h : Inv s a) : Along M Effect P is s a := by
  induction is generalizing s a with
  | nil => exact hP s a h
  | cons i is ih =>
    refine ⟨hP s a h, fun hi => ?_⟩
    obtain ⟨a', heffect, hinv⟩ := hstep i s a h hi
    exact ⟨a', heffect, ih hinv⟩

end Simulation
