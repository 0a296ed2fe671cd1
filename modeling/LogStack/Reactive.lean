/-
Machines that may answer at every input, and inputs that leave no trace.

* `after`, `outputs` — a run from a state, and what it answers;
* `run_induction` — an invariant of the inputs, the outputs and the state so far;
* `Unwinding.purge` — if a class of inputs cannot be seen step by step, a run without them
  looks the same.
-/
import Mathlib.Data.List.Induction

namespace Reactive

variable {S I O : Type} (step : S → I → Option O × S)

def after (s : S) (inputs : List I) : S := inputs.foldl (fun s i => (step s i).2) s

def outputs : S → List I → List O
  | _, [] => []
  | s, i :: rest => (step s i).1.toList ++ outputs (step s i).2 rest

section Runs

variable {step} {s : S} {inputs : List I} {i : I}

theorem after_concat :
    after step s (inputs ++ [i]) = (step (after step s inputs) i).2 := List.foldl_append

theorem outputs_concat : outputs step s (inputs ++ [i]) =
    outputs step s inputs ++ (step (after step s inputs) i).1.toList := by
  induction inputs generalizing s with
  | nil => exact List.append_nil _
  | cons j rest ih =>
    show (step s j).1.toList ++ outputs step (step s j).2 (rest ++ [i]) = _
    rw [ih, ← List.append_assoc]
    rfl

/-- What holds at the start and is kept by every step holds of every run. -/
theorem run_induction {Inv : List I → List O → S → Prop} (hstart : Inv [] [] s)
    (hstep : ∀ before out t i, Inv before out t →
      Inv (before ++ [i]) (out ++ (step t i).1.toList) (step t i).2) (inputs : List I) :
    Inv inputs (outputs step s inputs) (after step s inputs) := by
  induction inputs using List.reverseRecOn with
  | nil => exact hstart
  | append_singleton before i ih =>
    rw [outputs_concat, after_concat]
    exact hstep before _ _ i ih

end Runs

/-! ### Inputs that cannot be seen -/

/-- Related states answer the kept inputs alike, and with visible answers; the other inputs have
no visible answer and leave a state related to those that it was related to. -/
structure Unwinding (keep : I → Bool) (visible : O → Bool) (R : S → S → Prop) : Prop where
  kept : ∀ i s t, R s t → keep i = true → R (step s i).2 (step t i).2 ∧
    (step s i).1 = (step t i).1 ∧ ∀ x ∈ (step t i).1, visible x = true
  purged : ∀ i s t, R s t → keep i = false → R (step s i).2 t ∧
    ∀ x ∈ (step s i).1, visible x = false

variable {step} {keep : I → Bool} {visible : O → Bool} {R : S → S → Prop} {s t : S}

/-- **Unwinding**: the run without the other inputs answers what is visible of this run. -/
theorem Unwinding.purge (h : Unwinding step keep visible R) (hst : R s t) (inputs : List I) :
    R (after step s inputs) (after step t (inputs.filter keep)) ∧
      (outputs step s inputs).filter visible = outputs step t (inputs.filter keep) := by
  induction inputs generalizing s t with
  | nil => exact ⟨hst, rfl⟩
  | cons i rest ih =>
    cases hkeep : keep i with
    | true =>
      obtain ⟨hnext, hsame, hvisible⟩ := h.kept i s t hst hkeep
      obtain ⟨hafter, hout⟩ := ih hnext
      rw [List.filter_cons_of_pos hkeep]
      refine ⟨hafter, ?_⟩
      rw [outputs, outputs, List.filter_append, hout, hsame,
        List.filter_eq_self.mpr fun x hx => hvisible x (Option.mem_toList.mp hx)]
    | false =>
      obtain ⟨hnext, hhidden⟩ := h.purged i s t hst hkeep
      obtain ⟨hafter, hout⟩ := ih hnext
      rw [List.filter_cons_of_neg (by rw [hkeep]; exact Bool.false_ne_true)]
      refine ⟨hafter, ?_⟩
      rw [outputs, List.filter_append, hout, List.filter_eq_nil_iff.mpr fun x hx => by
        rw [hhidden x (Option.mem_toList.mp hx)]; exact Bool.false_ne_true]
      rfl

end Reactive
