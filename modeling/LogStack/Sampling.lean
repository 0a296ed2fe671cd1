/-
Programs that draw from a source.

A source answers one question after another; a program reads it at a position that moves on
with each draw.  Nothing is known about the answers but what holds of all of them.

* `Sample`, `draw` — the programs, and one draw;
* `Always` — what every run of a program gives, whatever the source and the position;
* `always_bind`, `always_replicateM` — it is proved along the program;
* `AtMost` — how many draws a run needs;
* `Draws`, `draws_bind` — and which of its positions show in the result.
-/
import Mathlib.Data.List.Basic

namespace Sampling

variable {σ α β : Type}

def Sample (σ α : Type) : Type := σ → ℕ → α × ℕ

namespace Sample

def bind (g : Sample σ α) (f : α → Sample σ β) : Sample σ β := fun s i =>
  f (g s i).1 s (g s i).2

instance : Monad (Sample σ) where
  pure a := fun _ i => (a, i)
  bind := Sample.bind

end Sample

/-- The answer at the present position. -/
def draw (answer : σ → ℕ → α) : Sample σ α := fun s i => (answer s i, i + 1)

/-- The results of `n` runs, one after another. -/
def replicateM (g : Sample σ α) : ℕ → Sample σ (List α)
  | 0 => pure []
  | n + 1 => do
    let a ← g
    let rest ← replicateM g n
    pure (a :: rest)

/-! ### What every run gives -/

def Always (p : α → Prop) (g : Sample σ α) : Prop := ∀ s i, p (g s i).1

variable {p q : α → Prop} {r : β → Prop} {g : Sample σ α} {f : α → Sample σ β}

theorem always_pure {a : α} (h : p a) : Always p (pure a : Sample σ α) := fun _ _ => h

theorem always_draw {answer : σ → ℕ → α} (h : ∀ s i, p (answer s i)) : Always p (draw answer) := h

theorem always_bind (hg : Always p g) (hf : ∀ a, p a → Always r (f a)) : Always r (g >>= f) :=
  fun s i => hf (g s i).1 (hg s i) s (g s i).2

/-- One run of a program, behind its first step. -/
theorem at_bind {s : σ} {i : ℕ} (h : r (f (g s i).1 s (g s i).2).1) : r ((g >>= f) s i).1 := h

theorem Always.mono (hg : Always p g) (h : ∀ a, p a → q a) : Always q g := fun s i => h _ (hg s i)

theorem always_true : Always (fun _ => True) g := fun _ _ => trivial

/-- Each of several runs gives what every run does. -/
theorem always_replicateM (hg : Always p g) :
    ∀ n, Always (fun results => ∀ a ∈ results, p a) (replicateM g n)
  | 0 => always_pure fun _ h => absurd h List.not_mem_nil
  | n + 1 => always_bind hg fun a ha =>
      always_bind (always_replicateM hg n) fun rest hrest =>
        always_pure fun b hb => by
          rcases List.mem_cons.mp hb with rfl | hb
          · exact ha
          · exact hrest b hb

/-! ### What a run draws -/

/-- No run draws more than `n` times. -/
def AtMost (n : ℕ) (g : Sample σ α) : Prop := ∀ s i, i ≤ (g s i).2 ∧ (g s i).2 ≤ i + n

section AtMost

variable {m n : ℕ}

theorem atMost_pure {a : α} : AtMost 0 (pure a : Sample σ α) := fun _ i =>
  ⟨Nat.le_refl i, Nat.le_refl i⟩

theorem atMost_draw {answer : σ → ℕ → α} : AtMost 1 (draw answer) := fun _ i =>
  ⟨Nat.le_succ i, Nat.le_refl _⟩

theorem atMost_bind (hg : AtMost m g) (hf : ∀ a, AtMost n (f a)) : AtMost (m + n) (g >>= f) := by
  intro s i
  obtain ⟨hle, hmost⟩ := hg s i
  obtain ⟨hle', hmost'⟩ := hf (g s i).1 s (g s i).2
  show i ≤ (f (g s i).1 s (g s i).2).2 ∧ (f (g s i).1 s (g s i).2).2 ≤ i + (m + n)
  omega

theorem AtMost.mono (hg : AtMost m g) (h : m ≤ n) : AtMost n g := fun s i =>
  ⟨(hg s i).1, Nat.le_trans (hg s i).2 (Nat.add_le_add_left h i)⟩

end AtMost

/-- From any position, at most `n` draws. The result fits the marks of some of the positions that
the run passes, in their order. -/
def Draws {μ : Type} (s : σ) (mark : ℕ → μ) (n : ℕ) (p : α → List μ → Prop) (g : Sample σ α) :
    Prop :=
  ∀ i, ∃ marks, p (g s i).1 marks ∧ i ≤ (g s i).2 ∧ (g s i).2 ≤ i + n ∧
    marks.Sublist ((List.range' i ((g s i).2 - i)).map mark)

section Draws

variable {μ : Type} {s : σ} {mark : ℕ → μ} {m n : ℕ} {p q : α → List μ → Prop}
  {r : β → List μ → Prop} {g : Sample σ α} {f : α → Sample σ β}

theorem draws_pure {a : α} (h : p a []) : Draws s mark 0 p (pure a : Sample σ α) := fun _ =>
  ⟨[], h, Nat.le_refl _, Nat.le_refl _, List.nil_sublist _⟩

theorem draws_draw {answer : σ → ℕ → α} (h : ∀ i, p (answer s i) []) :
    Draws s mark 1 p (draw answer) := fun i =>
  ⟨[], h i, Nat.le_succ i, Nat.le_refl _, List.nil_sublist _⟩

/-- A run that leaves no mark. -/
theorem Always.draws {p : α → Prop} (h : Always p g) (hg : AtMost n g) :
    Draws s mark n (fun a marks => marks = [] ∧ p a) g := fun i =>
  ⟨[], ⟨rfl, h s i⟩, (hg s i).1, (hg s i).2, List.nil_sublist _⟩

theorem draws_bind (hg : Draws s mark m p g)
    (hf : ∀ a marks, p a marks → Draws s mark n (fun b more => r b (marks ++ more)) (f a)) :
    Draws s mark (m + n) r (g >>= f) := by
  intro i
  obtain ⟨marks, hp, hle, hmost, hmarks⟩ := hg i
  obtain ⟨more, hr, hle', hmost', hmore⟩ := hf _ marks hp (g s i).2
  refine ⟨marks ++ more, hr, Nat.le_trans hle hle', ?_, ?_⟩
  · show (f (g s i).1 s (g s i).2).2 ≤ i + (m + n)
    omega
  · -- the second run goes on where the first one has ended
    show (marks ++ more).Sublist ((List.range' i ((f (g s i).1 s (g s i).2).2 - i)).map mark)
    have hsplit : List.range' i ((f (g s i).1 s (g s i).2).2 - i) =
        List.range' i ((g s i).2 - i) ++
          List.range' (g s i).2 ((f (g s i).1 s (g s i).2).2 - (g s i).2) := by
      have hmiddle : (g s i).2 = i + ((g s i).2 - i) := by omega
      have hlength : (f (g s i).1 s (g s i).2).2 - i =
          (g s i).2 - i + ((f (g s i).1 s (g s i).2).2 - (g s i).2) := by omega
      rw [hlength]
      nth_rewrite 5 [hmiddle]
      exact List.range'_append_1.symm
    rw [hsplit, List.map_append]
    exact hmarks.append hmore

theorem Draws.mono (hg : Draws s mark m p g) (h : ∀ a marks, p a marks → q a marks)
    (hmn : m ≤ n) : Draws s mark n q g := by
  intro i
  obtain ⟨marks, hp, hle, hmost, hmarks⟩ := hg i
  exact ⟨marks, h _ _ hp, hle, by omega, hmarks⟩

/-- Each of several runs needs as many draws as one. -/
theorem draws_replicateM (hg : Draws s mark m p g) : ∀ k, Draws s mark (k * m)
    (fun results marks => results.length = k ∧
      ∃ parts, marks = parts.flatten ∧ List.Forall₂ p results parts) (replicateM g k)
  | 0 => (draws_pure ⟨rfl, [], rfl, .nil⟩).mono (fun _ _ h => h) (Nat.zero_le _)
  | k + 1 => by
    refine (draws_bind hg fun a marks ha => draws_bind (draws_replicateM hg k)
      fun rest more hrest => draws_pure ?_).mono (fun _ _ h => h) (by rw [Nat.succ_mul]; omega)
    obtain ⟨hlength, parts, rfl, hparts⟩ := hrest
    exact ⟨congrArg (· + 1) hlength, marks :: parts, by rw [List.append_nil, List.flatten_cons],
      .cons ha hparts⟩

end Draws

end Sampling
