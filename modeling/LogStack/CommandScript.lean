/-
Scripts of commands.

A script runs one command after the other and goes on with what each of them answers.  It may
die, it may be killed in front of any command, and a command may be broken off in the middle of
what it does; whatever has been done by then stays.

* `CommandSet` — the commands of a system, and what they do to its world;
* `Script` — the programs, a monad;
* `Exec` — what a run does, with the record of its commands;
* `Policy` — what has to be known before a command runs, and what then always holds;
* `Obeys`, `Exec.sound` — a script obeys a policy command by command, and so do its runs.
-/
import Mathlib.Data.List.Basic

/-- Commands with their answers. `Does` completes a command, and `Breaks` leaves it half done. -/
structure CommandSet (W : Type) where
  Command : Type
  Answer : Command → Type
  Does : (c : Command) → W → Answer c → W → Prop
  Breaks : Command → W → W → Prop

inductive Script {W : Type} (S : CommandSet W) (α : Type) where
  | pure (a : α)
  | die
  | run (c : S.Command) (next : S.Answer c → Script S α)

namespace Script

variable {W : Type} {S : CommandSet W} {α β : Type}

def bind (p : Script S α) (f : α → Script S β) : Script S β :=
  match p with
  | .pure a => f a
  | .die => .die
  | .run c next => .run c fun r => (next r).bind f

instance : Monad (Script S) where
  pure := .pure
  bind := bind

/-- The script of one command. -/
def command (c : S.Command) : Script S (S.Answer c) := .run c .pure

def require (p : Prop) [Decidable p] : Script S Unit := if p then .pure () else .die

/-! ### Runs -/

/-- A command that a run has begun, with the world it found and its answer. -/
structure Event {W : Type} (S : CommandSet W) where
  command : S.Command
  before : W
  answer : Option (S.Answer command)

/-- The runs of a script, with their events, their result, and the world that they leave. -/
inductive Exec : Script S α → W → List (Event S) → Option α → W → Prop
  | done {a : α} {w : W} : Exec (.pure a) w [] (some a) w
  | stopped {p : Script S α} {w : W} : Exec p w [] none w
  | broken {c : S.Command} {next : S.Answer c → Script S α} {w w' : W} :
      S.Breaks c w w' → Exec (.run c next) w [⟨c, w, none⟩] none w'
  | step {c : S.Command} {next : S.Answer c → Script S α} {r : S.Answer c} {w w' w'' : W}
      {es : List (Event S)} {result : Option α} :
      S.Does c w r w' → Exec (next r) w' es result w'' →
        Exec (.run c next) w (⟨c, w, some r⟩ :: es) result w''

/-- One run, with the commands carried out by a function; it stops at a command without an
answer. -/
def play (carryOut : (c : S.Command) → W → Option (S.Answer c × W)) :
    Script S α → W → List (Event S) × Option α × W
  | .pure a, w => ([], some a, w)
  | .die, w => ([], none, w)
  | .run c next, w =>
    match carryOut c w with
    | none => ([], none, w)
    | some (r, w') =>
      let (es, result, w'') := play carryOut (next r) w'
      (⟨c, w, some r⟩ :: es, result, w'')

/-- Where the commands are carried out as the system does, that is a run. -/
theorem exec_play {carryOut : (c : S.Command) → W → Option (S.Answer c × W)}
    (h : ∀ c w r w', carryOut c w = some (r, w') → S.Does c w r w') (p : Script S α) (w : W) :
    Exec p w (p.play carryOut w).1 (p.play carryOut w).2.1 (p.play carryOut w).2.2 := by
  induction p generalizing w with
  | pure a => exact .done
  | die => exact .stopped
  | run c next ih =>
    rw [play]
    split
    · exact .stopped
    · next r w' hanswer => exact .step (h c w r w' hanswer) (ih r w')

/-! ### Policies -/

/-- What has to be known of the events so far and of the world before a command runs, and what
then holds whenever a run is stopped. -/
structure Policy {W : Type} (S : CommandSet W) where
  Guard : List (Event S) → S.Command → W → Prop
  Inv : List (Event S) → W → Prop
  keeps : ∀ {past c w r w'}, Inv past w → Guard past c w → S.Does c w r w' →
    Inv (past ++ [⟨c, w, some r⟩]) w'
  keepsBroken : ∀ {past c w w'}, Inv past w → Guard past c w → S.Breaks c w w' →
    Inv (past ++ [⟨c, w, none⟩]) w'

variable (P : Policy S) {Q : List (Event S) → α → W → Prop} {R : List (Event S) → β → W → Prop}
  {past : List (Event S)} {w : W}

/-- Every command of a script is run under its guard, and the script ends with `Q`. -/
def Obeys (Q : List (Event S) → α → W → Prop) : Script S α → List (Event S) → W → Prop
  | .pure a, past, w => Q past a w
  | .die, _, _ => True
  | .run c next, past, w => P.Guard past c w ∧
      ∀ r w', S.Does c w r w' → P.Inv (past ++ [⟨c, w, some r⟩]) w' →
        Obeys Q (next r) (past ++ [⟨c, w, some r⟩]) w'

variable {P}

theorem Obeys.mono {Q' : List (Event S) → α → W → Prop} {p : Script S α} (h : Obeys P Q p past w)
    (hQ : ∀ past a w, Q past a w → Q' past a w) : Obeys P Q' p past w := by
  induction p generalizing past w with
  | pure a => exact hQ _ _ _ h
  | die => trivial
  | run c next ih => exact ⟨h.1, fun r w' hdoes hinv => ih r (h.2 r w' hdoes hinv)⟩

theorem Obeys.inv {p : Script S α} (hinv : P.Inv past w) (h : Obeys P Q p past w) :
    Obeys P (fun past a w => P.Inv past w ∧ Q past a w) p past w := by
  induction p generalizing past w with
  | pure a => exact ⟨hinv, h⟩
  | die => trivial
  | run c next ih => exact ⟨h.1, fun r w' hdoes hinv' => ih r hinv' (h.2 r w' hdoes hinv')⟩

theorem obeys_bind {p : Script S α} {f : α → Script S β}
    (h : Obeys P (fun past a w => Obeys P R (f a) past w) p past w) :
    Obeys P R (p >>= f) past w := by
  show Obeys P R (p.bind f) past w
  induction p generalizing past w with
  | pure a => exact h
  | die => trivial
  | run c next ih => exact ⟨h.1, fun r w' hdoes hinv => ih r (h.2 r w' hdoes hinv)⟩

/-- One part of a script behind another. -/
theorem Obeys.andThen {p : Script S α} {f : α → Script S β} (hinv : P.Inv past w)
    (h : Obeys P Q p past w)
    (hf : ∀ past a w, P.Inv past w → Q past a w → Obeys P R (f a) past w) :
    Obeys P R (p >>= f) past w :=
  obeys_bind ((h.inv hinv).mono fun past a w ha => hf past a w ha.1 ha.2)

theorem obeys_pure {a : α} (h : Q past a w) : Obeys P Q (Pure.pure a : Script S α) past w := h

theorem obeys_require {p : Prop} [Decidable p] {Q : List (Event S) → Unit → W → Prop}
    (h : p → Q past () w) : Obeys P Q (require p) past w := by
  unfold require
  split_ifs with hp
  · exact h hp
  · trivial

theorem obeys_command {c : S.Command} {Q : List (Event S) → S.Answer c → W → Prop}
    (hguard : P.Guard past c w)
    (h : ∀ r w', S.Does c w r w' → P.Inv (past ++ [⟨c, w, some r⟩]) w' →
      Q (past ++ [⟨c, w, some r⟩]) r w') : Obeys P Q (command c) past w :=
  ⟨hguard, h⟩

/-- **Soundness.** In every run of a script that obeys a policy the invariant holds wherever it
stops, each command was run under its guard, and a result comes with the postcondition. -/
theorem Exec.sound {p : Script S α} {es : List (Event S)} {result : Option α} {w' : W}
    (hexec : Exec p w es result w') (hinv : P.Inv past w) (h : Obeys P Q p past w) :
    P.Inv (past ++ es) w' ∧
      (∀ before e after, es = before ++ e :: after → P.Guard (past ++ before) e.command e.before) ∧
      ∀ a, result = some a → Q (past ++ es) a w' := by
  induction hexec generalizing past with
  | done =>
    rw [List.append_nil]
    exact ⟨hinv, fun before e after hes => absurd hes (by simp),
      fun a ha => Option.some_inj.mp ha ▸ h⟩
  | stopped =>
    rw [List.append_nil]
    exact ⟨hinv, fun before e after hes => absurd hes (by simp), fun a ha => by cases ha⟩
  -- the command was begun and did not answer: its guard held all the same
  | broken hbreaks =>
    refine ⟨P.keepsBroken hinv h.1 hbreaks, fun before e after hes => ?_, fun a ha => by cases ha⟩
    cases before with
    | nil =>
      obtain ⟨rfl, -⟩ := List.cons.inj hes
      rw [List.append_nil]
      exact h.1
    | cons e' before => exact absurd hes (by simp)
  | @step c next r w w' w'' es result hdoes _ ih =>
    have hinv' := P.keeps hinv h.1 hdoes
    -- the rest obeys the policy from the state that this command left
    obtain ⟨hend, hguards, hresult⟩ := ih hinv' (h.2 r w' hdoes hinv')
    rw [List.append_assoc] at hend hresult
    refine ⟨hend, fun before e after hes => ?_, hresult⟩
    cases before with
    | nil =>
      obtain ⟨rfl, -⟩ := List.cons.inj hes
      rw [List.append_nil]
      exact h.1
    | cons e' before =>
      obtain ⟨rfl, hes'⟩ := List.cons.inj hes
      have hguard := hguards before e after hes'
      rwa [List.append_assoc] at hguard

end Script
