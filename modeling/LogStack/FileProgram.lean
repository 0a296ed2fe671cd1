/-
Programs over the files of one directory, killed or failing at any call.

A program is the tree of its file-system calls (`Prog`); its object's fields are a state of
type `M` that a throw keeps and a kill loses.  One interpreter, `run`, follows a schedule
that says how each call ends (`Fate`): completed, completed in part, killed in the middle,
or failed.

* `wp` — the weakest precondition of a program for a class of fates: `Q` holds of every
  normal or exceptional end, `K` of every set of files that a kill leaves behind;
* `wp_sound` — what `wp` promises, `run` delivers under every schedule of the class;
* `wp_bind`, `wp_attempt`, `wp_tryFinally` — the structural rules;
* `wp_existsSync`, …, `wp_writeSync` — one rule for each call, for schedules under which
  at most the writes and syncs fail (`Sturdy`), as `Fate.Crash` and `Fate.Faulty` are.
-/
import LogStack.JsValue
import Mathlib.Logic.Function.Basic

namespace FileProgram

variable {P M α β : Type}

abbrev Files (P : Type) := P → Option Bytes

inductive Errno where
  | ENOENT | EBADF | EIO
  deriving DecidableEq

/-- What a program throws: a failed call, or an error of its own. -/
inductive Failure where
  | errno (code : Errno)
  | error (message : String)
  deriving DecidableEq

/-- The flags `'r'`, `'r+'` and `'a'` of `openSync`. -/
inductive Flag where
  | r | rw | a
  deriving DecidableEq

/-- What a descriptor refers to. Files are never renamed or removed while open here, so
their name stands for them. -/
inductive Handle (P : Type) where
  | dir
  | file (path : P)
  deriving DecidableEq

/-- The files and the process's descriptor table. -/
structure World (P : Type) where
  files : Files P
  fds : ℕ → Option (Handle P)
  nextFd : ℕ

/-- A freshly started process. -/
def World.boot (files : Files P) : World P := ⟨files, fun _ => none, 0⟩

namespace World

def allocate (handle : Handle P) (w : World P) : ℕ × World P :=
  (w.nextFd, { w with fds := Function.update w.fds w.nextFd (some handle),
                      nextFd := w.nextFd + 1 })

/-- The descriptors a program found open are as it found them. -/
def Kept (w w' : World P) : Prop :=
  w.nextFd ≤ w'.nextFd ∧ ∀ fd < w.nextFd, w'.fds fd = w.fds fd

theorem Kept.refl (w : World P) : w.Kept w := ⟨le_rfl, fun _ _ => rfl⟩

theorem Kept.trans {w w' w'' : World P} (h : w.Kept w') (h' : w'.Kept w'') : w.Kept w'' :=
  ⟨h.1.trans h'.1, fun fd hfd => (h'.2 fd (lt_of_lt_of_le hfd h.1)).trans (h.2 fd hfd)⟩

theorem Kept.of_eq {w w' : World P} (hfds : w'.fds = w.fds) (hnext : w'.nextFd = w.nextFd) :
    w.Kept w' := ⟨hnext ▸ le_rfl, fun _ _ => by rw [hfds]⟩

/-- A descriptor that was opened after `w₀` and is the only one open since. -/
structure Opened (w₀ : World P) (fd : ℕ) (handle : Handle P) (w : World P) : Prop where
  fresh : w₀.nextFd ≤ fd
  lt : fd < w.nextFd
  handle : w.fds fd = some handle
  kept : w₀.Kept w

theorem Opened.trans {w₀ w w' : World P} {fd : ℕ} {handle : Handle P}
    (h : w₀.Opened fd handle w) (h' : w.Kept w') : w₀.Opened fd handle w' where
  fresh := h.fresh
  lt := lt_of_lt_of_le h.lt h'.1
  handle := (h'.2 fd h.lt).trans h.handle
  kept := h.kept.trans h'

theorem opened_allocate {w : World P} {handle : Handle P} {files : Files P} :
    w.Opened w.nextFd handle { (World.allocate handle w).2 with files := files } where
  fresh := le_rfl
  lt := Nat.lt_succ_self _
  handle := by simp [World.allocate]
  kept := ⟨by simp [World.allocate], fun fd hfd => by simp [World.allocate, hfd.ne]⟩

end World

variable [DecidableEq P]

inductive Call (P : Type) where
  | mkdir
  | exists (path : P)
  | stat (path : P)
  | readFile (path : P)
  | writeFile (path : P) (data : Bytes)
  | openFile (path : P) (flag : Flag)
  | openDir
  | read (fd length position : ℕ)
  | write (fd : ℕ) (data : Bytes)
  | fsync (fd : ℕ)
  | fstat (fd : ℕ)
  | ftruncate (fd length : ℕ)
  | close (fd : ℕ)
  | rename (source target : P)
  | unlink (path : P)

namespace Call

def Reply : Call P → Type
  | .exists _ => Bool
  | .stat _ | .fstat _ | .openFile _ _ | .openDir | .write _ _ => ℕ
  | .readFile _ | .read _ _ _ => Bytes
  | _ => Unit

/-- Storing data behind an open descriptor. -/
def append (fd : ℕ) (data : Bytes) (w : World P) : Except Errno ℕ × World P :=
  match w.fds fd with
  | some (.file path) =>
    let stored := (w.files path).getD [] ++ data
    (.ok data.length, { w with files := Function.update w.files path (some stored) })
  | _ => (.error .EBADF, w)

/-- A call that completes. -/
def exec : (c : Call P) → World P → Except Errno c.Reply × World P
  | .mkdir, w => (.ok (), w)
  | .exists path, w => (.ok (w.files path).isSome, w)
  | .stat path, w =>
    match w.files path with
    | some data => (.ok data.length, w)
    | none => (.error .ENOENT, w)
  | .readFile path, w =>
    match w.files path with
    | some data => (.ok data, w)
    | none => (.error .ENOENT, w)
  | .writeFile path data, w =>
    (.ok (), { w with files := Function.update w.files path (some data) })
  | .openFile path flag, w =>
    match w.files path, flag with
    | none, .a =>
      let (fd, w) := World.allocate (.file path) w
      (.ok fd, { w with files := Function.update w.files path (some []) })
    | none, _ => (.error .ENOENT, w)
    | some _, _ =>
      let (fd, w) := World.allocate (.file path) w
      (.ok fd, w)
  | .openDir, w =>
    let (fd, w) := World.allocate .dir w
    (.ok fd, w)
  | .read fd length position, w =>
    match w.fds fd with
    | some (.file path) => (.ok ((((w.files path).getD []).drop position).take length), w)
    | _ => (.error .EBADF, w)
  | .write fd data, w => append fd data w
  | .fsync fd, w => (if (w.fds fd).isSome then .ok () else .error .EBADF, w)
  | .fstat fd, w =>
    match w.fds fd with
    | some (.file path) => (.ok ((w.files path).getD []).length, w)
    | _ => (.error .EBADF, w)
  | .ftruncate fd length, w =>
    match w.fds fd with
    | some (.file path) =>
      let kept := ((w.files path).getD []).take length
      (.ok (), { w with files := Function.update w.files path (some kept) })
    | _ => (.error .EBADF, w)
  | .close fd, w =>
    if (w.fds fd).isSome then (.ok (), { w with fds := Function.update w.fds fd none })
    else (.error .EBADF, w)
  | .rename source target, w =>
    match w.files source with
    | some data =>
      let moved := Function.update (Function.update w.files source none) target (some data)
      (.ok (), { w with files := moved })
    | none => (.error .ENOENT, w)
  | .unlink path, w =>
    if (w.files path).isSome then
      (.ok (), { w with files := Function.update w.files path none })
    else (.error .ENOENT, w)

/-- The files a call leaves when it is cut off: as before it, with any prefix of the data
it writes, or as after it. -/
def cut : Call P → ℕ → World P → Files P
  | .writeFile path data, n + 1, w => Function.update w.files path (some (data.take n))
  | .write fd data, n, w => (append fd (data.take n) w).2.files
  | _, 0, w => w.files
  | c, _ + 1, w => (c.exec w).2.files

end Call

/-- How one call ends. `complete`: normally. `short n`: normally, but a write stores at most
`n` bytes (and at least one). `kill n`: with the process. `fail e n`: with an exception,
a write having stored `n` bytes. -/
inductive Fate where
  | complete
  | short (n : ℕ)
  | kill (n : ℕ)
  | fail (code : Errno) (n : ℕ)

/-- The calls that bring data to the disk. -/
def Call.Stores : Call P → Prop
  | .writeFile _ _ | .write _ _ | .fsync _ => True
  | _ => False

namespace Fate

/-- A process left to finish. -/
def Benign (_ : Call P) : Fate → Prop
  | .complete | .short _ => True
  | _ => False

/-- A process that may be killed. -/
def Crash (_ : Call P) : Fate → Prop
  | .fail _ _ => False
  | _ => True

/-- A process that may be killed, on a disk whose writes and syncs may fail. -/
def Faulty (c : Call P) : Fate → Prop
  | .fail _ _ => c.Stores
  | _ => True

/-- What a write stores of its data. -/
def stored (data : Bytes) : Fate → Bytes
  | .complete => data
  | .short n => data.take (max 1 n)
  | .kill n | .fail _ n => data.take n

end Fate

inductive Ended (c : Call P) where
  | reply (r : Except Errno c.Reply) (w : World P)
  | killed (files : Files P)

def Call.perform (c : Call P) (w : World P) : Fate → Ended c
  | .complete => .reply (c.exec w).1 (c.exec w).2
  | .short n =>
    match c with
    | .write fd data =>
      .reply (append fd (data.take (max 1 n)) w).1 (append fd (data.take (max 1 n)) w).2
    | c => .reply (c.exec w).1 (c.exec w).2
  | .kill n => .killed (c.cut n w)
  | .fail code n =>
    match c with
    | .write fd data => .reply (.error code) (append fd (data.take n) w).2
    | .writeFile path data => .reply (.error code) { w with files := (writeFile path data).cut n w }
    | .close fd => .reply (.error code) { w with fds := Function.update w.fds fd none }
    | _ => .reply (.error code) w

/-- The tree of calls of a program with fields `M`. `peek` looks at the world without a
call: it only bounds the number of passes of a loop. -/
inductive Prog (P M α : Type) where
  | pure (a : α)
  | throw (e : Failure)
  | call (c : Call P) (k : Except Errno c.Reply → Prog P M α)
  | get (k : M → Prog P M α)
  | set (m : M) (k : Prog P M α)
  | peek (k : World P → Prog P M α)

namespace Prog

def bind : Prog P M α → (α → Prog P M β) → Prog P M β
  | .pure a, f => f a
  | .throw e, _ => .throw e
  | .call c k, f => .call c fun r => (k r).bind f
  | .get k, f => .get fun m => (k m).bind f
  | .set m k, f => .set m (k.bind f)
  | .peek k, f => .peek fun w => (k w).bind f

instance : Monad (Prog P M) where
  pure := Prog.pure
  bind := Prog.bind

omit [DecidableEq P] in
theorem bind_assoc {γ : Type} (p : Prog P M α) (f : α → Prog P M β) (g : β → Prog P M γ) :
    ((p >>= f) >>= g) = p >>= fun a => f a >>= g := by
  show (p.bind f).bind g = p.bind fun a => (f a).bind g
  induction p with
  | pure a => rfl
  | throw e => rfl
  | call c k ih => exact congrArg (Prog.call c) (funext ih)
  | get k ih => exact congrArg Prog.get (funext ih)
  | set m k ih => exact congrArg (Prog.set m) ih
  | peek k ih => exact congrArg Prog.peek (funext ih)

/-- Run a program and hand on what it threw as a value. -/
def attempt : Prog P M α → Prog P M (Except Failure α)
  | .pure a => .pure (.ok a)
  | .throw e => .pure (.error e)
  | .call c k => .call c fun r => (k r).attempt
  | .get k => .get fun m => (k m).attempt
  | .set m k => .set m k.attempt
  | .peek k => .peek fun w => (k w).attempt

def ofExcept : Except Failure α → Prog P M α
  | .ok a => .pure a
  | .error e => .throw e

/-- `try { p } catch (e) { h }` -/
def tryCatch (p : Prog P M α) (h : Failure → Prog P M α) : Prog P M α :=
  p.attempt.bind fun
    | .ok a => .pure a
    | .error e => h e

/-- `try { p } finally { q }` -/
def tryFinally (p : Prog P M α) (q : Prog P M Unit) : Prog P M α :=
  p.attempt.bind fun r => q.bind fun _ => ofExcept r

def fields : Prog P M M := .get .pure

def modify (f : M → M) : Prog P M Unit := .get fun m => .set (f m) (.pure ())

/-- A call whose failure is thrown. -/
def sync (c : Call P) : Prog P M c.Reply :=
  .call c fun
    | .ok r => .pure r
    | .error e => .throw (.errno e)

end Prog

def mkdirSync : Prog P M Unit := Prog.sync .mkdir
def existsSync (path : P) : Prog P M Bool := Prog.sync (.exists path)
def statSync (path : P) : Prog P M ℕ := Prog.sync (.stat path)
def readFileSync (path : P) : Prog P M Bytes := Prog.sync (.readFile path)
def writeFileSync (path : P) (data : Bytes) : Prog P M Unit := Prog.sync (.writeFile path data)
def openSync (path : P) (flag : Flag) : Prog P M ℕ := Prog.sync (.openFile path flag)
def openDirSync : Prog P M ℕ := Prog.sync .openDir
def readSync (fd length position : ℕ) : Prog P M Bytes := Prog.sync (.read fd length position)
def writeSync (fd : ℕ) (data : Bytes) : Prog P M ℕ := Prog.sync (.write fd data)
def fsyncSync (fd : ℕ) : Prog P M Unit := Prog.sync (.fsync fd)
def fstatSync (fd : ℕ) : Prog P M ℕ := Prog.sync (.fstat fd)
def ftruncateSync (fd length : ℕ) : Prog P M Unit := Prog.sync (.ftruncate fd length)
def closeSync (fd : ℕ) : Prog P M Unit := Prog.sync (.close fd)
def renameSync (source target : P) : Prog P M Unit := Prog.sync (.rename source target)
def unlinkSync (path : P) : Prog P M Unit := Prog.sync (.unlink path)

inductive Outcome (P M α : Type) where
  | returned (a : α) (m : M) (w : World P)
  | threw (e : Failure) (m : M) (w : World P)
  | killed (files : Files P)

/-- Run a program under a schedule of fates; calls after its end complete. -/
def run : Prog P M α → List Fate → M → World P → Outcome P M α
  | .pure a, _, m, w => .returned a m w
  | .throw e, _, m, w => .threw e m w
  | .call c k, plan, m, w =>
    match c.perform w (plan.headD .complete) with
    | .reply r w' => run (k r) plan.tail m w'
    | .killed files => .killed files
  | .get k, plan, m, w => run (k m) plan m w
  | .set m k, plan, _, w => run k plan m w
  | .peek k, plan, m, w => run (k w) plan m w

/-! ### Weakest preconditions -/

/-- Under fates of the class `allowed`, the program ends as `Q` says, and a kill leaves
files as `K` says. -/
def wp (allowed : Call P → Fate → Prop) (Q : Except Failure α → M → World P → Prop)
    (K : Files P → Prop) : Prog P M α → M → World P → Prop
  | .pure a, m, w => Q (.ok a) m w
  | .throw e, m, w => Q (.error e) m w
  | .call c k, m, w => ∀ f, allowed c f →
      match c.perform w f with
      | .reply r w' => wp allowed Q K (k r) m w'
      | .killed files => K files
  | .get k, m, w => wp allowed Q K (k m) m w
  | .set m k, _, w => wp allowed Q K k m w
  | .peek k, m, w => wp allowed Q K (k w) m w

/-- The schedule gives every call of the run a fate that is allowed for it. -/
def Follows (allowed : Call P → Fate → Prop) : Prog P M α → List Fate → M → World P → Prop
  | .pure _, _, _, _ | .throw _, _, _, _ => True
  | .call c k, plan, m, w => allowed c (plan.headD .complete) ∧
      match c.perform w (plan.headD .complete) with
      | .reply r w' => Follows allowed (k r) plan.tail m w'
      | .killed _ => True
  | .get k, plan, m, w => Follows allowed (k m) plan m w
  | .set m k, plan, _, w => Follows allowed k plan m w
  | .peek k, plan, m, w => Follows allowed (k w) plan m w

/-- What `Q` and `K` say about an outcome. -/
def Outcome.Sat (Q : Except Failure α → M → World P → Prop) (K : Files P → Prop) :
    Outcome P M α → Prop
  | .returned a m w => Q (.ok a) m w
  | .threw e m w => Q (.error e) m w
  | .killed files => K files

variable {allowed : Call P → Fate → Prop} {Q Q' : Except Failure α → M → World P → Prop}
  {K K' : Files P → Prop} {m : M} {w : World P}

theorem follows_of_forall (hcomplete : ∀ c : Call P, allowed c .complete) {p : Prog P M α}
    {plan : List Fate} (hplan : ∀ f ∈ plan, ∀ c : Call P, allowed c f) :
    Follows allowed p plan m w := by
  induction p generalizing plan m w with
  | pure a => trivial
  | throw e => trivial
  | call c k ih =>
    rw [Follows]
    refine ⟨?_, ?_⟩
    · cases plan with
      | nil => exact hcomplete c
      | cons f rest => exact hplan f List.mem_cons_self c
    · cases c.perform w (plan.headD .complete) with
      | reply r w' => exact ih r fun f hf => hplan f (List.mem_of_mem_tail hf)
      | killed files => trivial
  | get k ih => exact ih m hplan
  | set m' k ih => exact ih hplan
  | peek k ih => exact ih w hplan

/-- What may not be killed is no crash. -/
theorem follows_of_benign {p : Prog P M α} {plan : List Fate}
    (hplan : ∀ f ∈ plan, ∀ c : Call P, Fate.Benign c f) : Follows Fate.Crash p plan m w := by
  refine follows_of_forall (fun c => trivial) fun f hf c => ?_
  have h := hplan f hf c
  cases f with
  | complete => trivial
  | short n => trivial
  | kill n => exact h.elim
  | fail code n => exact h.elim

/-- **Soundness of `wp`**: a run whose schedule is allowed ends as promised. -/
theorem wp_sound {p : Prog P M α} {plan : List Fate} (hplan : Follows allowed p plan m w)
    (h : wp allowed Q K p m w) : (run p plan m w).Sat Q K := by
  induction p generalizing plan m w with
  | pure a => exact h
  | throw e => exact h
  | call c k ih =>
    rw [Follows] at hplan
    obtain ⟨hhead, hrest⟩ := hplan
    have hstep := h _ hhead
    rw [run]
    cases hend : c.perform w (plan.headD .complete) with
    | reply r w' =>
      rw [hend] at hstep hrest
      exact ih r hrest hstep
    | killed files =>
      rw [hend] at hstep
      exact hstep
  | get k ih => exact ih m hplan h
  | set m' k ih => exact ih hplan h
  | peek k ih => exact ih w hplan h

/-- Under a schedule that kills nothing, a run returns or throws. -/
theorem run_ne_killed_of_follows {p : Prog P M α} {plan : List Fate}
    (halive : ∀ c n, ¬allowed c (.kill n)) (hplan : Follows allowed p plan m w) (files : Files P) :
    run p plan m w ≠ .killed files := by
  have hwp : wp allowed (fun _ _ _ => True) (fun _ => False) p m w := by
    clear hplan
    induction p generalizing m w with
    | pure a => trivial
    | throw e => trivial
    | call c k ih =>
      intro f hf
      cases hend : c.perform w f with
      | reply r w' => exact ih r
      | killed files' =>
        cases f with
        | complete => exact absurd hend (by simp [Call.perform])
        | short n => cases c <;> exact absurd hend (by simp [Call.perform])
        | kill n => exact halive c n hf
        | fail code n => cases c <;> exact absurd hend (by simp [Call.perform])
    | get k ih => exact ih m
    | set m' k ih => exact ih
    | peek k ih => exact ih w
  intro hrun
  have hsat := wp_sound hplan hwp
  rw [hrun] at hsat
  exact hsat

/-- A process left to finish is not killed. -/
theorem run_ne_killed {p : Prog P M α} {plan : List Fate}
    (hplan : ∀ f ∈ plan, ∀ c : Call P, Fate.Benign c f) (files : Files P) :
    run p plan m w ≠ .killed files :=
  run_ne_killed_of_follows (fun _ _ => id) (follows_of_forall (fun _ => trivial) hplan) files

/-- A program that throws nothing returns when it is left to finish. -/
theorem returned_of_wp {p : Prog P M α} {plan : List Fate}
    (hplan : ∀ f ∈ plan, ∀ c : Call P, Fate.Benign c f) (h : wp Fate.Crash Q K p m w)
    (hthrow : ∀ e m w, ¬Q (.error e) m w) :
    ∃ a m' w', run p plan m w = .returned a m' w' ∧ Q (.ok a) m' w' := by
  have hsat := wp_sound (follows_of_benign hplan) h
  cases hrun : run p plan m w with
  | returned a m' w' => exact ⟨a, m', w', rfl, by rwa [hrun] at hsat⟩
  | threw e m' w' =>
    rw [hrun] at hsat
    exact absurd hsat (hthrow e m' w')
  | killed files => exact absurd hrun (run_ne_killed hplan files)

theorem wp_mono {p : Prog P M α} (h : wp allowed Q K p m w)
    (hQ : ∀ r m w, Q r m w → Q' r m w) (hK : ∀ d, K d → K' d) : wp allowed Q' K' p m w := by
  induction p generalizing m w with
  | pure a => exact hQ _ _ _ h
  | throw e => exact hQ _ _ _ h
  | call c k ih =>
    intro f hf
    have hstep := h f hf
    cases hend : c.perform w f with
    | reply r w' =>
      rw [hend] at hstep
      exact ih r hstep
    | killed files =>
      rw [hend] at hstep
      exact hK _ hstep
  | get k ih => exact ih m h
  | set m' k ih => exact ih h
  | peek k ih => exact ih w h

/-- What a continuation is run for: the normal end goes on, a throw passes through. -/
def andThen (next : α → M → World P → Prop) (Q : Except Failure β → M → World P → Prop) :
    Except Failure α → M → World P → Prop
  | .ok a, m, w => next a m w
  | .error e, m, w => Q (.error e) m w

omit [DecidableEq P] in
@[simp] theorem andThen_ok {Q : Except Failure β → M → World P → Prop}
    {next : α → M → World P → Prop} {a : α} : andThen next Q (.ok a) m w = next a m w := rfl

omit [DecidableEq P] in
@[simp] theorem andThen_error {Q : Except Failure β → M → World P → Prop}
    {next : α → M → World P → Prop} {e : Failure} :
    andThen next Q (.error e) m w = Q (.error e) m w := rfl

theorem wp_bind {Q : Except Failure β → M → World P → Prop} {p : Prog P M α}
    {f : α → Prog P M β}
    (h : wp allowed (andThen (fun a => wp allowed Q K (f a)) Q) K p m w) :
    wp allowed Q K (p >>= f) m w := by
  show wp allowed Q K (p.bind f) m w
  induction p generalizing m w with
  | pure a => exact h
  | throw e => exact h
  | call c k ih =>
    intro fate hf
    have hstep := h fate hf
    cases hend : c.perform w fate with
    | reply r w' =>
      rw [hend] at hstep
      exact ih r hstep
    | killed files =>
      rw [hend] at hstep
      exact hstep
  | get k ih => exact ih m h
  | set m' k ih => exact ih h
  | peek k ih => exact ih w h

theorem wp_attempt {Q : Except Failure (Except Failure α) → M → World P → Prop}
    {p : Prog P M α} (h : wp allowed (fun r => Q (.ok r)) K p m w) :
    wp allowed Q K p.attempt m w := by
  induction p generalizing m w with
  | pure a => exact h
  | throw e => exact h
  | call c k ih =>
    intro fate hf
    have hstep := h fate hf
    cases hend : c.perform w fate with
    | reply r w' =>
      rw [hend] at hstep
      exact ih r hstep
    | killed files =>
      rw [hend] at hstep
      exact hstep
  | get k ih => exact ih m h
  | set m' k ih => exact ih h
  | peek k ih => exact ih w h

theorem wp_ofExcept {r : Except Failure α} (h : Q r m w) :
    wp allowed Q K (Prog.ofExcept r) m w := by
  cases r <;> exact h

/-- `finally` runs after either end of its block and hands that end on. -/
theorem wp_tryFinally {p : Prog P M α} {q : Prog P M Unit}
    (h : wp allowed (fun r => wp allowed (andThen (fun _ => Q r) Q) K q) K p m w) :
    wp allowed Q K (Prog.tryFinally p q) m w := by
  refine wp_bind (wp_attempt (wp_mono h (fun r m w hr => ?_) fun _ hd => hd))
  refine wp_bind (wp_mono hr (fun r' m w hr' => ?_) fun _ hd => hd)
  cases r' with
  | ok _ => exact wp_ofExcept hr'
  | error e => exact hr'

theorem wp_tryCatch {p : Prog P M α} {handler : Failure → Prog P M α}
    (h : wp allowed (fun r m w =>
      match r with
      | .ok a => Q (.ok a) m w
      | .error e => wp allowed Q K (handler e) m w) K p m w) :
    wp allowed Q K (Prog.tryCatch p handler) m w := by
  refine wp_bind (wp_attempt (wp_mono h (fun r m w hr => ?_) fun _ hd => hd))
  cases r with
  | ok a => exact hr
  | error e => exact hr

theorem wp_fields {Q : Except Failure β → M → World P → Prop} {f : M → Prog P M β}
    (h : wp allowed Q K (f m) m w) : wp allowed Q K (Prog.fields >>= f) m w := h

theorem wp_modify {Q : Except Failure Unit → M → World P → Prop} {g : M → M}
    (h : wp allowed Q K (.pure ()) (g m) w) :
    wp allowed Q K (Prog.modify g) m w := h

theorem wp_pure {a : α} (h : Q (.ok a) m w) : wp allowed Q K (pure a) m w := h

/-! ### The calls -/

/-- At most the calls that store data fail. -/
class Sturdy (allowed : Call P → Fate → Prop) : Prop where
  stores : ∀ c code n, allowed c (.fail code n) → c.Stores

instance : Sturdy (P := P) Fate.Benign := ⟨fun _ _ _ h => h.elim⟩

instance : Sturdy (P := P) Fate.Crash := ⟨fun _ _ _ h => h.elim⟩

instance : Sturdy (P := P) Fate.Faulty := ⟨fun _ _ _ h => h⟩

/-- Where `allowed` lets a call fail, its exception is acceptable with fields `m` and the
descriptors of `w`. -/
def Throws (allowed : Call P → Fate → Prop) (Q : Except Failure α → M → World P → Prop)
    (K : Files P → Prop) (m : M) (w : World P) : Prop :=
  ∀ c code n, allowed c (.fail code n) → ∀ w', K w'.files → w.Kept w' →
    Q (.error (.errno code)) m w'

omit [DecidableEq P] in
theorem throws_crash : Throws Fate.Crash Q K m w := fun _ _ _ h => h.elim

omit [DecidableEq P] in
theorem Throws.andThen {Q : Except Failure β → M → World P → Prop}
    {next : α → M → World P → Prop} (h : Throws allowed Q K m w) :
    Throws allowed (andThen next Q) K m w := h

omit [DecidableEq P] in
theorem Throws.mono {w' : World P} (h : Throws allowed Q K m w) (hw : w.Kept w') :
    Throws allowed Q K m w' :=
  fun c code n hf w'' hK hw' => h c code n hf w'' hK (hw.trans hw')

/-- The calls that happen at once: a kill comes before them or after them. -/
def Call.Atomic : Call P → Prop
  | .writeFile _ _ | .write _ _ => False
  | _ => True

theorem Call.cut_of_atomic {c : Call P} (hc : c.Atomic) (n : ℕ) (w : World P) :
    c.cut n w = w.files ∨ c.cut n w = (c.exec w).2.files := by
  cases c <;> cases n <;> first | exact hc.elim | exact Or.inl rfl | exact Or.inr rfl

/-- What a call that fails leaves, apart from the data of a write: a descriptor that could
not be closed is gone all the same. -/
def Call.failed : Call P → World P → World P
  | .close fd, w => { w with fds := Function.update w.fds fd none }
  | _, w => w

/-- Where the call may fail, its exception is acceptable at `w`. -/
def Fails (allowed : Call P → Fate → Prop) (c : Call P)
    (Q : Except Failure α → M → World P → Prop) (m : M) (w : World P) : Prop :=
  ∀ code n, allowed c (.fail code n) → Q (.error (.errno code)) m w

omit [DecidableEq P] in
theorem Throws.fails {Q : Except Failure α → M → World P → Prop} (h : Throws allowed Q K m w)
    (hK : K w.files) (c : Call P) : Fails allowed c Q m w :=
  fun code n hf => h c code n hf w hK (.refl w)

omit [DecidableEq P] in
theorem Sturdy.fails [Sturdy allowed] {Q : Except Failure α → M → World P → Prop} {c : Call P}
    (hstores : ¬c.Stores) : Fails allowed c Q m w :=
  fun code n hf => absurd (Sturdy.stores c code n hf) hstores

theorem wp_sync {c : Call P} {Q : Except Failure c.Reply → M → World P → Prop}
    (hc : c.Atomic) (hE : Fails allowed c Q m (c.failed w)) (hbefore : K w.files)
    (hafter : K (c.exec w).2.files)
    (hQ : wp allowed Q K (match (c.exec w).1 with
      | .ok r => .pure r
      | .error e => .throw (.errno e)) m (c.exec w).2) :
    wp allowed Q K (Prog.sync c) m w := by
  intro f hf
  cases f with
  | complete => exact hQ
  | short n => cases c <;> first | exact hQ | exact hc.elim
  | kill n =>
    show K (c.cut n w)
    rcases Call.cut_of_atomic hc n w with h | h <;> rw [h]
    · exact hbefore
    · exact hafter
  | fail code n => cases c <;> first | exact hE code n hf | exact hc.elim

/-! Rules for calls that may fail. -/

theorem wp_renameSync_any {source target : P} {Q : Except Failure Unit → M → World P → Prop}
    {data : Bytes} (hE : Fails allowed (.rename source target) Q m w)
    (hfile : w.files source = some data) (hK : K w.files)
    (hQ : ∀ w' : World P,
      w'.files = Function.update (Function.update w.files source none) target (some data) →
      w.Kept w' → K w'.files ∧ Q (.ok ()) m w') :
    wp allowed Q K (renameSync source target) m w :=
  wp_sync (c := .rename source target) trivial hE hK
    (by simp only [Call.exec, hfile]; exact (hQ { w with files := _ } rfl (.of_eq rfl rfl)).1)
    (by simp only [Call.exec, hfile]; exact (hQ { w with files := _ } rfl (.of_eq rfl rfl)).2)

theorem wp_openSync_any {path : P} {flag : Flag} {Q : Except Failure ℕ → M → World P → Prop}
    {data : Bytes} (hE : Fails allowed (.openFile path flag) Q m w)
    (hfile : w.files path = some data) (hK : K w.files)
    (hQ : ∀ fd w', w'.files = w.files → w.Opened fd (.file path) w' → Q (.ok fd) m w') :
    wp allowed Q K (openSync path flag) m w :=
  wp_sync (c := .openFile path flag) trivial hE hK
    (by simp only [Call.exec, hfile]; exact hK)
    (by simp only [Call.exec, hfile]; exact hQ _ _ rfl World.opened_allocate)

theorem wp_openSync_none_any {path : P} {flag : Flag} {Q : Except Failure ℕ → M → World P → Prop}
    (hE : Fails allowed (.openFile path flag) Q m w) (hfile : w.files path = none)
    (hflag : flag ≠ .a) (hK : K w.files) (hQ : Q (.error (.errno .ENOENT)) m w) :
    wp allowed Q K (openSync path flag) m w := by
  refine wp_sync (c := .openFile path flag) trivial hE hK ?_ ?_ <;>
    cases flag <;> simp only [Call.exec, hfile] <;>
      first | exact hK | exact hQ | exact absurd rfl hflag

theorem wp_openSync_append_any {path : P} {Q : Except Failure ℕ → M → World P → Prop}
    (hE : Fails allowed (.openFile path .a) Q m w) (hK : K w.files)
    (hQ : ∀ fd w', w'.files = Function.update w.files path (some ((w.files path).getD [])) →
      w.Opened fd (.file path) w' → K w'.files ∧ Q (.ok fd) m w') :
    wp allowed Q K (openSync path .a) m w := by
  cases hfile : w.files path with
  | some data =>
    have hsame : w.files = Function.update w.files path (some ((w.files path).getD [])) := by
      rw [hfile, Option.getD_some, ← hfile, Function.update_eq_self]
    exact wp_openSync_any hE hfile hK fun fd w' hfiles hopen =>
      (hQ fd w' (hfiles.trans hsame) hopen).2
  | none =>
    have hcreate := hQ w.nextFd
      { (World.allocate (.file path) w).2 with files := Function.update w.files path (some []) }
      (by rw [hfile]; rfl) World.opened_allocate
    exact wp_sync (c := .openFile path .a) trivial hE hK
      (by simp only [Call.exec, hfile]; exact hcreate.1)
      (by simp only [Call.exec, hfile]; exact hcreate.2)

theorem wp_openDirSync_any {Q : Except Failure ℕ → M → World P → Prop}
    (hE : Fails allowed .openDir Q m w) (hK : K w.files)
    (hQ : ∀ fd w', w'.files = w.files → w.Opened fd .dir w' → Q (.ok fd) m w') :
    wp allowed Q K openDirSync m w :=
  wp_sync (c := .openDir) trivial hE hK hK (hQ _ _ rfl World.opened_allocate)

theorem wp_readSync_any {fd length position : ℕ} {path : P}
    {Q : Except Failure Bytes → M → World P → Prop}
    (hE : Fails allowed (.read fd length position) Q m w)
    (hfd : w.fds fd = some (.file path)) (hK : K w.files)
    (hQ : Q (.ok ((((w.files path).getD []).drop position).take length)) m w) :
    wp allowed Q K (readSync fd length position) m w :=
  wp_sync (c := .read fd length position) trivial hE hK
    (by simp only [Call.exec, hfd]; exact hK) (by simp only [Call.exec, hfd]; exact hQ)

/-- Closing what was opened after `w₀`: whether or not that fails, the descriptor is gone. -/
theorem wp_closeSync_any {w₀ : World P} {fd : ℕ} {handle : Handle P}
    {Q : Except Failure Unit → M → World P → Prop}
    (hE : ∀ w', w'.files = w.files → w₀.Kept w' → Fails allowed (.close fd) Q m w')
    (hfd : w₀.Opened fd handle w) (hK : K w.files)
    (hQ : ∀ w', w'.files = w.files → w₀.Kept w' → Q (.ok ()) m w') :
    wp allowed Q K (closeSync fd) m w := by
  have hkept : w₀.Kept { w with fds := Function.update w.fds fd none } := by
    refine ⟨hfd.kept.1, fun fd' hfd' => ?_⟩
    have hne : fd' ≠ fd := (lt_of_lt_of_le hfd' hfd.fresh).ne
    show Function.update w.fds fd none fd' = _
    rw [Function.update_of_ne hne, hfd.kept.2 fd' hfd']
  refine wp_sync (c := .close fd) trivial (hE _ rfl hkept) hK ?_ ?_ <;>
    simp only [Call.exec, hfd.handle, Option.isSome_some, if_true]
  · exact hK
  · exact hQ _ rfl hkept

/-! Rules for calls that store nothing, which a sturdy schedule lets be completed. -/

variable [Sturdy allowed]

theorem wp_mkdirSync {Q : Except Failure Unit → M → World P → Prop} (hK : K w.files)
    (hQ : Q (.ok ()) m w) : wp allowed Q K mkdirSync m w :=
  wp_sync (c := .mkdir) trivial (Sturdy.fails id) hK hK hQ

theorem wp_existsSync {path : P} {Q : Except Failure Bool → M → World P → Prop} (hK : K w.files)
    (hQ : Q (.ok (w.files path).isSome) m w) : wp allowed Q K (existsSync path) m w :=
  wp_sync (c := .exists path) trivial (Sturdy.fails id) hK hK hQ

theorem wp_statSync {path : P} {Q : Except Failure ℕ → M → World P → Prop} {data : Bytes}
    (hfile : w.files path = some data) (hK : K w.files) (hQ : Q (.ok data.length) m w) :
    wp allowed Q K (statSync path) m w :=
  wp_sync (c := .stat path) trivial (Sturdy.fails id) hK (by simp only [Call.exec, hfile]; exact hK)
    (by simp only [Call.exec, hfile]; exact hQ)

theorem wp_statSync_none {path : P} {Q : Except Failure ℕ → M → World P → Prop}
    (hfile : w.files path = none) (hK : K w.files) (hQ : Q (.error (.errno .ENOENT)) m w) :
    wp allowed Q K (statSync path) m w :=
  wp_sync (c := .stat path) trivial (Sturdy.fails id) hK (by simp only [Call.exec, hfile]; exact hK)
    (by simp only [Call.exec, hfile]; exact hQ)

theorem wp_readFileSync {path : P} {Q : Except Failure Bytes → M → World P → Prop} {data : Bytes}
    (hfile : w.files path = some data) (hK : K w.files) (hQ : Q (.ok data) m w) :
    wp allowed Q K (readFileSync path) m w :=
  wp_sync (c := .readFile path) trivial (Sturdy.fails id) hK
    (by simp only [Call.exec, hfile]; exact hK)
    (by simp only [Call.exec, hfile]; exact hQ)

theorem wp_renameSync {source target : P} {Q : Except Failure Unit → M → World P → Prop}
    {data : Bytes} (hfile : w.files source = some data) (hK : K w.files)
    (hQ : ∀ w' : World P,
      w'.files = Function.update (Function.update w.files source none) target (some data) →
      w.Kept w' → K w'.files ∧ Q (.ok ()) m w') :
    wp allowed Q K (renameSync source target) m w :=
  wp_renameSync_any (Sturdy.fails id) hfile hK hQ

theorem wp_unlinkSync {path : P} {Q : Except Failure Unit → M → World P → Prop}
    (hfile : (w.files path).isSome) (hK : K w.files)
    (hQ : ∀ w' : World P, w'.files = Function.update w.files path none →
      w.Kept w' → K w'.files ∧ Q (.ok ()) m w') :
    wp allowed Q K (unlinkSync path) m w :=
  wp_sync (c := .unlink path) trivial (Sturdy.fails id) hK
    (by simp only [Call.exec, hfile]; exact (hQ { w with files := _ } rfl (.of_eq rfl rfl)).1)
    (by simp only [Call.exec, hfile]; exact (hQ { w with files := _ } rfl (.of_eq rfl rfl)).2)

omit [Sturdy allowed] in
theorem wp_writeFileSync {path : P} {data : Bytes} {Q : Except Failure Unit → M → World P → Prop}
    (hE : Throws allowed Q K m w) (hbefore : K w.files)
    (hK : ∀ n, K (Function.update w.files path (some (data.take n))))
    (hQ : ∀ w' : World P, w'.files = Function.update w.files path (some data) → w.Kept w' →
      Q (.ok ()) m w') :
    wp allowed Q K (writeFileSync path data) m w := by
  intro f hf
  cases f with
  | complete => exact hQ _ rfl (.of_eq rfl rfl)
  | short n => exact hQ _ rfl (.of_eq rfl rfl)
  | kill n =>
    cases n with
    | zero => exact hbefore
    | succ n => exact hK n
  | fail code n =>
    refine hE _ code n hf _ ?_ (.of_eq rfl rfl)
    cases n with
    | zero => exact hbefore
    | succ n => exact hK n

theorem wp_openSync {path : P} {flag : Flag} {Q : Except Failure ℕ → M → World P → Prop}
    {data : Bytes} (hfile : w.files path = some data) (hK : K w.files)
    (hQ : ∀ fd w', w'.files = w.files → w.Opened fd (.file path) w' → Q (.ok fd) m w') :
    wp allowed Q K (openSync path flag) m w :=
  wp_openSync_any (Sturdy.fails id) hfile hK hQ

theorem wp_openSync_none {path : P} {flag : Flag} {Q : Except Failure ℕ → M → World P → Prop}
    (hfile : w.files path = none) (hflag : flag ≠ .a) (hK : K w.files)
    (hQ : Q (.error (.errno .ENOENT)) m w) :
    wp allowed Q K (openSync path flag) m w :=
  wp_openSync_none_any (Sturdy.fails id) hfile hflag hK hQ

theorem wp_openSync_append {path : P} {Q : Except Failure ℕ → M → World P → Prop}
    (hK : K w.files)
    (hQ : ∀ fd w', w'.files = Function.update w.files path (some ((w.files path).getD [])) →
      w.Opened fd (.file path) w' → K w'.files ∧ Q (.ok fd) m w') :
    wp allowed Q K (openSync path .a) m w :=
  wp_openSync_append_any (Sturdy.fails id) hK hQ

section Descriptor

variable {fd : ℕ} {handle : Handle P} {path : P}

theorem wp_closeSync_some {Q : Except Failure Unit → M → World P → Prop}
    (hfd : w.fds fd = some handle) (hK : K w.files)
    (hQ : ∀ w', w'.files = w.files → w'.nextFd = w.nextFd →
      w'.fds = Function.update w.fds fd none → Q (.ok ()) m w') :
    wp allowed Q K (closeSync fd) m w := by
  refine wp_sync (c := .close fd) trivial (Sturdy.fails id) hK ?_ ?_ <;>
    simp only [Call.exec, hfd, Option.isSome_some, if_true]
  · exact hK
  · exact hQ _ rfl rfl rfl

/-- Closing what was opened after `w₀`. -/
theorem wp_closeSync {w₀ : World P} {Q : Except Failure Unit → M → World P → Prop}
    (hfd : w₀.Opened fd handle w) (hK : K w.files)
    (hQ : ∀ w', w'.files = w.files → w₀.Kept w' → Q (.ok ()) m w') :
    wp allowed Q K (closeSync fd) m w :=
  wp_closeSync_any (fun _ _ _ => Sturdy.fails id) hfd hK hQ

omit [Sturdy allowed] in
theorem wp_fsyncSync {Q : Except Failure Unit → M → World P → Prop}
    (hE : Throws allowed Q K m w) (hfd : w.fds fd = some handle) (hK : K w.files)
    (hQ : Q (.ok ()) m w) : wp allowed Q K (fsyncSync fd) m w := by
  have hok : (w.fds fd).isSome = true := by rw [hfd, Option.isSome_some]
  intro f hf
  cases f with
  | complete =>
    simp only [Call.perform, Call.exec, hok, if_true]
    exact hQ
  | short n =>
    simp only [Call.perform, Call.exec, hok, if_true]
    exact hQ
  | kill n => cases n <;> exact hK
  | fail code n => exact hE _ code n hf _ hK (.refl w)

theorem wp_closeSync_none {Q : Except Failure Unit → M → World P → Prop}
    (hfd : w.fds fd = none) (hK : K w.files) (hQ : Q (.error (.errno .EBADF)) m w) :
    wp allowed Q K (closeSync fd) m w := by
  refine wp_sync (c := .close fd) trivial (Sturdy.fails id) hK ?_ ?_ <;>
    simp only [Call.exec, hfd, Option.isSome_none, Bool.false_eq_true, if_false]
  · exact hK
  · exact hQ

theorem wp_fstatSync {Q : Except Failure ℕ → M → World P → Prop}
    (hfd : w.fds fd = some (.file path)) (hK : K w.files)
    (hQ : Q (.ok ((w.files path).getD []).length) m w) :
    wp allowed Q K (fstatSync fd) m w :=
  wp_sync (c := .fstat fd) trivial (Sturdy.fails id) hK (by simp only [Call.exec, hfd]; exact hK)
    (by simp only [Call.exec, hfd]; exact hQ)

theorem wp_readSync {length position : ℕ} {Q : Except Failure Bytes → M → World P → Prop}
    (hfd : w.fds fd = some (.file path)) (hK : K w.files)
    (hQ : Q (.ok ((((w.files path).getD []).drop position).take length)) m w) :
    wp allowed Q K (readSync fd length position) m w :=
  wp_readSync_any (Sturdy.fails id) hfd hK hQ

theorem wp_ftruncateSync {length : ℕ} {Q : Except Failure Unit → M → World P → Prop}
    (hfd : w.fds fd = some (.file path)) (hK : K w.files)
    (hQ : ∀ w' : World P, w'.files
        = Function.update w.files path (some (((w.files path).getD []).take length)) →
      w'.fds = w.fds → w.Kept w' → K w'.files ∧ Q (.ok ()) m w') :
    wp allowed Q K (ftruncateSync fd length) m w :=
  wp_sync (c := .ftruncate fd length) trivial (Sturdy.fails id) hK
    (by simp only [Call.exec, hfd]; exact (hQ { w with files := _ } rfl rfl (.of_eq rfl rfl)).1)
    (by simp only [Call.exec, hfd]; exact (hQ { w with files := _ } rfl rfl (.of_eq rfl rfl)).2)

omit [Sturdy allowed] in
/-- One `write` stores any non-empty prefix of its data, and any prefix when killed. -/
theorem wp_writeSync {data : Bytes} {Q : Except Failure ℕ → M → World P → Prop}
    (hE : Throws allowed Q K m w) (hfd : w.fds fd = some (.file path)) (hdata : data ≠ [])
    (hK : ∀ n, K (Function.update w.files path (some ((w.files path).getD [] ++ data.take n))))
    (hQ : ∀ n, 0 < n → n ≤ data.length → ∀ w' : World P, w'.files
        = Function.update w.files path (some ((w.files path).getD [] ++ data.take n)) →
      w'.fds = w.fds → w.Kept w' → Q (.ok n) m w') :
    wp allowed Q K (writeSync fd data) m w := by
  have hpos : 0 < data.length := List.length_pos_iff.mpr hdata
  intro f hf
  cases f with
  | complete =>
    simp only [Call.perform, Call.exec, Call.append, hfd]
    exact hQ data.length hpos le_rfl _ (by simp) rfl (.of_eq rfl rfl)
  | short n =>
    simp only [Call.perform, Call.append, hfd]
    have hlen : (data.take (max 1 n)).length = min (max 1 n) data.length := List.length_take
    have htake : data.take (data.take (max 1 n)).length = data.take (max 1 n) := by
      rw [List.length_take, List.take_eq_take_iff, min_assoc, min_self]
    exact hQ _ (by omega) (by omega) _ (by rw [htake]) rfl (.of_eq rfl rfl)
  | kill n =>
    show K (Call.cut (.write fd data) n w)
    cases n <;> simp only [Call.cut, Call.append, hfd] <;> exact hK _
  | fail code n =>
    simp only [Call.perform, Call.append, hfd]
    exact hE _ code n hf _ (hK n) (.of_eq rfl rfl)

omit [Sturdy allowed] in
theorem wp_writeSync_none {data : Bytes} {Q : Except Failure ℕ → M → World P → Prop}
    (hE : Throws allowed Q K m w) (hfd : w.fds fd = none) (hK : K w.files)
    (hQ : Q (.error (.errno .EBADF)) m w) : wp allowed Q K (writeSync fd data) m w := by
  intro f hf
  cases f with
  | complete =>
    simp only [Call.perform, Call.exec, Call.append, hfd]
    exact hQ
  | short n =>
    simp only [Call.perform, Call.append, hfd]
    exact hQ
  | kill n =>
    show K (Call.cut (.write fd data) n w)
    cases n <;> simp only [Call.cut, Call.append, hfd] <;> exact hK
  | fail code n =>
    simp only [Call.perform, Call.append, hfd]
    exact hE _ code n hf _ hK (.refl w)

end Descriptor

end FileProgram
