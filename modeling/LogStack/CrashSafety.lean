/-
Crash safety and exact accounting of the outbox.

* `opens` — an uninterrupted open succeeds on every directory that a run leaves, and its
  queue is the pending part of the ledger;
* `crash_safety` — along every run with kills at any file-system call, the surviving events
  and the confirmed head follow the calls, and opening shows the rest;
* `exact_accounting` — along every such run, offsets, counters and queue of an open outbox
  describe the journal byte by byte, and closing and opening again restores them.
-/
import LogStack.OutboxRuns

open FileProgram Lines Simulation

namespace Outbox

variable (J : JsonText)

/-- The outbox under the schedules that `allowed` permits, restricted to some calls. -/
def machine (allowed : Call String → Fate → Prop) (calls : Action → Prop) :
    Machine Status (Action × List Fate) Ending where
  enabled call s := calls call.1 ∧ Permitted J allowed call s
  step := step J

/-- Nothing has been written yet. -/
def emptyDirectory : Status := .down fun _ => none

/-- A schedule that lets a process finish. -/
def Uninterrupted (plan : List Fate) : Prop := ∀ f ∈ plan, ∀ c : Call String, Fate.Benign c f

variable {J} {allowed : Call String → Fate → Prop} {s : Status} {a : Ledger J}

theorem not_mayFail_crash : ¬MayFail Fate.Crash := fun ⟨_, _, _, h⟩ => h

theorem resting_empty : Agrees J allowed emptyDirectory Ledger.empty :=
  ⟨.inl ⟨[], [], rfl, ⟨[], rfl, List.not_mem_nil⟩, .inr ⟨rfl, rfl, rfl⟩, rfl⟩,
    [], rfl, List.not_mem_nil⟩

/-- An uninterrupted open succeeds and shows the pending part of the ledger. -/
theorem opens (limit : ℕ) {plan : List Fate} (h : Resting J s.files a)
    (hplan : Uninterrupted plan) :
    ∃ ob w gone head, step J (.open limit, plan) s = (.returned 0, .up ob w) ∧
      a.confirmed = gone ++ head ∧ Live J ob w gone head a.pending ∧ Cached ob a.failedIds ∧
      ob.closed = false ∧ (w.files failedPath).getD [] = failedText a.failed := by
  have hwp : wp Fate.Crash (fun r ob w => r = .ok 0 ∧ ∃ gone head, a.confirmed = gone ++ head ∧
      Live J ob w gone head a.pending ∧ Cached ob a.failedIds ∧ ob.closed = false ∧
      (w.files failedPath).getD [] = failedText a.failed) (fun _ => True)
      (program J (.open limit)) { failedIdCacheLimit := 0 } (World.boot s.files) :=
    wp_bind (wp_open h.1 h.2 (fun _ _ _ => trivial) (fun _ => throws_crash)
      fun ob w gone head hconfirmed hlive hcache hclosed _ htext =>
        ⟨rfl, gone, head, hconfirmed, hlive, hcache, hclosed, htext⟩)
  obtain ⟨n, ob, w, hrun, hn, gone, head, hopened⟩ :=
    returned_of_wp hplan hwp fun e ob w hQ => absurd hQ.1 (by simp)
  refine ⟨ob, w, gone, head, ?_, hopened⟩
  rw [step_eq_finish rfl, hrun, Except.ok.inj hn]
  rfl

/-! ### Crash safety -/

variable (J) in
/-- The next uninterrupted open succeeds, and its queue is what was recorded without the
confirmed head. -/
def Recovers (s : Status) (a : Ledger J) : Prop :=
  ∀ limit plan, Uninterrupted plan → ∃ ob w,
    step J (.open limit, plan) s = (.returned 0, .up ob w) ∧
      ob.pending.map PendingEntry.event
        = (a.recorded.drop a.confirmed.length).map Event.value

theorem recovers_of_agrees (h : Agrees J allowed s a) : Recovers J s a := by
  intro limit plan hplan
  obtain ⟨ob, w, gone, head, hstep, -, hlive, -⟩ := opens limit h.resting hplan
  refine ⟨ob, w, hstep, ?_⟩
  rw [hlive.queue, Ledger.recorded, List.drop_left, List.map_map]
  rfl

variable (J) in
/-- **Crash safety.** In every run from the empty directory, with kills before, in or after
any file-system call, one ledger follows the calls: all events of an append that returned
are recorded, some of the first of an interrupted one; a confirm that returned counts, an
interrupted one counts wholly or not at all. Wherever the run has got to, the next
uninterrupted open succeeds with what is recorded and not confirmed. -/
theorem crash_safety (calls : List (Action × List Fate)) :
    Along (machine J Fate.Crash fun _ => True) (fun call ending _ => Effect J call.1 ending)
      (Recovers J) calls emptyDirectory Ledger.empty := by
  refine along_of_invariant (Agrees J Fate.Crash) (fun _ _ => recovers_of_agrees)
    (fun call s a h hcall => ?_) resting_empty
  obtain ⟨a', heffect, h', -⟩ := agrees_step h (.inl not_mayFail_crash) hcall.2
  exact ⟨a', heffect, h'⟩

/-! ### Accounting -/

variable (J) in
/-- The fields of an outbox describe its journal byte by byte. -/
structure Consistent (ob : Outbox) (journal : Bytes) (recorded : List Event) : Prop where
  boundary : ∃ k ≤ (splitLines newline journal).1.length,
    ob.checkpointOffset = lineOffset newline (splitLines newline journal).1 k
  queue : splitLines newline (journal.drop ob.checkpointOffset)
    = (ob.pending.map fun entry => J.stringify entry.event, [])
  bytes : ∀ entry ∈ ob.pending, entry.bytes = (J.stringify entry.event ++ [newline]).length
  size : ob.checkpointOffset + ob.pendingBytes = journal.length
  entryCount : ob.journalEntryCount = ob.confirmedSinceCompaction + ob.pendingCount
  recordedCount : ob.recordedCount = recorded.length

theorem Live.consistent {ob : Outbox} {w : World String} {gone head pending : List Event}
    (h : Live J ob w gone head pending) :
    Consistent J ob (journalText J (head ++ pending)) (gone ++ head ++ pending) := by
  have hstate := h.state
  simp only [checkpointState, checkpointAt, CheckpointState.mk.injEq] at hstate
  obtain ⟨hoffset, hbase, hconfirmed⟩ := hstate
  have hsplit : ∀ es, splitLines newline (journalText J es) = (journalLines J es, []) :=
    fun es => splitLines_unlines newline (newline_not_mem_journalLines J es)
  refine ⟨⟨head.length, ?_, ?_⟩, ?_, ?_, ?_, ?_, ?_⟩
  · rw [hsplit]
    simp [journalLines]
  · rw [hsplit, hoffset, lineOffset, journalText, journalLines, journalLines, List.map_append,
      List.take_left' (by simp)]
  · rw [hoffset, journalText_append, List.drop_left, hsplit, h.queue, List.map_map]
    rfl
  · intro entry hentry
    rw [h.queue] at hentry
    obtain ⟨e, -, rfl⟩ := List.mem_map.mp hentry
    rfl
  · rw [hoffset, pendingBytes, h.queue, sum_bytes, journalText_append, List.length_append]
  · rw [h.entryCount, hconfirmed, pendingCount, h.queue, List.length_map]
  · rw [recordedCount, hbase, h.entryCount, List.length_append, List.length_append,
      Nat.add_assoc]

variable (J) in
/-- Closing and opening again, left to finish, restore queue and counts. -/
def Restores (s : Status) (ob : Outbox) : Prop :=
  ∀ limit plan plan', Uninterrupted plan → Uninterrupted plan' → ∃ s' ob' w',
    step J (.close, plan) s = (.returned 0, s') ∧
      step J (.open limit, plan') s' = (.returned 0, .up ob' w') ∧ ob'.pending = ob.pending ∧
      ob'.recordedCount = ob.recordedCount ∧ ob'.failedCount = ob.failedCount

variable (J) in
/-- An open outbox describes its journal, and its description survives being closed. -/
def Accounts (s : Status) (a : Ledger J) : Prop :=
  ∀ ob w, s = .up ob w →
    (∃ journal, w.files journalPath = some journal ∧ Consistent J ob journal a.recorded) ∧
      Restores J s ob

variable (J) in
/-- What a call may do to the recorded events: only appending adds any. -/
def RecordEffect : Action → Ending → Ledger J → Ledger J → Prop
  | .appendMany es, .returned _, a, a' => a'.recorded = a.recorded ++ es
  | .appendMany es, _, a, a' => ∃ k, a'.recorded = a.recorded ++ es.take k
  | _, _, a, a' => a'.recorded = a.recorded

theorem recordEffect_of_effect {act : Action} {ending : Ending} {a a' : Ledger J}
    (h : Effect J act ending a a') : RecordEffect J act ending a a' := by
  cases act with
  | «open» limit => exact congrArg Ledger.recorded h
  | close => exact congrArg Ledger.recorded h
  | appendMany es =>
    cases ending with
    | returned n =>
      obtain rfl := h
      exact Ledger.recorded_append a es
    | threw =>
      obtain ⟨k, rfl⟩ := h
      exact ⟨k, Ledger.recorded_append a _⟩
    | killed =>
      obtain ⟨k, rfl⟩ := h
      exact ⟨k, Ledger.recorded_append a _⟩
  | confirm count =>
    cases ending with
    | returned n =>
      obtain ⟨-, rfl⟩ := h
      exact Ledger.recorded_confirm a count
    | threw =>
      obtain rfl | ⟨-, rfl⟩ := h
      · rfl
      · exact Ledger.recorded_confirm a count
    | killed =>
      obtain rfl | ⟨-, rfl⟩ := h
      · rfl
      · exact Ledger.recorded_confirm a count
  | quarantine clock es reason detail =>
    cases ending with
    | returned n =>
      obtain ⟨-, rfl⟩ := h
      rfl
    | threw =>
      obtain ⟨k, rfl⟩ := h
      rfl
    | killed =>
      obtain ⟨k, rfl⟩ := h
      rfl

/-- A close that is left to finish returns. -/
theorem closes {ob : Outbox} {w : World String} {gone head pending : List Event}
    {plan : List Fate} (hlive : Live J ob w gone head pending) (hplan : Uninterrupted plan) :
    ∃ s', step J (.close, plan) (.up ob w) = (.returned 0, s') ∧ s'.files = w.files := by
  have hwp : wp Fate.Crash (fun r _ w' => r = .ok 0 ∧ w'.files = w.files) (fun _ => True)
      (program J .close) ob w :=
    wp_bind (wp_close hlive trivial fun _ _ _ _ _ hfiles => ⟨rfl, hfiles⟩)
  obtain ⟨n, ob', w', hrun, hn, hfiles⟩ :=
    returned_of_wp hplan hwp fun e ob w hQ => absurd hQ.1 (by simp)
  refine ⟨.up ob' w', ?_, hfiles⟩
  rw [step_eq_finish rfl, hrun, Except.ok.inj hn]
  rfl

theorem accounts_of_agrees (h : Agrees J Fate.Crash s a) : Accounts J s a := by
  rintro ob w rfl
  have hresting := h.resting
  obtain ⟨⟨gone, head, hconfirmed, hlive⟩, hknows⟩ := h
  have hcache : Cached ob a.failedIds :=
    hknows.elim And.left fun hfail => absurd hfail.1 not_mayFail_crash
  have hconsistent := hlive.consistent
  refine ⟨⟨_, hlive.journal, ?_⟩, fun limit plan plan' hplan hplan' => ?_⟩
  · rw [Ledger.recorded, hconfirmed]
    exact hconsistent
  · obtain ⟨s', hclose, hfiles⟩ := closes hlive hplan
    obtain ⟨ob', w', gone', head', hopen, hconfirmed', hlive', hcache', -⟩ :=
      opens limit (show Resting J s'.files a from hfiles ▸ hresting) hplan'
    refine ⟨s', ob', w', hclose, hopen, ?_, ?_, ?_⟩
    · rw [hlive'.queue, hlive.queue]
    · rw [hlive'.consistent.recordedCount, hconsistent.recordedCount, ← hconfirmed, ← hconfirmed']
    · rw [failedCount, hcache'.count, failedCount, hcache.count]

variable (J) in
/-- **Exact accounting.** In every run from the empty directory, with kills before, in or
after any file-system call, every open outbox describes its journal byte by byte, its
`recordedCount` is the number of events ever recorded, which only appending changes, and
closing and opening again restores queue and counts. -/
theorem exact_accounting (calls : List (Action × List Fate)) :
    Along (machine J Fate.Crash fun _ => True)
      (fun call ending _ => RecordEffect J call.1 ending) (Accounts J) calls emptyDirectory
      Ledger.empty := by
  refine along_of_invariant (Agrees J Fate.Crash) (fun _ _ => accounts_of_agrees)
    (fun call s a h hcall => ?_) resting_empty
  obtain ⟨a', heffect, h', -⟩ := agrees_step h (.inl not_mayFail_crash) hcall.2
  exact ⟨a', recordEffect_of_effect heffect, h'⟩

end Outbox
