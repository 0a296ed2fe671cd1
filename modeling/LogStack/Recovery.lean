/-
What the pipeline recovers from, and what it does not.

Each batch is stored in one transaction, so an event that passes every check and fits no column
takes the batches that it is in with it, and stays.  Without such an event the outbox can always
be emptied: the sender starts again, and nothing fails any more.

* `Poison` — such an event;
* `Stocked` — the rows of `game_events` are about none of them;
* `Inv.run_tables` — what committed batches keep, runs keep;
* `System.round` — one request, its answer, and nothing in between;
* `Calm` — between two rounds of a sender that has just started;
* `round_progress` — a round deals with an event or splits the batch;
* `recovery` — what stays in the outbox and what can be emptied from it, after every run.
-/
import LogStack.EndToEnd
import LogStack.EventLoader
import LogStack.Bisection

open FileProgram KeyedInsert Outbox Ingestion Sender

namespace Pipeline

/-! ### Events that stay -/

section Poison

variable (J : JsonText) (L : Libraries) (pg : Postgres)

/-- The event is accepted, and one of its values fits no column. -/
def Poison (e : Event) : Prop :=
  batchBodyByteLength J [e.value] ≤ MAX_BODY_BYTES ∧
    ∃ n, normalized? L e = some n ∧ ¬InDomain pg n

/-- The rows are those of events that fit their columns. -/
def Stocked (offered : List Event) (db : Tables) : Prop :=
  ∀ row ∈ db.gameEvents, ∃ e ∈ offered, ∃ n, normalized? L e = some n ∧
    gameEventRow pg n = some row ∧ InDomain pg n

variable {J L pg} {offered : List Event} {s : System J} {a : Ledger J}

theorem Poison.not_doomed {e : Event} (h : Poison J L pg e) : ¬Doomed J L e := by
  obtain ⟨hsize, n, hn, -⟩ := h
  rintro (hnone | hlarge)
  · rw [hn] at hnone
    cases hnone
  · exact absurd hlarge (Nat.not_lt.mpr hsize)

/-- Rows come from transactions that have committed. -/
theorem Committed.stocked {es : List Event} {db : Database} {r : HttpResponse} {db' : Tables}
    (h : Committed J L pg es db r db') (hes : es ⊆ offered)
    (hstocked : Stocked L pg offered db.toTables) : Stocked L pg offered db' := by
  obtain ⟨accepted, response, reachable, hvalid, hcommits, -, rfl⟩ := h.served
  intro row hrow
  rcases mem_gameEvents_store _ _ hrow with hold | ⟨n, hnew, hbound⟩
  · exact hstocked row hold
  have haccepted : n ∈ accepted := firstNew_sublist.mem hnew
  -- a batch that commits binds every value, those of the purchases of its new events included
  have hdomain : InDomain pg n := by
    rcases hcommits with rfl | ⟨-, hstorable⟩
    · exact absurd haccepted List.not_mem_nil
    · rw [← newEvents_unique] at hnew
      exact ⟨by rw [hbound]; rfl, hstorable.purchases n hnew⟩
  rw [accepted_eq hvalid] at haccepted
  obtain ⟨raw, hraw, hevent⟩ := List.mem_filterMap.mp haccepted
  obtain ⟨value, hvalue, rfl⟩ := List.mem_map.mp hraw
  obtain ⟨e, he, rfl⟩ := List.mem_map.mp hvalue
  exact ⟨e, hes he, n, hevent, hbound, hdomain⟩

/-- Only a batch of recorded events that commits changes the tables. -/
theorem committed_serve (h : Inv L pg offered s a) (number : ℕ) (reachable : Bool)
    (refusal : Option Refusal) :
    (s.serve L pg number reachable refusal).database.toTables = s.database.toTables ∨
      ∃ es r, es ⊆ a.recorded ∧ Committed J L pg es s.database r
        (s.serve L pg number reachable refusal).database.toTables := by
  rw [System.serve]
  cases hnumber : s.requests[number]? with
  | none => exact .inl rfl
  | some request =>
    obtain ⟨es, ⟨label, hlabel⟩, hbatch, hes, hcount⟩ :=
      h.requests request (List.mem_of_getElem? hnumber)
    show (receive J L pg reachable refusal (.json request.body) _).2 = _ ∨
      ∃ es r, _ ∧ Committed J L pg es _ r 
        (receive J L pg reachable refusal (.json request.body) _).2
    rw [Request.body, hbatch, hlabel]
    have hreceive := (Prod.mk.eta (p := receive J L pg reachable refusal
      (.json (serializeBatch J label.batchId label.sentAt (es.map Event.value)))
      s.database.toTables)).symm
    rcases receive_batch label hcount hreceive with ⟨-, -, hdb⟩ | ⟨-, hdb⟩ | hcommitted
    · exact .inl hdb
    · exact .inl hdb
    · exact .inr ⟨es, _, hes, hcommitted⟩

theorem committed_step (h : Inv L pg offered s a) (action : Action J L) :
    (s.step pg action).database.toTables = s.database.toTables ∨
      ∃ es r, es ⊆ a.recorded ∧ Committed J L pg es s.database r
        (s.step pg action).database.toTables := by
  cases action with
  | serve number reachable refusal => exact committed_serve h number reachable refusal
  | «open» limit schedule => left; rw [System.step]; split <;> rfl
  | append events schedule =>
    left
    rw [System.step, System.append]
    split
    · rfl
    · split <;> rfl
  | send label =>
    left
    rw [System.step, System.send]
    split
    · rfl
    · split <;> rfl
  | receive answer retryAfter clock schedule =>
    left
    rw [System.step, System.receive]
    split
    · dsimp only
      split <;> rfl
    · rfl
  | lose clock schedule => left; rw [System.step]; split <;> rfl
  | close schedule => left; rw [System.step]; split <;> rfl
  | kill => exact .inl rfl
  | giveUp request => left; rw [System.step]; split <;> rfl

/-- **What committed batches keep, runs keep.** By induction on the run. -/
theorem Inv.run_tables {K : Tables → Prop}
    (hkeeps : ∀ (db : Database) es r db', es ⊆ offered → Committed J L pg es db r db' →
      K db.toTables → K db')
    (actions : List (Action J L)) (h : Inv L pg offered s a) (hK : K s.database.toTables)
    (hdistinct : DistinctIds offered) (hevents : actions.flatMap Action.events ⊆ offered) :
    ∃ a', Inv L pg offered (s.run pg actions) a' ∧ K (s.run pg actions).database.toTables := by
  induction actions generalizing s a with
  | nil => exact ⟨a, h, hK⟩
  | cons action actions ih =>
    rw [List.flatMap_cons] at hevents
    obtain ⟨hfirst, hrest⟩ := List.append_subset.mp hevents
    obtain ⟨a', h'⟩ := inv_step h hdistinct hfirst
    refine ih h' ?_ hrest
    rcases committed_step h action with hsame | ⟨es, r, hes, hcommitted⟩
    · rwa [hsame]
    · exact hkeeps _ es r _ (List.Subset.trans hes h.kept.recorded) hcommitted hK

theorem inv_stocked_run (actions : List (Action J L)) (h : Inv L pg offered s a)
    (hstocked : Stocked L pg offered s.database.toTables) (hdistinct : DistinctIds offered)
    (hevents : actions.flatMap Action.events ⊆ offered) :
    ∃ a', Inv L pg offered (s.run pg actions) a' ∧
      Stocked L pg offered (s.run pg actions).database.toTables :=
  h.run_tables (fun _ _ _ _ hes hcommitted => hcommitted.stocked hes) actions hstocked hdistinct
    hevents

/-- **A recorded event of this kind waits.** It is neither given up nor stored. -/
theorem Inv.poison_pending (h : Inv L pg offered s a) (hdistinct : DistinctIds offered)
    (hstocked : Stocked L pg offered s.database.toTables) {e : Event} (he : e ∈ a.recorded)
    (hpoison : Poison J L pg e) : e ∈ a.pending := by
  rcases h.kept.safe.recorded he with hpending | hfailed | ⟨-, row, hrow, hof⟩
  · exact hpending
  · exact absurd (h.kept.safe.failed hfailed).2 hpoison.not_doomed
  · obtain ⟨e', he', n', hn', hrow', hdomain⟩ := hstocked row hrow
    -- the row with its id is that of an event that fits, and no other event has this id
    have hsame : rowId e = rowId e' := by
      rw [← hof.eventId, RowOf.eventId ⟨n', hn', hrow'⟩]
    obtain rfl := hdistinct.eq (h.kept.recorded he) he' hsame
    obtain ⟨-, n, hn, hnot⟩ := hpoison
    obtain rfl := Option.some.inj (hn.symm.trans hn')
    exact absurd hdomain hnot

end Poison

/-! ### Answers -/

section Answers

variable {J : JsonText} {L : StandardLibraries} {pg : Postgres} {es : List Event}

/-- The receiver has room for a batch of ordinary events without such an event. -/
theorem status_of_clean (label : Label J L.toLibraries) (hcount : 1 ≤ es.length ∧ es.length ≤ 500)
    (hordinary : ∀ e ∈ es, ordinary 2 e.value = true)
    (hsize : batchBodyByteLength J (es.map Event.value) ≤ MAX_BODY_BYTES)
    (hclean : ∀ e ∈ es, ¬Poison J L.toLibraries pg e) (db : Database) :
    (receive J L.toLibraries pg true none
      (.json (serializeBatch J label.batchId label.sentAt (es.map Event.value)))
        db.toTables).1.status = 200 := by
  have hcopy : (L.plainToInstance
      (batchJson label.batchId label.sentAt (es.map Event.value))).isSome = true := by
    refine L.isSome_plainToInstance _ (ordinary_batchJson _ _ fun value hvalue => ?_)
    obtain ⟨e, he, rfl⟩ := List.mem_map.mp hvalue
    exact hordinary e he
  have hraws : ∀ raw ∈ raws L.toLibraries es, Copyable L.toLibraries raw := by
    intro raw hraw
    simp only [raws, List.mem_map] at hraw
    obtain ⟨_, ⟨e, he, rfl⟩, rfl⟩ := hraw
    rw [L.copyOf_ordinary e.value (ordinary_succ (ordinary_succ (hordinary e he))) e.plain]
    exact copyable_ordinary L (ordinary_succ (hordinary e he)) e.plain
  obtain ⟨accepted, rejected, hvalid⟩ := exists_validateEvents 0 hraws
  refine status_of_inDomain label hcount hcopy hsize hvalid (fun n hn => ?_) db
  rw [accepted_eq hvalid] at hn
  obtain ⟨raw, hraw, hevent⟩ := List.mem_filterMap.mp hn
  simp only [raws, List.mem_map] at hraw
  obtain ⟨_, ⟨e, he, rfl⟩, rfl⟩ := hraw
  by_contra hnot
  have hroom := batchBodyByteLength_singleton_le (J := J)
    (List.mem_map_of_mem (f := Event.value) he)
  exact hclean e he ⟨hroom.trans hsize, n, hevent, hnot⟩

/-- What the sender does about its answer. -/
theorem decision_of_clean (label : Label J L.toLibraries)
    (hcount : 1 ≤ es.length ∧ es.length ≤ 500) (hordinary : ∀ e ∈ es, ordinary 2 e.value = true)
    (hclean : ∀ e ∈ es, ¬Poison J L.toLibraries pg e) (db : Database) {r : HttpResponse}
    (hr : (receive J L.toLibraries pg true none
      (.json (serializeBatch J label.batchId label.sentAt (es.map Event.value)))
        db.toTables).1 = r) :
    decision J label.batchId es (some ⟨r.status, r.body, none⟩) = some .split ∨
      ∃ response, decision J label.batchId es (some ⟨r.status, r.body, none⟩)
        = some (.confirm response) := by
  by_cases hsize : batchBodyByteLength J (es.map Event.value) ≤ MAX_BODY_BYTES
  · right
    have hstatus := status_of_clean label hcount hordinary hsize hclean db
    obtain ⟨response, hconfirm⟩ := decideAck_of_served (r := r) none
      (Prod.ext hr rfl : receive J L.toLibraries pg true none _ db.toTables = (r, _))
      (hr ▸ hstatus)
    exact ⟨response, congrArg some hconfirm⟩
  · left
    have hlarge : r.status = 413 := by
      rw [← hr, receive, if_pos ((tooLarge_serializeBatch label).mpr (Nat.lt_of_not_le hsize))]
      rfl
    rw [decision, Option.map_some, hlarge, decideAck_413]

end Answers

/-! ### Rounds -/

section Rounds

variable {J : JsonText} {L : Libraries} (pg : Postgres)

namespace System

/-- A pass of the loop; its request arrives and is answered, and the answer comes back. -/
def round (label : Label J L) (clock : Json → JsString) (s : System J) : System J :=
  s.run pg [.send label, .serve s.requests.length true none,
    .receive s.answers.length none clock .quiet]

/-- The sender is killed and starts again. -/
def restart (L : Libraries) (limit : ℕ) (s : System J) : System J :=
  s.run (L := L) pg [.kill, .open limit .quiet]

def rounds (labels : ℕ → Label J L) (clock : Json → JsString) : ℕ → System J → System J
  | 0, s => s
  | n + 1, s => rounds (fun k => labels (k + 1)) clock n (s.round pg (labels 0) clock)

end System

/-- Between two rounds: the process is up, waits for no answer and has not been refused. -/
structure Calm (L : Libraries) (offered : List Event) (s : System J) (loop : SendLoop J)
    (a : Ledger J) : Prop where
  inv : Inv L pg offered s a
  process : s.process = .up loop
  inFlight : loop.inFlight = none
  running : loop.daemon.authHalted = false

variable {pg} {offered : List Event} {s : System J} {loop : SendLoop J} {a : Ledger J}

theorem uninterrupted_nil : Uninterrupted [] := fun _ hf => absurd hf List.not_mem_nil

/-- A directory that is opened without a failure. -/
theorem open_quiet (limit : ℕ) {files : Files String} (h : Resting J files a) :
    ∃ ob w, (Process.open limit .quiet files : Process J)
      = .up { outbox := ob, world := w } := by
  have hthrow : ∀ e ob w, ¬∃ x, (Except.error e : Except Failure Unit) = .ok x ∧
      Tended J ob w a := by
    rintro e ob w ⟨x, hx, -⟩
    cases hx
  obtain ⟨_, ob, w, hrun, -⟩ := returned_of_wp uninterrupted_nil (wp_open_tended limit h) hthrow
  refine ⟨ob, w, ?_⟩
  rw [Process.open, Schedule.quiet, hrun]
  rfl

theorem Inv.restart (h : Inv L pg offered s a) (limit : ℕ) :
    ∃ loop, Calm pg L offered (s.restart pg L limit) loop a ∧
      loop.daemon.splitSegments = [] ∧ (s.restart pg L limit).returned = s.returned := by
  have hrest : Resting J s.process.files a := h.agrees.resting
  obtain ⟨hagrees, hnone⟩ := agrees_open limit .quiet hrest
  obtain ⟨ob, w, hopen⟩ := open_quiet limit hrest
  refine ⟨{ outbox := ob, world := w }, ⟨?_, hopen, rfl, rfl⟩, rfl, rfl⟩
  exact h.sender h.kept hagrees (.inl hnone) (List.Subset.refl _) h.returned

end Rounds

/-! ### One round -/

section Progress

variable {J : JsonText} {L : StandardLibraries} {pg : Postgres} {offered : List Event}
  {s : System J} {loop : SendLoop J} {a : Ledger J} {clock : Json → JsString}

theorem Process.eq_up {process : Process J} (h : process.loop? = some loop) :
    process = .up loop := by
  cases process with
  | down files => cases h
  | up loop' => exact congrArg Process.up (Option.some.inj h)

/-- The outbox says what is pending. -/
theorem pending_eq_of_tended {a' : Ledger J} {ob : Outbox} {w : World String}
    (h : Tended J ob w a) (h' : Tended J ob w a') : a.pending = a'.pending := by
  have hsame : a.pending.map Event.value = a'.pending.map Event.value := by
    have hentries := congrArg (List.map PendingEntry.event) (h.pending_eq.symm.trans h'.pending_eq)
    rwa [List.map_map, List.map_map] at hentries
  exact Event.value_injective.list_map hsame

/-- A confirmation and a split leave fewer events, or more segments. -/
theorem settled_progress {d : SenderDaemon} {batch : List Event} {pendingCount : ℕ}
    (hhead : InHead d.splitSegments pendingCount batch.length)
    (hle : batch.length ≤ pendingCount) (batchId : JsString) (quarantined : ℕ)
    {action : Option AckAction}
    (haction : action = some .split ∨ ∃ response, action = some (.confirm response)) :
    (settledFields d batch.length quarantined action).authHalted = d.authHalted ∧
      2 * (pendingCount - (handlingOf batchId batch action).count) + d.splitSegments.length
        < 2 * pendingCount
          + (settledFields d batch.length quarantined action).splitSegments.length := by
  have hpos := hhead.pos
  have hadvance := length_le_advance hhead
  rcases haction with rfl | ⟨response, rfl⟩
  · by_cases hone : batch.length = 1
    · -- one event that is too large is given up
      rw [hone] at hadvance hle
      have hcount : (handlingOf batchId batch (some .split)).count = 1 := by
        simp [handlingOf, handling, hone]
      have hfields : settledFields d batch.length quarantined (some .split)
          = SenderDaemon.advance { d with stats := { d.stats with
              sendAttempts := d.stats.sendAttempts + 1 } } 1 quarantined := by
        simp [settledFields, SenderDaemon.decided, hone]
      rw [hcount, hfields]
      refine ⟨rfl, ?_⟩
      simp only [SenderDaemon.advance]
      omega
    · have hcount : (handlingOf batchId batch (some .split)).count = 0 := by
        simp [handlingOf, handling, hone, Handling.none]
      have hsegments := length_lt_split d.splitSegments (show 2 ≤ batch.length by omega)
      simp only [settledFields, Option.elim_some, SenderDaemon.decided, if_neg hone, true_and]
      rw [hcount]
      omega
  · have hcount : (handlingOf batchId batch (some (.confirm response))).count = batch.length :=
      rfl
    simp only [settledFields, Option.elim_some, SenderDaemon.decided, SenderDaemon.advance,
      true_and]
    rw [hcount]
    omega

variable (pg clock) in
/-- The request of a round, its answer and the end of its batch. -/
theorem round_eq {L : Libraries} {label : Label J L} (hprocess : s.process = .up loop)
    (hnone : loop.inFlight = none) {request : Request J}
    (hsend : loop.send label.toStamp = { loop with inFlight := some request }) {r : HttpResponse}
    (hr : (receive J L pg true none (.json request.body) s.database.toTables).1 = r) :
    (s.round pg label clock).process
        = .settle clock (some ⟨r.status, r.body, none⟩) .quiet
            { loop with inFlight := some request } ∧
      (s.round pg label clock).returned = s.returned := by
  have hfirst : s.send label = { s with
      process := .up { loop with inFlight := some request }
      requests := s.requests ++ [request] } := by
    rw [System.send, hprocess]
    simp only [hnone, hsend, Option.isSome_none, Bool.false_eq_true, if_false,
      Option.toList_some]
  have hsecond : ((s.send label).serve L pg s.requests.length true none).answers
      = s.answers ++ [(s.requests.length, r)] := by
    rw [hfirst, System.serve]
    simp only [List.getElem?_concat_length, hr]
  -- serving leaves the process as it is
  have hkept : ((s.send label).serve L pg s.requests.length true none).process
        = .up { loop with inFlight := some request } ∧
      ((s.send label).serve L pg s.requests.length true none).requests
        = s.requests ++ [request] ∧
      ((s.send label).serve L pg s.requests.length true none).returned = s.returned := by
    rw [hfirst, System.serve]
    simp only [List.getElem?_concat_length, and_self]
  have hround : s.round pg label clock
      = ((s.send label).serve L pg s.requests.length true none).receive s.answers.length none
          clock .quiet := rfl
  rw [hround, System.receive, hkept.1, hsecond, List.getElem?_concat_length]
  simp only [hkept.2.1, List.length_append, List.length_singleton, if_true, hkept.2.2, and_self]

variable (clock) in
/-- **A round deals with an event or splits the batch.** -/
theorem round_progress (h : Calm pg L.toLibraries offered s loop a)
    (hdistinct : DistinctIds offered) (hordinary : ∀ e ∈ a.pending, ordinary 2 e.value = true)
    (hclean : ∀ e ∈ a.pending, ¬Poison J L.toLibraries pg e) (hne : a.pending ≠ [])
    (label : Label J L.toLibraries) :
    ∃ loop' a', Calm pg L.toLibraries offered (s.round pg label clock) loop' a' ∧
      a'.pending ⊆ a.pending ∧
      2 * a'.pending.length + loop.daemon.splitSegments.length
        < 2 * a.pending.length + loop'.daemon.splitSegments.length ∧
      (s.round pg label clock).returned = s.returned := by
  obtain ⟨hloop, hcapped⟩ : (Process.up loop).Agrees a := h.process ▸ h.inv.agrees
  -- the request
  obtain ⟨n, hpos, -, hpeek⟩ := peekBatch_inHead hloop
  have hbatch : loop.peekBatch.isEmpty = false := by
    obtain ⟨e, es, hes⟩ := List.exists_cons_of_ne_nil hne
    obtain ⟨m, rfl⟩ := Nat.exists_eq_succ_of_ne_zero (hpos hne).ne'
    rw [hpeek, hes]
    rfl
  have hsend : loop.send label.toStamp
      = { loop with inFlight := some ⟨label.toStamp, loop.peekBatch⟩ } := by
    rw [SendLoop.send, h.inFlight, h.running, hbatch]
    rfl
  have hsent := send_step hloop label.toStamp
  rw [hsend] at hsent
  obtain ⟨hprocess, hreturned⟩ :=
    round_eq pg clock h.process h.inFlight hsend rfl
  set r := (receive J L.toLibraries pg true none
    (.json (Request.body ⟨label.toStamp, loop.peekBatch⟩)) s.database.toTables).1 with hr
  -- its answer
  obtain ⟨batch, hprefix, hevents, hhead, ob, w, hstep, hloop'⟩ :=
    answer_step clock hsent rfl (some ⟨r.status, r.body, none⟩) uninterrupted_nil
  have hcount : 1 ≤ batch.length ∧ batch.length ≤ 500 := by
    refine ⟨hhead.pos, ?_⟩
    have hlength : batch.length = loop.peekBatch.length := by
      rw [show loop.peekBatch = batch.map Event.value from hevents, List.length_map]
    rw [hlength]
    exact (length_peekBatch_le _ _ _ _).trans hcapped.currentBatchCap
  have hsub : batch ⊆ a.pending := hprefix.subset
  have haction := decision_of_clean label hcount (fun e he => hordinary e (hsub he))
    (fun e he => hclean e (hsub he)) s.database (r := r) (by
      rw [hr, Request.body, show loop.peekBatch = batch.map Event.value from hevents])
  -- the process goes on with what is left
  have hsettled := ((loopStep_eq (L := L.toLibraries) clock .quiet
    (s := { s with process := .up { loop with
      inFlight := some ⟨label.toStamp, loop.peekBatch⟩ } }) rfl).2.2
    (some ⟨r.status, r.body, none⟩)).symm.trans hstep
  have hup := hprocess.trans (Process.eq_up hsettled)
  obtain ⟨a', h'⟩ : ∃ a', Inv L.toLibraries pg offered (s.round pg label clock) a' :=
    inv_receive (inv_serve (inv_send h.inv label) hdistinct s.requests.length true none) hdistinct
      s.answers.length none clock .quiet
  obtain ⟨hloop'', -⟩ : (Process.up _).Agrees a' := hup ▸ h'.agrees
  have hpending := pending_eq_of_tended hloop''.tended hloop'.tended
  obtain ⟨hrunning, hless⟩ :=
    settled_progress hhead hprefix.length_le label.batchId _ haction
  have hdrop : a'.pending = a.pending.drop
      (handlingOf label.batchId batch
        (decision J label.batchId batch (some ⟨r.status, r.body, none⟩))).count := hpending
  refine ⟨_, a', ⟨h', hup, rfl, hrunning.trans h.running⟩, ?_, ?_, hreturned⟩
  · rw [hdrop]
    exact List.drop_subset _ _
  · rw [hdrop, List.length_drop]
    exact hless


variable (clock) in
/-- By induction on what is left. -/
theorem exists_rounds (h : Calm pg L.toLibraries offered s loop a)
    (hdistinct : DistinctIds offered) (hordinary : ∀ e ∈ a.pending, ordinary 2 e.value = true)
    (hclean : ∀ e ∈ a.pending, ¬Poison J L.toLibraries pg e)
    (labels : ℕ → Label J L.toLibraries) :
    ∃ n ≤ 2 * a.pending.length - loop.daemon.splitSegments.length, ∃ loop' a',
      Calm pg L.toLibraries offered (s.rounds pg labels clock n) loop' a' ∧ a'.pending = [] ∧
      (s.rounds pg labels clock n).returned = s.returned := by
  generalize hleft : 2 * a.pending.length - loop.daemon.splitSegments.length = left
  induction left using Nat.strong_induction_on generalizing s loop a labels with
  | _ left ih =>
    by_cases hempty : a.pending = []
    · exact ⟨0, Nat.zero_le _, loop, a, h, hempty, rfl⟩
    obtain ⟨loop', a', h', hsub, hless, hreturned⟩ :=
      round_progress clock h hdistinct hordinary hclean hempty (labels 0)
    -- every segment lies in the queue, so that the difference does not come to an end too early
    obtain ⟨hloop', -⟩ : (Process.up loop').Agrees a' := h'.process ▸ h'.inv.agrees
    have hsegments := hloop'.plan.length_le
    obtain ⟨n, hn, loop'', a'', h'', hnil, hreturned'⟩ := ih _ (by omega) h'
      (fun e he => hordinary e (hsub he)) (fun e he => hclean e (hsub he))
      (fun k => labels (k + 1)) rfl
    exact ⟨n + 1, by omega, loop'', a'', h'', hnil, hreturned'.trans hreturned⟩

end Progress

/-! ### Recovery -/

section Recovery

variable {J : JsonText}

/-- Nothing waits, and every event is where its verdict puts it. -/
structure Cleared (L : Libraries) (pg : Postgres) (s : System J) : Prop where
  queue : s.process.Shows []
  given_up : ∀ e ∈ s.returned, s.HasRecord e ↔ Doomed J L e
  stored : ∀ e ∈ s.returned, s.HasRow L pg e ↔ ¬Doomed J L e

/-- What becomes of a queue. -/
structure Prospects (L : Libraries) (pg : Postgres) (s : System J) (queue : List Event) :
    Prop where
  shows : s.process.Shows queue
  /-- An event that fits no column is in it. -/
  waits : ∀ e ∈ s.returned, Poison J L pg e → e ∈ queue
  /-- Without such an event a restart and a few requests empty it. -/
  drains : (∀ e ∈ queue, ¬Poison J L pg e) →
    ∀ limit (labels : ℕ → Label J L) (clock : Json → JsString), ∃ n ≤ 2 * queue.length,
      Cleared L pg ((s.restart pg L limit).rounds pg labels clock n) ∧
        ((s.restart pg L limit).rounds pg labels clock n).returned = s.returned

variable {L : Libraries} {pg : Postgres} {offered : List Event} {s : System J} {a : Ledger J}

theorem Inv.cleared (h : Inv L pg offered s a) (hempty : a.pending = []) : Cleared L pg s where
  queue := hempty ▸ h.shows
  given_up := by
    intro e he
    have hrecorded := h.returned he
    rw [h.hasRecord_iff]
    constructor
    · exact fun hrecord => (h.kept.safe.failed ⟨hrecorded, hrecord⟩).2
    · intro hdoomed
      rcases h.kept.safe.recorded hrecorded with hpending | hfailed | hstored
      · exact absurd (hempty ▸ hpending : e ∈ []) List.not_mem_nil
      · exact hfailed.2
      · exact absurd hdoomed (h.kept.safe.stored hstored).2
  stored := by
    intro e he
    have hrecorded := h.returned he
    constructor
    · exact fun hrow => (h.kept.safe.stored ⟨hrecorded, hrow⟩).2
    · intro hfine
      rcases h.kept.safe.recorded hrecorded with hpending | hfailed | hstored
      · exact absurd (hempty ▸ hpending : e ∈ []) List.not_mem_nil
      · exact absurd (h.kept.safe.failed hfailed).2 hfine
      · exact hstored.2

theorem Inv.prospects {L : StandardLibraries} (h : Inv L.toLibraries pg offered s a)
    (hdistinct : DistinctIds offered) (hordinary : ∀ e ∈ offered, ordinary 2 e.value = true)
    (hstocked : Stocked L.toLibraries pg offered s.database.toTables) :
    Prospects L.toLibraries pg s a.pending where
  shows := h.shows
  waits := fun e he => h.poison_pending hdistinct hstocked (h.returned he)
  drains := by
    intro hclean limit labels clock
    obtain ⟨loop, hcalm, hsegments, hreturned⟩ := h.restart limit
    have hplain : ∀ e ∈ a.pending, ordinary 2 e.value = true := fun e he =>
      hordinary e (h.kept.recorded (pending_subset a he))
    obtain ⟨n, hn, loop', a', hcalm', hempty, hreturned'⟩ :=
      exists_rounds clock hcalm hdistinct hplain hclean labels
    rw [hsegments] at hn
    exact ⟨n, hn, hcalm'.inv.cleared hempty, hreturned'.trans hreturned⟩

variable (pg) in
/-- The steps do not look at the events that were returned. -/
theorem step_returned (s : System J) (r : List Event) (hr : s.returned ⊆ r) (action : Action J L) :
    ∃ r', ({ s with returned := r } : System J).step pg action
        = { s.step pg action with returned := r' } ∧ r ⊆ r' ∧
      (s.step pg action).returned ⊆ r' := by
  have hsame := List.Subset.refl r
  obtain ⟨process, requests, answers, database, returned⟩ := s
  cases action with
  | «open» limit schedule => cases process <;> exact ⟨r, rfl, hsame, hr⟩
  | append events schedule =>
    cases process with
    | down files => exact ⟨r, rfl, hsame, hr⟩
    | up loop =>
      simp only [System.step, System.append]
      cases FileProgram.run (appendMany J (events.map Event.value)) schedule.fates loop.outbox
        loop.world with
      | returned x ob w =>
        exact ⟨r ++ events, rfl, List.subset_append_left _ _, List.append_subset.mpr
          ⟨List.Subset.trans hr (List.subset_append_left _ _), List.subset_append_right _ _⟩⟩
      | threw e ob w => exact ⟨r, rfl, hsame, hr⟩
      | killed files => exact ⟨r, rfl, hsame, hr⟩
  | send label =>
    cases process with
    | down files => exact ⟨r, rfl, hsame, hr⟩
    | up loop =>
      simp only [System.step, System.send]
      split_ifs <;> exact ⟨r, rfl, hsame, hr⟩
  | receive answer retryAfter clock schedule =>
    cases process with
    | down files => exact ⟨r, rfl, hsame, hr⟩
    | up loop =>
      simp only [System.step, System.receive]
      cases answers[answer]? with
      | none => exact ⟨r, rfl, hsame, hr⟩
      | some reply => dsimp only; split_ifs <;> exact ⟨r, rfl, hsame, hr⟩
  | lose clock schedule => cases process <;> exact ⟨r, rfl, hsame, hr⟩
  | close schedule => cases process <;> exact ⟨r, rfl, hsame, hr⟩
  | kill => exact ⟨r, rfl, hsame, hr⟩
  | serve number reachable refusal =>
    simp only [System.step, System.serve]
    cases requests[number]? <;> exact ⟨r, rfl, hsame, hr⟩
  | giveUp request =>
    simp only [System.step]
    split_ifs <;> exact ⟨r, rfl, hsame, hr⟩

variable (pg) in
theorem run_returned (s : System J) (r : List Event) (hr : s.returned ⊆ r)
    (actions : List (Action J L)) :
    ∃ r', ({ s with returned := r } : System J).run pg actions
        = { s.run pg actions with returned := r' } ∧ r ⊆ r' ∧
      (s.run pg actions).returned ⊆ r' := by
  induction actions generalizing s r with
  | nil => exact ⟨r, rfl, List.Subset.refl r, hr⟩
  | cons action actions ih =>
    obtain ⟨r₁, hstep, hgrows, hr₁⟩ := step_returned pg s r hr action
    obtain ⟨r₂, hrun, hgrows', hr₂⟩ := ih (s.step pg action) r₁ hr₁
    refine ⟨r₂, ?_, List.Subset.trans hgrows hgrows', hr₂⟩
    rw [System.run, List.foldl_cons, hstep]
    exact hrun

/-- Later ledgers hold what was recorded. -/
theorem Inv.later (h : Inv L pg offered s a) (more : List (Action J L))
    (hstocked : Stocked L pg offered s.database.toTables) (hdistinct : DistinctIds offered)
    (hevents : more.flatMap Action.events ⊆ offered) :
    ∃ a', Inv L pg offered (s.run pg more) a' ∧ a.recorded ⊆ a'.recorded ∧
      Stocked L pg offered (s.run pg more).database.toTables := by
  -- as if every append had returned, also those that were killed
  have hall : Inv L pg offered { s with returned := a.recorded } a :=
    { h with returned := List.Subset.refl _ }
  obtain ⟨a', h', hstocked'⟩ := inv_stocked_run more hall hstocked hdistinct hevents
  obtain ⟨r, hrun, hgrows, hreturned⟩ := run_returned pg s a.recorded h.returned more
  rw [hrun] at h' hstocked'
  exact ⟨a', { h' with returned := List.Subset.trans hreturned h'.returned },
    List.Subset.trans hgrows h'.returned, hstocked'⟩

/-- **What the pipeline recovers from.** After every run of sender, network and receiver, and
every later run: an event that the receiver accepts and that fits no column is in the outbox, and
whatever else happens it stays there. Without such an event, one restart and at most two requests
for each event that waits empty the outbox, and then each event is where its verdict puts it. -/
theorem recovery (J : JsonText) (L : StandardLibraries) (pg : Postgres)
    (actions more : List (Action J L.toLibraries))
    (hdistinct : DistinctIds ((actions ++ more).flatMap Action.events))
    (hordinary : ∀ e ∈ (actions ++ more).flatMap Action.events, ordinary 2 e.value = true) :
    ∃ queue queue', Prospects L.toLibraries pg ((System.start J).run pg actions) queue ∧
      Prospects L.toLibraries pg ((System.start J).run pg (actions ++ more)) queue' ∧
      ∀ e ∈ queue, Poison J L.toLibraries pg e → e ∈ queue' := by
  have hevents := List.Subset.refl ((actions ++ more).flatMap Action.events)
  rw [List.flatMap_append] at hevents
  obtain ⟨hfirst, hrest⟩ := List.append_subset.mp hevents
  rw [← List.flatMap_append] at hfirst hrest
  have hstart : Inv L.toLibraries pg ((actions ++ more).flatMap Action.events) (System.start J)
      Outbox.Ledger.empty := inv_start
  obtain ⟨a, h, hstocked⟩ := inv_stocked_run actions hstart
    (fun row hrow => absurd hrow List.not_mem_nil) hdistinct hfirst
  obtain ⟨a', h', hgrows, hstocked'⟩ := h.later more hstocked hdistinct hrest
  have hrun : ((System.start J).run pg actions).run pg more
      = (System.start J).run pg (actions ++ more) := by
    rw [System.run, System.run, System.run, List.foldl_append]
  rw [hrun] at h' hstocked'
  refine ⟨a.pending, a'.pending, h.prospects hdistinct hordinary hstocked,
    h'.prospects hdistinct hordinary hstocked', fun e he hpoison => ?_⟩
  exact h'.poison_pending hdistinct hstocked' (hgrows (pending_subset a he)) hpoison

/-! ### An order that is too large -/

theorem plain_samplePurchase (quantity : ℕ) : (samplePurchase quantity).Plain := by
  refine plain_sampleEvent _ _ ?_
  have hkeys : [js "order_id", js "product_id", js "product_name", js "quantity",
      js "amount_minor", js "currency"].Pairwise
        (fun k l => JsString.keyBefore k l = true) := by decide +kernel
  refine Json.plain_obj.mpr ⟨hkeys, fun f hf => ?_⟩
  simp only [List.mem_cons, List.not_mem_nil, or_false] at hf
  rcases hf with rfl | rfl | rfl | rfl | rfl | rfl
  · exact Json.plain_str _
  · exact Json.plain_str _
  · exact Json.plain_str _
  · exact Json.plain_nat _
  · exact Json.plain_nat _
  · exact Json.plain_str _

theorem isEventRecord_samplePurchase : isEventRecord (samplePurchase 3000000000) = true := by
  decide +kernel

def largeOrder : Event :=
  ⟨samplePurchase 3000000000, plain_samplePurchase _, isEventRecord_samplePurchase⟩

theorem poison_largeOrder :
    Poison compactJson standardLibraries.toLibraries samplePostgres largeOrder := by
  refine ⟨by decide +kernel, ?_⟩
  obtain ⟨n, hn, hnot⟩ : ∃ n, validateEvent standardLibraries.toLibraries
      (standardLibraries.copyOf largeOrder.value) = some (.accepted n) ∧
        ¬InDomain samplePostgres n := exists_accepted (by decide +kernel)
  exact ⟨n, acceptedEvent?_eq_some.mpr hn, hnot⟩

theorem not_poison_loginEvent :
    ¬Poison compactJson standardLibraries.toLibraries samplePostgres loginEvent := by
  rintro ⟨-, n, hn, hnot⟩
  obtain ⟨n', hn', hdomain⟩ : ∃ n, validateEvent standardLibraries.toLibraries
      (standardLibraries.copyOf loginEvent.value) = some (.accepted n) ∧
        InDomain samplePostgres n := exists_accepted (by decide +kernel)
  obtain rfl := Option.some.inj (hn.symm.trans (acceptedEvent?_eq_some.mpr hn'))
  exact hnot hdomain

theorem eq_of_stringify {e e' : Event} (h : J.stringify e.value = J.stringify e'.value) :
    e = e' := by
  have hvalue := congrArg J.parse h
  rw [J.parse_stringify _ e.plain, J.parse_stringify _ e'.plain] at hvalue
  exact Event.value_injective (Option.some.inj hvalue)

/-- What the queue of a process has as texts. -/
def Process.texts : Process J → Option (List Bytes)
  | .down _ => none
  | .up loop => some (loop.outbox.pending.map fun entry => J.stringify entry.event)

theorem Process.Shows.texts_eq {process : Process J} {queue : List Event} {texts : List Bytes}
    (h : process.Shows queue) (htexts : process.texts = some texts) :
    queue.map (fun e => J.stringify e.value) = texts := by
  cases process with
  | down files => cases htexts
  | up loop =>
    have hheld := congrArg (List.map J.stringify) (h.held loop rfl)
    rw [List.map_map, List.map_map] at hheld
    exact hheld.symm.trans (Option.some.inj htexts)

/-- It is recorded behind a login. -/
def largeOrderRun : List (Action compactJson standardLibraries.toLibraries) :=
  [.open 8 .quiet, .append [loginEvent, largeOrder] .quiet]

def loginRun : List (Action compactJson standardLibraries.toLibraries) :=
  [.open 8 .quiet, .append [loginEvent] .quiet]

/-- It still waits after the sender has been killed; a login alone is gone after a restart and two
requests. -/
theorem recovery_largeOrder :
    (∃ queue, ((System.start compactJson).run samplePostgres
        (largeOrderRun ++ [.kill])).process.Shows queue ∧ largeOrder ∈ queue) ∧
      ∃ n ≤ 2, Cleared standardLibraries.toLibraries samplePostgres
        ((((System.start compactJson).run samplePostgres loginRun).restart samplePostgres
          standardLibraries.toLibraries 8).rounds samplePostgres
            (fun _ => templateLabel compactJson standardLibraries) (fun _ => newYear) n) := by
  constructor
  · obtain ⟨queue, queue', hqueue, hqueue', hstays⟩ := recovery compactJson standardLibraries
      samplePostgres largeOrderRun [.kill] (show List.Nodup _ by decide +kernel)
      (by decide +kernel)
    have hreturned : compactJson.stringify largeOrder.value ∈ ((System.start compactJson).run
        samplePostgres largeOrderRun).returned.map fun e => compactJson.stringify e.value := by
      decide +kernel
    obtain ⟨e, he, htext⟩ := List.mem_map.mp hreturned
    obtain rfl := eq_of_stringify htext
    exact ⟨queue', hqueue'.shows,
      hstays _ (hqueue.waits _ he poison_largeOrder) poison_largeOrder⟩
  · obtain ⟨queue, -, hqueue, -, -⟩ := recovery compactJson standardLibraries samplePostgres
      loginRun [] (show List.Nodup _ by decide +kernel) (by decide +kernel)
    have htexts : queue.map (fun e => compactJson.stringify e.value)
        = [compactJson.stringify loginEvent.value] :=
      hqueue.shows.texts_eq (by decide +kernel)
    have hlength : queue.length = 1 := by
      have hone := congrArg List.length htexts
      rwa [List.length_map] at hone
    have hclean : ∀ e ∈ queue,
        ¬Poison compactJson standardLibraries.toLibraries samplePostgres e := by
      intro e he
      have hmem : compactJson.stringify e.value ∈ [compactJson.stringify loginEvent.value] :=
        htexts ▸ List.mem_map_of_mem he
      obtain rfl := eq_of_stringify (List.mem_singleton.mp hmem)
      exact not_poison_loginEvent
    obtain ⟨n, hn, hcleared, -⟩ := hqueue.drains hclean 8
      (fun _ => templateLabel compactJson standardLibraries) fun _ => newYear
    exact ⟨n, hn.trans (by rw [hlength]), hcleared⟩

end Recovery

end Pipeline
