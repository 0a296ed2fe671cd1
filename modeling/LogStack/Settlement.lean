/-
Settling a batch: what a decision does to the outbox of the sender.

* `Tended` — an open outbox that agrees with its ledger and none of whose writes has failed;
* `wp_append`, `wp_confirmed`, `wp_quarantined` — each operation moves the ledger, and a kill
  in it leaves a directory that agrees with the ledger before it or part of the way;
* `Handling` — the events that a decision gives up, and how far it moves the checkpoint;
* `wp_settle`, `wp_sendBatch` — a decision does both, in this order.
-/
import LogStack.OutboxRuns
import LogStack.CrashSafety
import LogStack.Daemon

open FileProgram KeyedInsert Outbox

namespace Sender

variable {J : JsonText} {K : Files String → Prop} {ob : Outbox} {w : World String}
  {a : Ledger J} {clock : Json → JsString}

/-! ### An outbox in use -/

variable (J) in
structure Tended (ob : Outbox) (w : World String) (a : Ledger J) : Prop where
  journal : ∃ gone head, a.confirmed = gone ++ head ∧ Live J ob w gone head a.pending
  cached : Cached ob a.failedIds
  failed : (w.files failedPath).getD [] = failedText a.failed
  opened : ob.closed = false

namespace Tended

theorem agrees (h : Tended J ob w a) : Agrees J Fate.Crash (.up ob w) a :=
  ⟨h.journal, .inl ⟨h.cached, h.failed⟩⟩

theorem resting (h : Tended J ob w a) : Resting J w.files a := h.agrees.resting

theorem pending_eq (h : Tended J ob w a) :
    ob.pending = a.pending.map fun e => entryOf J e.value := by
  obtain ⟨gone, head, -, hlive⟩ := h.journal
  exact hlive.queue

theorem pendingCount (h : Tended J ob w a) : ob.pendingCount = a.pending.length := by
  rw [Outbox.pendingCount, h.pending_eq, List.length_map]

end Tended

theorem wp_append {Q : Except Failure Unit → Outbox → World String → Prop} {es : List Event}
    (h : Tended J ob w a)
    (hK : ∀ files k, Resting J files (a.append (es.take k)) → K files)
    (hQ : ∀ ob' w', Tended J ob' w' (a.append es) → Q (.ok ()) ob' w') :
    wp Fate.Crash Q K (appendMany J (es.map Event.value)) ob w := by
  obtain ⟨⟨gone, head, hconfirmed, hlive⟩, hcached, hfailed, hopened⟩ := h
  refine wp_appendMany hlive (fun files k hother hstable => hK files k ⟨?_, [], ?_,
    List.not_mem_nil⟩) throws_crash (fun hclosed => ?_)
    fun ob' w' hlive' hcache hclosed hother => ?_
  · show Durable J files a.confirmed _
    rw [hconfirmed]
    exact hstable.durable
  · rw [hother _ (by decide), hfailed, List.append_nil]
    rfl
  · rw [hopened] at hclosed
    exact absurd hclosed Bool.false_ne_true
  · exact hQ ob' w' ⟨⟨gone, head, hconfirmed, hlive'⟩, hcached.sameCache hcache,
      by rw [hother _ (by decide), hfailed]; rfl, hclosed.trans hopened⟩

theorem wp_confirmed {Q : Except Failure Unit → Outbox → World String → Prop} {count : ℕ}
    (h : Tended J ob w a) (hcount : count ≤ a.pending.length)
    (hK : ∀ files n, n = 0 ∨ n = count → Resting J files (a.confirm n) → K files)
    (hQ : ∀ ob' w', Tended J ob' w' (a.confirm count) → Q (.ok ()) ob' w') :
    wp Fate.Crash Q K (Outbox.confirm J count) ob w := by
  obtain ⟨⟨gone, head, hconfirmed, hlive⟩, hcached, hfailed, hopened⟩ := h
  refine wp_confirm hlive (fun files n hn hdurable hfiles => hK files n (hn.imp id And.left)
    ⟨?_, [], ?_, List.not_mem_nil⟩) (fun _ _ => throws_crash) (fun e n ob' w' hn => ?_) ?_
  · show Durable J files (a.confirmed ++ _) _
    rw [hconfirmed]
    exact hdurable
  · rw [hfiles, hfailed, List.append_nil]
    rfl
  · -- neither is the count out of range nor the outbox closed
    rcases hn with ⟨-, hlt⟩ | ⟨-, -, hclosed⟩
    · omega
    · rw [hopened] at hclosed
      exact absurd hclosed Bool.false_ne_true
  · intro ob' w' gone' head' hsplit _ hlive' hcache hclosed hfiles
    refine hQ ob' w' ⟨⟨gone', head', ?_, hlive'⟩, hcached.sameCache hcache,
      by rw [hfiles, hfailed]; rfl, hclosed.trans hopened⟩
    show a.confirmed ++ _ = _
    rw [hconfirmed, hsplit]

theorem wp_quarantined {Q : Except Failure ℕ → Outbox → World String → Prop} {es : List Event}
    {reason : JsString} {detail : Detail} (h : Tended J ob w a)
    (hK : ∀ files k, Resting J files (a.fail ((newRecords J a clock es reason detail).take k)) →
      K files)
    (hQ : ∀ ob' w', Tended J ob' w' (a.fail (newRecords J a clock es reason detail)) →
      Q (.ok (firstNew Event.id a.failedIds es).length) ob' w') :
    wp Fate.Crash Q K (quarantine J clock (es.map Event.value) reason detail.fields) ob w := by
  obtain ⟨⟨gone, head, hconfirmed, hlive⟩, hcached, hfailed, hopened⟩ := h
  have hjournal : ∀ p ∈ journalPaths, p ≠ failedPath := fun p hp =>
    ne_of_mem_of_not_mem hp (by decide)
  refine wp_quarantine rfl hcached hfailed (fun files happending => ?_) throws_crash
    fun ob' w' hcached' hsame hother htext hkept => ?_
  · obtain ⟨hother, k, t, htext, ht⟩ := happending
    refine hK files k ⟨?_, t, htext, ht⟩
    show Durable J files a.confirmed a.pending
    rw [hconfirmed]
    exact hlive.stable.durable.congr fun p hp => hother p (hjournal p hp)
  · have hids : Cached ob' (a.fail (newRecords J a clock es reason detail)).failedIds := by
      show Cached ob' ((a.failed ++ _).map FailedLine.id)
      rw [List.map_append, newRecords, map_id_recordLines]
      exact hcached'
    exact hQ ob' w' ⟨⟨gone, head, hconfirmed, (hlive.congr (fun p hp => hother p (hjournal p hp))
      hkept).sameJournal hsame⟩, hids, htext, hsame.pending_eq.2.2.1.trans hopened⟩

/-! ### Decisions -/

/-- What a decision does with the events of a batch. -/
structure Handling where
  /-- The events that go to the failed journal. -/
  given : List Event
  reason : JsString
  detail : Detail
  /-- The events behind which the checkpoint moves. -/
  count : ℕ

theorem arrayIndex?_batch_id : JsString.arrayIndex? (js "batch_id") = none := by decide +kernel

theorem arrayIndex?_codes : JsString.arrayIndex? (js "codes") = none := by decide +kernel

def batchDetailOf (batchId : JsString) : Detail where
  fields := batchDetail batchId
  plain := by
    intro f hf
    obtain rfl := List.mem_singleton.mp hf
    exact ⟨arrayIndex?_batch_id, Json.plain_str batchId⟩

def rejectedDetailOf (batchId : JsString) (response : BatchResponse) : Detail where
  fields := rejectedDetail batchId response
  plain := by
    intro f hf
    simp only [rejectedDetail, List.mem_cons, List.not_mem_nil, or_false] at hf
    rcases hf with rfl | rfl
    · exact ⟨arrayIndex?_batch_id, Json.plain_str batchId⟩
    · refine ⟨arrayIndex?_codes, Json.plain_arr.mpr fun j hj => ?_⟩
      obtain ⟨r, -, rfl⟩ := List.mem_map.mp hj
      exact Json.plain_str r.code

/-- The events of a batch that a response rejects. -/
def rejectedOf (batch : List Event) (response : BatchResponse) : List Event :=
  (response.rejected.filter fun r => r.index < batch.length).filterMap fun r => batch[r.index]?

/-- Nothing happens to the batch, and it stays at the head of the queue. -/
def Handling.none (batchId : JsString) : Handling := ⟨[], [], batchDetailOf batchId, 0⟩

def handling (batchId : JsString) (batch : List Event) : AckAction → Handling
  | .confirm response =>
    ⟨rejectedOf batch response, js "rejected", rejectedDetailOf batchId response, batch.length⟩
  | .quarantineBatch =>
    ⟨batch, js "batch_malformed_400", batchDetailOf batchId, batch.length⟩
  | .split =>
    if batch.length = 1 then ⟨batch, js "oversized_413", batchDetailOf batchId, 1⟩
    else .none batchId
  | _ => .none batchId

theorem rejectedEvents_map (batch : List Event) (response : BatchResponse) :
    rejectedEvents (batch.map Event.value) response
      = (rejectedOf batch response).map Event.value := by
  simp only [rejectedEvents, rejectedOf, List.length_map, List.getElem?_map, List.map_filterMap]

theorem handling_count_le (batchId : JsString) (batch : List Event) (action : AckAction) :
    (handling batchId batch action).count ≤ batch.length := by
  cases action with
  | confirm response => exact le_rfl
  | quarantineBatch => exact le_rfl
  | split =>
    rw [handling]
    split_ifs with hone
    · exact hone.ge
    · exact Nat.zero_le _
  | resend reason => exact Nat.zero_le _
  | halt status => exact Nat.zero_le _
  | rateLimited seconds => exact Nat.zero_le _
  | backoff status => exact Nat.zero_le _

/-- The records that a decision adds to the failed journal. -/
def givenUp (a : Ledger J) (clock : Json → JsString) (h : Handling) : List (FailedLine J) :=
  newRecords J a clock h.given h.reason h.detail

/-- The ledger after a decision. -/
def handled (a : Ledger J) (clock : Json → JsString) (h : Handling) : Ledger J :=
  (a.fail (givenUp a clock h)).confirm h.count

theorem length_givenUp (a : Ledger J) (clock : Json → JsString) (h : Handling) :
    (givenUp a clock h).length = (firstNew Event.id a.failedIds h.given).length :=
  List.length_map _

theorem length_givenUp_le (h : Handling) : (givenUp a clock h).length ≤ h.given.length := by
  rw [length_givenUp]
  exact firstNew_sublist.length_le

theorem handled_none (a : Ledger J) (clock : Json → JsString) (batchId : JsString) :
    handled a clock (.none batchId) = a := by
  simp [handled, givenUp, Handling.none, newRecords, recordLines, Ledger.fail, Ledger.confirm]

/-- The ledgers that a kill in a decision can leave: some of the first records are written,
and only after all of them does the checkpoint move. -/
def PartlyHandled (a : Ledger J) (clock : Json → JsString) (h : Handling) (a' : Ledger J) : Prop :=
  (∃ k, a' = a.fail ((givenUp a clock h).take k)) ∨ a' = handled a clock h

theorem partlyHandled_self (h : Handling) : PartlyHandled a clock h a :=
  .inl ⟨0, by simp [Ledger.fail]⟩

/-- Records and checkpoint leave the recorded events as they are. -/
theorem PartlyHandled.recorded {h : Handling} {a' : Ledger J} (hpart : PartlyHandled a clock h a') :
    a'.recorded = a.recorded := by
  rcases hpart with ⟨k, rfl⟩ | rfl
  · rfl
  · exact Ledger.recorded_confirm _ _

/-- Records first, then the checkpoint. -/
theorem wp_handle {Q : Except Failure ℕ → Outbox → World String → Prop} {h : Handling}
    (htended : Tended J ob w a) (hcount : h.count ≤ a.pending.length)
    (hK : ∀ files a', PartlyHandled a clock h a' → Resting J files a' → K files)
    (hQ : ∀ ob' w', Tended J ob' w' (handled a clock h) →
      Q (.ok (givenUp a clock h).length) ob' w') :
    wp Fate.Crash Q K (do
      let quarantined ← quarantine J clock (h.given.map Event.value) h.reason h.detail.fields
      Outbox.confirm J h.count
      pure quarantined) ob w := by
  refine wp_bind (wp_quarantined htended
    (fun files k hrest => hK files _ (.inl ⟨k, rfl⟩) hrest) fun ob₁ w₁ htended₁ => ?_)
  rw [andThen_ok, ← length_givenUp a clock h]
  refine wp_bind (wp_confirmed htended₁ hcount (fun files n hn hrest => ?_)
    fun ob₂ w₂ htended₂ => hQ ob₂ w₂ htended₂)
  rcases hn with rfl | rfl
  · refine hK files _ (.inl ⟨(givenUp a clock h).length, ?_⟩) hrest
    rw [List.take_length]
    simp [Ledger.confirm, Ledger.fail, givenUp]
  · exact hK files _ (.inr rfl) hrest

theorem wp_settle {Q : Except Failure ℕ → Outbox → World String → Prop} {batchId : JsString}
    {batch : List Event} {action : AckAction} (htended : Tended J ob w a)
    (hbatch : batch.length ≤ a.pending.length)
    (hK : ∀ files a', PartlyHandled a clock (handling batchId batch action) a' →
      Resting J files a' → K files)
    (hQ : ∀ ob' w', Tended J ob' w' (handled a clock (handling batchId batch action)) →
      Q (.ok (givenUp a clock (handling batchId batch action)).length) ob' w') :
    wp Fate.Crash Q K (settle J clock batchId (batch.map Event.value) action) ob w := by
  have hcount := (handling_count_le batchId batch action).trans hbatch
  have hstay : handling batchId batch action = .none batchId → Q (.ok 0) ob w := by
    intro hnone
    have hQ' := hQ ob w
    rw [hnone, handled_none] at hQ'
    exact hQ' htended
  cases action with
  | confirm response =>
    rw [settle, quarantineRejected]
    by_cases hempty : response.rejected.isEmpty = true
    · -- nothing was rejected, so nothing is handed over
      have hgiven : rejectedOf batch response = [] := by
        rw [rejectedOf, List.isEmpty_iff.mp hempty]
        rfl
      have hnone : givenUp a clock (handling batchId batch (.confirm response)) = [] := by
        simp [givenUp, handling, hgiven, newRecords, recordLines]
      have hhandled : handled a clock (handling batchId batch (.confirm response))
          = a.confirm batch.length := by
        rw [handled, hnone]
        simp [handling, Ledger.fail, Ledger.confirm]
      rw [if_pos hempty, List.length_map]
      refine wp_bind (wp_pure (wp_bind (wp_confirmed htended hbatch (fun files n hn hrest => ?_)
        fun ob₁ w₁ htended₁ => ?_)))
      rcases hn with rfl | rfl
      · refine hK files a (partlyHandled_self _) ?_
        simpa [Ledger.confirm] using hrest
      · exact hK files _ (.inr hhandled.symm) hrest
      · have hQ' := hQ ob₁ w₁ (hhandled ▸ htended₁)
        rwa [hnone] at hQ'
    · rw [if_neg hempty, rejectedEvents_map, List.length_map]
      exact wp_handle (h := handling batchId batch (.confirm response)) htended hcount hK hQ
  | quarantineBatch =>
    rw [settle, List.length_map]
    exact wp_handle (h := handling batchId batch .quarantineBatch) htended hcount hK hQ
  | split =>
    rw [settle, List.length_map]
    by_cases hone : batch.length = 1
    · rw [if_pos hone]
      have hsplit : handling batchId batch .split
          = ⟨batch, js "oversized_413", batchDetailOf batchId, 1⟩ := by
        rw [handling, if_pos hone]
      rw [hsplit] at hcount hK hQ
      exact wp_handle (h := ⟨batch, js "oversized_413", batchDetailOf batchId, 1⟩) htended hcount
        hK hQ
    · rw [if_neg hone]
      exact hstay (by rw [handling, if_neg hone])
  | resend reason => exact hstay rfl
  | halt status => exact hstay rfl
  | rateLimited seconds => exact hstay rfl
  | backoff status => exact hstay rfl

/-! ### A batch and its answer -/

/-- The decision about an answer, if one came. -/
def decision (J : JsonText) (batchId : JsString) (batch : List Event) (reply : Option Reply) :
    Option AckAction :=
  reply.map fun reply =>
    decideAck J reply.status reply.bodyText batchId (batch.map Event.value) reply.retryAfter

/-- A request that got no answer is handled like a batch that stays. -/
def handlingOf (batchId : JsString) (batch : List Event) (action : Option AckAction) : Handling :=
  action.elim (.none batchId) (handling batchId batch)

theorem handlingOf_count_le (batchId : JsString) (batch : List Event) (action : Option AckAction) :
    (handlingOf batchId batch action).count ≤ batch.length := by
  cases action with
  | none => exact Nat.zero_le _
  | some action => exact handling_count_le batchId batch action

/-- The daemon's fields after a request. -/
def settledFields (d : SenderDaemon) (count quarantined : ℕ) (action : Option AckAction) :
    SenderDaemon :=
  let d := { d with stats := { d.stats with sendAttempts := d.stats.sendAttempts + 1 } }
  action.elim d.backOff (d.decided count quarantined)

theorem wp_sendBatch {Q : Except Failure SenderDaemon → Outbox → World String → Prop}
    {batchId : JsString} {batch : List Event} {reply : Option Reply} {d : SenderDaemon}
    (htended : Tended J ob w a) (hbatch : batch.length ≤ a.pending.length)
    (hK : ∀ files a',
      PartlyHandled a clock (handlingOf batchId batch (decision J batchId batch reply)) a' →
      Resting J files a' → K files)
    (hQ : ∀ ob' w',
      Tended J ob' w'
        (handled a clock (handlingOf batchId batch (decision J batchId batch reply))) →
      Q (.ok (settledFields d batch.length
        (givenUp a clock (handlingOf batchId batch (decision J batchId batch reply))).length
        (decision J batchId batch reply))) ob' w') :
    wp Fate.Crash Q K (sendBatch J clock batchId (batch.map Event.value) reply d) ob w := by
  cases reply with
  | none => exact hQ ob w (by rw [show handlingOf batchId batch (decision J batchId batch none)
      = .none batchId from rfl, handled_none]; exact htended)
  | some reply =>
    refine wp_bind (wp_settle htended hbatch hK fun ob' w' htended' => ?_)
    rw [andThen_ok, List.length_map]
    exact hQ ob' w' htended'

end Sender
