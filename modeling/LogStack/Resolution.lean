/-
How the sender resolves the events of a batch.

* `Fair` — a decision gives up doomed events only, and moves the checkpoint behind events that
  it gives up or that are stored;
* `fair_of_truthful` — a truthful answer is decided so.
-/
import LogStack.Custody
import LogStack.SendLoop
import LogStack.Verdicts

open FileProgram Lines KeyedInsert Outbox Ingestion Sender
open Json (string? array?)

namespace Pipeline

/-! ### Decisions -/

section Decisions

variable {J : JsonText} {L : Libraries} {pg : Postgres} {es : List Event} {db : Tables}
  {r : HttpResponse} {batchId : JsString} {expected items : List Json}

/-- The positions that the sender reads are those in the entries. By induction on the entries. -/
theorem indexes_of_validateRejected {seen : List ℕ} {entries : List RejectedEntry}
    (h : validateRejected expected seen items = .ok entries) :
    List.Forall₂ (fun item entry =>
      Json.nonNegativeInteger (item.get? (js "index")) = some entry.index) items entries := by
  induction items generalizing seen entries with
  | nil =>
    obtain rfl := Except.ok.inj h
    exact .nil
  | cons item items ih =>
    rw [validateRejected] at h
    cases hentry : rejectedEntry? expected seen item with
    | none => rw [hentry] at h; cases h
    | some entry =>
      simp only [hentry] at h
      split_ifs at h with hsame
      cases hrest : validateRejected expected (entry.index :: seen) items with
      | error reason => rw [hrest] at h; cases h
      | ok rest =>
        rw [hrest] at h
        obtain rfl := Except.ok.inj h
        refine .cons ?_ (ih hrest)
        -- the entry that was accepted carries the index that was read
        unfold rejectedEntry? at hentry
        split at hentry
        · rename_i index code message hindex hcode hmessage
          split_ifs at hentry
          rw [hindex, ← Option.some.inj hentry]
        · cases hentry

theorem map_index_of_toJson {rejections : List RejectedEvent} {entries : List RejectedEntry}
    (h : List.Forall₂ (fun rejected entry =>
      Json.nonNegativeInteger (rejected.toJson.get? (js "index"))
        = some (RejectedEntry.index entry)) rejections entries) :
    entries.map RejectedEntry.index = rejections.map RejectedEvent.index := by
  induction h with
  | nil => rfl
  | @cons rejected entry _ _ hindex _ ih =>
    rw [rejected.get?_index, Json.nonNegativeInteger_nat] at hindex
    rw [List.map_cons, List.map_cons, ih, Option.some.inj hindex]

theorem rejected_of_bodyFields? {response : EventBatchResponse} {body : BodyFields}
    (h : bodyFields? response.toJson = some body) :
    body.rejected = response.rejected.map RejectedEvent.toJson := by
  have hrejected : response.toJson.get? (js "rejected")
      = some (.arr (response.rejected.map RejectedEvent.toJson)) := rfl
  simp only [bodyFields?, Option.bind_eq_bind, Option.bind_eq_some_iff, hrejected, array?,
    Option.pure_def, Option.some.injEq, exists_eq_left'] at h
  obtain ⟨_, -, _, -, _, -, _, -, _, -, _, -, rfl⟩ := h
  rfl

/-- The sender confirms a response with the positions that the receiver rejects. -/
theorem indexes_of_confirm {response : EventBatchResponse} {result : BatchResponse}
    {retryAfter : Option ℚ} (h : decideAck J 200 (J.stringify response.toJson) batchId expected
      retryAfter = .confirm result) :
    result.rejected.map RejectedEntry.index = response.rejected.map RejectedEvent.index := by
  simp only [decideAck, if_true, parseBatchResponse, J.parse_stringify _ response.plain] at h
  cases hvalid : validateBatchResponse response.toJson batchId expected with
  | error reason => rw [hvalid] at h; cases h
  | ok result' =>
    rw [hvalid] at h
    obtain rfl : result' = result := by simpa using h
    have hobj : response.toJson = .obj _ := rfl
    rw [hobj, validateBatchResponse, ← hobj] at hvalid
    split_ifs at hvalid with hbatchId
    split at hvalid
    · cases hvalid
    · rename_i body hbody
      split_ifs at hvalid with hreceived hcounts
      cases hrejected : validateRejected expected [] body.rejected with
      | error reason => rw [hrejected] at hvalid; cases hvalid
      | ok entries =>
        rw [hrejected] at hvalid
        obtain rfl := Except.ok.inj hvalid
        have hindexes := indexes_of_validateRejected hrejected
        rw [rejected_of_bodyFields? hbody, List.forall₂_map_left_iff] at hindexes
        exact map_index_of_toJson hindexes

variable (J L pg) in
/-- What a decision does with a batch fits the verdicts on its events. -/
structure Fair (es : List Event) (db : Tables) (h : Handling) : Prop where
  given : ∀ e ∈ h.given, e ∈ es ∧ Doomed J L e
  settled : ∀ e ∈ es.take h.count, e ∈ h.given ∨ ∃ row ∈ db.gameEvents, RowOf L pg e row

theorem fair_none : Fair J L pg es db (.none batchId) where
  given := fun _ h => absurd h List.not_mem_nil
  settled := fun e he => absurd he (by simp [Handling.none])

theorem status_of_quarantineBatch {status : ℕ} {bodyText : Bytes} {retryAfter : Option ℚ}
    (h : decideAck J status bodyText batchId expected retryAfter = .quarantineBatch) :
    status = 400 := by
  unfold decideAck at h
  split_ifs at h with h200 hhalt h400
  · cases hparse : parseBatchResponse J bodyText batchId expected <;> rw [hparse] at h <;> cases h
  · exact h400
  · cases retryAfter <;> cases h

theorem status_of_split {status : ℕ} {bodyText : Bytes} {retryAfter : Option ℚ}
    (h : decideAck J status bodyText batchId expected retryAfter = .split) : status = 413 := by
  unfold decideAck at h
  split_ifs at h with h200 hhalt h400 h413
  · cases hparse : parseBatchResponse J bodyText batchId expected <;> rw [hparse] at h <;> cases h
  · exact h413
  · cases retryAfter <;> cases h

/-- The events at the rejected positions are those that are not accepted. -/
theorem mem_rejectedOf {response : EventBatchResponse} {result : BatchResponse}
    (hindexes : result.rejected.map RejectedEntry.index
      = response.rejected.map RejectedEvent.index) {e : Event} :
    e ∈ rejectedOf es result ↔
      ∃ k, es[k]? = some e ∧ k ∈ response.rejected.map RejectedEvent.index := by
  rw [← hindexes]
  simp only [rejectedOf, List.mem_filterMap, List.mem_filter, decide_eq_true_iff, List.mem_map]
  constructor
  · rintro ⟨entry, ⟨hentry, -⟩, he⟩
    exact ⟨entry.index, he, entry, hentry, rfl⟩
  · rintro ⟨k, he, entry, hentry, rfl⟩
    exact ⟨entry, ⟨hentry, (List.getElem?_eq_some_iff.mp he).1⟩, he⟩

/-- **A truthful answer is decided fairly.** -/
theorem fair_of_truthful (h : Truthful J L pg es db r) (retryAfter : Option ℚ) :
    Fair J L pg es db
      (handlingOf batchId es (decision J batchId es (some ⟨r.status, r.body, retryAfter⟩))) := by
  rw [decision, Option.map_some, handlingOf, Option.elim_some]
  -- only a 200, a refusal of the batch and a 413 give events up or move the checkpoint
  cases haction : decideAck J r.status r.body batchId (es.map Event.value) retryAfter with
  | confirm result =>
    have hstatus := status_of_confirm haction
    obtain ⟨response, hbody, hevents⟩ := h.ok hstatus
    rw [hstatus, hbody] at haction
    have hindexes := indexes_of_confirm haction
    refine ⟨fun e he => ?_, fun e he => ?_⟩
    · obtain ⟨k, hk, hrejected⟩ := (mem_rejectedOf hindexes).mp he
      refine ⟨List.mem_of_getElem? hk, .inl ?_⟩
      exact ((hevents k e hk).resolve_right fun hstored => hstored.1 hrejected).2
    · rw [handling, List.take_length] at he
      obtain ⟨k, hk⟩ := List.mem_iff_getElem?.mp he
      rcases hevents k e hk with ⟨hrejected, -⟩ | ⟨-, hstored⟩
      · exact .inl ((mem_rejectedOf hindexes).mpr ⟨k, hk, hrejected⟩)
      · exact .inr hstored
  | quarantineBatch => exact absurd (status_of_quarantineBatch haction) h.wellFormed
  | split =>
    have hsize := h.size (status_of_split haction)
    rw [handling]
    split_ifs with hone
    · -- a single event that is too long for every batch
      obtain ⟨e, rfl⟩ := List.length_eq_one_iff.mp hone
      refine ⟨fun e' he' => ⟨he', .inr ?_⟩, fun e' he' => .inl (List.mem_of_mem_take he')⟩
      rw [List.mem_singleton.mp he']
      exact hsize
    · exact fair_none
  | resend reason => exact fair_none
  | halt status => exact fair_none
  | rateLimited seconds => exact fair_none
  | backoff status => exact fair_none

end Decisions

/-! ### Records -/

section Records

variable {J : JsonText} {l : FailedLine J} {e e' : Event}

/-- The record is about the event. -/
def RecordOf (l : FailedLine J) (e : Event) : Prop :=
  (J.parse l.text).bind (fun record => record.get? (js "event")) = some e.value

theorem recordOf_recordLine (quarantinedAt reason : JsString) (detail : Detail) (e : Event) :
    RecordOf (recordLine J quarantinedAt reason detail e) e := by
  rw [RecordOf, recordLine, J.parse_stringify _ (plain_failedRecord _ _ _ _), Option.bind_some,
    get?_failedRecord]

theorem RecordOf.id_eq (h : RecordOf l e) : l.id = e.id := by
  obtain ⟨record, hparse, hevent⟩ := Option.bind_eq_some_iff.mp h
  have hid := l.record
  simp only [failedRecordId, hparse, hevent, Option.bind_some, e.get?_event_id] at hid
  exact (Except.ok.inj hid).symm

/-- A record is about one event. -/
theorem RecordOf.eq (h : RecordOf l e) (h' : RecordOf l e') : e = e' :=
  Event.value_injective (Option.some.inj (h.symm.trans h'))

end Records

/-! ### The ledger and the tables -/

section Kept

variable (J : JsonText) (L : Libraries) (pg : Postgres)

/-- Where the events are. -/
def custody (a : Ledger J) (db : Tables) : Custody.State Event where
  recorded := {e | e ∈ a.recorded}
  pending := {e | e ∈ a.pending}
  failed := {e | e ∈ a.recorded ∧ ∃ l ∈ a.failed, RecordOf l e}
  stored := {e | e ∈ a.recorded ∧ ∃ row ∈ db.gameEvents, RowOf L pg e row}

/-- Ledger and tables hold what became of recorded events, and nothing else. -/
structure Kept (offered : List Event) (a : Ledger J) (db : Tables) : Prop where
  recorded : a.recorded ⊆ offered
  records : ∀ l ∈ a.failed, ∃ e ∈ a.recorded, RecordOf l e
  rows : ∀ row ∈ db.gameEvents, ∃ e ∈ a.recorded, RowOf L pg e row
  safe : Custody.Safe {e | Doomed J L e} (custody J L pg a db)

variable {J L pg} {offered es : List Event} {a : Ledger J} {db db' : Tables}

theorem pending_subset (a : Ledger J) : a.pending ⊆ a.recorded := List.subset_append_right _ _

theorem kept_empty (db : Tables) (h : db.gameEvents = []) :
    Kept J L pg offered Outbox.Ledger.empty db where
  recorded := List.nil_subset _
  records := fun l hl => absurd hl List.not_mem_nil
  rows := fun row hrow => absurd (h ▸ hrow) List.not_mem_nil
  safe := by
    have hempty : custody J L pg Outbox.Ledger.empty db = Custody.State.empty := by
      simp [custody, Custody.State.empty, Outbox.Ledger.recorded, Outbox.Ledger.empty]
    rw [hempty]
    exact Custody.safe_empty

theorem Kept.recorded_of_record (h : Kept J L pg offered a db) {e : Event} {l : FailedLine J}
    (hl : l ∈ a.failed) (hof : RecordOf l e) : e ∈ a.recorded := by
  obtain ⟨e', he', hof'⟩ := h.records l hl
  obtain rfl : e = e' := hof.eq hof'
  exact he'

/-- A row of an event is the row of a recorded event, and this has the same id. -/
theorem Kept.recorded_of_row (h : Kept J L pg offered a db) (hdistinct : DistinctIds offered)
    {e : Event} {row : GameEventRow} (he : e ∈ offered) (hrow : row ∈ db.gameEvents)
    (hof : RowOf L pg e row) : e ∈ a.recorded := by
  obtain ⟨e', he', hof'⟩ := h.rows row hrow
  obtain rfl : e = e' :=
    hdistinct.eq he (h.recorded he') (hof.eventId.symm.trans hof'.eventId)
  exact he'

/-- Recording events. -/
theorem Kept.append (h : Kept J L pg offered a db) (hdistinct : DistinctIds offered)
    (hes : es ⊆ offered) : Kept J L pg offered (a.append es) db := by
  have hrecorded : (a.append es).recorded = a.recorded ++ es := Outbox.Ledger.recorded_append a es
  have hold : ∀ e ∈ a.recorded, e ∈ (a.append es).recorded := fun e he => by
    rw [hrecorded]
    exact List.mem_append_left es he
  have hoffered : (a.append es).recorded ⊆ offered := by
    rw [hrecorded]
    exact List.append_subset.mpr ⟨h.recorded, hes⟩
  refine ⟨hoffered, fun l hl => ?_, fun row hrow => ?_, h.safe.moves ?_⟩
  · obtain ⟨e, he, hof⟩ := h.records l hl
    exact ⟨e, hold e he, hof⟩
  · obtain ⟨e, he, hof⟩ := h.rows row hrow
    exact ⟨e, hold e he, hof⟩
  · exact
      { recorded := hold
        pending := fun e he => pending_subset _ he
        waits := fun e he => by
          have hmem : e ∈ a.recorded ++ es := hrecorded ▸ he
          exact (List.mem_append.mp hmem).imp_right fun hnew => List.mem_append_right a.pending hnew
        failed := fun e he => ⟨hold e he.1, he.2⟩
        stored := fun e he => ⟨hold e he.1, he.2⟩
        -- what has a record or a row was recorded before
        gives_up := by
          rintro e ⟨-, l, hl, hof⟩
          exact .inl ⟨h.recorded_of_record hl hof, l, hl, hof⟩
        stores := by
          rintro e ⟨he, row, hrow, hof⟩
          exact .inl ⟨h.recorded_of_row hdistinct (hoffered he) hrow hof, row, hrow, hof⟩
        resolves := fun e he => .inl (List.mem_append_left es he) }

/-- Giving up doomed events. -/
theorem Kept.fail (h : Kept J L pg offered a db) {new : List (FailedLine J)}
    (hnew : ∀ l ∈ new, ∃ e ∈ a.recorded, Doomed J L e ∧ RecordOf l e) :
    Kept J L pg offered (a.fail new) db := by
  have hrecords : ∀ l ∈ (a.fail new).failed, l ∈ a.failed ∨ l ∈ new := fun l hl =>
    List.mem_append.mp hl
  refine ⟨h.recorded, fun l hl => ?_, h.rows, h.safe.moves ?_⟩
  · rcases hrecords l hl with hl | hl
    · exact h.records l hl
    · obtain ⟨e, he, -, hof⟩ := hnew l hl
      exact ⟨e, he, hof⟩
  · exact
      { recorded := subset_rfl
        pending := fun e he => pending_subset a he
        waits := Set.subset_union_left
        failed := by
          rintro e ⟨he, l, hl, hof⟩
          exact ⟨he, l, List.mem_append_left new hl, hof⟩
        stored := subset_rfl
        -- a record names one event, because identifiers of recorded events are distinct
        gives_up := by
          rintro e ⟨he, l, hl, hof⟩
          rcases hrecords l hl with hl | hl
          · exact .inl ⟨he, l, hl, hof⟩
          · obtain ⟨e', -, hdoomed, hof'⟩ := hnew l hl
            obtain rfl : e = e' := hof.eq hof'
            exact .inr ⟨he, hdoomed⟩
        stores := Set.subset_union_left
        resolves := Set.subset_union_left }

/-- Moving the checkpoint behind resolved events. -/
theorem Kept.confirm (h : Kept J L pg offered a db) {count : ℕ}
    (hresolved : ∀ e ∈ a.pending.take count,
      (∃ l ∈ a.failed, RecordOf l e) ∨ ∃ row ∈ db.gameEvents, RowOf L pg e row) :
    Kept J L pg offered (a.confirm count) db := by
  have hrecorded : (a.confirm count).recorded = a.recorded := Outbox.Ledger.recorded_confirm a count
  have hcustody : custody J L pg (a.confirm count) db
      = { custody J L pg a db with pending := {e | e ∈ (a.confirm count).pending} } := by
    rw [custody, hrecorded]
    rfl
  refine ⟨hrecorded ▸ h.recorded, hrecorded ▸ h.records, hrecorded ▸ h.rows, ?_⟩
  rw [hcustody]
  refine h.safe.moves ?_
  exact
    { recorded := subset_rfl
      pending := fun e he => pending_subset a (List.mem_of_mem_drop he)
      waits := Set.subset_union_left
      failed := subset_rfl
      stored := subset_rfl
      gives_up := Set.subset_union_left
      stores := Set.subset_union_left
      -- what leaves the pending events is among the first `count` of them
      resolves := by
        intro e he
        have hsplit : e ∈ a.pending.take count ++ a.pending.drop count := by
          rw [List.take_append_drop]
          exact he
        rcases List.mem_append.mp hsplit with htake | hdrop
        · exact .inr ((hresolved e htake).imp (fun hl => ⟨pending_subset a he, hl⟩)
            fun hrow => ⟨pending_subset a he, hrow⟩)
        · exact .inl hdrop }

/-- Storing events that are not doomed. -/
theorem Kept.store (h : Kept J L pg offered a db) (hold : db.gameEvents ⊆ db'.gameEvents)
    (hnew : ∀ row ∈ db'.gameEvents, row ∈ db.gameEvents ∨
      ∃ e ∈ a.recorded, RowOf L pg e row ∧ ¬Doomed J L e) (hdistinct : DistinctIds offered) :
    Kept J L pg offered a db' := by
  refine ⟨h.recorded, h.records, fun row hrow => ?_, h.safe.moves ?_⟩
  · rcases hnew row hrow with hrow | ⟨e, he, hof, -⟩
    · exact h.rows row hrow
    · exact ⟨e, he, hof⟩
  · exact
      { recorded := subset_rfl
        pending := fun e he => pending_subset a he
        waits := Set.subset_union_left
        failed := subset_rfl
        stored := by
          rintro e ⟨he, row, hrow, hof⟩
          exact ⟨he, row, hold hrow, hof⟩
        gives_up := Set.subset_union_left
        stores := by
          rintro e ⟨he, row, hrow, hof⟩
          rcases hnew row hrow with hrow | ⟨e', he', hof', hnot⟩
          · exact .inl ⟨he, row, hrow, hof⟩
          · obtain rfl : e = e' := hdistinct.eq (h.recorded he) (h.recorded he')
              (hof.eventId.symm.trans hof'.eventId)
            exact .inr ⟨he, hnot⟩
        resolves := Set.subset_union_left }

variable {clock : Json → JsString} {hd : Handling}

/-- The records that a fair decision adds. -/
theorem record_of_givenUp (hfair : Fair J L pg es db hd) {l : FailedLine J}
    (hl : l ∈ givenUp a clock hd) : ∃ e ∈ es, Doomed J L e ∧ RecordOf l e := by
  obtain ⟨e, he, rfl⟩ := List.mem_map.mp hl
  obtain ⟨hmem, hdoomed⟩ := hfair.given e (firstNew_sublist.mem he)
  exact ⟨e, hmem, hdoomed, recordOf_recordLine _ _ _ e⟩

/-- What is given up has a record, from this decision or from an earlier one. -/
theorem Kept.exists_record (h : Kept J L pg offered a db) (hdistinct : DistinctIds offered)
    (hfair : Fair J L pg es db hd) (hes : es ⊆ a.recorded) {e : Event} (he : e ∈ hd.given) :
    ∃ l ∈ (a.fail (givenUp a clock hd)).failed, RecordOf l e := by
  have hrecorded : ∀ e ∈ hd.given, e ∈ a.recorded := fun e he => hes (hfair.given e he).1
  have hsame : ∀ e' ∈ a.recorded, e'.id = e.id → e' = e := fun e' he' hid =>
    hdistinct.eq (h.recorded he') (h.recorded (hrecorded e he)) (congrArg canonicalId hid)
  have hdivides : e.id ∈ a.failedIds ∨
      e.id ∈ (firstNew Event.id a.failedIds hd.given).map Event.id := mem_known_or he
  rcases hdivides with hknown | hfirst
  · obtain ⟨l, hl, hid⟩ := List.mem_map.mp hknown
    obtain ⟨e', he', hof⟩ := h.records l hl
    obtain rfl := hsame e' he' (hof.id_eq.symm.trans hid)
    exact ⟨l, List.mem_append_left _ hl, hof⟩
  · obtain ⟨e', he', hid⟩ := List.mem_map.mp hfirst
    obtain rfl := hsame e' (hrecorded e' (firstNew_sublist.mem he')) hid
    exact ⟨_, List.mem_append_right _ (List.mem_map_of_mem he'), recordOf_recordLine _ _ _ e'⟩

/-- **A fair decision keeps ledger and tables**, wherever it is interrupted. -/
theorem Kept.partlyHandled (h : Kept J L pg offered a db) (hdistinct : DistinctIds offered)
    (hfair : Fair J L pg es db hd) (hes : es <+: a.pending) (hcount : hd.count ≤ es.length)
    {a' : Ledger J} (hpart : PartlyHandled a clock hd a') : Kept J L pg offered a' db := by
  have hrecorded : es ⊆ a.recorded := fun e he => pending_subset a (hes.subset he)
  have hnew : ∀ l ∈ givenUp a clock hd, ∃ e ∈ a.recorded, Doomed J L e ∧ RecordOf l e := by
    intro l hl
    obtain ⟨e, he, hof⟩ := record_of_givenUp hfair hl
    exact ⟨e, hrecorded he, hof⟩
  rcases hpart with ⟨k, rfl⟩ | rfl
  · exact h.fail fun l hl => hnew l (List.mem_of_mem_take hl)
  · refine (h.fail hnew).confirm fun e he => ?_
    have hhead : a.pending.take hd.count = es.take hd.count := by
      obtain ⟨rest, hrest⟩ := hes
      rw [← hrest, List.take_append_of_le_length hcount]
    have hmem : e ∈ es.take hd.count := hhead ▸ he
    exact (hfair.settled e hmem).imp_left fun hgiven =>
      h.exists_record hdistinct hfair hrecorded hgiven

end Kept

end Pipeline
