/-
What the files of an outbox record.

The events that a sender ever recorded are a confirmed part and a pending part.  Compaction
removes events from the confirmed part's front, so the journal holds the rest of it (`head`)
and the pending events.

* `Stable` — journal and checkpoint agree; an interrupted append may have left a part of a
  line at the end;
* `Compacting` — a manifest is there: whatever the checkpoint says, the journal to be is the
  pending events;
* `Durable` — one of the two, which is what every kill leaves behind;
* `Live` — the fields of an open outbox agree with its files;
* `repairCheckpoint_entriesFrom` — reading the journal back at a line boundary gives exactly
  the pending entries behind it.
-/
import LogStack.OutboxFiles

open FileProgram Lines

/-- An event that the sender records: it has an id, and `JSON.stringify` writes it without
loss. -/
structure Event where
  value : Json
  plain : value.Plain
  record : isEventRecord value = true

namespace Event

def id (e : Event) : JsString := eventId e.value

theorem get?_event_id (e : Event) : e.value.get? (js "event_id") = some (.str e.id) := by
  have h := e.record
  unfold isEventRecord at h
  unfold Event.id eventId
  split at h
  · rename_i id hid
    rw [hid]
  · exact absurd h (by simp)

theorem value_injective : Function.Injective value := by
  rintro ⟨value, _, _⟩ ⟨value', _, _⟩ rfl
  rfl

end Event

/-! ### Checkpoints and manifests -/

theorem plain_checkpoint (state : CheckpointState) : state.toJson.Plain := by
  have hkeys : [js "offset", js "journalBaseCount", js "confirmedSinceCompaction"].Pairwise
      (fun k l => JsString.keyBefore k l = true) := by decide +kernel
  refine Json.plain_obj.mpr ⟨hkeys, fun f hf => ?_⟩
  simp only [List.mem_cons, List.not_mem_nil, or_false] at hf
  rcases hf with rfl | rfl | rfl <;> exact Json.plain_nat _

theorem plain_manifest (state : CheckpointState) : (compactionManifest state).Plain := by
  refine Json.plain_obj.mpr ⟨List.pairwise_singleton _ _, fun f hf => ?_⟩
  obtain rfl := List.mem_singleton.mp hf
  exact plain_checkpoint state

namespace CheckpointState

variable (state : CheckpointState)

theorem get?_offset : state.toJson.get? (js "offset") = some (.nat state.offset) := rfl

theorem get?_journalBaseCount :
    state.toJson.get? (js "journalBaseCount") = some (.nat state.journalBaseCount) := by
  rfl

theorem get?_confirmedSinceCompaction : state.toJson.get? (js "confirmedSinceCompaction")
    = some (.nat state.confirmedSinceCompaction) := by
  rfl

end CheckpointState

namespace Outbox

variable (J : JsonText)

theorem checkpointOfText_stringify (state : CheckpointState) :
    checkpointOfText J (J.stringify state.toJson) = state := by
  simp only [checkpointOfText, J.parse_stringify _ (plain_checkpoint state), state.get?_offset,
    state.get?_journalBaseCount, state.get?_confirmedSinceCompaction,
    Json.nonNegativeInteger_nat, Option.getD_some]

theorem checkpointOfManifest_stringify (state : CheckpointState) :
    checkpointOfManifest J (J.stringify (compactionManifest state)) = .ok state := by
  have hmanifest : (compactionManifest state).get? (js "checkpoint") = some state.toJson := rfl
  simp only [checkpointOfManifest, J.parse_stringify _ (plain_manifest state),
    Option.bind_some, hmanifest, asCheckpointState?, Option.bind_eq_bind, state.get?_offset,
    state.get?_journalBaseCount, state.get?_confirmedSinceCompaction,
    Json.nonNegativeInteger_nat]
  rfl

/-! ### The journal's text -/

def journalLines (es : List Event) : List Bytes := es.map fun e => J.stringify e.value

def journalText (es : List Event) : Bytes := unlines newline (journalLines J es)

@[simp] theorem journalText_append (es es' : List Event) :
    journalText J (es ++ es') = journalText J es ++ journalText J es' := by
  simp [journalText, journalLines]

theorem newline_not_mem_journalLines (es : List Event) :
    ∀ l ∈ journalLines J es, newline ∉ l := by
  intro l hl
  obtain ⟨e, _, rfl⟩ := List.mem_map.mp hl
  exact J.newline_not_mem e.value

theorem flatten_lines (es : List Event) :
    ((es.map Event.value).map (line J)).flatten = journalText J es := by
  simp only [journalText, unlines, journalLines, List.map_map]
  rfl

/-- A journal cut anywhere holds some first events and a part of the next one's line. -/
theorem take_journalText (es : List Event) (n : ℕ) :
    ∃ k t, (journalText J es).take n = journalText J (es.take k) ++ t ∧ newline ∉ t := by
  obtain ⟨k, t, h, ht⟩ := take_unlines newline (newline_not_mem_journalLines J es) n
  refine ⟨k, t, ?_, ht⟩
  rw [journalText, h, journalText, journalLines, journalLines, List.map_take]

theorem sum_bytes (es : List Event) :
    ((es.map fun e => entryOf J e.value).map PendingEntry.bytes).sum
      = (journalText J es).length := by
  induction es with
  | nil => rfl
  | cons e es ih =>
    rw [List.map_cons, List.map_cons, List.sum_cons, ih, show e :: es = [e] ++ es from rfl,
      journalText_append, List.length_append]
    simp [entryOf, line, journalText, journalLines]

theorem line_injective : Function.Injective fun e : Event => J.stringify e.value := by
  intro e e' h
  have hparse := J.parse_stringify e.value e.plain
  rw [show J.stringify e.value = J.stringify e'.value from h,
    J.parse_stringify e'.value e'.plain] at hparse
  exact Event.value_injective (Option.some.inj hparse).symm

/-- The lines of some events at the head of a journal are those of its first events. -/
theorem isPrefix_of_journalText {es es' : List Event} {t : Bytes} (ht : newline ∉ t)
    (h : journalText J es <+: journalText J es' ++ t) : es <+: es' :=
  (List.prefix_map_iff_of_injective (line_injective J)).mp
    (isPrefix_of_unlines newline (newline_not_mem_journalLines J es)
      (newline_not_mem_journalLines J es') ht h)

/-! ### Reading the journal back -/

/-- The entries of some events whose first line starts at `start`. -/
def entriesFrom : List Event → ℕ → List JournalEntry
  | [], _ => []
  | e :: es, start =>
    let endOffset := start + (J.stringify e.value).length + 1
    ⟨entryOf J e.value, start, endOffset⟩ :: entriesFrom es endOffset

theorem journalEntries_journalLines (es : List Event) (start : ℕ) :
    journalEntries J (journalLines J es) start = .ok (entriesFrom J es start) := by
  induction es generalizing start with
  | nil => rfl
  | cons e es ih =>
    have hbytes : start + (J.stringify e.value).length + 1 - start
        = (line J e.value).length := by
      rw [line, List.length_append, List.length_singleton]
      omega
    rw [journalLines, List.map_cons, journalEntries, J.parse_stringify _ e.plain]
    simp only [e.record, if_true]
    rw [← journalLines, ih, hbytes]
    rfl

theorem length_entriesFrom (es : List Event) (start : ℕ) :
    (entriesFrom J es start).length = es.length := by
  induction es generalizing start with
  | nil => rfl
  | cons e es ih => rw [entriesFrom, List.length_cons, ih, List.length_cons]

theorem map_toPendingEntry_entriesFrom (es : List Event) (start : ℕ) :
    (entriesFrom J es start).map JournalEntry.toPendingEntry
      = es.map fun e => entryOf J e.value := by
  induction es generalizing start with
  | nil => rfl
  | cons e es ih => rw [entriesFrom, List.map_cons, ih, List.map_cons]

theorem length_journalText_cons (e : Event) (es : List Event) :
    (journalText J (e :: es)).length
      = (J.stringify e.value).length + 1 + (journalText J es).length := by
  rw [show e :: es = [e] ++ es from rfl, journalText_append, List.length_append]
  simp [journalText, journalLines]

theorem entriesFrom_append (es es' : List Event) (start : ℕ) :
    entriesFrom J (es ++ es') start
      = entriesFrom J es start ++ entriesFrom J es' (start + (journalText J es).length) := by
  induction es generalizing start with
  | nil => rfl
  | cons e es ih =>
    rw [List.cons_append, entriesFrom, ih, entriesFrom, List.cons_append,
      length_journalText_cons]
    simp only [Nat.add_assoc]

/-- Entries lie within the text of their events, and none is empty. -/
theorem bounds_of_mem_entriesFrom {es : List Event} {start : ℕ} {entry : JournalEntry}
    (h : entry ∈ entriesFrom J es start) : start ≤ entry.start ∧ entry.start < entry.endOffset ∧
      entry.endOffset ≤ start + (journalText J es).length := by
  induction es generalizing start with
  | nil => exact absurd h List.not_mem_nil
  | cons e es ih =>
    rw [length_journalText_cons]
    rw [entriesFrom] at h
    rcases List.mem_cons.mp h with rfl | h
    · refine ⟨le_rfl, ?_, ?_⟩ <;> simp only <;> omega
    · obtain ⟨hstart, hlt, hend⟩ := ih h
      omega

/-- The end of the events is the end of an entry, unless there are none. -/
theorem boundary_mem (es : List Event) (start : ℕ) :
    start + (journalText J es).length
      ∈ start :: (entriesFrom J es start).map JournalEntry.endOffset := by
  induction es generalizing start with
  | nil => exact List.mem_cons_self
  | cons e es ih =>
    refine List.mem_cons_of_mem _ ?_
    have h := ih (start + (J.stringify e.value).length + 1)
    rw [length_journalText_cons]
    simpa only [entriesFrom, List.map_cons, ← Nat.add_assoc] using h

section Boundary

variable (head pending : List Event)

theorem filter_endOffset_le :
    (entriesFrom J (head ++ pending) 0).filter
        (fun entry => decide (entry.endOffset ≤ (journalText J head).length))
      = entriesFrom J head 0 := by
  rw [entriesFrom_append, List.filter_append, Nat.zero_add]
  have hhead : ∀ entry ∈ entriesFrom J head 0,
      decide (entry.endOffset ≤ (journalText J head).length) = true := by
    intro entry hentry
    have := bounds_of_mem_entriesFrom J hentry
    simp only [decide_eq_true_eq]
    omega
  have hpending : ∀ entry ∈ entriesFrom J pending (journalText J head).length,
      ¬decide (entry.endOffset ≤ (journalText J head).length) = true := by
    intro entry hentry
    have := bounds_of_mem_entriesFrom J hentry
    simp only [decide_eq_true_eq]
    omega
  rw [List.filter_eq_self.mpr hhead, List.filter_eq_nil_iff.mpr hpending, List.append_nil]

theorem filter_le_start :
    (entriesFrom J (head ++ pending) 0).filter
        (fun entry => decide ((journalText J head).length ≤ entry.start))
      = entriesFrom J pending (journalText J head).length := by
  rw [entriesFrom_append, List.filter_append, Nat.zero_add]
  have hhead : ∀ entry ∈ entriesFrom J head 0,
      ¬decide ((journalText J head).length ≤ entry.start) = true := by
    intro entry hentry
    have := bounds_of_mem_entriesFrom J hentry
    simp only [decide_eq_true_eq]
    omega
  have hpending : ∀ entry ∈ entriesFrom J pending (journalText J head).length,
      decide ((journalText J head).length ≤ entry.start) = true := by
    intro entry hentry
    have := bounds_of_mem_entriesFrom J hentry
    simp only [decide_eq_true_eq]
    omega
  rw [List.filter_eq_nil_iff.mpr hhead, List.filter_eq_self.mpr hpending, List.nil_append]

/-- A checkpoint at a line boundary of the journal needs no repair. -/
theorem repairCheckpoint_entriesFrom (base count : ℕ) :
    repairCheckpoint ⟨(journalText J head).length, base, count⟩
        (entriesFrom J (head ++ pending) 0) (journalText J (head ++ pending)).length
      = ⟨(journalText J head).length, base, head.length⟩ := by
  have hboundary : (journalText J head).length
      ∈ 0 :: (entriesFrom J (head ++ pending) 0).map JournalEntry.endOffset := by
    have h := boundary_mem J head 0
    rw [Nat.zero_add] at h
    rw [entriesFrom_append, List.map_append]
    rcases List.mem_cons.mp h with h | h
    · exact h ▸ List.mem_cons_self
    · exact List.mem_cons_of_mem _ (List.mem_append_left _ h)
  have hsize : ¬(journalText J (head ++ pending)).length < (journalText J head).length := by
    rw [journalText_append, List.length_append]
    omega
  simp only [repairCheckpoint, hsize, hboundary, not_true_eq_false, or_self, if_false,
    filter_endOffset_le, length_entriesFrom]

end Boundary

/-! ### The files -/

/-- The checkpoint of a journal whose first events are `head`, behind `gone` compacted ones. -/
def checkpointAt (gone head : List Event) : CheckpointState :=
  ⟨(journalText J head).length, gone.length, head.length⟩

/-- Journal and checkpoint agree. -/
structure Stable (files : Files String) (gone head pending : List Event) : Prop where
  journal : ∃ t, (files journalPath).getD [] = journalText J (head ++ pending) ++ t ∧ newline ∉ t
  checkpoint : files checkpointPath = some (J.stringify (checkpointAt J gone head).toJson) ∨
    files checkpointPath = none ∧ gone = [] ∧ head = []
  manifest : files compactManifestPath = none

/-- A compaction that removes `gone` is under way. -/
structure Compacting (files : Files String) (gone pending : List Event) : Prop where
  manifest : files compactManifestPath
    = some (J.stringify (compactionManifest (checkpointAt J gone [])))
  journal : files compactPath = some (journalText J pending) ∨
    files compactPath = none ∧ files journalPath = some (journalText J pending)

/-- What every kill leaves behind. -/
def Durable (files : Files String) (confirmed pending : List Event) : Prop :=
  (∃ gone head, confirmed = gone ++ head ∧ Stable J files gone head pending) ∨
    Compacting J files confirmed pending

/-- The fields of an outbox agree with its files. -/
structure Live (ob : Outbox) (w : World String) (gone head pending : List Event) : Prop where
  journal : w.files journalPath = some (journalText J (head ++ pending))
  checkpoint : w.files checkpointPath = some (J.stringify (checkpointAt J gone head).toJson)
  manifest : w.files compactManifestPath = none
  queue : ob.pending = pending.map fun e => entryOf J e.value
  state : ob.checkpointState = checkpointAt J gone head
  entryCount : ob.journalEntryCount = head.length + pending.length
  fd_lt : ob.fd < w.nextFd
  handle : w.fds ob.fd = if ob.closed then none else some (.file journalPath)

/-- The files on which `Stable`, `Compacting` and `Live` depend. -/
def journalPaths : List String :=
  [journalPath, checkpointPath, compactPath, compactManifestPath]

variable {J} {files files' : Files String} {gone head pending : List Event}

theorem Stable.congr (h : Stable J files gone head pending)
    (hfiles : ∀ p ∈ [journalPath, checkpointPath, compactManifestPath], files' p = files p) :
    Stable J files' gone head pending := by
  have hj := hfiles journalPath (by simp)
  have hc := hfiles checkpointPath (by simp)
  have hm := hfiles compactManifestPath (by simp)
  exact ⟨hj ▸ h.journal, hc ▸ h.checkpoint, hm ▸ h.manifest⟩

theorem Compacting.congr (h : Compacting J files gone pending)
    (hfiles : ∀ p ∈ [journalPath, compactPath, compactManifestPath], files' p = files p) :
    Compacting J files' gone pending := by
  have hj := hfiles journalPath (by simp)
  have hc := hfiles compactPath (by simp)
  have hm := hfiles compactManifestPath (by simp)
  exact ⟨hm ▸ h.manifest, hc ▸ hj ▸ h.journal⟩

theorem Durable.congr {confirmed : List Event} (h : Durable J files confirmed pending)
    (hfiles : ∀ p ∈ journalPaths, files' p = files p) : Durable J files' confirmed pending := by
  rcases h with ⟨gone, head, hconfirmed, h⟩ | h
  · exact .inl ⟨gone, head, hconfirmed, h.congr fun p hp => hfiles p (by
      simp only [journalPaths, List.mem_cons, List.not_mem_nil, or_false] at hp ⊢; tauto)⟩
  · exact .inr (h.congr fun p hp => hfiles p (by
      simp only [journalPaths, List.mem_cons, List.not_mem_nil, or_false] at hp ⊢; tauto))

theorem Stable.durable (h : Stable J files gone head pending) :
    Durable J files (gone ++ head) pending := .inl ⟨gone, head, rfl, h⟩

theorem Live.stable {ob : Outbox} {w : World String} (h : Live J ob w gone head pending) :
    Stable J w.files gone head pending :=
  ⟨⟨[], by rw [h.journal]; simp, by simp⟩, .inl h.checkpoint, h.manifest⟩

/-- An outbox keeps agreeing with its files when others change. -/
theorem Live.congr {ob : Outbox} {w w' : World String} (h : Live J ob w gone head pending)
    (hfiles : ∀ p ∈ journalPaths, w'.files p = w.files p) (hkept : w.Kept w') :
    Live J ob w' gone head pending where
  journal := (hfiles journalPath (by simp [journalPaths])).trans h.journal
  checkpoint := (hfiles checkpointPath (by simp [journalPaths])).trans h.checkpoint
  manifest := (hfiles compactManifestPath (by simp [journalPaths])).trans h.manifest
  queue := h.queue
  state := h.state
  entryCount := h.entryCount
  fd_lt := lt_of_lt_of_le h.fd_lt hkept.1
  handle := (hkept.2 _ h.fd_lt).trans h.handle

end Outbox
