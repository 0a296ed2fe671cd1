/-
The two batching paths (`scripts/send-events.ts`, `Outbox.peekBatch`).

The script cuts an array of events into batches before it sends any; the daemon takes the head
of its queue, confirms it and takes the next one.  Both cut greedily within the same limits, so
they make the same batches.

* `Within` — the limits of a batch;
* `chunkEvents` — the batches of the script;
* `cut_chunkEvents`, `isHead_peekBatch` — both are greedy cuts;
* `drain` — the batches of the daemon, with the outbox closed and opened between them;
* `batching` — the sizes are exact, and the batches are the same.
-/
import LogStack.RequestBody
import LogStack.CompactJson
import LogStack.GreedyCut

open FileProgram Outbox GreedyCut Simulation

namespace Sender

variable (J : JsonText)

/-! ### The batches of the script -/

/-- At most `maxCount` events, in a body of at most `maxBytes` bytes. -/
structure Within (maxCount maxBytes : ℕ) (batch : List Json) : Prop where
  count : batch.length ≤ maxCount
  bytes : batchBodyByteLength J batch ≤ maxBytes

/-- The variables of the loop of `chunkEvents`. -/
structure Chunking where
  chunks : List (List Json) := []
  current : List Json := []
  currentBytes : ℕ

/-- One pass of the loop. The comma is counted before the batch is possibly flushed, and again
behind it. -/
def chunkEvent (s : Chunking) (event : Json) : Chunking :=
  let size := (J.stringify event).length + (if s.current.length = 0 then 0 else 1)
  let s : Chunking :=
    if 0 < s.current.length ∧
        (MAX_EVENTS_PER_BATCH ≤ s.current.length ∨ MAX_BATCH_BYTES < s.currentBytes + size) then
      { chunks := s.chunks ++ [s.current], current := [], currentBytes := EMPTY_BATCH_BODY_BYTES J }
    else s
  let separatorBytes := if s.current.length = 0 then 0 else 1
  { s with
    current := s.current ++ [event]
    currentBytes := s.currentBytes + ((J.stringify event).length + separatorBytes) }

def Chunking.result (s : Chunking) : List (List Json) :=
  if 0 < s.current.length then s.chunks ++ [s.current] else s.chunks

def chunkEvents (events : List Json) : List (List Json) :=
  (events.foldl (chunkEvent J) { currentBytes := EMPTY_BATCH_BODY_BYTES J }).result

variable {J} {maxCount maxBytes : ℕ}

/-! ### Sizes -/

@[simp] theorem batchBodyByteLength_nil : batchBodyByteLength J [] = EMPTY_BATCH_BODY_BYTES J := by
  simp [batchBodyByteLength]

theorem batchBodyByteLength_concat (batch : List Json) (event : Json) :
    batchBodyByteLength J (batch ++ [event]) = batchBodyByteLength J batch
      + ((J.stringify event).length + (if batch.length = 0 then 0 else 1)) := by
  simp only [batchBodyByteLength, List.mapIdx_append, List.mapIdx_cons, List.mapIdx_nil,
    List.sum_append, List.sum_cons, List.sum_nil]
  rw [Nat.zero_add, Nat.add_zero, Nat.add_assoc]

theorem batchBodyByteLength_mono {batch batch' : List Json} (h : batch <+: batch') :
    batchBodyByteLength J batch ≤ batchBodyByteLength J batch' := by
  obtain ⟨rest, rfl⟩ := h
  simp only [batchBodyByteLength, List.mapIdx_append, List.sum_append]
  omega

theorem hereditary_within : Hereditary (Within J maxCount maxBytes) := fun _ _ h hwithin =>
  ⟨h.length_le.trans hwithin.count, (batchBodyByteLength_mono h).trans hwithin.bytes⟩

/-- A batch in the making that may take no further event. -/
theorem not_within_concat {batch : List Json} {event : Json}
    (h : maxCount ≤ batch.length ∨ maxBytes < batchBodyByteLength J batch
      + ((J.stringify event).length + if batch.length = 0 then 0 else 1)) :
    ¬Within J maxCount maxBytes (batch ++ [event]) := by
  intro hwithin
  have hcount := hwithin.count
  have hbytes := hwithin.bytes
  rw [List.length_append, List.length_singleton] at hcount
  rw [batchBodyByteLength_concat] at hbytes
  omega

/-- A batch in the making that may take one more. -/
theorem admits_concat {batch : List Json} {event : Json}
    (h : ¬(0 < batch.length ∧ (maxCount ≤ batch.length ∨ maxBytes < batchBodyByteLength J batch
      + ((J.stringify event).length + if batch.length = 0 then 0 else 1)))) :
    Admits (Within J maxCount maxBytes) (batch ++ [event]) := by
  by_cases hempty : batch.length = 0
  · right
    rw [List.length_append, hempty, List.length_singleton]
  · left
    have hroom : batch.length < maxCount ∧ batchBodyByteLength J batch
        + ((J.stringify event).length + if batch.length = 0 then 0 else 1) ≤ maxBytes := by
      constructor
      · by_contra hfull
        exact h ⟨by omega, .inl (by omega)⟩
      · by_contra hlarge
        exact h ⟨by omega, .inr (by omega)⟩
    refine ⟨?_, ?_⟩
    · rw [List.length_append, List.length_singleton]
      exact hroom.1
    · rw [batchBodyByteLength_concat]
      exact hroom.2

/-! ### The script cuts greedily -/

/-- By induction on the events: the loop finishes the batch in the making and cuts the rest. -/
theorem cut_foldl_chunkEvent (events : List Json) (chunks : List (List Json))
    (current : List Json)
    (h : current ≠ [] → Admits (Within J MAX_EVENTS_PER_BATCH MAX_BATCH_BYTES) current) :
    ∃ pieces, Cut (Within J MAX_EVENTS_PER_BATCH MAX_BATCH_BYTES) (current ++ events) pieces ∧
      (events.foldl (chunkEvent J) ⟨chunks, current, batchBodyByteLength J current⟩).result
        = chunks ++ pieces := by
  induction events generalizing chunks current with
  | nil =>
    rw [List.append_nil]
    by_cases hempty : current = []
    · subst hempty
      exact ⟨[], .nil, by simp [Chunking.result]⟩
    · refine ⟨[current], .last hempty (h hempty), ?_⟩
      rw [List.foldl_nil, Chunking.result, if_pos (List.length_pos_iff.mpr hempty)]
  | cons event events ih =>
    rw [List.foldl_cons]
    by_cases hflush : 0 < current.length ∧ (MAX_EVENTS_PER_BATCH ≤ current.length ∨
        MAX_BATCH_BYTES < batchBodyByteLength J current
          + ((J.stringify event).length + if current.length = 0 then 0 else 1))
    · -- the event begins a batch of its own
      have hstep : chunkEvent J ⟨chunks, current, batchBodyByteLength J current⟩ event
          = ⟨chunks ++ [current], [event], batchBodyByteLength J [event]⟩ := by
        have hbytes : batchBodyByteLength J [event] = EMPTY_BATCH_BODY_BYTES J
            + ((J.stringify event).length + 0) := by
          rw [← batchBodyByteLength_nil]
          exact batchBodyByteLength_concat [] event
        rw [hbytes]
        simp only [chunkEvent, if_pos hflush]
        rfl
      obtain ⟨pieces, hcut, hresult⟩ := ih (chunks ++ [current]) [event] fun _ => .inr rfl
      have hne := List.length_pos_iff.mp hflush.1
      refine ⟨current :: pieces, .flush hne (h hne) (not_within_concat hflush.2) hcut, ?_⟩
      rw [hstep, hresult, List.append_assoc]
      rfl
    · have hstep : chunkEvent J ⟨chunks, current, batchBodyByteLength J current⟩ event
          = ⟨chunks, current ++ [event], batchBodyByteLength J (current ++ [event])⟩ := by
        simp only [chunkEvent, if_neg hflush]
        rw [batchBodyByteLength_concat]
      obtain ⟨pieces, hcut, hresult⟩ := ih chunks (current ++ [event]) fun _ => admits_concat hflush
      refine ⟨pieces, ?_, by rw [hstep, hresult]⟩
      rwa [List.append_assoc] at hcut

theorem cut_chunkEvents (events : List Json) :
    Cut (Within J MAX_EVENTS_PER_BATCH MAX_BATCH_BYTES) events (chunkEvents J events) := by
  obtain ⟨pieces, hcut, hresult⟩ :=
    cut_foldl_chunkEvent events [] [] fun hne => absurd rfl hne
  rw [batchBodyByteLength_nil] at hresult
  rw [chunkEvents, hresult]
  exact hcut

/-! ### The daemon cuts greedily -/

/-- By induction on the queue: a batch in the making is completed to the longest one. -/
theorem isHead_peekBatchFrom (events : List Json) (batch : List Json)
    (hcount : 0 < maxCount) (hne : batch ++ events ≠ [])
    (h : batch ≠ [] → Admits (Within J maxCount maxBytes) batch) :
    IsHead (Within J maxCount maxBytes) (batch ++ events)
      (peekBatchFrom maxCount maxBytes (events.map (entryOf J)) batch
        (batchBodyByteLength J batch)) := by
  induction events generalizing batch with
  | nil =>
    rw [List.append_nil] at hne ⊢
    rw [List.map_nil, peekBatchFrom]
    refine ⟨List.prefix_rfl, hne, h hne, fun x hx => ?_⟩
    have hlength := hx.length_le
    rw [List.length_append, List.length_singleton] at hlength
    omega
  | cons event events ih =>
    by_cases hfull : 0 < batch.length ∧ (maxCount ≤ batch.length ∨
        maxBytes < batchBodyByteLength J batch
          + ((J.stringify event).length + if batch.length = 0 then 0 else 1))
    · -- the batch has an event and cannot take this one
      have hstop : peekBatchFrom maxCount maxBytes ((event :: events).map (entryOf J)) batch
          (batchBodyByteLength J batch) = batch := by
        rw [List.map_cons, peekBatchFrom]
        by_cases hcount' : maxCount ≤ batch.length
        · rw [if_pos hcount']
        · rw [if_neg hcount']
          exact if_pos ⟨hfull.1, hfull.2.resolve_left hcount'⟩
      have hbatch := List.length_pos_iff.mp hfull.1
      rw [hstop]
      refine ⟨List.prefix_append _ _, hbatch, h hbatch, fun x hx => ?_⟩
      obtain ⟨t, ht⟩ := hx
      rw [List.append_assoc] at ht
      obtain ⟨rfl, -⟩ := List.cons.inj (List.append_cancel_left ht)
      exact not_within_concat hfull.2
    · -- the event is taken, a first one even over the limit
      have hgo : peekBatchFrom maxCount maxBytes ((event :: events).map (entryOf J)) batch
          (batchBodyByteLength J batch)
          = peekBatchFrom maxCount maxBytes (events.map (entryOf J)) (batch ++ [event])
              (batchBodyByteLength J (batch ++ [event])) := by
        rw [List.map_cons, peekBatchFrom, batchBodyByteLength_concat, if_neg (by omega)]
        exact if_neg fun hbytes => hfull ⟨hbytes.1, .inr hbytes.2⟩
      have hnext := ih (batch ++ [event]) (by simp) fun _ => admits_concat hfull
      rw [List.append_assoc] at hnext
      rw [hgo]
      exact hnext

/-- **A batch is the longest head of the queue within the limits**, and a first event is taken
whatever its size. -/
theorem isHead_peekBatch {ob : Outbox} {events : List Json}
    (hqueue : ob.pending = events.map (entryOf J)) (hcount : 0 < maxCount) (hne : events ≠ []) :
    IsHead (Within J maxCount maxBytes) events
      (ob.peekBatch (EMPTY_BATCH_BODY_BYTES J) maxCount maxBytes) := by
  rw [peekBatch, hqueue, ← batchBodyByteLength_nil (J := J)]
  exact isHead_peekBatchFrom events [] hcount hne fun h => absurd rfl h

/-! ### Draining the queue -/

/-- The next process on the outbox. The one before it closed the outbox, or was killed. -/
structure Reopening where
  closing : Option (List Fate)
  limit : ℕ
  opening : List Fate

/-- Taking and confirming one batch, behind any number of reopenings. -/
structure Round where
  reopenings : List Reopening
  confirming : List Fate

/-- No call is interrupted. -/
def Round.Uninterrupted (round : Round) : Prop :=
  Outbox.Uninterrupted round.confirming ∧ ∀ r ∈ round.reopenings,
    Outbox.Uninterrupted r.opening ∧ ∀ plan ∈ r.closing, Outbox.Uninterrupted plan

variable (J) in
def reopen (s : Status) (r : Reopening) : Status :=
  let s := match r.closing with
    | some plan => (step J (.close, plan) s).2
    | none => s
  (step J (.open r.limit, r.opening) s).2

variable (J) in
/-- Take the head of the queue and confirm it, round by round, until the queue is empty. -/
def drain : List Round → Status → List (List Json) × Status
  | [], s => ([], s)
  | round :: rounds, s =>
    match round.reopenings.foldl (reopen J) s with
    | .down files => ([], .down files)
    | .up ob w =>
      let batch := ob.peekBatch (EMPTY_BATCH_BODY_BYTES J) MAX_EVENTS_PER_BATCH MAX_BATCH_BYTES
      if batch.isEmpty then ([], .up ob w)
      else
        match step J (.confirm batch.length, round.confirming) (.up ob w) with
        | (.returned _, s) => ((batch :: (drain rounds s).1), (drain rounds s).2)
        | (_, s) => ([], s)

section Drain

variable {ob : Outbox} {w : World String} {a : Ledger J} {s : Status}

theorem Tended.reopen (h : Tended J ob w a) {r : Reopening} (hopening : Uninterrupted r.opening)
    (hclosing : ∀ plan ∈ r.closing, Uninterrupted plan) :
    ∃ ob' w', reopen J (.up ob w) r = .up ob' w' ∧ Tended J ob' w' a := by
  obtain ⟨s, hs, hresting⟩ : ∃ s : Status, (match r.closing with
      | some plan => (step J (.close, plan) (.up ob w)).2
      | none => .up ob w) = s ∧ Resting J s.files a := by
    cases hplan : r.closing with
    | none => exact ⟨.up ob w, rfl, h.resting⟩
    | some plan =>
      obtain ⟨gone, head, -, hlive⟩ := h.journal
      obtain ⟨s, hclose, hfiles⟩ := closes hlive (hclosing plan hplan)
      exact ⟨s, congrArg Prod.snd hclose, hfiles ▸ h.resting⟩
  obtain ⟨ob', w', gone, head, hopen, hconfirmed, hlive, hcached, hopened, hfailed⟩ :=
    opens r.limit hresting hopening
  refine ⟨ob', w', ?_, ⟨gone, head, hconfirmed, hlive⟩, hcached, hfailed, hopened⟩
  rw [Sender.reopen, hs, hopen]

theorem Tended.reopenings (h : Tended J ob w a) {rs : List Reopening}
    (hrs : ∀ r ∈ rs, Uninterrupted r.opening ∧ ∀ plan ∈ r.closing, Uninterrupted plan) :
    ∃ ob' w', rs.foldl (Sender.reopen J) (.up ob w) = .up ob' w' ∧ Tended J ob' w' a := by
  induction rs generalizing ob w with
  | nil => exact ⟨ob, w, rfl, h⟩
  | cons r rs ih =>
    obtain ⟨hr, hrs⟩ := List.forall_mem_cons.mp hrs
    obtain ⟨ob', w', hreopen, h'⟩ := h.reopen hr.1 hr.2
    rw [List.foldl_cons, hreopen]
    exact ih h' hrs

/-- A confirm that is left to finish returns; the journal may be compacted in it. -/
theorem Tended.confirms (h : Tended J ob w a) (count : ℕ) (hcount : count ≤ a.pending.length)
    {plan : List Fate} (hplan : Uninterrupted plan) :
    ∃ ob' w', step J (.confirm count, plan) (.up ob w) = (.returned 0, .up ob' w') ∧
      Tended J ob' w' (a.confirm count) := by
  have hwp : wp Fate.Crash (fun r ob' w' => r = .ok 0 ∧ Tended J ob' w' (a.confirm count))
      (fun _ => True) (program J (.confirm count)) ob w :=
    wp_bind (wp_confirmed h hcount (fun _ _ _ _ => trivial) fun ob' w' h' => ⟨rfl, h'⟩)
  obtain ⟨n, ob', w', hrun, hn, h'⟩ :=
    returned_of_wp hplan hwp fun e ob w hQ => absurd hQ.1 (by simp)
  refine ⟨ob', w', ?_, h'⟩
  rw [step_eq_finish rfl, hrun, Except.ok.inj hn]
  rfl

/-- By induction on the rounds: each one takes the next piece of the cut. -/
theorem drain_eq {chunks : List (List Json)} {rounds : List Round} (h : Tended J ob w a)
    (hcut : Cut (Within J MAX_EVENTS_PER_BATCH MAX_BATCH_BYTES) (a.pending.map Event.value) chunks)
    (hrounds : ∀ round ∈ rounds, round.Uninterrupted) :
    ∃ ob' w', drain J rounds (.up ob w) = (chunks.take rounds.length, .up ob' w') ∧
      ob'.pending.map PendingEntry.event = (chunks.drop rounds.length).flatten := by
  induction rounds generalizing ob w a chunks with
  | nil =>
    refine ⟨ob, w, rfl, ?_⟩
    rw [List.length_nil, List.drop_zero, hcut.flatten, h.pending_eq, List.map_map]
    rfl
  | cons round rounds ih =>
    obtain ⟨hround, hrounds⟩ := List.forall_mem_cons.mp hrounds
    obtain ⟨ob₁, w₁, hreopen, h₁⟩ := h.reopenings hround.2
    have hqueue : ob₁.pending = (a.pending.map Event.value).map (entryOf J) := by
      rw [h₁.pending_eq, List.map_map]
      rfl
    rw [drain, hreopen]
    dsimp only
    by_cases hempty : a.pending = []
    · -- nothing is left to be cut
      rw [hempty, List.map_nil] at hcut hqueue
      rw [hcut.eq_nil_iff.mpr rfl, List.take_nil, List.drop_nil]
      refine ⟨ob₁, w₁, ?_, by rw [hqueue]; rfl⟩
      simp only [peekBatch, hqueue, List.map_nil, peekBatchFrom]
      rfl
    · set batch := ob₁.peekBatch (EMPTY_BATCH_BODY_BYTES J) MAX_EVENTS_PER_BATCH MAX_BATCH_BYTES
      have hhead : IsHead (Within J MAX_EVENTS_PER_BATCH MAX_BATCH_BYTES)
          (a.pending.map Event.value) batch :=
        isHead_peekBatch hqueue (Nat.succ_pos 499) (by simpa using hempty)
      obtain ⟨rest, chunks', rfl, hrest, hcut'⟩ := hcut.of_head hereditary_within hhead
      have hlength := congrArg List.length hrest
      rw [List.length_map, List.length_append] at hlength
      obtain ⟨ob₂, w₂, hconfirm, h₂⟩ :=
        h₁.confirms batch.length (by omega) hround.1
      have hpending : (a.confirm batch.length).pending.map Event.value = rest := by
        show (a.pending.drop batch.length).map Event.value = rest
        rw [List.map_drop, hrest, List.drop_left]
      obtain ⟨ob', w', hdrain, hleft⟩ := ih h₂ (hpending ▸ hcut') hrounds
      have hsome : batch.isEmpty = false := List.isEmpty_eq_false_iff.mpr hhead.ne_nil
      refine ⟨ob', w', ?_, hleft⟩
      rw [hsome, if_neg Bool.false_ne_true, hconfirm]
      dsimp only
      rw [hdrain, List.length_cons, List.take_succ_cons]

end Drain

/-! ### Both paths -/

/-- A text of `n` characters that JSON writes as they are. -/
structure AsciiText (n : ℕ) where
  text : JsString
  length : text.length = n
  unescaped : ∀ u ∈ text, Json.Unescaped u

/-- JSON texts in which such a text stands between quotation marks. -/
structure QuotingText extends JsonText where
  stringify_str : ∀ s, (∀ u ∈ s, Json.Unescaped u) →
    stringify (.str s) = 0x22 :: (s.map UInt16.toUInt8 ++ [0x22])

/-- `JSON.stringify` as it can be computed. -/
def compactQuoting : QuotingText where
  toJsonText := compactJson
  stringify_str s hs := by
    have hcharacters : s.flatMap Json.character = s := by
      rw [List.flatMap_congr fun u hu => show Json.character u = [u] from if_pos (hs u hu)]
      exact List.flatMap_singleton' s
    show Json.encode (Json.text (.str s)) = _
    rw [Json.text, Json.quote, hcharacters, Json.encode, List.map_cons, List.map_append]
    rfl

theorem QuotingText.length_stringify (J : QuotingText) {n : ℕ} (t : AsciiText n) :
    (J.stringify (.str t.text)).length = n + 2 := by
  rw [J.stringify_str _ t.unescaped, List.length_cons, List.length_append, List.length_map,
    t.length]
  rfl

def batchIdTemplate : AsciiText 36 :=
  ⟨BATCH_ID_SIZE_TEMPLATE, by decide +kernel, List.all_iff_forall_prop.mp (by decide +kernel)⟩

def sentAtTemplate : AsciiText 24 :=
  ⟨SENT_AT_SIZE_TEMPLATE, by decide +kernel, List.all_iff_forall_prop.mp (by decide +kernel)⟩

/-- Such an id and such a time make a stamp. -/
def AsciiText.stamp (J : QuotingText) (batchId : AsciiText 36) (sentAt : AsciiText 24) :
    Stamp J.toJsonText where
  batchId := batchId.text
  sentAt := sentAt.text
  batchId_length := (J.length_stringify batchId).trans (J.length_stringify batchIdTemplate).symm
  sentAt_length := (J.length_stringify sentAt).trans (J.length_stringify sentAtTemplate).symm

variable (J) in
/-- What the queue of an outbox gives: a batch is the longest head within any limits, and taken
round by round the batches are those of the script. -/
structure Batches (ob : Outbox) (w : World String) : Prop where
  isHead : ∀ maxCount maxBytes, 0 < maxCount → ob.pending ≠ [] →
    IsHead (Within J maxCount maxBytes) (ob.pending.map PendingEntry.event)
      (ob.peekBatch (EMPTY_BATCH_BODY_BYTES J) maxCount maxBytes)
  drain : ob.closed = false → ∀ rounds, (∀ round ∈ rounds, Round.Uninterrupted round) →
    ∃ ob' w', drain J rounds (.up ob w)
        = ((chunkEvents J (ob.pending.map PendingEntry.event)).take rounds.length, .up ob' w') ∧
      ob'.pending.map PendingEntry.event
        = ((chunkEvents J (ob.pending.map PendingEntry.event)).drop rounds.length).flatten

theorem batches_of_agrees {ob : Outbox} {w : World String} {a : Ledger J}
    (h : Agrees J Fate.Crash (.up ob w) a) : Batches J ob w := by
  obtain ⟨⟨gone, head, hconfirmed, hlive⟩, hknows⟩ := h
  have hevents : ob.pending.map PendingEntry.event = a.pending.map Event.value := by
    rw [hlive.queue, List.map_map]
    rfl
  have hqueue : ob.pending = (ob.pending.map PendingEntry.event).map (entryOf J) := by
    rw [hevents, hlive.queue, List.map_map]
    rfl
  refine ⟨fun maxCount maxBytes hcount hne => ?_, fun hopened rounds hrounds => ?_⟩
  · exact isHead_peekBatch hqueue hcount (by simpa using hne)
  · obtain ⟨hcached, hfailed⟩ := hknows.resolve_right fun hfail => not_mayFail_crash hfail.1
    have htended : Tended J ob w a := ⟨⟨gone, head, hconfirmed, hlive⟩, hcached, hfailed, hopened⟩
    exact drain_eq htended (hevents ▸ cut_chunkEvents _) hrounds

/-- **The two batching paths agree and their byte arithmetic is exact.** The size of a request
is counted event by event. In every run of the outbox from the empty directory, with kills at
any file-system call, each batch is the longest head of the queue within the limits, and what is
taken and confirmed batch by batch, across reopenings and compactions, are the batches of
`chunkEvents`. -/
theorem batching (J : QuotingText) (calls : List (Action × List Fate)) :
    (∀ (batchId : AsciiText 36) (sentAt : AsciiText 24) (events : List Json),
      (serializeBatch J.toJsonText batchId.text sentAt.text events).length
        = batchBodyByteLength J.toJsonText events) ∧
    Along (machine J.toJsonText Fate.Crash fun _ => True)
      (fun call ending _ => Effect J.toJsonText call.1 ending)
      (fun s _ => ∀ ob w, s = .up ob w → Batches J.toJsonText ob w) calls emptyDirectory
      Ledger.empty := by
  refine ⟨fun batchId sentAt events => length_serializeBatch (batchId.stamp J sentAt) events, ?_⟩
  refine along_of_invariant (Agrees J.toJsonText Fate.Crash) (fun s a h ob w hs => ?_)
    (fun call s a h hcall => ?_) resting_empty
  · subst hs
    exact batches_of_agrees h
  · obtain ⟨a', heffect, h', -⟩ := agrees_step h (.inl not_mayFail_crash) hcall.2
    exact ⟨a', heffect, h'⟩

/-- A quotation mark in an id takes two bytes of a request. -/
theorem escaped_batchId : ∃ batchId sentAt : JsString,
    (batchId.length = 36 ∧ ∀ u ∈ batchId, u < 0x80) ∧
    (sentAt.length = 24 ∧ ∀ u ∈ sentAt, u < 0x80) ∧
    (serializeBatch compactJson batchId sentAt []).length ≠ batchBodyByteLength compactJson [] := by
  have hbound : ∀ s : JsString, s.all (fun u => decide (u < 0x80)) = true → ∀ u ∈ s, u < 0x80 :=
    fun s => List.all_iff_forall_prop.mp
  exact ⟨List.replicate 36 0x22, SENT_AT_SIZE_TEMPLATE, ⟨rfl, hbound _ (by decide +kernel)⟩,
    ⟨by decide +kernel, hbound _ (by decide +kernel)⟩, by decide +kernel⟩

end Sender
