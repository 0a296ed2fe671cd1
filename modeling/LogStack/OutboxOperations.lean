/-
The operations on the journal keep files and fields in agreement.

* `wp_appendMany` — events are appended in order; a kill keeps some of the first of them;
* `wp_confirm` — the first events of the queue move to the confirmed part, wholly or not at
  all, and `wp_compact` then removes that part from the journal;
* `wp_recoverCompaction` — whatever a kill in a compaction left is brought back to an
  agreeing journal and checkpoint, also when recovering is itself killed;
* `wp_open` — opening rebuilds queue, counters and cache from whatever a kill left.
-/
import LogStack.Quarantine

open FileProgram Lines

namespace Outbox

variable {J : JsonText} {allowed : Call String → Fate → Prop} {K : Files String → Prop}
  {ob : Outbox} {w : World String} {gone head pending confirmed : List Event}

/-- Two outboxes that agree about the failed journal. -/
structure SameCache (ob ob' : Outbox) : Prop where
  cache : ob'.failedEventIds = ob.failedEventIds
  count : ob'.failedUniqueCount = ob.failedUniqueCount
  fault : ob'.failedWriteFault = ob.failedWriteFault
  limit : ob'.failedIdCacheLimit = ob.failedIdCacheLimit

theorem SameCache.refl (ob : Outbox) : SameCache ob ob := ⟨rfl, rfl, rfl, rfl⟩

theorem Cached.sameCache {ob' : Outbox} {ids : List JsString} (h : Cached ob ids)
    (hob : SameCache ob ob') : Cached ob' ids :=
  ⟨by rw [hob.cache, hob.limit, h.cache], by rw [hob.count, h.count],
    by rw [hob.fault, h.writable]⟩

theorem SameJournal.pending_eq {ob' : Outbox} (h : SameJournal ob ob') :
    ob'.pending = ob.pending ∧ ob'.recordedCount = ob.recordedCount ∧
      ob'.closed = ob.closed ∧ ob'.failedIdCacheLimit = ob.failedIdCacheLimit := by
  rw [SameJournal] at h
  rw [h]
  exact ⟨rfl, rfl, rfl, rfl⟩

/-! ### Appending -/

theorem stable_append {files : Files String} (es : List Event) (n : ℕ)
    (hlive : Live J ob w gone head pending)
    (hfiles : files = Function.update w.files journalPath
      (some (journalText J (head ++ pending) ++ (journalText J es).take n))) :
    ∃ k, Stable J files gone head (pending ++ es.take k) := by
  obtain ⟨k, t, htake, ht⟩ := take_journalText J es n
  have hother : ∀ p ≠ journalPath, files p = w.files p := fun p hp => by
    rw [hfiles, Function.update_of_ne hp]
  refine ⟨k, ⟨t, ?_, ht⟩, .inl ?_, ?_⟩
  · rw [hfiles, Function.update_self, Option.getD_some, htake, ← List.append_assoc,
      ← journalText_append, List.append_assoc]
  · rw [hother _ (by decide)]
    exact hlive.checkpoint
  · rw [hother _ (by decide)]
    exact hlive.manifest

/-- What `appendMany` does to the fields. -/
def appended (ob : Outbox) (J : JsonText) (es : List Event) : Outbox :=
  { ob with
    pending := ob.pending ++ (es.map Event.value).map (entryOf J)
    journalEntryCount := ob.journalEntryCount + (es.map Event.value).length }

theorem Live.appended {es : List Event} {w' : World String} (h : Live J ob w gone head pending)
    (hfiles : w'.files = Function.update w.files journalPath
      (some (journalText J (head ++ pending) ++ journalText J es))) (hkept : w.Kept w') :
    Live J (appended ob J es) w' gone head (pending ++ es) where
  journal := by
    rw [hfiles, Function.update_self, ← journalText_append, List.append_assoc]
  checkpoint := by
    rw [hfiles, Function.update_of_ne (by decide)]
    exact h.checkpoint
  manifest := by
    rw [hfiles, Function.update_of_ne (by decide)]
    exact h.manifest
  queue := by
    show ob.pending ++ _ = _
    rw [h.queue, List.map_append, List.map_map]
    rfl
  state := h.state
  entryCount := by
    show ob.journalEntryCount + _ = _
    rw [h.entryCount, List.length_map, List.length_append, Nat.add_assoc]
  fd_lt := lt_of_lt_of_le h.fd_lt hkept.1
  handle := (hkept.2 _ h.fd_lt).trans h.handle

/-- What is appended is stored behind the journal's bytes; a failure leaves a part of it there. -/
theorem wp_appendMany_open {Q : Except Failure Unit → Outbox → World String → Prop}
    {es : List Event} {data : Bytes} (hfd_lt : ob.fd < w.nextFd)
    (hfd : w.fds ob.fd = some (.file journalPath)) (hfile : w.files journalPath = some data)
    (hE : Throws allowed Q K ob w)
    (hK : ∀ n, K (Function.update w.files journalPath
      (some (data ++ (journalText J es).take n))))
    (hQ : ∀ w', w'.files = Function.update w.files journalPath (some (data ++ journalText J es)) →
      w.Kept w' → Q (.ok ()) (appended ob J es) w') :
    wp allowed Q K (appendMany J (es.map Event.value)) ob w := by
  cases es with
  | nil =>
    -- an empty append makes no call
    have hsame :
        w.files = Function.update w.files journalPath (some (data ++ journalText J [])) := by
      rw [show journalText J [] = [] from rfl, List.append_nil, ← hfile, Function.update_eq_self]
    have h := hQ w hsame (.refl w)
    rwa [show appended ob J [] = ob by simp [appended]] at h
  | cons e es =>
    refine wp_fields (wp_bind ?_)
    rw [flatten_lines]
    refine wp_writeAll hE.andThen hfd hfile hK fun w₁ hfiles₁ hkept₁ => ?_
    have hK₁ : K w₁.files := by
      have h := hK (journalText J (e :: es)).length
      rwa [List.take_length, ← hfiles₁] at h
    have hfd₁ : w₁.fds ob.fd = some (.file journalPath) := by
      rw [hkept₁.2 _ hfd_lt, hfd]
    refine wp_bind (wp_fsyncSync (hE.mono hkept₁).andThen hfd₁ hK₁ ?_)
    exact hQ w₁ hfiles₁ hkept₁

theorem wp_appendMany {Q : Except Failure Unit → Outbox → World String → Prop} {es : List Event}
    (hlive : Live J ob w gone head pending)
    (hK : ∀ files k, (∀ p ≠ journalPath, files p = w.files p) →
      Stable J files gone head (pending ++ es.take k) → K files)
    (hE : Throws allowed Q K ob w)
    (hclosed : ob.closed = true → Q (.error (.errno .EBADF)) ob w)
    (hQ : ∀ ob' w', Live J ob' w' gone head (pending ++ es) → SameCache ob ob' →
      ob'.closed = ob.closed → (∀ p ≠ journalPath, w'.files p = w.files p) →
      Q (.ok ()) ob' w') :
    wp allowed Q K (appendMany J (es.map Event.value)) ob w := by
  have hother : ∀ d, ∀ p ≠ journalPath, Function.update w.files journalPath d p = w.files p :=
    fun d p hp => Function.update_of_ne hp _ _
  by_cases hc : ob.closed = true
  · have hfd : w.fds ob.fd = none := by rw [hlive.handle, if_pos hc]
    have hsame : K w.files := hK w.files 0 (fun _ _ => rfl) (by simpa using hlive.stable)
    cases es with
    | nil => exact hQ ob w (by simpa using hlive) (.refl ob) rfl fun _ _ => rfl
    | cons e es =>
      have hne : journalText J (e :: es) ≠ [] := by
        intro h
        have := length_journalText_cons J e es
        rw [h, List.length_nil] at this
        omega
      -- a closed descriptor refuses the first write
      obtain ⟨b, rest, htext⟩ := List.exists_cons_of_ne_nil hne
      refine wp_fields (wp_bind ?_)
      rw [flatten_lines, writeAll, htext, List.length_cons]
      exact wp_bind (wp_writeSync_none hE.andThen.andThen hfd hsame (hclosed hc))
  · have hfd : w.fds ob.fd = some (.file journalPath) := by rw [hlive.handle, if_neg hc]
    refine wp_appendMany_open hlive.fd_lt hfd hlive.journal hE (fun n => ?_)
      fun w₁ hfiles₁ hkept₁ => ?_
    · obtain ⟨k, hstable⟩ := stable_append es n hlive rfl
      exact hK _ k (hother _) hstable
    · exact hQ _ w₁ (hlive.appended hfiles₁ hkept₁) ⟨rfl, rfl, rfl, rfl⟩ rfl fun p hp => by
        rw [hfiles₁, hother _ p hp]

/-! ### Compacting -/

variable [Sturdy allowed]

/-- Nothing but files of the journal changes. -/
theorem update_failedPath {files : Files String} {p : String} {d : Option Bytes}
    (hp : failedPath ≠ p) : Function.update files p d failedPath = files failedPath :=
  Function.update_of_ne hp _ _

theorem compacting_stored {files : Files String} (state : CheckpointState)
    (h : Compacting J files gone pending) :
    Compacting J (stored files checkpointPath (J.stringify state.toJson)) gone pending :=
  h.congr fun p hp => stored_of_ne (ne_of_mem_of_not_mem hp (by decide))
    (ne_of_mem_of_not_mem hp (by decide))

/-- The end of a compaction: the checkpoint is stored and the manifest goes away. -/
theorem wp_finishCompaction {Q : Except Failure Unit → Outbox → World String → Prop}
    (hcompacting : Compacting J w.files confirmed pending)
    (hjournal : w.files compactPath = none ∧ w.files journalPath = some (journalText J pending))
    (hK : ∀ files, Durable J files confirmed pending →
      files failedPath = w.files failedPath → K files)
    (hE : Throws allowed Q K ob w)
    (hQ : ∀ w', w'.files journalPath = some (journalText J pending) →
      w'.files checkpointPath = some (J.stringify (checkpointAt J confirmed []).toJson) →
      w'.files compactManifestPath = none → w'.files failedPath = w.files failedPath →
      w.Kept w' → Q (.ok ()) ob w') :
    wp allowed Q K (finishCompaction J (checkpointAt J confirmed [])) ob w := by
  refine wp_bind (wp_writeAtomicJson J hE.andThen (fun tmp => ?_) ?_ fun w₁ hfiles₁ hkept₁ => ?_)
  · exact hK _ (.inr (hcompacting.congr fun p hp =>
      Function.update_of_ne (ne_of_mem_of_not_mem hp (by decide)) _ _))
      (update_failedPath (by decide))
  · exact hK _ (.inr (compacting_stored _ hcompacting)) (stored_of_ne (by decide) (by decide))
  · have hcompacting₁ := compacting_stored (checkpointAt J confirmed []) hcompacting
    rw [← hfiles₁] at hcompacting₁
    have hfailed₁ : w₁.files failedPath = w.files failedPath := by
      rw [hfiles₁, stored_of_ne (by decide) (by decide)]
    have hjournal₁ : w₁.files journalPath = some (journalText J pending) := by
      rw [hfiles₁, stored_of_ne (by decide) (by decide), hjournal.2]
    have hcheckpoint₁ : w₁.files checkpointPath
        = some (J.stringify (checkpointAt J confirmed []).toJson) := by
      rw [hfiles₁, stored_self]
    refine wp_bind (wp_unlinkSync (by rw [hcompacting₁.manifest]; rfl)
      (hK _ (.inr hcompacting₁) hfailed₁) fun w₂ hfiles₂ hkept₂ => ?_)
    have hjournal₂ : w₂.files journalPath = some (journalText J pending) := by
      rw [hfiles₂, Function.update_of_ne (by decide), hjournal₁]
    have hcheckpoint₂ : w₂.files checkpointPath
        = some (J.stringify (checkpointAt J confirmed []).toJson) := by
      rw [hfiles₂, Function.update_of_ne (by decide), hcheckpoint₁]
    have hmanifest₂ : w₂.files compactManifestPath = none := by
      rw [hfiles₂, Function.update_self]
    have hfailed₂ : w₂.files failedPath = w.files failedPath := by
      rw [hfiles₂, update_failedPath (by decide), hfailed₁]
    -- without the manifest, journal and checkpoint have to agree, and they do
    have hK₂ : K w₂.files := by
      refine hK _ (.inl ⟨confirmed, [], by simp, ⟨[], ?_, List.not_mem_nil⟩, .inl hcheckpoint₂,
        hmanifest₂⟩) hfailed₂
      rw [hjournal₂]
      simp
    refine ⟨hK₂, wp_fsyncDirectory (hE.mono (hkept₁.trans hkept₂)) hK₂
      fun w₃ hfiles₃ hkept₃ => ?_⟩
    rw [← hfiles₃] at hjournal₂ hcheckpoint₂ hmanifest₂ hfailed₂
    exact hQ w₃ hjournal₂ hcheckpoint₂ hmanifest₂ hfailed₂
      ((hkept₁.trans hkept₂).trans hkept₃)

/-- Once the manifest is there, the compacted journal takes the journal's place. -/
theorem compacting_rename {files : Files String} {text : Bytes}
    (h : Compacting J files gone pending) (hcompact : files compactPath = some text) :
    text = journalText J pending ∧
      Compacting J (Function.update (Function.update files compactPath none)
        journalPath (some text))
        gone pending := by
  rcases h.journal with hjournal | ⟨hnone, _⟩
  · rw [hcompact, Option.some_inj] at hjournal
    refine ⟨hjournal, ?_, .inr ⟨?_, ?_⟩⟩
    · rw [Function.update_of_ne (by decide), Function.update_of_ne (by decide), h.manifest]
    · rw [Function.update_of_ne (by decide), Function.update_self]
    · rw [Function.update_self, hjournal]
  · rw [hcompact] at hnone
    exact absurd hnone (by simp)

/-- The compacted journal takes the place of the journal. -/
theorem wp_exchange {Q : Except Failure Unit → Outbox → World String → Prop} {text : Bytes}
    {next : OutboxM Unit} (hcompacting : Compacting J w.files confirmed pending)
    (hcompact : w.files compactPath = some text)
    (hK : ∀ files, Compacting J files confirmed pending →
      files failedPath = w.files failedPath → K files)
    (hE : Throws allowed Q K ob w)
    (hnext : ∀ w', Compacting J w'.files confirmed pending →
      w'.files compactPath = none ∧ w'.files journalPath = some (journalText J pending) →
      w'.files failedPath = w.files failedPath → w.Kept w' → wp allowed Q K next ob w') :
    wp allowed Q K (do
      renameSync compactPath journalPath
      fsyncDirectory
      next) ob w := by
  obtain ⟨htext, hrenamed⟩ := compacting_rename hcompacting hcompact
  refine wp_bind (wp_renameSync hcompact (hK _ hcompacting rfl) fun w₁ hfiles₁ hkept₁ => ?_)
  rw [andThen_ok]
  rw [← hfiles₁] at hrenamed
  -- until the directory is synced the manifest still says what is to be done
  have hjournal₁ : w₁.files compactPath = none ∧
      w₁.files journalPath = some (journalText J pending) := by
    rw [hfiles₁, Function.update_of_ne (by decide), Function.update_self, Function.update_self,
      htext]
    exact ⟨rfl, rfl⟩
  have hfailed₁ : w₁.files failedPath = w.files failedPath := by
    rw [hfiles₁, update_failedPath (by decide), update_failedPath (by decide)]
  have hK₁ : K w₁.files := hK _ hrenamed hfailed₁
  refine ⟨hK₁, wp_bind (wp_fsyncDirectory (hE.mono hkept₁).andThen hK₁
    fun w₂ hfiles₂ hkept₂ => ?_)⟩
  rw [andThen_ok]
  rw [← hfiles₂] at hrenamed hjournal₁ hfailed₁
  exact hnext w₂ hrenamed hjournal₁ hfailed₁ (hkept₁.trans hkept₂)

/-- After a compaction the journal holds exactly the pending events, whatever lines `todo`
it held behind the confirmed ones. -/
theorem wp_compact {Q : Except Failure Unit → Outbox → World String → Prop} {todo : List Event}
    (hstable : Stable J w.files gone head todo)
    (hqueue : ob.pending = pending.map fun e => entryOf J e.value)
    (hstate : ob.checkpointState = checkpointAt J gone head)
    (hfd : w.fds ob.fd = some (.file journalPath))
    (hK : ∀ files es, es = todo ∨ es = pending → Durable J files (gone ++ head) es →
      files failedPath = w.files failedPath → K files)
    (hE : ∀ ob' w', Throws allowed Q K ob' w')
    (hQ : ∀ ob' w', Live J ob' w' (gone ++ head) [] pending → SameCache ob ob' →
      ob'.closed = false → w'.files failedPath = w.files failedPath → Q (.ok ()) ob' w') :
    wp allowed Q K (compact J) ob w := by
  refine wp_fields (wp_bind (wp_closeSync_some hfd (hK _ _ (.inl rfl) hstable.durable rfl)
    fun w₁ hfiles₁ _ _ => ?_))
  rw [andThen_ok]
  refine wp_bind (wp_modify (wp_pure ?_))
  rw [andThen_ok]
  rw [← hfiles₁] at hstable hK hQ
  have hlines : (ob.pending.map fun entry => line J entry.event).flatten
      = journalText J pending := by
    rw [hqueue, ← flatten_lines, List.map_map, List.map_map]
    rfl
  have hK' : ∀ d, K (Function.update w₁.files compactPath d) := fun d =>
    hK _ _ (.inl rfl) (hstable.congr fun p hp =>
      Function.update_of_ne (ne_of_mem_of_not_mem hp (by decide)) _ _).durable
      (update_failedPath (by decide))
  refine wp_bind (wp_writeSynced (hE _ _).andThen hK' fun w₂ hfiles₂ hkept₂ => ?_)
  rw [andThen_ok]
  rw [hlines] at hfiles₂
  have hcompact₂ : w₂.files compactPath = some (journalText J pending) := by
    rw [hfiles₂, Function.update_self]
  have hstable₂ : Stable J w₂.files gone head todo := by
    rw [hfiles₂]
    exact hstable.congr fun p hp =>
      Function.update_of_ne (ne_of_mem_of_not_mem hp (by decide)) _ _
  have hfailed₂ : w₂.files failedPath = w₁.files failedPath := by
    rw [hfiles₂, update_failedPath (by decide)]
  -- the manifest comes into being with the new journal ready
  have hnext : (⟨0, ob.journalBaseCount + ob.confirmedSinceCompaction, 0⟩ : CheckpointState)
      = checkpointAt J (gone ++ head) [] := by
    have hbase := congrArg CheckpointState.journalBaseCount hstate
    have hconfirmed := congrArg CheckpointState.confirmedSinceCompaction hstate
    simp only [checkpointState, checkpointAt] at hbase hconfirmed
    simp [checkpointAt, hbase, hconfirmed, journalText, journalLines]
  rw [hnext]
  set files₅ := stored w₂.files compactManifestPath
    (J.stringify (compactionManifest (checkpointAt J (gone ++ head) []))) with hfiles₅
  have hcompact₅ : files₅ compactPath = some (journalText J pending) := by
    rw [hfiles₅, stored_of_ne (by decide) (by decide), hcompact₂]
  have hcompacting : Compacting J files₅ (gone ++ head) pending :=
    ⟨stored_self, .inl hcompact₅⟩
  have hfailed₅ : files₅ failedPath = w₁.files failedPath := by
    rw [hfiles₅, stored_of_ne (by decide) (by decide), hfailed₂]
  refine wp_bind (wp_writeAtomicJson J (hE _ _).andThen (fun tmp => ?_)
    (hK _ _ (.inr rfl) (.inr hcompacting) hfailed₅) fun w₅ hw₅ hkept₅ => ?_)
  · exact hK _ _ (.inl rfl) (hstable₂.congr fun p hp =>
      Function.update_of_ne (ne_of_mem_of_not_mem hp (by decide)) _ _).durable
      ((update_failedPath (by decide)).trans hfailed₂)
  rw [andThen_ok]
  rw [← hfiles₅] at hw₅
  rw [← hw₅] at hcompact₅ hcompacting hfailed₅
  refine wp_exchange hcompacting hcompact₅
    (fun files hc hf => hK _ _ (.inr rfl) (.inr hc) (hf.trans hfailed₅)) (hE _ _)
    fun w₆ hcompacting₆ hjournal₆ hfailed₆ hkept₆ => ?_
  replace hfailed₆ := hfailed₆.trans hfailed₅
  refine wp_bind (wp_finishCompaction hcompacting₆ hjournal₆
    (fun files hd hf => hK files _ (.inr rfl) hd (hf.trans hfailed₆)) (hE _ _).andThen
    fun w₈ hjournal₈ hcheckpoint₈ hmanifest₈ hfailed₈ _ => ?_)
  rw [andThen_ok]
  refine wp_bind (wp_modify (wp_pure ?_))
  rw [andThen_ok]
  have hK₈ : K w₈.files := by
    refine hK _ pending (.inr rfl) (.inl ⟨gone ++ head, [], by simp,
      ⟨[], ?_, List.not_mem_nil⟩, .inl hcheckpoint₈, hmanifest₈⟩) (hfailed₈.trans hfailed₆)
    rw [hjournal₈]
    simp
  refine wp_bind (wp_openSync hjournal₈ hK₈ fun fd w₉ hfiles₉ hopen₉ => ?_)
  rw [andThen_ok]
  refine wp_modify (wp_pure (hQ _ w₉ ?_ ⟨rfl, rfl, rfl, rfl⟩ rfl
    (by rw [hfiles₉, hfailed₈, hfailed₆])))
  exact
    { journal := by rw [hfiles₉]; simpa using hjournal₈
      checkpoint := hfiles₉ ▸ hcheckpoint₈
      manifest := hfiles₉ ▸ hmanifest₈
      queue := by simp [hqueue, entryOf]
      state := by simp [checkpointState, checkpointAt, journalText, journalLines]
      entryCount := by simp [hqueue]
      fd_lt := hopen₉.lt
      handle := hopen₉.handle }

/-! ### Confirming -/

/-- What `confirm` does to the fields before anything is stored. -/
def advanced (ob : Outbox) (count : ℕ) : Outbox :=
  { ob with
    pending := ob.pending.drop count
    checkpointOffset := ob.checkpointOffset + ((ob.pending.take count).map PendingEntry.bytes).sum
    confirmedSinceCompaction := ob.confirmedSinceCompaction + (ob.pending.take count).length }

theorem checkpointState_advanced
    (hqueue : ob.pending = pending.map fun e => entryOf J e.value)
    (hstate : ob.checkpointState = checkpointAt J gone head) (count : ℕ) :
    (advanced ob count).checkpointState = checkpointAt J gone (head ++ pending.take count) := by
  simp only [checkpointState, checkpointAt, CheckpointState.mk.injEq] at hstate
  obtain ⟨hoffset, hbase, hconfirmed⟩ := hstate
  have hbytes : ((ob.pending.take count).map PendingEntry.bytes).sum
      = (journalText J (pending.take count)).length := by
    rw [hqueue, ← List.map_take, sum_bytes]
  have hlength : (ob.pending.take count).length = (pending.take count).length := by
    rw [hqueue, ← List.map_take, List.length_map]
  simp only [checkpointState, advanced, checkpointAt, hoffset, hbase, hconfirmed, hbytes, hlength,
    journalText_append, List.length_append]

/-- The checkpoint of a confirmed head, once stored. -/
theorem Live.advanced {w' : World String} (h : Live J ob w gone head pending) (count : ℕ)
    (hfiles : w'.files = stored w.files checkpointPath
      (J.stringify (checkpointAt J gone (head ++ pending.take count)).toJson))
    (hkept : w.Kept w') :
    Live J (advanced ob count) w' gone (head ++ pending.take count) (pending.drop count) where
  journal := by
    rw [hfiles, stored_of_ne (by decide) (by decide), List.append_assoc, List.take_append_drop]
    exact h.journal
  checkpoint := by rw [hfiles, stored_self]
  manifest := by
    rw [hfiles, stored_of_ne (by decide) (by decide)]
    exact h.manifest
  queue := by
    show ob.pending.drop count = _
    rw [h.queue, List.map_drop]
  state := checkpointState_advanced h.queue h.state count
  entryCount := by
    show ob.journalEntryCount = _
    rw [h.entryCount, List.length_append, List.length_take, List.length_drop]
    omega
  fd_lt := lt_of_lt_of_le h.fd_lt hkept.1
  handle := (hkept.2 _ h.fd_lt).trans h.handle

omit [Sturdy allowed] in
/-- A confirm that confirms something: the checkpoint is stored, and then, from some size on,
the confirmed head is cut off. -/
theorem wp_confirm_pos {Q : Except Failure Unit → Outbox → World String → Prop} {count : ℕ}
    (hqueue : ob.pending = pending.map fun e => entryOf J e.value)
    (hstate : ob.checkpointState = checkpointAt J gone head) (hpos : 0 < count)
    (hcount : count ≤ pending.length)
    (h : wp allowed (andThen (fun _ => wp allowed Q K
        (if COMPACT_THRESHOLD_BYTES ≤ (advanced ob count).checkpointOffset then compact J
          else pure ())) Q) K
      (writeAtomicJson J checkpointPath (checkpointAt J gone (head ++ pending.take count)).toJson)
      (advanced ob count) w) :
    wp allowed Q K (confirm J count) ob w := by
  have hlength : ob.pending.length = pending.length := by rw [hqueue, List.length_map]
  have hnext : checkpointState { ob with
      pending := ob.pending.drop count
      checkpointOffset := ob.checkpointOffset + ((ob.pending.take count).map PendingEntry.bytes).sum
      confirmedSinceCompaction := ob.confirmedSinceCompaction + (ob.pending.take count).length }
      = checkpointAt J gone (head ++ pending.take count) :=
    checkpointState_advanced hqueue hstate count
  -- the fields change first; nothing is stored before `hnext`
  refine wp_fields ?_
  rw [hlength, if_neg (not_lt.mpr hcount), if_neg hpos.ne']
  refine wp_bind (wp_modify (wp_pure ?_))
  rw [andThen_ok]
  refine wp_fields (wp_bind ?_)
  rw [hnext]
  exact h

theorem wp_confirm {Q : Except Failure Unit → Outbox → World String → Prop} {count : ℕ}
    (hlive : Live J ob w gone head pending)
    (hK : ∀ files n, (n = 0 ∨ n = count ∧ count ≤ pending.length) →
      Durable J files (gone ++ head ++ pending.take n) (pending.drop n) →
      files failedPath = w.files failedPath → K files)
    (hE : ∀ ob' w', Throws allowed Q K ob' w')
    (herror : ∀ e n ob' w', (n = 0 ∧ pending.length < count ∨
        n = count ∧ count ≤ pending.length ∧ ob.closed = true) →
      Live J ob' w' gone (head ++ pending.take n) (pending.drop n) → SameCache ob ob' →
      w'.files failedPath = w.files failedPath → Q (.error e) ob' w')
    (hQ : ∀ ob' w' gone' head', gone' ++ head' = gone ++ head ++ pending.take count →
      count ≤ pending.length → Live J ob' w' gone' head' (pending.drop count) →
      SameCache ob ob' → ob'.closed = ob.closed → w'.files failedPath = w.files failedPath →
      Q (.ok ()) ob' w') :
    wp allowed Q K (confirm J count) ob w := by
  have hlength : ob.pending.length = pending.length := by rw [hlive.queue, List.length_map]
  by_cases hcount : pending.length < count
  · refine wp_fields ?_
    rw [hlength, if_pos hcount]
    exact herror _ 0 ob w (.inl ⟨rfl, hcount⟩) (by simpa using hlive) (.refl ob) rfl
  rw [not_lt] at hcount
  by_cases hzero : count = 0
  · subst hzero
    refine wp_fields ?_
    rw [if_neg (Nat.not_lt_zero _), if_pos rfl]
    exact hQ ob w gone head (by simp) hcount (by simpa using hlive) (.refl ob) rfl rfl
  have hbefore : ∀ files, Stable J files gone head pending →
      files failedPath = w.files failedPath → K files := fun files hstable hfailed =>
    hK files 0 (.inl rfl) (by simpa using hstable.durable) hfailed
  refine wp_confirm_pos hlive.queue hlive.state (Nat.pos_of_ne_zero hzero) hcount ?_
  refine wp_writeAtomicJson J (hE _ _).andThen (fun tmp => ?_) ?_ fun w₁ hfiles₁ hkept₁ => ?_
  · exact hbefore _ (hlive.stable.congr fun p hp =>
      Function.update_of_ne (ne_of_mem_of_not_mem hp (by decide)) _ _)
      (update_failedPath (by decide))
  · refine hK _ count (.inr ⟨rfl, hcount⟩) ?_ (stored_of_ne (by decide) (by decide))
    have hlive' : Live J (advanced ob count) ⟨stored w.files checkpointPath
        (J.stringify (checkpointAt J gone (head ++ pending.take count)).toJson), w.fds, w.nextFd⟩
        gone (head ++ pending.take count) (pending.drop count) :=
      hlive.advanced count rfl (.of_eq rfl rfl)
    simpa only [List.append_assoc] using hlive'.stable.durable
  have hlive₁ := hlive.advanced count hfiles₁ hkept₁
  have hfailed₁ : w₁.files failedPath = w.files failedPath := by
    rw [hfiles₁, stored_of_ne (by decide) (by decide)]
  rw [andThen_ok]
  by_cases hthreshold : COMPACT_THRESHOLD_BYTES ≤ (advanced ob count).checkpointOffset
  · rw [if_pos hthreshold]
    have hK₁ : ∀ files, Durable J files (gone ++ (head ++ pending.take count))
        (pending.drop count) → files failedPath = w₁.files failedPath → K files :=
      fun files hdurable hfailed => hK files count (.inr ⟨rfl, hcount⟩)
        (by simpa only [List.append_assoc] using hdurable) (hfailed.trans hfailed₁)
    by_cases hclosed : ob.closed = true
    · have hfd : w₁.fds ob.fd = none := by
        rw [hkept₁.2 _ hlive.fd_lt, hlive.handle, if_pos hclosed]
      -- a closed outbox has confirmed its head and then fails to compact
      refine wp_fields (wp_bind (wp_closeSync_none hfd (hK₁ _ hlive₁.stable.durable rfl) ?_))
      exact herror _ count _ w₁ (.inr ⟨rfl, hcount, hclosed⟩) hlive₁ ⟨rfl, rfl, rfl, rfl⟩ hfailed₁
    · have hfd : w₁.fds ob.fd = some (.file journalPath) := by
        rw [hkept₁.2 _ hlive.fd_lt, hlive.handle, if_neg hclosed]
      refine wp_compact hlive₁.stable hlive₁.queue hlive₁.state hfd (fun files es hes => ?_) hE ?_
      · obtain rfl : es = _ := hes.elim id id
        exact hK₁ files
      intro ob' w' hlive' hcache hopen hfailed'
      refine hQ ob' w' _ [] ?_ hcount hlive'
        ⟨hcache.cache, hcache.count, hcache.fault, hcache.limit⟩
        ?_ (hfailed'.trans hfailed₁)
      · simp
      · rw [hopen]
        simpa using hclosed
  · rw [if_neg hthreshold]
    exact hQ _ w₁ gone _ (by simp) hcount hlive₁ ⟨rfl, rfl, rfl, rfl⟩ rfl hfailed₁

/-- Closing ends the use of the descriptor and touches no file. -/
theorem wp_close {Q : Except Failure Unit → Outbox → World String → Prop}
    (hlive : Live J ob w gone head pending) (hK : K w.files)
    (hQ : ∀ ob' w', Live J ob' w' gone head pending → SameCache ob ob' → ob'.closed = true →
      w'.files = w.files → Q (.ok ()) ob' w') :
    wp allowed Q K close ob w := by
  refine wp_fields ?_
  by_cases hclosed : ob.closed = true
  · rw [if_pos hclosed]
    exact hQ ob w hlive (.refl ob) hclosed rfl
  rw [if_neg hclosed]
  have hfd : w.fds ob.fd = some (.file journalPath) := by rw [hlive.handle, if_neg hclosed]
  refine wp_bind (wp_closeSync_some hfd hK fun w₁ hfiles₁ hnext₁ hfds₁ => ?_)
  refine hQ { ob with closed := true } w₁ ?_ ⟨rfl, rfl, rfl, rfl⟩ rfl hfiles₁
  exact
    { journal := hfiles₁ ▸ hlive.journal
      checkpoint := hfiles₁ ▸ hlive.checkpoint
      manifest := hfiles₁ ▸ hlive.manifest
      queue := hlive.queue
      state := hlive.state
      entryCount := hlive.entryCount
      fd_lt := hnext₁ ▸ hlive.fd_lt
      handle := by rw [hfds₁, Function.update_self, if_pos rfl] }

/-! ### Opening -/

/-- Recovery brings back an agreeing journal and checkpoint, and a kill in it leaves
something to recover from. -/
theorem wp_recoverCompaction {Q : Except Failure Unit → Outbox → World String → Prop}
    (hdurable : Durable J w.files confirmed pending)
    (hK : ∀ files, Durable J files confirmed pending →
      files failedPath = w.files failedPath → K files)
    (hE : Throws allowed Q K ob w)
    (hQ : ∀ w' gone head, confirmed = gone ++ head → Stable J w'.files gone head pending →
      w'.files failedPath = w.files failedPath → w.Kept w' → Q (.ok ()) ob w') :
    wp allowed Q K (recoverCompaction J) ob w := by
  have hK₀ : K w.files := hK _ hdurable rfl
  refine wp_bind (wp_existsSync hK₀ ?_)
  rw [andThen_ok]
  rcases hdurable with ⟨gone, head, rfl, hstable⟩ | hcompacting
  · rw [hstable.manifest, Option.isSome_none, if_neg Bool.false_ne_true]
    refine wp_bind (wp_existsSync hK₀ ?_)
    rw [andThen_ok]
    by_cases hcompact : (w.files compactPath).isSome = true
    · rw [if_pos hcompact]
      refine wp_unlinkSync hcompact hK₀ fun w₁ hfiles₁ hkept₁ => ?_
      have hstable₁ : Stable J w₁.files gone head pending := by
        rw [hfiles₁]
        exact hstable.congr fun p hp =>
          Function.update_of_ne (ne_of_mem_of_not_mem hp (by decide)) _ _
      have hfailed₁ : w₁.files failedPath = w.files failedPath := by
        rw [hfiles₁, update_failedPath (by decide)]
      exact ⟨hK _ hstable₁.durable hfailed₁, hQ w₁ gone head rfl hstable₁ hfailed₁ hkept₁⟩
    · rw [if_neg hcompact]
      exact hQ w gone head rfl hstable rfl (.refl w)
  · rw [hcompacting.manifest, Option.isSome_some, if_pos rfl]
    refine wp_bind (wp_tryCatch (wp_bind (wp_readFileSync hcompacting.manifest hK₀ ?_)))
    rw [andThen_ok, checkpointOfManifest_stringify]
    refine wp_ofExcept ?_
    refine wp_bind (wp_existsSync hK₀ ?_)
    rw [andThen_ok]
    -- what remains to be done once the compacted journal is in place
    have hfinish : ∀ w₁, Compacting J w₁.files confirmed pending →
        w₁.files compactPath = none ∧ w₁.files journalPath = some (journalText J pending) →
        w₁.files failedPath = w.files failedPath → w.Kept w₁ →
        wp allowed Q K (finishCompaction J (checkpointAt J confirmed [])) ob w₁ := by
      intro w₁ hcompacting₁ hjournal₁ hfailed₁ hkept₁
      refine wp_finishCompaction hcompacting₁ hjournal₁
        (fun files hd hf => hK files hd (hf.trans hfailed₁)) (hE.mono hkept₁)
        fun w₂ hjournal₂ hcheckpoint₂ hmanifest₂ hfailed₂ hkept₂ => ?_
      refine hQ w₂ confirmed [] (by simp) ⟨⟨[], ?_, List.not_mem_nil⟩, .inl hcheckpoint₂,
        hmanifest₂⟩ (hfailed₂.trans hfailed₁) (hkept₁.trans hkept₂)
      rw [hjournal₂]
      simp
    cases hcompact : w.files compactPath with
    | none =>
      rw [Option.isSome_none, if_neg Bool.false_ne_true]
      have hjournal : w.files journalPath = some (journalText J pending) := by
        rcases hcompacting.journal with hsome | ⟨-, hjournal⟩
        · rw [hcompact] at hsome
          cases hsome
        · exact hjournal
      exact hfinish w hcompacting ⟨hcompact, hjournal⟩ rfl (.refl w)
    | some text =>
      rw [Option.isSome_some, if_pos rfl]
      exact wp_exchange hcompacting hcompact (fun files hc hf => hK files (.inr hc) hf) hE hfinish

theorem wp_loadCheckpoint {Q : Except Failure CheckpointState → Outbox → World String → Prop}
    (hstable : Stable J w.files gone head pending) (hK : K w.files)
    (hQ : Q (.ok (checkpointAt J gone head)) ob w) :
    wp allowed Q K (loadCheckpoint J) ob w := by
  refine wp_bind (wp_existsSync hK ?_)
  rw [andThen_ok]
  rcases hstable.checkpoint with hcheckpoint | ⟨hnone, rfl, rfl⟩
  · rw [hcheckpoint, Option.isSome_some, if_pos rfl]
    refine wp_tryCatch (wp_bind (wp_readFileSync hcheckpoint hK ?_))
    rw [andThen_ok, checkpointOfText_stringify]
    exact hQ
  · rw [hnone, Option.isSome_none, if_neg Bool.false_ne_true]
    exact hQ

theorem wp_loadJournal {Q : Except Failure (List JournalEntry) → Outbox → World String → Prop}
    {es : List Event} (hjournal : (w.files journalPath).getD [] = journalText J es)
    (hK : K w.files) (hQ : Q (.ok (entriesFrom J es 0)) ob w) :
    wp allowed Q K (loadJournal J) ob w := by
  refine wp_bind (wp_existsSync hK ?_)
  rw [andThen_ok]
  cases hdata : w.files journalPath with
  | none =>
    rw [Option.isSome_none, if_neg Bool.false_ne_true]
    rw [hdata, Option.getD_none] at hjournal
    cases es with
    | nil => exact hQ
    | cons e es =>
      -- a journal that is missing holds no event
      have hlength := length_journalText_cons J e es
      rw [← hjournal, List.length_nil] at hlength
      omega
  | some data =>
    rw [hdata, Option.getD_some] at hjournal
    rw [Option.isSome_some, if_pos rfl]
    refine wp_bind (wp_readFileSync hdata hK ?_)
    rw [andThen_ok, hjournal, journalText,
      splitLines_unlines newline (newline_not_mem_journalLines J es)]
    refine wp_bind ?_
    rw [journalEntries_journalLines]
    exact wp_ofExcept hQ

theorem queue_opened : ((entriesFrom J (head ++ pending) 0).filter
      fun entry => decide ((checkpointAt J gone head).offset ≤ entry.start)).map
        JournalEntry.toPendingEntry = pending.map fun e => entryOf J e.value := by
  rw [checkpointAt, filter_le_start, map_toPendingEntry_entriesFrom]

/-- The files once their unfinished lines are cut off. -/
structure Repaired (J : JsonText) (files : Files String) (gone head pending : List Event)
    (ls : List (FailedLine J)) : Prop where
  journal : (files journalPath).getD [] = journalText J (head ++ pending)
  checkpoint : files checkpointPath = some (J.stringify (checkpointAt J gone head).toJson) ∨
    files checkpointPath = none ∧ gone = [] ∧ head = []
  manifest : files compactManifestPath = none
  failed : (files failedPath).getD [] = failedText ls

theorem Repaired.stable {files : Files String} {ls : List (FailedLine J)}
    (h : Repaired J files gone head pending ls) : Stable J files gone head pending :=
  ⟨⟨[], by rw [h.journal, List.append_nil], List.not_mem_nil⟩, h.checkpoint, h.manifest⟩

theorem getD_replace {files : Files String} {path : String} {text t : Bytes}
    (h : (files path).getD [] = text ++ t) : (replace files path text path).getD [] = text := by
  rw [replace, Function.update_self]
  cases hdata : files path with
  | none =>
    rw [hdata, Option.getD_none] at h
    simp [(List.append_eq_nil_iff.mp h.symm).1]
  | some data => rfl

theorem replace_of_ne {files : Files String} {path p : String} {text : Bytes} (hp : p ≠ path) :
    replace files path text p = files p := Function.update_of_ne hp _ _

/-- The first steps of the constructor: recovery, and no unfinished lines any more. -/
theorem wp_repair {Q : Except Failure Unit → Outbox → World String → Prop}
    {ls : List (FailedLine J)} {next : OutboxM Unit}
    (hdurable : Durable J w.files confirmed pending)
    (hfailed : ∃ t, (w.files failedPath).getD [] = failedText ls ++ t ∧ newline ∉ t)
    (hK : ∀ files, Durable J files confirmed pending →
      (∃ t, (files failedPath).getD [] = failedText ls ++ t ∧ newline ∉ t) → K files)
    (hE : ∀ ob', Throws allowed Q K ob' w)
    (hnext : ∀ cut w' gone head, confirmed = gone ++ head →
      Repaired J w'.files gone head pending ls → w.Kept w' →
      wp allowed Q K next { ob with truncatedLines := cut } w') :
    wp allowed Q K (do
      mkdirSync
      recoverCompaction J
      let truncatedLines ← truncateIncompleteTail journalPath
      Prog.modify fun ob => { ob with truncatedLines := truncatedLines }
      let _ ← truncateIncompleteTail failedPath
      next) ob w := by
  obtain ⟨t, htext, ht⟩ := hfailed
  have hK' : ∀ files, Durable J files confirmed pending →
      files failedPath = w.files failedPath → K files := fun files hd hf =>
    hK files hd ⟨t, hf ▸ htext, ht⟩
  refine wp_bind (wp_mkdirSync (hK' _ hdurable rfl) ?_)
  rw [andThen_ok]
  refine wp_bind (wp_recoverCompaction hdurable hK' (hE _).andThen
    fun w₁ gone head hconfirmed hstable₁ hfailed₁ hkept₁ => ?_)
  rw [andThen_ok]
  -- the journal ends with a line
  obtain ⟨t₁, htext₁, ht₁⟩ := hstable₁.journal
  have hreplaced : Stable J (replace w₁.files journalPath (journalText J (head ++ pending)))
      gone head pending :=
    ⟨⟨[], by rw [getD_replace htext₁, List.append_nil], List.not_mem_nil⟩,
      by rw [replace_of_ne (by decide)]; exact hstable₁.checkpoint,
      by rw [replace_of_ne (by decide)]; exact hstable₁.manifest⟩
  refine wp_bind (wp_truncateIncompleteTail ((hE _).mono hkept₁).andThen htext₁ ht₁
    (hK' _ (hconfirmed ▸ hstable₁.durable) hfailed₁) (hK' _ (hconfirmed ▸ hreplaced.durable)
      (by rw [replace_of_ne (by decide), hfailed₁])) fun cut w₂ hfiles₂ hkept₂ => ?_)
  rw [andThen_ok]
  refine wp_bind (wp_modify (wp_pure ?_))
  rw [andThen_ok]
  have hjournal₂ : (w₂.files journalPath).getD [] = journalText J (head ++ pending) := by
    rw [show w₂.files = _ from hfiles₂]
    exact getD_replace htext₁
  have hstable₂ : Stable J w₂.files gone head pending := by
    rw [show w₂.files = _ from hfiles₂]
    exact hreplaced
  have hfailed₂ : (w₂.files failedPath).getD [] = failedText ls ++ t := by
    rw [show w₂.files = _ from hfiles₂, replace_of_ne (by decide), hfailed₁, htext]
  -- and so does the failed journal
  have hrepaired : Repaired J (replace w₂.files failedPath (failedText ls)) gone head pending ls :=
    { journal := by rw [replace_of_ne (by decide), hjournal₂]
      checkpoint := by rw [replace_of_ne (by decide)]; exact hstable₂.checkpoint
      manifest := by rw [replace_of_ne (by decide)]; exact hstable₂.manifest
      failed := getD_replace hfailed₂ }
  have hK₃ : K (replace w₂.files failedPath (failedText ls)) :=
    hK _ (hconfirmed ▸ hrepaired.stable.durable)
      ⟨[], by rw [hrepaired.failed, List.append_nil], List.not_mem_nil⟩
  refine wp_bind (wp_truncateIncompleteTail ((hE _).mono (hkept₁.trans hkept₂)).andThen hfailed₂ ht
    (hK _ (hconfirmed ▸ hstable₂.durable) ⟨t, hfailed₂, ht⟩) hK₃ fun _ w₃ hfiles₃ hkept₃ => ?_)
  rw [andThen_ok]
  refine hnext cut w₃ gone head hconfirmed ?_ ((hkept₁.trans hkept₂).trans hkept₃)
  rw [show w₃.files = _ from hfiles₃]
  exact hrepaired

/-- The last steps of the constructor: the repaired checkpoint is stored, and the journal opened
for appending. -/
theorem wp_openJournal {Q : Except Failure Unit → Outbox → World String → Prop}
    {ls : List (FailedLine J)} (hrepaired : Repaired J w.files gone head pending ls)
    (hqueue : ob.pending = pending.map fun e => entryOf J e.value)
    (hstate : ob.checkpointState = checkpointAt J gone head)
    (hcount : ob.journalEntryCount = head.length + pending.length) (hclosed : ob.closed = false)
    (hK : ∀ files, Repaired J files gone head pending ls → K files)
    (hE : ∀ ob', Throws allowed Q K ob' w)
    (hQ : ∀ fd w', Live J { ob with fd := fd } w' gone head pending →
      (w'.files failedPath).getD [] = failedText ls → Q (.ok ()) { ob with fd := fd } w') :
    wp allowed Q K (do
      persistCheckpoint J (checkpointAt J gone head)
      let journalExisted ← existsSync journalPath
      let fd ← openSync journalPath .a
      Prog.modify fun ob => { ob with fd := fd }
      if journalExisted then pure () else fsyncDirectory) ob w := by
  have hstored : Repaired J (stored w.files checkpointPath
      (J.stringify (checkpointAt J gone head).toJson)) gone head pending ls :=
    { journal := by rw [stored_of_ne (by decide) (by decide), hrepaired.journal]
      checkpoint := .inl stored_self
      manifest := by rw [stored_of_ne (by decide) (by decide), hrepaired.manifest]
      failed := by rw [stored_of_ne (by decide) (by decide), hrepaired.failed] }
  refine wp_bind (wp_writeAtomicJson J (hE _).andThen (fun tmp => hK _ ?_) (hK _ hstored)
    fun w₁ hfiles₁ hkept₁ => ?_)
  · -- the text of the temporary file does not matter
    exact
      { journal := by rw [Function.update_of_ne (by decide), hrepaired.journal]
        checkpoint := by rw [Function.update_of_ne (by decide)]; exact hrepaired.checkpoint
        manifest := by rw [Function.update_of_ne (by decide), hrepaired.manifest]
        failed := by rw [update_failedPath (by decide), hrepaired.failed] }
  rw [andThen_ok]
  rw [← show w₁.files = _ from hfiles₁] at hstored
  refine wp_bind (wp_existsSync (hK _ hstored) ?_)
  rw [andThen_ok]
  refine wp_bind (wp_openSync_append (hK _ hstored) fun fd w₂ hfiles₂ hopen₂ => ?_)
  rw [andThen_ok]
  rw [hstored.journal] at hfiles₂
  have hjournal₂ : w₂.files journalPath = some (journalText J (head ++ pending)) := by
    rw [hfiles₂, Function.update_self]
  have hother₂ : ∀ p ≠ journalPath, w₂.files p = w₁.files p := fun p hp => by
    rw [hfiles₂, Function.update_of_ne hp]
  have hcheckpoint₂ : w₂.files checkpointPath
      = some (J.stringify (checkpointAt J gone head).toJson) := by
    rw [hother₂ _ (by decide), show w₁.files = _ from hfiles₁, stored_self]
  have hmanifest₂ : w₂.files compactManifestPath = none := by
    rw [hother₂ _ (by decide), hstored.manifest]
  have hfailed₂ : (w₂.files failedPath).getD [] = failedText ls := by
    rw [hother₂ _ (by decide), hstored.failed]
  have hK₂ : K w₂.files :=
    hK _ ⟨by rw [hjournal₂, Option.getD_some], .inl hcheckpoint₂, hmanifest₂, hfailed₂⟩
  refine ⟨hK₂, wp_bind (wp_modify (wp_pure ?_))⟩
  rw [andThen_ok]
  -- a journal that existed needs no sync of the directory; both ways end here
  have hdone : ∀ w₃, w₃.files = w₂.files → w₂.Kept w₃ → Q (.ok ()) { ob with fd := fd } w₃ := by
    intro w₃ hfiles₃ hkept₃
    have hopen₃ := hopen₂.trans hkept₃
    rw [← hfiles₃] at hjournal₂ hcheckpoint₂ hmanifest₂ hfailed₂
    refine hQ fd w₃ ?_ hfailed₂
    exact
      { journal := hjournal₂
        checkpoint := hcheckpoint₂
        manifest := hmanifest₂
        queue := hqueue
        state := hstate
        entryCount := hcount
        fd_lt := hopen₃.lt
        handle := by
          rw [if_neg (by simpa using hclosed)]
          exact hopen₃.handle }
  by_cases hexisted : (w₁.files journalPath).isSome = true
  · rw [if_pos hexisted]
    exact hdone w₂ rfl (.refl w₂)
  · rw [if_neg hexisted]
    exact wp_fsyncDirectory ((hE _).mono (hkept₁.trans hopen₂.kept)) hK₂ hdone

/-- Opening succeeds on whatever a kill left, and rebuilds queue, counters and cache. -/
theorem wp_open {Q : Except Failure Unit → Outbox → World String → Prop} {limit : ℕ}
    {ls : List (FailedLine J)} (hdurable : Durable J w.files confirmed pending)
    (hfailed : ∃ t, (w.files failedPath).getD [] = failedText ls ++ t ∧ newline ∉ t)
    (hK : ∀ files, Durable J files confirmed pending →
      (∃ t, (files failedPath).getD [] = failedText ls ++ t ∧ newline ∉ t) → K files)
    (hE : ∀ ob', Throws allowed Q K ob' w)
    (hQ : ∀ ob' w' gone head, confirmed = gone ++ head → Live J ob' w' gone head pending →
      Cached ob' (ls.map FailedLine.id) → ob'.closed = false → ob'.failedIdCacheLimit = limit →
      (w'.files failedPath).getD [] = failedText ls → Q (.ok ()) ob' w') :
    wp allowed Q K («open» J limit) ob w := by
  show wp allowed Q K (mkdirSync >>= _) _ w
  refine wp_repair hdurable hfailed hK hE fun cut w₁ gone head hconfirmed hrepaired hkept₁ => ?_
  have hK₁ : ∀ files, Repaired J files gone head pending ls → K files := fun files h =>
    hK files (hconfirmed ▸ h.stable.durable) ⟨[], by rw [h.failed, List.append_nil],
      List.not_mem_nil⟩
  -- checkpoint, journal and failed journal are read
  refine wp_bind (wp_loadCheckpoint hrepaired.stable (hK₁ _ hrepaired) ?_)
  rw [andThen_ok]
  refine wp_bind (wp_loadJournal hrepaired.journal (hK₁ _ hrepaired) ?_)
  rw [andThen_ok]
  refine wp_bind (wp_modify (wp_pure ?_))
  rw [andThen_ok]
  refine wp_bind (wp_loadFailedEventIds ⟨by simp, rfl, rfl⟩ hrepaired.failed (hK₁ _ hrepaired)
    fun ob₂ w₂ hcache₂ hsame₂ hfiles₂ hkept₂ => ?_)
  rw [andThen_ok]
  rw [← hfiles₂] at hrepaired
  refine wp_bind (wp_statSize (hK₁ _ hrepaired) ?_)
  rw [andThen_ok, hrepaired.journal, checkpointAt, repairCheckpoint_entriesFrom, ← checkpointAt]
  dsimp only
  rw [queue_opened]
  refine wp_bind (wp_modify (wp_pure ?_))
  rw [andThen_ok]
  have hcount : ob₂.journalEntryCount = head.length + pending.length := by
    rw [show ob₂.journalEntryCount = _ from congrArg Outbox.journalEntryCount hsame₂,
      ← List.length_append]
    exact length_entriesFrom J (head ++ pending) 0
  have hclosed : ob₂.closed = false := congrArg Outbox.closed hsame₂
  have hlimit : ob₂.failedIdCacheLimit = limit := congrArg Outbox.failedIdCacheLimit hsame₂
  refine wp_openJournal hrepaired rfl rfl hcount hclosed hK₁
    (fun ob' => (hE ob').mono (hkept₁.trans hkept₂)) fun fd w₃ hlive hfailed₃ => ?_
  exact hQ _ w₃ gone head hconfirmed hlive ⟨hcache₂.cache, hcache₂.count, hcache₂.writable⟩
    hclosed hlimit hfailed₃

end Outbox
