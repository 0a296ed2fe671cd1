/-
Quarantining events.

* `recordLine` — the record of a quarantined event, from which its id is read back;
* `wp_quarantine` — a call that returns appends one record for the first event of each
  new id and returns their number; a kill or a failed write leaves the records of some of the
  first of them, and after a failed write the outbox refuses further calls.
-/
import LogStack.FailedJournal
import LogStack.KeyedInsert

open FileProgram Lines KeyedInsert

namespace Outbox

variable {J : JsonText} {allowed : Call String → Fate → Prop} {K : Files String → Prop}
  {ob : Outbox} {w : World String}

/-! ### Records -/

/-- The properties that a caller adds to its records. -/
structure Detail where
  fields : List (JsString × Json)
  plain : ∀ f ∈ fields, JsString.arrayIndex? f.1 = none ∧ f.2.Plain

theorem arrayIndex?_reason : JsString.arrayIndex? (js "reason") = none := by decide +kernel

theorem arrayIndex?_event : JsString.arrayIndex? (js "event") = none := by decide +kernel

theorem plain_failedRecord (quarantinedAt reason : JsString) (detail : Detail) (e : Event) :
    (failedRecord quarantinedAt reason detail.fields e.value).Plain := by
  refine Json.plain_assign (fun f hf => ?_) (Json.plain_assign detail.plain ?_)
  · simp only [List.mem_cons, List.not_mem_nil, or_false] at hf
    rcases hf with rfl | rfl
    · exact ⟨arrayIndex?_reason, Json.plain_str reason⟩
    · exact ⟨arrayIndex?_event, e.plain⟩
  · refine Json.plain_obj.mpr ⟨List.pairwise_singleton _ _, fun f hf => ?_⟩
    obtain rfl := List.mem_singleton.mp hf
    exact Json.plain_str quarantinedAt

theorem get?_failedRecord (quarantinedAt reason : JsString) (detail : List (JsString × Json))
    (event : Json) :
    (failedRecord quarantinedAt reason detail event).get? (js "event") = some event :=
  Json.get?_setField_self _

variable (J) in
/-- The record of a quarantined event. -/
def recordLine (quarantinedAt reason : JsString) (detail : Detail) (e : Event) :
    FailedLine J where
  text := J.stringify (failedRecord quarantinedAt reason detail.fields e.value)
  id := e.id
  newline_not_mem := J.newline_not_mem _
  record := by
    simp only [failedRecordId, J.parse_stringify _ (plain_failedRecord _ _ _ _),
      get?_failedRecord, Option.bind_some, e.get?_event_id]

variable (J) in
def recordLines (clock : Json → JsString) (reason : JsString) (detail : Detail)
    (es : List Event) : List (FailedLine J) :=
  es.map fun e => recordLine J (clock e.value) reason detail e

section RecordLines

variable {clock : Json → JsString} {reason : JsString} {detail : Detail} {es : List Event}

theorem map_id_recordLines :
    (recordLines J clock reason detail es).map FailedLine.id = es.map Event.id := by
  simp only [recordLines, List.map_map]
  rfl

theorem failedText_recordLines (hes : es ≠ []) :
    List.intercalate [newline] ((es.map Event.value).map fun event =>
      J.stringify (failedRecord (clock event) reason detail.fields event)) ++ [newline]
      = failedText (recordLines J clock reason detail es) := by
  rw [intercalate_append_singleton newline (by simpa using hes), failedText, recordLines,
    List.map_map, List.map_map]
  rfl

end RecordLines

/-! ### The call -/

variable [Sturdy allowed] {ls : List (FailedLine J)}

theorem wp_newFailedEvents {Q : Except Failure (List Json) → Outbox → World String → Prop}
    {seen : List JsString} {es : List Event} (hcache : Cached ob (ls.map FailedLine.id))
    (htext : (w.files failedPath).getD [] = failedText ls) (hK : K w.files)
    (hQ : ∀ w', w'.files = w.files → w.Kept w' →
      Q (.ok ((firstNew Event.id (seen ++ ls.map FailedLine.id) es).map Event.value)) ob w') :
    wp allowed Q K (newFailedEvents J seen (es.map Event.value)) ob w := by
  induction es generalizing seen w Q with
  | nil => exact wp_pure (hQ w rfl (.refl w))
  | cons e es ih =>
    rw [List.map_cons, newFailedEvents]
    by_cases hseen : e.id ∈ seen
    · rw [firstNew_cons_of_mem (List.mem_append_left _ hseen)] at hQ
      rw [if_pos (show eventId e.value ∈ seen from hseen)]
      exact ih htext hK hQ
    rw [if_neg (show ¬eventId e.value ∈ seen from hseen)]
    refine wp_bind (wp_hasFailedId hcache htext hK fun w₁ hfiles₁ hkept₁ => ?_)
    rw [andThen_ok]
    by_cases hknown : e.id ∈ ls.map FailedLine.id
    · rw [firstNew_cons_of_mem (List.mem_append_right _ hknown)] at hQ
      rw [decide_eq_true (show eventId e.value ∈ _ from hknown), if_pos rfl]
      exact ih (hfiles₁ ▸ htext) (hfiles₁ ▸ hK) fun w₂ hfiles₂ hkept₂ =>
        hQ w₂ (hfiles₂.trans hfiles₁) (hkept₁.trans hkept₂)
    · rw [firstNew_cons_of_notMem (by simp [hseen, hknown])] at hQ
      rw [decide_eq_false (show ¬eventId e.value ∈ _ from hknown), if_neg Bool.false_ne_true]
      refine wp_bind (ih (hfiles₁ ▸ htext) (hfiles₁ ▸ hK) fun w₂ hfiles₂ hkept₂ => ?_)
      exact hQ w₂ (hfiles₂.trans hfiles₁) (hkept₁.trans hkept₂)

omit [Sturdy allowed] in
theorem wp_countFailedIds {Q : Except Failure PUnit → Outbox → World String → Prop}
    {ids : List JsString} {es : List Event} (hcache : Cached ob ids)
    (hfresh : ∀ e ∈ es, e.id ∉ ids) (hnodup : (es.map Event.id).Nodup)
    (hQ : ∀ ob', Cached ob' (ids ++ es.map Event.id) → SameJournal ob ob' →
      Q (.ok ⟨⟩) ob' w) :
    wp allowed Q K ((es.map Event.value).forM fun event => countFailedId (eventId event)) ob w := by
  induction es generalizing ids ob with
  | nil => exact wp_pure (hQ ob (by simpa using hcache) (.refl ob))
  | cons e es ih =>
    obtain ⟨hhead, htail⟩ := List.nodup_cons.mp hnodup
    refine wp_bind (wp_countFailedId ?_)
    rw [andThen_ok]
    refine ih (hcache.counted (hfresh e List.mem_cons_self)) ?_ htail ?_
    · intro e' he' hmem
      rcases List.mem_append.mp hmem with hmem | hmem
      · exact hfresh e' (List.mem_cons_of_mem _ he') hmem
      · have heq : e'.id = e.id := List.mem_singleton.mp hmem
        exact hhead (heq ▸ List.mem_map_of_mem he')
    · intro ob' hcache' hsame
      refine hQ ob' ?_ ((sameJournal_counted _).trans hsame)
      rwa [List.append_assoc] at hcache'

/-- The files while records are appended: some of the first of them, and perhaps a part of
the next one. -/
def Appending (files files' : Files String) (ls new : List (FailedLine J)) : Prop :=
  (∀ p ≠ failedPath, files' p = files p) ∧ ∃ k t,
    (files' failedPath).getD [] = failedText (ls ++ new.take k) ++ t ∧ newline ∉ t

theorem appending_update (files : Files String) (new : List (FailedLine J)) (n : ℕ) :
    Appending files (Function.update files failedPath
      (some (failedText ls ++ (failedText new).take n))) ls new := by
  obtain ⟨k, t, htake, ht⟩ := take_failedText new n
  refine ⟨fun p hp => Function.update_of_ne hp _ _, k, t, ?_, ht⟩
  rw [Function.update_self, Option.getD_some, htake, failedText_append, List.append_assoc]

omit [Sturdy allowed] in
/-- Records are appended whole, or a failure poisons the outbox; only the last call, which
closes the descriptor, can fail without that. -/
theorem wp_writeFailedRecords {Q : Except Failure Unit → Outbox → World String → Prop}
    {lines : List Bytes} {new : List (FailedLine J)}
    (htext : (w.files failedPath).getD [] = failedText ls)
    (hlines : List.intercalate [newline] lines ++ [newline] = failedText new)
    (hK : ∀ files, Appending w.files files ls new → K files)
    (hE : Throws allowed Q K { ob with failedWriteFault := true } w)
    (hclose : ∀ fd w', (∀ p ≠ failedPath, w'.files p = w.files p) →
      (w'.files failedPath).getD [] = failedText (ls ++ new) → w.Kept w' →
      Fails allowed (.close fd) Q ob w')
    (hQ : ∀ w', (∀ p ≠ failedPath, w'.files p = w.files p) →
      (w'.files failedPath).getD [] = failedText (ls ++ new) → w.Kept w' → Q (.ok ()) ob w') :
    wp allowed Q K (writeFailedRecords lines) ob w := by
  have hsame : K w.files := hK _ ⟨fun _ _ => rfl, 0, [], by simpa using htext, List.not_mem_nil⟩
  refine wp_bind (wp_attempt (wp_openSync_append_any (fun code n hf => ?_) hsame
    fun fd w₁ hfiles₁ hopen => ?_))
  · exact hE _ code n hf w hsame (.refl w)
  rw [htext] at hfiles₁
  have hdata₁ : w₁.files failedPath = some (failedText ls) := by
    rw [hfiles₁, Function.update_self]
  have hK₁ : K w₁.files := by
    have h := hK _ (appending_update w.files new 0)
    rwa [List.take_zero, List.append_nil, ← hfiles₁] at h
  refine ⟨hK₁, wp_tryFinally (wp_tryCatch (wp_bind ?_))⟩
  have hupdate : ∀ d, Function.update w₁.files failedPath d
      = Function.update w.files failedPath d := fun d => by rw [hfiles₁, Function.update_idem]
  -- a failure in the block poisons the outbox, and the descriptor is closed
  have hthrows : ∀ w₂, w₁.Kept w₂ → Throws allowed (fun r m w =>
      match r with
      | .ok a => wp allowed (andThen (fun _ => Q (.ok a)) Q) K (closeSync fd) m w
      | .error e => wp allowed (fun r => wp allowed (andThen (fun _ => Q r) Q) K (closeSync fd))
          K (poisonFailedJournal e) m w) K ob w₂ := by
    intro w₂ hkept₂ c code n hf w₃ hK₃ hkept₃
    exact wp_closeSync_any (fun w₄ hfiles₄ hkept₄ code' n' hf' =>
        hE _ code' n' hf' w₄ (hfiles₄ ▸ hK₃) hkept₄)
      (hopen.trans (hkept₂.trans hkept₃)) hK₃ fun w₄ hfiles₄ hkept₄ =>
        hE c code n hf w₄ (hfiles₄ ▸ hK₃) hkept₄
  rw [hlines]
  refine wp_writeAll (hthrows w₁ (.refl w₁)).andThen hopen.handle hdata₁ ?_ ?_
  · intro n
    rw [hupdate]
    exact hK _ (appending_update w.files new n)
  · intro w₂ hfiles₂ hkept₂
    rw [hupdate] at hfiles₂
    have hK₂ : K w₂.files := by
      have h := hK _ (appending_update w.files new (failedText new).length)
      rwa [List.take_length, ← hfiles₂] at h
    have hopen₂ := hopen.trans hkept₂
    refine wp_bind (wp_fsyncSync (hthrows w₂ hkept₂).andThen hopen₂.handle hK₂ ?_)
    rw [andThen_ok]
    refine wp_fsyncDirectory (hthrows w₂ hkept₂) hK₂ fun w₃ hfiles₃ hkept₃ => ?_
    have hother : ∀ w₄ : World String, w₄.files = w₃.files →
        ∀ p ≠ failedPath, w₄.files p = w.files p := fun w₄ hfiles₄ p hp => by
      rw [hfiles₄, hfiles₃, hfiles₂, Function.update_of_ne hp]
    have htext₄ : ∀ w₄ : World String, w₄.files = w₃.files →
        (w₄.files failedPath).getD [] = failedText (ls ++ new) := fun w₄ hfiles₄ => by
      rw [hfiles₄, hfiles₃, hfiles₂, Function.update_self, Option.getD_some, failedText_append]
    exact wp_closeSync_any
      (fun w₄ hfiles₄ => hclose fd w₄ (hother w₄ hfiles₄) (htext₄ w₄ hfiles₄))
      (hopen₂.trans hkept₃) (hfiles₃ ▸ hK₂)
      fun w₄ hfiles₄ => hQ w₄ (hother w₄ hfiles₄) (htext₄ w₄ hfiles₄)

/-- One record for each new id. A kill leaves the records of some of the first new events
and perhaps a part of the next one; so does a failed write, after which the outbox writes no
more records. -/
theorem wp_quarantine {Q : Except Failure ℕ → Outbox → World String → Prop}
    {clock : Json → JsString} {es new : List Event} {reason : JsString} {detail : Detail}
    (hnew : firstNew Event.id (ls.map FailedLine.id) es = new)
    (hcache : Cached ob (ls.map FailedLine.id))
    (htext : (w.files failedPath).getD [] = failedText ls)
    (hK : ∀ files, Appending w.files files ls (recordLines J clock reason detail new) → K files)
    (hE : Throws allowed Q K { ob with failedWriteFault := true } w)
    (hQ : ∀ ob' w', Cached ob' (ls.map FailedLine.id ++ new.map Event.id) → SameJournal ob ob' →
      (∀ p ≠ failedPath, w'.files p = w.files p) →
      (w'.files failedPath).getD [] = failedText (ls ++ recordLines J clock reason detail new) →
      w.Kept w' → Q (.ok new.length) ob' w') :
    wp allowed Q K (quarantine J clock (es.map Event.value) reason detail.fields) ob w := by
  have hsame : K w.files := hK _ ⟨fun _ _ => rfl, 0, [], by simpa using htext, List.not_mem_nil⟩
  refine wp_fields ?_
  rw [hcache.writable, if_neg Bool.false_ne_true]
  refine wp_bind (wp_newFailedEvents hcache htext hsame fun w₁ hfiles₁ hkept₁ => ?_)
  rw [andThen_ok, List.nil_append, hnew]
  -- nothing is written when every event of the batch has its record
  by_cases hempty : new = []
  · subst hempty
    rw [List.map_nil, List.isEmpty_nil, if_pos rfl]
    exact hQ ob w₁ (by simpa using hcache) (.refl ob) (fun _ _ => by rw [hfiles₁])
      (by rw [hfiles₁, htext]; simp [recordLines]) hkept₁
  have hempty' : (new.map Event.value).isEmpty = false := by simpa using hempty
  rw [hempty', if_neg Bool.false_ne_true]
  refine wp_bind (wp_writeFailedRecords (hfiles₁ ▸ htext) (failedText_recordLines hempty)
    (by rwa [hfiles₁]) (hE.mono hkept₁).andThen (fun _ _ _ _ _ => Sturdy.fails id)
    fun w₂ hother₂ htext₂ hkept₂ => ?_)
  rw [andThen_ok]
  refine wp_bind (wp_countFailedIds hcache ?_ ?_ fun ob' hcache' hob => ?_)
  · exact fun e he => key_notMem_known (hnew ▸ he)
  · exact hnew ▸ nodup_firstNew
  · rw [andThen_ok, List.length_map]
    exact hQ ob' w₂ hcache' hob (fun p hp => by rw [hother₂ p hp, hfiles₁]) htext₂
      (hkept₁.trans hkept₂)

end Outbox
