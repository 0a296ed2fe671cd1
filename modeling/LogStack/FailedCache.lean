/-
The bounded cache of failed ids behaves like an unbounded durable set.

The runs are those of opens, of calls of `quarantine` and of closes, with kills at any
file-system call and with writes and syncs that fail; each open chooses its own cache limit.

* `Directory` — where a run starts: what any earlier use of the outbox leaves, with
  any complete records in `failed.jsonl`;
* `judges` — which ids count as already failed depends on the records alone;
* `failed_cache_refines` — every run does to the set of recorded ids what an unbounded set
  would, and no id is ever given a second complete record.
-/
import LogStack.CrashSafety

open FileProgram Lines KeyedInsert Simulation

namespace Outbox

/-- An outbox directory at rest. -/
structure Directory (J : JsonText) where
  files : Files String
  ledger : Ledger J
  resting : Resting J files ledger

variable (J : JsonText)

/-- The records, and the cache limit that the last open was given. -/
structure Bounded where
  ledger : Ledger J
  limit : ℕ

/-- An outbox whose counter stands for the recorded ids. -/
def Counts (s : Status) (a : Ledger J) : Prop :=
  ∃ ob w, s = .up ob w ∧ ob.failedCount = a.failedIds.toFinset.card

/-- The records `new` bring ids that are not recorded, each once. -/
def AddsOnce (a a' : Ledger J) (new : List (FailedLine J)) : Prop :=
  a'.failed = a.failed ++ new ∧ (new.map FailedLine.id).Nodup ∧
    ∀ id ∈ new.map FailedLine.id, id ∉ a.failedIds

/-- What a call does to the recorded ids. A call of `quarantine` that returns adds exactly
one record for each id of the call that is not recorded, and returns their number. -/
def JournalEffect (call : Action × List Fate) (ending : Ending) (s' : Status)
    (a a' : Ledger J) : Prop :=
  match call.1, ending with
  | .quarantine _ es _ _, .returned n =>
    n = ((es.map Event.id).toFinset \ a.failedIds.toFinset).card ∧
      (∃ new, AddsOnce J a a' new ∧ (new.map FailedLine.id).toFinset
        = (es.map Event.id).toFinset \ a.failedIds.toFinset) ∧ Counts J s' a'
  | .quarantine _ es _ _, _ => ∃ new, AddsOnce J a a' new ∧
      (new.map FailedLine.id).toFinset ⊆ (es.map Event.id).toFinset
  | .open _, .returned _ => a'.failed = a.failed ∧ Counts J s' a'
  | _, _ => a'.failed = a.failed

/-- What a call does to the recorded ids, and which limit stands after it. -/
def FailedEffect (call : Action × List Fate) (ending : Ending) (s' : Status)
    (a a' : Bounded J) : Prop :=
  JournalEffect J call ending s' a.ledger a'.ledger ∧ a'.limit = call.1.limitAfter a.limit

/-- What the outbox answers when it is asked whether an id has failed. -/
def Judges (ob : Outbox) (w : World String) (a : Ledger J) : Prop :=
  ∀ id plan, Uninterrupted plan → ∃ w',
    run (hasFailedId J id none) plan ob w = .returned (decide (id ∈ a.failedIds)) ob w'

/-- The complete lines of `failed.jsonl` are the records of the ledger; an open outbox, also
one that has seen a write fail, holds no more ids than the limit it was opened with, and unless
it has seen a write fail it judges every id by the records. -/
def Refines (s : Status) (a : Bounded J) : Prop :=
  (splitLines newline ((s.files failedPath).getD [])).1 = a.ledger.failed.map FailedLine.text ∧
    ∀ ob w, s = .up ob w → ob.cachedFailedIdCount ≤ a.limit ∧
      (ob.failedWriteFault = false → Judges J ob w a.ledger)

variable {J} {allowed : Call String → Fate → Prop} {s : Status} {a a' : Ledger J}
  {ob : Outbox} {w : World String}

variable (allowed) in
/-- Directory, outbox and records fit together, and the outbox has the limit of the last open. -/
def BoundedAgrees (s : Status) (a : Bounded J) : Prop :=
  Agrees J allowed s a.ledger ∧ ∀ ob w, s = .up ob w → ob.failedIdCacheLimit = a.limit

/-- Which ids count as failed depends on the records alone, not on the limit. -/
theorem judges (hcache : Cached ob a.failedIds)
    (htext : (w.files failedPath).getD [] = failedText a.failed) : Judges J ob w a := by
  intro id plan hplan
  have hwp : wp Fate.Crash (fun r ob' _ => r = .ok (decide (id ∈ a.failedIds)) ∧ ob' = ob)
      (fun _ => True) (hasFailedId J id none) ob w :=
    wp_hasFailedId hcache htext trivial fun _ _ _ => ⟨rfl, rfl⟩
  obtain ⟨answer, ob', w', hrun, hanswer, rfl⟩ :=
    returned_of_wp hplan hwp fun e ob w hQ => absurd hQ.1 (by simp)
  exact ⟨w', by rw [hrun, Except.ok.inj hanswer]⟩

theorem Cached.counts (hcache : Cached ob a.failedIds) : Counts J (.up ob w) a :=
  ⟨ob, w, rfl, by rw [failedCount, hcache.count, length_eraseDups]⟩

theorem refines_of_agrees {a : Bounded J} (h : BoundedAgrees allowed s a) : Refines J s a := by
  obtain ⟨hagrees, hlimit⟩ := h
  refine ⟨?_, ?_⟩
  · obtain ⟨t, htext, ht⟩ := hagrees.resting.2
    rw [htext, failedText, splitLines_unlines_append newline (newline_not_mem_texts _) ht]
  · rintro ob w rfl
    refine ⟨hlimit ob w rfl ▸ hagrees.2.length_cache_le, fun hfault => ?_⟩
    rcases hagrees.2 with ⟨hcache, htext⟩ | ⟨_, hfault', _⟩
    · exact judges hcache htext
    · rw [hfault] at hfault'
      exact absurd hfault' Bool.false_ne_true

theorem addsOnce_take (a : Ledger J) (clock : Json → JsString) (es : List Event) (reason : JsString)
    (detail : Detail) (k : ℕ) :
    AddsOnce J a (a.fail ((newRecords J a clock es reason detail).take k))
      ((newRecords J a clock es reason detail).take k) := by
  have hids : ((newRecords J a clock es reason detail).take k).map FailedLine.id
      = ((firstNew Event.id a.failedIds es).take k).map Event.id := by
    rw [List.map_take, newRecords, map_id_recordLines, List.map_take]
  refine ⟨rfl, ?_, fun id hid => ?_⟩
  · rw [hids, List.map_take]
    exact nodup_firstNew.sublist (List.take_sublist _ _)
  · rw [hids] at hid
    obtain ⟨e, he, rfl⟩ := List.mem_map.mp hid
    exact key_notMem_known (List.mem_of_mem_take he)

theorem toFinset_newRecords {clock : Json → JsString} {es : List Event} {reason : JsString}
    {detail : Detail} :
    ((newRecords J a clock es reason detail).map FailedLine.id).toFinset
      = (es.map Event.id).toFinset \ a.failedIds.toFinset := by
  rw [newRecords, map_id_recordLines, toFinset_firstNew]

theorem journalEffect_of_effect {call : Action × List Fate} {limit : ℕ} {r : Ending × Status}
    (h : Effect J call.1 r.1 a a') (h' : AgreesAfter allowed call.1 limit r a')
    (hcall : Action.LeavesJournal call.1) : JournalEffect J call r.1 r.2 a a' := by
  obtain ⟨act, plan⟩ := call
  obtain ⟨ending, s'⟩ := r
  have hcounts : Refreshes act ending → Counts J s' a' := by
    intro hrefreshes
    obtain ⟨ob, w, rfl, hcache⟩ := h'.2.1 hrefreshes
    exact hcache.counts
  cases act with
  | «open» limit =>
    cases ending with
    | returned n => exact ⟨congrArg Ledger.failed h, hcounts trivial⟩
    | threw => exact congrArg Ledger.failed h
    | killed => exact congrArg Ledger.failed h
  | appendMany es => exact hcall.elim
  | confirm count => exact hcall.elim
  | quarantine clock es reason detail =>
    -- cut short, the journal has the first `k` of the new records
    have hpart : ∀ k, a' = a.fail ((newRecords J a clock es reason detail).take k) →
        ∃ new, AddsOnce J a a' new ∧
          (new.map FailedLine.id).toFinset ⊆ (es.map Event.id).toFinset := by
      rintro k rfl
      refine ⟨_, addsOnce_take a clock es reason detail k, fun id hid => ?_⟩
      rw [List.mem_toFinset, List.map_take] at hid
      have hmem := List.mem_toFinset.mpr (List.mem_of_mem_take hid)
      rw [toFinset_newRecords] at hmem
      exact (Finset.mem_sdiff.mp hmem).1
    cases ending with
    | returned n =>
      obtain ⟨hn, ha'⟩ := h
      refine ⟨by rw [hn, length_firstNew], ⟨newRecords J a clock es reason detail, ?_,
        toFinset_newRecords⟩, hcounts trivial⟩
      -- all of them when the call returns
      have hall := addsOnce_take a clock es reason detail
        (newRecords J a clock es reason detail).length
      rwa [List.take_length, ← ha'] at hall
    | threw =>
      obtain ⟨k, ha'⟩ := h
      exact hpart k ha'
    | killed =>
      obtain ⟨k, ha'⟩ := h
      exact hpart k ha'
  | close => cases ending <;> exact congrArg Ledger.failed h

/-- A call that is not an open leaves the limit; an open sets it. -/
theorem boundedAgrees_step {call : Action × List Fate} {a : Bounded J}
    (h : BoundedAgrees allowed s a)
    (hagrees : AgreesAfter allowed call.1 s.limit (step J call s) a') :
    BoundedAgrees allowed (step J call s).2 ⟨a', call.1.limitAfter a.limit⟩ := by
  refine ⟨hagrees.1, fun ob w hup => (hagrees.2.2 ob w hup).trans ?_⟩
  obtain ⟨act, plan⟩ := call
  cases act with
  | «open» limit => rfl
  | _ =>
    -- an outbox that is up after the call was up before it
    cases s with
    | down files => cases hup
    | up ob' w' => exact h.2 ob' w' rfl

variable (J) in
/-- **The bounded cache refines an unbounded set.** From every directory, along every run of
opens with any cache limits, quarantining calls and closes, with kills at any file-system
call and with writes and syncs that fail: a call that returns adds one record for each id of
it that has none and returns their number, an interrupted one does so for some of them; the
counter of an open outbox is that of the set of recorded ids; its cache never holds more ids
than the limit that the last open was given; and the judgement about an id is membership in
that set, whatever the limit. -/
theorem failed_cache_refines (d : Directory J) (calls : List (Action × List Fate)) (limit : ℕ) :
    Along (machine J Fate.Faulty Action.LeavesJournal) (FailedEffect J) (Refines J) calls
      (.down d.files) ⟨d.ledger, limit⟩ := by
  refine along_of_invariant (BoundedAgrees Fate.Faulty) (fun _ _ => refines_of_agrees)
    (fun call s a h hcall => ?_) ⟨d.resting, fun ob w hup => nomatch hup⟩
  obtain ⟨a', heffect, h'⟩ := agrees_step h.1 (.inr hcall.1) hcall.2
  exact ⟨⟨a', call.1.limitAfter a.limit⟩, ⟨journalEffect_of_effect heffect h' hcall.1, rfl⟩,
    boundedAgrees_step h h'⟩

end Outbox
