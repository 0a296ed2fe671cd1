/-
No loss and no double resolution, end to end.

* `Process.Agrees` — the sender and a ledger of its directory fit together; every operation of the
  sender keeps them together, wherever it is killed;
* `Proper`, `Inv` — a request carries recorded events, and an answer tells the truth about the
  events of its request;
* `inv_step` — every step keeps the invariant, for one of the ledgers that it may leave;
* `end_to_end` — every run accounts for the events.
-/
import LogStack.ColumnDomains
import LogStack.CompactJson
import LogStack.FailedOperations
import LogStack.Pipeline

open FileProgram Lines Outbox Ingestion Sender

namespace Pipeline

variable {J : JsonText} {L : Libraries} {pg : Postgres}

/-! ### The sender -/

section Sender

variable {a : Ledger J} {loop : SendLoop J} {clock : Json → JsString} {files : Files String}

/-- A call that throws nothing returns, or it is killed. -/
theorem Schedule.cases {α : Type} {Q : α → Outbox → World String → Prop}
    {K : Files String → Prop} {p : OutboxM α} {ob : Outbox} {w : World String} (schedule : Schedule)
    (h : wp Fate.Crash (fun r ob w => ∃ x, r = .ok x ∧ Q x ob w) K p ob w) :
    (∃ x ob' w', run p schedule.fates ob w = .returned x ob' w' ∧ Q x ob' w') ∨
      ∃ files, run p schedule.fates ob w = .killed files ∧ K files := by
  have hsat := wp_sound (follows_of_forall (fun _ => trivial) schedule.crash) h
  cases hrun : run p schedule.fates ob w with
  | returned x ob' w' =>
    rw [hrun] at hsat
    obtain ⟨y, hy, hQ⟩ := hsat
    exact .inl ⟨x, ob', w', rfl, Except.ok.inj hy ▸ hQ⟩
  | threw e ob' w' =>
    rw [hrun] at hsat
    obtain ⟨y, hy, -⟩ := hsat
    cases hy
  | killed files =>
    rw [hrun] at hsat
    exact .inr ⟨files, rfl, hsat⟩

/-- Sender and ledger fit together, and no batch will be too large. -/
def Process.Agrees : Process J → Ledger J → Prop
  | .down files, a => Resting J files a
  | .up loop, a => LoopInv loop a ∧ Capped loop.daemon.splitSegments

def Process.inFlight : Process J → Option (Request J)
  | .down _ => none
  | .up loop => loop.inFlight

theorem Process.Agrees.resting {process : Process J} (h : process.Agrees a) :
    Resting J process.files a := by
  cases process with
  | down files => exact h
  | up loop => exact h.1.tended.resting

/-- A new process tends what the directory holds. -/
theorem wp_open_tended (limit : ℕ) (h : Resting J files a) :
    wp Fate.Crash (fun r ob w => ∃ x, r = .ok x ∧ Tended J ob w a)
      (fun files => Resting J files a) (Outbox.open J limit) { failedIdCacheLimit := 0 }
      (World.boot files) :=
  wp_open h.1 h.2 (fun _ hdurable hfailed => ⟨hdurable, hfailed⟩) (fun _ => throws_crash)
    fun _ _ gone head hconfirmed hlive hcache hclosed _ htext =>
      ⟨(), rfl, ⟨gone, head, hconfirmed, hlive⟩, hcache, htext, hclosed⟩

theorem agrees_open (limit : ℕ) (schedule : Schedule) (h : Resting J files a) :
    (Process.open limit schedule files).Agrees a ∧
      (Process.open limit schedule files : Process J).inFlight = none := by
  rcases schedule.cases (wp_open_tended limit h) with ⟨x, ob, w, hrun, htended⟩ |
    ⟨files', hrun, hrest⟩
  · simp only [Process.open, hrun, Process.after]
    exact ⟨⟨⟨htended, .nil, fun _ h => by cases h⟩, .nil⟩, rfl⟩
  · simp only [Process.open, hrun, Process.after]
    exact ⟨hrest, rfl⟩

/-- All events of an append that returns are recorded, some of the first ones of one that is
killed. -/
theorem agrees_append (schedule : Schedule) (h : LoopInv loop a) (es : List Event) :
    (∃ ob w, run (appendMany J (es.map Event.value)) schedule.fates loop.outbox loop.world
        = .returned () ob w ∧ LoopInv { loop with outbox := ob, world := w } (a.append es)) ∨
      ∃ files k, run (appendMany J (es.map Event.value)) schedule.fates loop.outbox loop.world
        = .killed files ∧ Resting J files (a.append (es.take k)) := by
  have hwp : wp Fate.Crash (fun r ob w => ∃ x, r = .ok x ∧ Tended J ob w (a.append es))
      (fun files => ∃ k, Resting J files (a.append (es.take k)))
      (appendMany J (es.map Event.value)) loop.outbox loop.world :=
    wp_append h.tended (fun _ k hrest => ⟨k, hrest⟩) fun ob w htended => ⟨(), rfl, htended⟩
  rcases schedule.cases hwp with ⟨x, ob, w, hrun, htended⟩ | ⟨files, hrun, k, hrest⟩
  · exact .inl ⟨ob, w, hrun, h.append htended⟩
  · exact .inr ⟨files, k, hrun, hrest⟩

variable (clock) in
/-- A batch that is settled is handled, wholly or in part. -/
theorem agrees_settle {request : Request J} {batch : List Event} (schedule : Schedule)
    (h : (Process.up loop).Agrees a) (hrequest : loop.inFlight = some request)
    (hbatch : request.batch = batch.map Event.value) (hcount : batch.length ≤ 500)
    (reply : Option Reply) :
    ∃ a', PartlyHandled a clock
        (handlingOf request.batchId batch (decision J request.batchId batch reply)) a' ∧
      (Process.settle clock reply schedule loop).Agrees a' ∧
      (Process.settle clock reply schedule loop).inFlight = none := by
  obtain ⟨hinv, hcapped⟩ := h
  obtain ⟨batch', hprefix, hbatch', hhead⟩ := hinv.batch hrequest
  obtain rfl : batch = batch' := Event.value_injective.list_map (hbatch.symm.trans hbatch')
  set action := decision J request.batchId batch reply with haction
  have hwp : wp Fate.Crash (fun r ob w => ∃ d, r = .ok d ∧ ∃ quarantined,
      d = settledFields loop.daemon batch.length quarantined action ∧
        Tended J ob w (handled a clock (handlingOf request.batchId batch action)))
      (fun files => ∃ a', PartlyHandled a clock (handlingOf request.batchId batch action) a' ∧
        Resting J files a')
      (sendBatch J clock request.batchId request.batch reply loop.daemon) loop.outbox
      loop.world := by
    rw [hbatch]
    exact wp_sendBatch hinv.tended hprefix.length_le
      (fun _ a' hpart hrest => ⟨a', hpart, hrest⟩)
      fun ob w htended => ⟨_, rfl, _, rfl, htended⟩
  -- the process comes to the end of the batch, or is killed with some of it handled
  rcases schedule.cases hwp with ⟨d, ob, w, hrun, quarantined, rfl, htended⟩ |
    ⟨files, hrun, a', hpart, hrest⟩
  · refine ⟨_, .inr rfl, ?_⟩
    simp only [Process.settle, hrequest, hrun, Process.after]
    exact ⟨⟨hinv.settle hhead htended, hcapped.settled hcount action⟩, rfl⟩
  · refine ⟨a', hpart, ?_⟩
    simp only [Process.settle, hrequest, hrun, Process.after]
    exact ⟨hrest, rfl⟩

theorem agrees_close (schedule : Schedule) (h : LoopInv loop a) :
    (Process.close schedule loop).Agrees a ∧ (Process.close schedule loop).inFlight = none := by
  obtain ⟨⟨gone, head, hconfirmed, hlive⟩, -, -, -⟩ := id h.tended
  have hresting := h.tended.resting
  have hwp : wp Fate.Crash (fun r _ w => ∃ x, r = .ok x ∧ Resting J w.files a)
      (fun files => Resting J files a) Outbox.close loop.outbox loop.world :=
    wp_close hlive hresting fun ob w _ _ _ hfiles => ⟨(), rfl, hfiles.symm ▸ hresting⟩
  rcases schedule.cases hwp with ⟨x, ob, w, hrun, hrest⟩ | ⟨files, hrun, hrest⟩
  · simp only [Process.close, hrun]
    exact ⟨hrest, rfl⟩
  · simp only [Process.close, hrun]
    exact ⟨hrest, rfl⟩

end Sender

/-! ### The invariant -/

/-- The request carries recorded events, as the sender makes it. -/
structure Proper (L : Libraries) (recorded : List Event) (request : Request J) (es : List Event) :
    Prop where
  label : ∃ label : Label J L, request.toStamp = label.toStamp
  batch : request.batch = es.map Event.value
  recorded : es ⊆ recorded
  count : 1 ≤ es.length ∧ es.length ≤ 500

variable (L pg) in
/-- What holds of the system between any two steps. -/
structure Inv (offered : List Event) (s : System J) (a : Ledger J) : Prop where
  kept : Kept J L pg offered a s.database.toTables
  agrees : s.process.Agrees a
  /-- The sender waits for the answer to its last request. -/
  waiting : ∀ request, s.process.inFlight = some request → s.requests.getLast? = some request
  returned : s.returned ⊆ a.recorded
  requests : ∀ request ∈ s.requests, ∃ es, Proper L a.recorded request es
  answers : ∀ answer ∈ s.answers, ∃ request es, s.requests[answer.1]? = some request ∧
    request.batch = es.map Event.value ∧
    Truthful J L pg es s.database.toTables answer.2

variable {offered : List Event} {s : System J} {a a' : Ledger J}

theorem inv_start : Inv L pg offered (System.start J) Outbox.Ledger.empty where
  kept := kept_empty _ rfl
  agrees := (resting_empty : Outbox.Agrees J Fate.Crash emptyDirectory Outbox.Ledger.empty)
  waiting := fun request h => by cases h
  returned := List.nil_subset _
  requests := fun request h => absurd h List.not_mem_nil
  answers := fun answer h => absurd h List.not_mem_nil

/-- What the sender does to its process and its directory. -/
theorem Inv.sender (h : Inv L pg offered s a) {process : Process J} {returned : List Event}
    (hkept : Kept J L pg offered a' s.database.toTables) (hagrees : process.Agrees a')
    (hwaiting : process.inFlight = none ∨ process.inFlight = s.process.inFlight)
    (hrecorded : a.recorded ⊆ a'.recorded) (hreturned : returned ⊆ a'.recorded) :
    Inv L pg offered { s with process := process, returned := returned } a' where
  kept := hkept
  agrees := hagrees
  waiting := by
    intro request hrequest
    rcases hwaiting with hnone | hsame
    · rw [hnone] at hrequest
      cases hrequest
    · exact h.waiting request (hsame.symm.trans hrequest)
  returned := hreturned
  requests := by
    intro request hrequest
    obtain ⟨es, hproper⟩ := h.requests request hrequest
    exact ⟨es, hproper.label, hproper.batch, List.Subset.trans hproper.recorded hrecorded,
      hproper.count⟩
  answers := h.answers

/-! ### Steps of the sender -/

theorem inv_append (h : Inv L pg offered s a) (hdistinct : DistinctIds offered)
    (schedule : Schedule) {es : List Event} (hes : es ⊆ offered) :
    ∃ a', Inv L pg offered (s.append es schedule) a' := by
  rw [System.append]
  cases hprocess : s.process with
  | down files => exact ⟨a, h⟩
  | up loop =>
    have hagrees : (Process.up loop).Agrees a := hprocess ▸ h.agrees
    have hgrows : ∀ es', a.recorded ⊆ (a.append es').recorded := fun es' => by
      rw [Outbox.Ledger.recorded_append]
      exact List.subset_append_left _ _
    rcases agrees_append schedule hagrees.1 es with ⟨ob, w, hrun, hinv⟩ | ⟨files, k, hrun, hrest⟩
    · refine ⟨a.append es, ?_⟩
      simp only [hrun]
      refine h.sender (h.kept.append hdistinct hes) ⟨hinv, hagrees.2⟩ (.inr ?_) (hgrows es) ?_
      · rw [hprocess]
        rfl
      · rw [Outbox.Ledger.recorded_append]
        exact List.append_subset.mpr ⟨List.Subset.trans h.returned (List.subset_append_left _ _),
          List.subset_append_right _ _⟩
    · -- killed: the first events are recorded, and nobody has been told
      refine ⟨a.append (es.take k), ?_⟩
      simp only [hrun]
      exact h.sender (h.kept.append hdistinct (List.Subset.trans (List.take_subset k es) hes)) hrest
        (.inl rfl) (hgrows _) (List.Subset.trans h.returned (hgrows _))

theorem inv_send (h : Inv L pg offered s a) (label : Label J L) :
    Inv L pg offered (s.send label) a := by
  rw [System.send]
  cases hprocess : s.process with
  | down files => exact h
  | up loop =>
    dsimp only
    split_ifs with hwaits
    · exact h
    obtain ⟨hinv, hcapped⟩ : (Process.up loop).Agrees a := hprocess ▸ h.agrees
    have hnone : loop.inFlight = none := by simpa using hwaits
    have hstays : Inv L pg offered
        { s with process := .up loop, requests := s.requests ++ loop.inFlight.toList } a := by
      rw [hnone, Option.toList_none, List.append_nil]
      refine { h with agrees := ⟨hinv, hcapped⟩, waiting := fun request hrequest => ?_ }
      rw [Process.inFlight, hnone] at hrequest
      cases hrequest
    have hsend := send_step hinv label.toStamp
    rw [SendLoop.send] at hsend ⊢
    split_ifs at hsend ⊢ with hhalts hempty
    · exact hstays
    · exact hstays
    -- the batch is a prefix of what is pending, so its events are recorded ones
    obtain ⟨n, -, -, hpeek⟩ := peekBatch_inHead hinv
    have hlength : (a.pending.take n).length = loop.peekBatch.length := by
      rw [hpeek, List.length_map]
    have hproper : Proper L a.recorded ⟨label.toStamp, loop.peekBatch⟩ (a.pending.take n) := by
      refine ⟨⟨label, rfl⟩, hpeek, ?_, ?_, ?_⟩
      · exact List.Subset.trans (List.take_subset n _) (pending_subset a)
      · rw [hlength]
        exact List.length_pos_iff.mpr fun hnil => hempty (List.isEmpty_iff.mpr hnil)
      · rw [hlength]
        exact (length_peekBatch_le _ _ _ _).trans hcapped.currentBatchCap
    refine ⟨h.kept, ⟨hsend, hcapped⟩, fun request hrequest => ?_, h.returned,
      fun request hrequest => ?_, fun answer hanswer => ?_⟩
    · rw [Option.toList_some, List.getLast?_concat]
      exact hrequest
    · rcases List.mem_append.mp hrequest with hold | hnew
      · exact h.requests request hold
      · obtain rfl := List.mem_singleton.mp hnew
        exact ⟨_, hproper⟩
    · obtain ⟨request, es, hnumber, hbatch, htruthful⟩ := h.answers answer hanswer
      refine ⟨request, es, ?_, hbatch, htruthful⟩
      rw [List.getElem?_append_left (List.getElem?_eq_some_iff.mp hnumber).1]
      exact hnumber

/-- The sender learns what became of its batch. -/
theorem inv_settle (h : Inv L pg offered s a) (hdistinct : DistinctIds offered)
    {loop : SendLoop J} (hprocess : s.process = .up loop) (clock : Json → JsString)
    (reply : Option Reply) (schedule : Schedule)
    (hfair : ∀ request batch, loop.inFlight = some request →
      request.batch = batch.map Event.value → Fair J L pg batch s.database.toTables
        (handlingOf request.batchId batch (decision J request.batchId batch reply))) :
    ∃ a', Inv L pg offered { s with process := .settle clock reply schedule loop } a' := by
  have hagrees : (Process.up loop).Agrees a := hprocess ▸ h.agrees
  cases hrequest : loop.inFlight with
  | none =>
    refine ⟨a, h.sender h.kept ?_ (.inr ?_) (List.Subset.refl _) h.returned⟩
    · simpa only [Process.settle, hrequest] using hagrees
    · simp only [Process.settle, hrequest, hprocess]
  | some request =>
    have hlast : s.requests.getLast? = some request := by
      refine h.waiting request ?_
      rw [hprocess]
      exact hrequest
    obtain ⟨batch, hproper⟩ := h.requests request (List.mem_of_getLast? hlast)
    obtain ⟨batch', hprefix, hbatch', hhead⟩ := hagrees.1.batch hrequest
    -- an event is determined by its value, so the request names one batch of events
    obtain rfl : batch = batch' :=
      Event.value_injective.list_map (hproper.batch.symm.trans hbatch')
    obtain ⟨a', hpart, hagrees', hnone⟩ := agrees_settle clock schedule hagrees hrequest
      hproper.batch hproper.count.2 reply
    refine ⟨a', h.sender ?_ hagrees' (.inl hnone) ?_ ?_⟩
    · exact h.kept.partlyHandled hdistinct (hfair request batch hrequest hproper.batch) hprefix
        (handlingOf_count_le _ _ _) hpart
    · exact hpart.recorded.symm ▸ List.Subset.refl _
    · exact hpart.recorded.symm ▸ h.returned

theorem inv_receive (h : Inv L pg offered s a) (hdistinct : DistinctIds offered) (answer : ℕ)
    (retryAfter : Option ℚ) (clock : Json → JsString) (schedule : Schedule) :
    ∃ a', Inv L pg offered (s.receive answer retryAfter clock schedule) a' := by
  rw [System.receive]
  split
  · rename_i loop number response hprocess hanswer
    split_ifs with hcurrent
    · refine inv_settle h hdistinct hprocess clock _ schedule
        fun request batch hrequest hbatch => ?_
      obtain ⟨request', es, hnumber, hes, htruthful⟩ :=
        h.answers (number, response) (List.mem_of_getElem? hanswer)
      -- the answer is to the request that the loop waits for
      have hlast : s.requests.getLast? = some request := by
        refine h.waiting request ?_
        rw [hprocess]
        exact hrequest
      rw [List.getLast?_eq_getElem?, ← hcurrent, Nat.add_sub_cancel, hnumber] at hlast
      obtain rfl := Option.some.inj hlast
      obtain rfl : es = batch := Event.value_injective.list_map (hes.symm.trans hbatch)
      exact fair_of_truthful htruthful retryAfter
    · exact ⟨a, h⟩
  · exact ⟨a, h⟩

/-! ### Steps of the receiver -/

/-- A proper request that is served. -/
theorem Kept.receive {request : Request J} {es : List Event} {db : Database} {db' : Tables}
    {reachable : Bool} {refusal : Option Refusal} {r : HttpResponse}
    (h : Kept J L pg offered a db.toTables) (hdistinct : DistinctIds offered)
    (hproper : Proper L a.recorded request es)
    (hreceive : Ingestion.receive J L pg reachable refusal (.json request.body) db.toTables
      = (r, db')) :
    Kept J L pg offered a db' ∧ db.gameEvents ⊆ db'.gameEvents ∧ Truthful J L pg es db' r := by
  obtain ⟨⟨label, hlabel⟩, hbatch, hes, hcount⟩ := hproper
  rw [Request.body, hbatch, hlabel] at hreceive
  have hkept : Kept J L pg offered a db' ∧ db.gameEvents ⊆ db'.gameEvents := by
    rcases receive_batch label hcount hreceive with ⟨-, -, rfl⟩ | ⟨-, rfl⟩ | hcommitted
    · exact ⟨h, List.Subset.refl _⟩
    · exact ⟨h, List.Subset.refl _⟩
    · refine ⟨h.store hcommitted.subset (fun row hrow => ?_) hdistinct, hcommitted.subset⟩
      exact (hcommitted.rows hrow).imp_right fun ⟨e, he, hof⟩ => ⟨e, hes he, hof⟩
  refine ⟨hkept.1, hkept.2, truthful_receive label hcount hreceive hdistinct
    (List.Subset.trans hes h.recorded) fun row hrow => ?_⟩
  obtain ⟨e, he, hof⟩ := hkept.1.rows row hrow
  exact ⟨e, h.recorded he, hof⟩

theorem inv_serve (h : Inv L pg offered s a) (hdistinct : DistinctIds offered) (number : ℕ)
    (reachable : Bool) (refusal : Option Refusal) :
    Inv L pg offered (s.serve L pg number reachable refusal) a := by
  rw [System.serve]
  cases hnumber : s.requests[number]? with
  | none => exact h
  | some request =>
    obtain ⟨es, hproper⟩ := h.requests request (List.mem_of_getElem? hnumber)
    obtain ⟨hkept, hrows, htruthful⟩ := h.kept.receive hdistinct hproper
      (Prod.mk.eta (p := Ingestion.receive J L pg reachable refusal (.json request.body)
        s.database.toTables)).symm
    refine { h with kept := hkept, answers := fun answer hanswer => ?_ }
    rcases List.mem_append.mp hanswer with hold | hnew
    · obtain ⟨request', es', hnumber', hbatch', htruthful'⟩ := h.answers answer hold
      exact ⟨request', es', hnumber', hbatch', htruthful'.mono hrows⟩
    · obtain rfl := List.mem_singleton.mp hnew
      exact ⟨request, es, hnumber, hproper.batch, htruthful⟩

/-- A 503 says nothing. -/
theorem truthful_unavailable {es : List Event} {db : Tables} :
    Truthful J L pg es db (answerResponse J .unavailable) := by
  constructor <;> simp [answerResponse, respond]

theorem inv_giveUp (h : Inv L pg offered s a) {number : ℕ} (hnumber : number < s.requests.length) :
    Inv L pg offered
      { s with answers := s.answers ++ [(number, answerResponse J .unavailable)] } a := by
  refine { h with answers := fun answer hanswer => ?_ }
  rcases List.mem_append.mp hanswer with hold | hnew
  · exact h.answers answer hold
  · obtain rfl := List.mem_singleton.mp hnew
    have hrequest : s.requests[number]? = some s.requests[number] :=
      List.getElem?_eq_getElem hnumber
    obtain ⟨es, hproper⟩ := h.requests _ (List.mem_of_getElem? hrequest)
    exact ⟨_, es, hrequest, hproper.batch, truthful_unavailable⟩

/-! ### Runs -/

/-- **Every step keeps the invariant**, for one of the ledgers that it may leave. -/
theorem inv_step (h : Inv L pg offered s a) (hdistinct : DistinctIds offered)
    {action : Action J L} (hevents : action.events ⊆ offered) :
    ∃ a', Inv L pg offered (s.step pg action) a' := by
  cases action with
  | «open» limit schedule =>
    rw [System.step]
    cases hprocess : s.process with
    | up loop => exact ⟨a, h⟩
    | down files =>
      have hrest : Resting J files a := by
        have hagrees := h.agrees
        rwa [hprocess] at hagrees
      obtain ⟨hagrees, hnone⟩ := agrees_open limit schedule hrest
      exact ⟨a, h.sender h.kept hagrees (.inl hnone) (List.Subset.refl _) h.returned⟩
  | append events schedule => exact inv_append h hdistinct schedule hevents
  | send label => exact ⟨a, inv_send h label⟩
  | receive answer retryAfter clock schedule =>
    exact inv_receive h hdistinct answer retryAfter clock schedule
  | lose clock schedule =>
    rw [System.step]
    cases hprocess : s.process with
    | down files => exact ⟨a, h⟩
    | up loop => exact inv_settle h hdistinct hprocess clock none schedule fun _ _ _ _ => fair_none
  | close schedule =>
    rw [System.step]
    cases hprocess : s.process with
    | down files => exact ⟨a, h⟩
    | up loop =>
      have hloop : LoopInv loop a := by
        have hagrees := h.agrees
        rw [hprocess] at hagrees
        exact hagrees.1
      obtain ⟨hagrees, hnone⟩ := agrees_close schedule hloop
      exact ⟨a, h.sender h.kept hagrees (.inl hnone) (List.Subset.refl _) h.returned⟩
  | kill =>
    exact ⟨a, h.sender h.kept h.agrees.resting (.inl rfl) (List.Subset.refl _) h.returned⟩
  | serve request reachable refusal => exact ⟨a, inv_serve h hdistinct request reachable refusal⟩
  | giveUp request =>
    rw [System.step]
    split_ifs with hrequest
    · exact ⟨a, inv_giveUp h hrequest⟩
    · exact ⟨a, h⟩

/-- By induction on the run. -/
theorem inv_run {actions : List (Action J L)} (h : Inv L pg offered s a)
    (hdistinct : DistinctIds offered) (hevents : actions.flatMap Action.events ⊆ offered) :
    ∃ a', Inv L pg offered (s.run pg actions) a' := by
  induction actions generalizing s a with
  | nil => exact ⟨a, h⟩
  | cons action actions ih =>
    rw [List.flatMap_cons] at hevents
    obtain ⟨hfirst, hrest⟩ := List.append_subset.mp hevents
    obtain ⟨a', h'⟩ := inv_step h hdistinct hfirst
    exact ih h' hrest

/-! ### What the invariant says -/

theorem failedLines_of_resting {files : Files String} (h : Resting J files a) :
    (splitLines newline ((files failedPath).getD [])).1 = a.failed.map FailedLine.text := by
  obtain ⟨-, t, htext, ht⟩ := h
  rw [htext, failedText, splitLines_unlines_append newline (newline_not_mem_texts a.failed) ht]

theorem Inv.shows (h : Inv L pg offered s a) : s.process.Shows a.pending where
  held := by
    intro loop hprocess
    have hagrees := h.agrees
    rw [hprocess] at hagrees
    rw [hagrees.1.tended.pending_eq, List.map_map]
    rfl
  kept := by
    intro limit fates hfates
    obtain ⟨ob, w, gone, head, hopen, -, hlive, -⟩ :=
      opens limit
        (show Resting J (Status.down s.process.files).files a from h.agrees.resting) hfates
    refine ⟨ob, w, hopen, ?_⟩
    rw [hlive.queue, List.map_map]
    rfl

theorem Inv.failedLines_eq (h : Inv L pg offered s a) :
    s.failedLines = a.failed.map FailedLine.text := failedLines_of_resting h.agrees.resting

theorem Inv.hasRecord_iff (h : Inv L pg offered s a) {e : Event} :
    s.HasRecord e ↔ ∃ l ∈ a.failed, RecordOf l e := by
  simp only [System.HasRecord, h.failedLines_eq, List.mem_map, exists_exists_and_eq_and]
  rfl

theorem Inv.accounted (h : Inv L pg offered s a) (hdistinct : DistinctIds offered) :
    Accounted L pg s where
  resolved := by
    refine ⟨a.pending, h.shows, fun e he => ?_, fun hempty e he => ?_⟩
    · rw [h.hasRecord_iff]
      exact (h.kept.safe.recorded (h.returned he)).imp_right
        (Or.imp (fun hfailed => hfailed.2) fun hstored => hstored.2)
    · have hrecorded := h.returned he
      have hnone : (custody J L pg a s.database.toTables).pending = ∅ := by
        simp [custody, hempty]
      have honce := h.kept.safe.resolved_once hnone hrecorded
      rw [h.hasRecord_iff, System.HasRow]
      simpa [custody, hrecorded] using honce
  unique := s.database.schema.eventIds_nodup
  disjoint := by
    intro line hline
    rw [h.failedLines_eq] at hline
    obtain ⟨l, hl, rfl⟩ := List.mem_map.mp hline
    refine ⟨l.id, l.record, fun hstored => ?_⟩
    obtain ⟨e, he, hof⟩ := h.kept.records l hl
    obtain ⟨row, hrow, hid⟩ := List.mem_map.mp hstored
    obtain ⟨e', he', hof'⟩ := h.kept.rows row hrow
    -- record and row are about one event
    have hsame : rowId e = rowId e' := by
      rw [rowId, ← hof.id_eq, ← hid, hof'.eventId]
    obtain rfl := hdistinct.eq (h.kept.recorded he) (h.kept.recorded he') hsame
    exact h.kept.safe.disjoint e ⟨he, l, hl, hof⟩ ⟨he, row, hrow, hof'⟩

variable (J L pg) in
/-- **No loss and no double resolution, end to end.** Start from an empty directory and empty
tables, let the sender record events with different ids, be killed in any file-system call and
opened again any number of times, let the network lose, delay and repeat requests and lose
answers, and let the receiver answer each request that arrives, or 503 whatever becomes of its
transaction. Then after every run each event whose `appendMany` returned waits in the outbox, or
has a record in `failed.jsonl`, or is a row of `game_events`; no event id has two rows, and none
is in both places. Once nothing waits, each event is in exactly one of them. -/
theorem end_to_end (actions : List (Action J L))
    (hdistinct : DistinctIds (actions.flatMap Action.events)) :
    Accounted L pg ((System.start J).run pg actions) := by
  have hstart : Inv L pg (actions.flatMap Action.events) (System.start J) Outbox.Ledger.empty :=
    inv_start
  obtain ⟨a, h⟩ := inv_run hstart hdistinct (List.Subset.refl _)
  exact h.accounted hdistinct

/-! ### A lost answer -/

theorem crash_nil : ∀ f ∈ ([] : List Fate), ∀ c : Call String, Fate.Crash c f :=
  fun _ h => absurd h List.not_mem_nil

/-- Nothing interrupts the operation. -/
def Schedule.quiet : Schedule := ⟨[], crash_nil⟩

theorem isUUID_template : sampleLibraries.isUUID BATCH_ID_SIZE_TEMPLATE = true := by
  decide +kernel

theorem isISO8601_template : sampleLibraries.isISO8601 false SENT_AT_SIZE_TEMPLATE = true := by
  decide +kernel

def sampleLabel : Label compactJson sampleLibraries where
  toStamp := .template compactJson
  isUUID := isUUID_template
  isISO8601 := isISO8601_template

theorem plain_sampleEvent (eventId : JsString) (type : EventType)
    {payload : List (JsString × Json)} (hpayload : (Json.obj payload).Plain) :
    (sampleEvent eventId type payload).Plain := by
  have hkeys : [js "instance_id", js "event_id", js "event_type", js "user_id",
      js "character_id", js "session_id", js "channel_id", js "payload",
      js "occurred_at"].Pairwise (fun k l => JsString.keyBefore k l = true) := by decide +kernel
  refine Json.plain_obj.mpr ⟨hkeys, fun f hf => ?_⟩
  simp only [List.mem_cons, List.not_mem_nil, or_false] at hf
  rcases hf with rfl | rfl | rfl | rfl | rfl | rfl | rfl | rfl | rfl
  · exact Json.plain_str _
  · exact Json.plain_str _
  · exact Json.plain_str _
  · exact Json.plain_nat _
  · exact Json.plain_nat _
  · exact Json.plain_str _
  · exact Json.plain_str _
  · exact hpayload
  · exact Json.plain_str _

theorem plain_sampleLogin : sampleLogin.Plain :=
  plain_sampleEvent _ _ (Json.plain_obj.mpr
    ⟨List.Pairwise.nil, fun _ hf => absurd hf List.not_mem_nil⟩)

theorem isEventRecord_sampleLogin : isEventRecord sampleLogin = true := by decide +kernel

def loginEvent : Event := ⟨sampleLogin, plain_sampleLogin, isEventRecord_sampleLogin⟩

/-- A login and an event that is only an id are sent and served, the sender is killed before
the answer arrives, and sends them again. -/
def lostAnswer : List (Action compactJson sampleLibraries) := [
  .open 8 .quiet,
  .append [loginEvent, bareEvent (js "a")] .quiet,
  .send sampleLabel,
  .serve 0 true none,
  .kill,
  .open 8 .quiet,
  .send sampleLabel,
  .serve 1 true none,
  .receive 1 none (fun _ => newYear) .quiet]

/-- The login has its one row and the other event its one record. -/
theorem end_to_end_lostAnswer :
    ((System.start compactJson).run samplePostgres lostAnswer).database.eventIds
        = [rowId loginEvent] ∧
      (((System.start compactJson).run samplePostgres lostAnswer).failedLines.map
        fun line => (failedRecordId compactJson line).toOption) = [some (js "a")] ∧
      Accounted sampleLibraries samplePostgres
        ((System.start compactJson).run samplePostgres lostAnswer) :=
  ⟨by decide +kernel, by decide +kernel,
    end_to_end compactJson sampleLibraries samplePostgres lostAnswer
      (show List.Nodup _ by decide +kernel)⟩

end Pipeline
