/-
What the clients of the receiver notice of each other.

* `SameWriter`, `unseen` — refused requests are as if they had not come, and readers leave no
  trace in what writers see;
* `posts`, `granted`, `rate_limited` — exactly the first `limit` batches of every minute get past
  the guards, whoever else knocks.
-/
import LogStack.ReceiverRuns

open Ingestion Metrics FixedWindow
open Reactive (run_induction Unwinding)

namespace Receiver

/-! ### Requests that are refused -/

/-- Past the guard of the key. -/
def passes (host : Host) (request : HttpRequest) : Bool :=
  match admission host request with
  | .ok _ => true
  | .error _ => false

/-- Everything but the arrival of a request that the guard of the key refuses. -/
def Input.passes (host : Host) (input : Input) : Bool :=
  match input.event with
  | .arrives request => Receiver.passes host request
  | _ => true

section Refused

variable {host : Host} {s s' : Server} {input : Input} {out : Option Exchange}

theorem passes_of_ok {request : HttpRequest} {work : Work} (h : admission host request = .ok work) :
    passes host request = true := by
  rw [passes, h]

/-- An answer to a kept input is to a request that has passed. -/
theorem Effect.passes (h : Effect host s input out s') (hs : s.Valid host)
    (hpasses : input.passes host = true) {x : Exchange} (hx : x ∈ out) :
    Receiver.passes host x.request = true := by
  cases h with
  | idle => cases hx
  | refused =>
    cases hx
    exact hpasses
  | queued => cases hx
  | granted => cases hx
  | limited hadmission =>
    cases hx
    exact passes_of_ok hadmission
  | expired htask =>
    cases hx
    exact passes_of_ok (hs _ _ (List.mem_of_getElem? htask)).admitted
  | read htask =>
    rw [eq_of_mem_send (Option.mem_toList.mpr hx)]
    exact passes_of_ok (hs _ _ (List.mem_of_getElem? htask)).admitted
  | handled htask =>
    rw [eq_of_mem_send (Option.mem_toList.mpr hx)]
    exact passes_of_ok (hs _ _ (List.mem_of_getElem? htask)).admitted

theorem unwinding_refused (host : Host) : Unwinding (Server.step host) (Input.passes host)
    (fun x => passes host x.request) (fun s t => s = t ∧ t.Valid host) where
  kept := by
    rintro input s t ⟨rfl, hvalid⟩ hpasses
    have heffect := step_effect host s input
    exact ⟨⟨rfl, heffect.valid hvalid⟩, rfl, fun x hx => heffect.passes hvalid hpasses hx⟩
  purged := by
    rintro ⟨time, event⟩ s t ⟨rfl, hvalid⟩ hpasses
    cases event with
    | expires controller task => cases hpasses
    | completes controller task reachable => cases hpasses
    | arrives request =>
      have hrefused : ∃ reply, admission host request = .error reply := by
        cases hadmission : admission host request with
        | error reply => exact ⟨reply, rfl⟩
        | ok work =>
          have hno : passes host request = false := hpasses
          rw [passes_of_ok hadmission] at hno
          exact absurd hno.symm Bool.false_ne_true
      obtain ⟨reply, hadmission⟩ := hrefused
      have hstep : s.step host ⟨time, .arrives request⟩ = (some ⟨⟨time, request⟩, reply⟩, s) := by
        show s.arrive host ⟨time, request⟩ = _
        rw [Server.arrive, hadmission]
      rw [hstep]
      refine ⟨⟨rfl, hvalid⟩, fun x hx => ?_⟩
      obtain rfl := Option.some.inj hx
      exact hpasses

end Refused

/-! ### Requests that read -/

def Event.controller : Event → Controller
  | arrives request => request.controller
  | expires controller _ => controller
  | completes controller _ _ => controller

/-- Two servers that differ in the requests for metrics only. -/
structure SameWriter (s t : Server) : Prop where
  database : s.database = t.database
  windows : s.windows = t.windows
  tasks : s.tasks .ingestion = t.tasks .ingestion
  handled : s.handled = t.handled

section Readers

variable {host : Host} {s s' t : Server}

theorem SameWriter.enqueue (h : SameWriter s t) {arrival : Arrival} {work : Work}
    (hcontroller : arrival.request.controller = .ingestion) :
    SameWriter (s.enqueue arrival work) (t.enqueue arrival work) := by
  refine ⟨h.database, h.windows, ?_, h.handled⟩
  rw [← hcontroller, Server.tasks_enqueue, Server.tasks_enqueue, hcontroller, h.tasks]

theorem SameWriter.mark (h : SameWriter s t) {number : ℕ} {task : Task} :
    SameWriter (s.mark .ingestion number task) (t.mark .ingestion number task) := by
  refine ⟨h.database, h.windows, ?_, h.handled⟩
  rw [Server.tasks_mark, Server.tasks_mark, h.tasks]

theorem SameWriter.ingest (h : SameWriter s t) {batch : Handled} :
    SameWriter (s.ingest host batch) (t.ingest host batch) := by
  obtain ⟨hdatabase, hwindows, htasks, hhandled⟩ := h
  refine ⟨?_, hwindows, htasks, ?_⟩
  · show Database.mk _ _ = Database.mk _ _
    congr 1
    rw [hdatabase]
  · show s.handled ++ _ = t.handled ++ _
    rw [hhandled]

/-- What happens to a batch does not depend on the requests for metrics. -/
theorem SameWriter.step (h : SameWriter s t) {input : Input}
    (hwrites : input.event.controller = .ingestion) :
    SameWriter (s.step host input).2 (t.step host input).2 ∧
      (s.step host input).1 = (t.step host input).1 := by
  obtain ⟨time, event⟩ := input
  cases event with
  | arrives request =>
    show SameWriter (s.arrive host ⟨time, request⟩).2 (t.arrive host ⟨time, request⟩).2 ∧
      (s.arrive host ⟨time, request⟩).1 = (t.arrive host ⟨time, request⟩).1
    unfold Server.arrive
    cases hadmission : admission host request with
    | error reply => exact ⟨h, rfl⟩
    | ok work =>
      cases work with
      | read query =>
        exact absurd ((admission_read hadmission).1.symm.trans hwrites) (by decide)
      | ingest value =>
        dsimp only
        rw [h.windows]
        split_ifs
        · have hcounted : ∀ windows, SameWriter { s with windows := windows }
              { t with windows := windows } := fun _ => ⟨h.database, rfl, h.tasks, h.handled⟩
          exact ⟨@SameWriter.enqueue _ _ (hcounted _) ⟨time, request⟩ _ hwrites, rfl⟩
        · exact ⟨⟨h.database, rfl, h.tasks, h.handled⟩, rfl⟩
  | expires controller number =>
    obtain rfl : controller = .ingestion := hwrites
    show SameWriter (s.expire host time .ingestion number).2
      (t.expire host time .ingestion number).2 ∧
        (s.expire host time .ingestion number).1 = (t.expire host time .ingestion number).1
    unfold Server.expire
    rw [h.tasks]
    cases (t.tasks .ingestion)[number]? with
    | none => exact ⟨h, rfl⟩
    | some task =>
      dsimp only
      split_ifs
      · exact ⟨h, rfl⟩
      · exact ⟨h.mark, rfl⟩
  | completes controller number reachable =>
    obtain rfl : controller = .ingestion := hwrites
    show SameWriter (s.complete host time .ingestion number reachable).2
      (t.complete host time .ingestion number reachable).2 ∧
        (s.complete host time .ingestion number reachable).1 =
          (t.complete host time .ingestion number reachable).1
    unfold Server.complete
    rw [h.tasks, h.database]
    cases (t.tasks .ingestion)[number]? with
    | none => exact ⟨h, rfl⟩
    | some task =>
      dsimp only
      cases task.done with
      | true => exact ⟨h, rfl⟩
      | false =>
        cases task.work with
        | read query => exact ⟨h.mark, rfl⟩
        | ingest value => exact ⟨h.mark.ingest, rfl⟩

/-- An answer goes to a client of the controller that the input is about. -/
theorem Effect.controller {input : Input} {out : Option Exchange} (h : Effect host s input out s')
    (hs : s.Valid host) {x : Exchange} (hx : x ∈ out) :
    x.request.controller = input.event.controller := by
  cases h with
  | idle => cases hx
  | refused =>
    cases hx
    rfl
  | queued => cases hx
  | granted => cases hx
  | limited =>
    cases hx
    rfl
  | expired htask =>
    cases hx
    exact (hs _ _ (List.mem_of_getElem? htask)).controller_eq
  | read htask =>
    rw [eq_of_mem_send (Option.mem_toList.mpr hx)]
    exact (hs _ _ (List.mem_of_getElem? htask)).controller_eq
  | handled htask =>
    rw [eq_of_mem_send (Option.mem_toList.mpr hx)]
    exact (hs _ _ (List.mem_of_getElem? htask)).controller_eq

/-- A request for metrics changes nothing of a writer's. -/
theorem Effect.reads {input : Input} {out : Option Exchange} (h : Effect host s input out s')
    (hs : s.Valid host) (hreads : input.event.controller = .metrics) : SameWriter s' s := by
  have hother : Controller.ingestion ≠ .metrics := by decide
  cases h with
  | idle => exact ⟨rfl, rfl, rfl, rfl⟩
  | refused => exact ⟨rfl, rfl, rfl, rfl⟩
  | queued hadmission =>
    refine ⟨rfl, rfl, Server.tasks_enqueue_of_ne ?_, rfl⟩
    rw [(admission_read hadmission).1]
    exact hother
  | granted hadmission => exact absurd ((admission_ingest hadmission).1.symm.trans hreads) hother
  | limited hadmission => exact absurd ((admission_ingest hadmission).1.symm.trans hreads) hother
  | @expired _ controller =>
    obtain rfl : controller = .metrics := hreads
    exact ⟨rfl, rfl, Server.tasks_mark_of_ne hother, rfl⟩
  | @read _ controller =>
    obtain rfl : controller = .metrics := hreads
    exact ⟨rfl, rfl, Server.tasks_mark_of_ne hother, rfl⟩
  | handled htask _ hwork =>
    have hingestion := (hs _ _ (List.mem_of_getElem? htask)).ingestion hwork
    exact absurd (hingestion.symm.trans hreads) hother

/-- Everything that is about a batch. -/
def Input.writes (input : Input) : Bool := input.event.controller = .ingestion

theorem unwinding_reads (host : Host) : Unwinding (Server.step host) Input.writes
    (fun x => x.request.controller = .ingestion)
    (fun s t => SameWriter s t ∧ s.Valid host ∧ t.Valid host) where
  kept := by
    rintro input s t ⟨hsame, hs, ht⟩ hwrites
    rw [Input.writes, decide_eq_true_eq] at hwrites
    have heffect := step_effect host t input
    obtain ⟨hnext, hanswer⟩ := @SameWriter.step host s t hsame input hwrites
    refine ⟨⟨hnext, (step_effect host s input).valid hs, heffect.valid ht⟩, hanswer, ?_⟩
    intro x hx
    rw [decide_eq_true_eq, heffect.controller ht hx, hwrites]
  purged := by
    rintro input s t ⟨hsame, hs, ht⟩ hreads
    have hmetrics : input.event.controller = .metrics := by
      rw [Input.writes, decide_eq_false_iff_not] at hreads
      cases hcontroller : input.event.controller with
      | ingestion => exact absurd hcontroller hreads
      | metrics => rfl
    have heffect := step_effect host s input
    have hquiet := heffect.reads hs hmetrics
    refine ⟨⟨⟨hquiet.database.trans hsame.database, hquiet.windows.trans hsame.windows,
      hquiet.tasks.trans hsame.tasks, hquiet.handled.trans hsame.handled⟩, heffect.valid hs, ht⟩,
      fun x hx => ?_⟩
    rw [heffect.controller hs hx, hmetrics]
    decide

end Readers

/-- What nobody can see. -/
structure Unseen (host : Host) (s : Server) (inputs : List Input) : Prop where
  /-- Without the requests that the keys' guards refuse, the server is in the same state, and
  everybody else gets the same answers. -/
  refused : s.after host (inputs.filter (Input.passes host)) = s.after host inputs ∧
    s.exchanges host (inputs.filter (Input.passes host)) =
      (s.exchanges host inputs).filter fun x => passes host x.request
  /-- Without the requests for metrics, the writers' server is in the same state, and writers get
  the same answers. -/
  reads : SameWriter (s.after host inputs) (s.after host (inputs.filter Input.writes)) ∧
    s.exchanges host (inputs.filter Input.writes) =
      (s.exchanges host inputs).filter fun x => x.request.controller = .ingestion

/-- **Refused requests and readers are not noticed.** -/
theorem unseen (host : Host) (database : Database) (inputs : List Input) :
    Unseen host (.start database) inputs := by
  have hvalid : (Server.start database).Valid host := fun _ _ h => absurd h List.not_mem_nil
  obtain ⟨⟨hstate, -⟩, hanswers⟩ := (unwinding_refused host).purge ⟨rfl, hvalid⟩ inputs
  obtain ⟨⟨hwriter, -⟩, hwritten⟩ :=
    (unwinding_reads host).purge ⟨⟨rfl, rfl, rfl, rfl⟩, hvalid, hvalid⟩ inputs
  exact ⟨⟨hstate.symm, hanswers.symm⟩, hwriter, hwritten.symm⟩

/-! ### The limit -/

/-- A batch past the guard of its key. -/
def Arrival.counts (host : Host) (arrival : Arrival) : Bool :=
  match admission host arrival.request with
  | .ok (.ingest _) => true
  | _ => false

/-- The batches that the limit counts. -/
def posts (host : Host) (inputs : List Input) : List Arrival :=
  (arrivals inputs).filter (Arrival.counts host)

/-- The batches with the decisions of the rule: yes to the first ones of every minute. -/
def decisions (host : Host) (inputs : List Input) : List (Arrival × Bool) :=
  (posts host inputs).zip (grants RATE_LIMIT_WINDOW_MS (RateLimitGuard.limitPerMinute host) []
    ((posts host inputs).map fun a => (a.time : ℚ)))

def granted (host : Host) (inputs : List Input) : List Arrival :=
  ((decisions host inputs).filter Prod.snd).map Prod.fst

def overLimit (host : Host) (inputs : List Input) : List Arrival :=
  ((decisions host inputs).filter fun x => !x.2).map Prod.fst

def isRateLimited (x : Exchange) : Bool := x.reply.status = 429

/-- A 429 leads into the first second of the next minute. -/
def Told (host : Host) (x : Exchange) : Prop :=
  ∃ seconds : ℕ, x.reply = .response (Refusal.rateLimited.response host.json)
    (some (decimal seconds)) ∧ Honest x.time seconds

section Counting

variable {host : Host} {s s' : Server} {input : Input} {inputs : List Input}
  {out : Option Exchange}

theorem counts_of_admission {arrival : Arrival} {value : Json}
    (h : admission host arrival.request = .ok (.ingest value)) : arrival.counts host = true := by
  rw [Arrival.counts, h]

theorem readReply_status {reachable : Bool} {now : ℤ} {db : Tables} {query : MetricsRequest} :
    (readReply host reachable now db query).status ≠ 429 := by
  unfold readReply
  split
  · show 400 ≠ 429
    decide
  · split_ifs
    · show 200 ≠ 429
      decide
    · show 503 ≠ 429
      decide

theorem handle_status {J : JsonText} {L : Libraries} {pg : Postgres} {reachable : Bool}
    {request : Json} {db : Tables} : (handle J L pg reachable request db).1.status ≠ 429 := by
  rw [handle]
  cases L.plainToInstance request with
  | none =>
    show 500 ≠ 429
    decide
  | some dto =>
    dsimp only
    split_ifs
    · show 400 ≠ 429
      decide
    · split
      · cases hanswer : (ingest L pg reachable _ _ db).1 with
        | ok response =>
          show 200 ≠ 429
          decide
        | unavailable =>
          show 503 ≠ 429
          decide
        | failed =>
          show 500 ≠ 429
          decide
      · show 500 ≠ 429
        decide

/-- The two things that can happen to a batch that is counted. -/
inductive Decided (host : Host) (s s' : Server) (out : Option Exchange) (arrival : Arrival) :
    Prop where
  | granted (hallowed : (s.consume host arrival).1.allowed = true) (hout : out = none)
      (htasks : (s'.tasks .ingestion).map Task.toArrival =
        (s.tasks .ingestion).map Task.toArrival ++ [arrival])
  | refused (hrefused : (s.consume host arrival).1.allowed = false)
      (hout : out = some ⟨arrival, .response (Refusal.rateLimited.response host.json)
        (retryAfterHeader (s.consume host arrival).1)⟩)
      (htasks : (s'.tasks .ingestion).map Task.toArrival =
        (s.tasks .ingestion).map Task.toArrival)

/-- A step counts a batch, or nothing; only what is counted is refused with a 429. -/
theorem Effect.count_cases (h : Effect host s input out s') :
    (∃ arrival value, input = ⟨arrival.time, .arrives arrival.request⟩ ∧
      admission host arrival.request = .ok (.ingest value) ∧
      s'.windows = (s.consume host arrival).2 ∧ Decided host s s' out arrival) ∨
    ((∀ arrival, input.arrival? = some arrival → arrival.counts host = false) ∧
      s'.windows = s.windows ∧
      (s'.tasks .ingestion).map Task.toArrival = (s.tasks .ingestion).map Task.toArrival ∧
      ∀ x ∈ out, isRateLimited x = false) := by
  cases h with
  | @idle time event hevent =>
    refine .inr ⟨fun arrival harrival => ?_, rfl, rfl, fun x hx => nomatch hx⟩
    cases event with
    | arrives request => exact absurd rfl (hevent request)
    | expires controller number => cases harrival
    | completes controller number reachable => cases harrival
  | @refused arrival reply hadmission =>
    refine .inr ⟨fun other hother => ?_, rfl, rfl, fun x hx => ?_⟩
    · obtain rfl := Option.some.inj hother
      rw [Arrival.counts, hadmission]
    · obtain rfl := Option.some.inj hx
      obtain ⟨r, rfl, hstatus⟩ := admission_error hadmission
      rw [isRateLimited, decide_eq_false_iff_not]
      show r.status ≠ 429
      intro hlimited
      rw [hlimited] at hstatus
      exact absurd hstatus (by decide)
  | @queued arrival query hadmission =>
    refine .inr ⟨fun other hother => ?_, rfl, ?_, fun x hx => nomatch hx⟩
    · obtain rfl := Option.some.inj hother
      rw [Arrival.counts, hadmission]
    · rw [Server.tasks_enqueue_of_ne (by rw [(admission_read hadmission).1]; decide)]
  | @granted arrival value hadmission hallowed =>
    refine .inl ⟨arrival, value, rfl, hadmission, rfl, .granted hallowed rfl ?_⟩
    rw [← (admission_ingest hadmission).1, Server.tasks_enqueue, List.map_append]
    rfl
  | @limited arrival value hadmission hrefused =>
    exact .inl ⟨arrival, value, rfl, hadmission, rfl, .refused hrefused rfl rfl⟩
  | expired htask _ _ hreply =>
    refine .inr ⟨fun _ h => (nomatch h), rfl, map_toArrival_mark htask (by rfl) _, fun x hx => ?_⟩
    obtain rfl := Option.some.inj hx
    rw [isRateLimited, hreply]
    decide
  | read htask =>
    refine .inr ⟨fun _ h => (nomatch h), rfl, map_toArrival_mark htask (by rfl) _, fun x hx => ?_⟩
    rw [eq_of_mem_send (Option.mem_toList.mpr hx)]
    exact decide_eq_false readReply_status
  | handled htask =>
    refine .inr ⟨fun _ h => (nomatch h), rfl, map_toArrival_mark htask (by rfl) _, fun x hx => ?_⟩
    rw [eq_of_mem_send (Option.mem_toList.mpr hx)]
    exact decide_eq_false handle_status

/-- A batch as the store sees it. -/
def Arrival.call (arrival : Arrival) : Call := ⟨apiKey arrival.request.authorization, arrival.time⟩

theorem exists_value_of_mem_posts {arrival : Arrival} (h : arrival ∈ posts host inputs) :
    ∃ value, admission host arrival.request = .ok (.ingest value) := by
  have hcounts := (List.mem_filter.mp h).2
  unfold Arrival.counts at hcounts
  split at hcounts
  · rename_i value hvalue
    exact ⟨value, hvalue⟩
  · exact absurd hcounts Bool.false_ne_true

/-- All of them call with one key. -/
theorem times_posts {key : JsString} (hkey : host.env.ingestApiKey = some key) :
    times key ((posts host inputs).map Arrival.call) =
      (posts host inputs).map fun a => (a.time : ℚ) := by
  rw [times, List.filter_eq_self.mpr, List.map_map]
  · rfl
  · intro call hcall
    obtain ⟨arrival, harrival, rfl⟩ := List.mem_map.mp hcall
    obtain ⟨value, hadmission⟩ := exists_value_of_mem_posts harrival
    exact decide_eq_true (apiKey_of_admission hkey hadmission)

theorem posts_concat_of_counts {arrival : Arrival} (hcounts : arrival.counts host = true) :
    posts host (inputs ++ [⟨arrival.time, .arrives arrival.request⟩]) =
      posts host inputs ++ [arrival] := by
  rw [posts, arrivals_concat, List.filter_append]
  show _ ++ [arrival].filter (Arrival.counts host) = _
  rw [List.filter_cons_of_pos hcounts]
  rfl

theorem posts_concat_of_not_counts
    (h : ∀ arrival, input.arrival? = some arrival → arrival.counts host = false) :
    posts host (inputs ++ [input]) = posts host inputs := by
  rw [posts, arrivals_concat, List.filter_append, posts]
  refine List.append_right_eq_self.mpr (List.filter_eq_nil_iff.mpr fun a ha => ?_)
  rw [h a (Option.mem_toList.mp ha)]
  exact Bool.false_ne_true

/-- The decision about one more batch. -/
theorem decisions_concat {arrival : Arrival} (hcounts : arrival.counts host = true) :
    decisions host (inputs ++ [⟨arrival.time, .arrives arrival.request⟩]) =
      decisions host inputs ++ [(arrival, decide (earlier RATE_LIMIT_WINDOW_MS
        ((posts host inputs).map fun a => (a.time : ℚ)) arrival.time <
          RateLimitGuard.limitPerMinute host))] := by
  rw [decisions, posts_concat_of_counts hcounts, List.map_append]
  show (posts host inputs ++ [arrival]).zip (grants _ _ _ (_ ++ [(arrival.time : ℚ)])) = _
  rw [grants_concat, List.zip_append (by rw [length_grants, List.length_map]), List.nil_append]
  rfl

end Counting

/-- The clock does not go back. -/
def Ordered (inputs : List Input) : Prop := inputs.Pairwise fun a b => a.time ≤ b.time

/-- What every step keeps while the clock does not go back. -/
structure RateInv (host : Host) (inputs : List Input) (out : List Exchange) (s : Server) :
    Prop where
  windows : s.windows = Ingestion.after (RateLimitGuard.limitPerMinute host) .empty
    ((posts host inputs).map Arrival.call)
  tasks : (s.tasks .ingestion).map Task.toArrival = granted host inputs
  surplus : (out.filter isRateLimited).map Exchange.toArrival = overLimit host inputs
  told : ∀ x ∈ out, isRateLimited x = true → Told host x

section Runs

variable {host : Host} {inputs : List Input} {out : List Exchange} {s : Server}

theorem ordered_posts (h : Ordered inputs) :
    (posts host inputs).Pairwise fun a b => a.time ≤ b.time := by
  have htime : ∀ {input : Input} {a : Arrival}, input.arrival? = some a → a.time = input.time := by
    rintro ⟨time, event⟩ a ha
    cases event with
    | arrives request => obtain rfl := Option.some.inj ha; rfl
    | expires controller number => cases ha
    | completes controller number reachable => cases ha
  refine List.Pairwise.filter _ (List.Pairwise.filterMap _ (fun i j hij a ha b hb => ?_) h)
  rw [htime ha, htime hb]
  exact hij

/-- The counter's answer is the rule's. -/
theorem RateInv.allowed (h : RateInv host inputs out s) {arrival : Arrival} {value : Json}
    (hadmission : admission host arrival.request = .ok (.ingest value))
    (hordered : Ordered (inputs ++ [⟨arrival.time, .arrives arrival.request⟩])) :
    (s.consume host arrival).1.allowed = decide (earlier RATE_LIMIT_WINDOW_MS
      ((posts host inputs).map fun a => (a.time : ℚ)) arrival.time <
        RateLimitGuard.limitPerMinute host) := by
  obtain ⟨key, hkey, -⟩ := (canActivate_eq_none (admission_ingest hadmission).2).1
  have hlimit : 1 ≤ RateLimitGuard.limitPerMinute host := one_le_limitPerMinute _ _
  have hposts : (posts host _).Pairwise fun a b => a.time ≤ b.time := ordered_posts hordered
  rw [posts_concat_of_counts (counts_of_admission hadmission), List.pairwise_append] at hposts
  obtain ⟨hbefore, -, hlast⟩ := hposts
  have hcalls : ([] ++ (posts host inputs).map Arrival.call).Pairwise
      fun a b : Call => a.time ≤ b.time := by
    rw [List.nil_append, List.pairwise_map]
    exact hbefore.imp fun hab => Int.cast_le.mpr hab
  have htracked := tracked_after hlimit tracked_empty hcalls
  have hle : ∀ call ∈ [] ++ (posts host inputs).map Arrival.call,
      call.time ≤ arrival.call.time := by
    intro call hcall
    obtain ⟨a, ha, rfl⟩ := List.mem_map.mp hcall
    exact Int.cast_le.mpr (hlast a ha arrival (List.mem_singleton.mpr rfl))
  have hallowed := consume_allowed hlimit htracked hle
  have hown : arrival.call.key = key := apiKey_of_admission hkey hadmission
  rw [hown, List.nil_append, times_posts hkey] at hallowed
  rw [Server.consume, h.windows, apiKey_of_admission hkey hadmission]
  exact hallowed

theorem RateInv.step (h : RateInv host inputs out s) (input : Input)
    (hordered : Ordered (inputs ++ [input])) :
    RateInv host (inputs ++ [input]) (out ++ (s.step host input).1.toList)
      (s.step host input).2 := by
  have heffect := step_effect host s input
  generalize (s.step host input).1 = answer at heffect ⊢
  generalize (s.step host input).2 = s' at heffect ⊢
  obtain ⟨arrival, value, rfl, hadmission, hwindows, hdecided⟩ |
    ⟨hcounts, hwindows, htasks, hquiet⟩ := heffect.count_cases
  · have hcounts := counts_of_admission hadmission
    have hallowed := h.allowed hadmission hordered
    have hlimit : 1 ≤ RateLimitGuard.limitPerMinute host := one_le_limitPerMinute _ _
    have hafter : s'.windows = Ingestion.after (RateLimitGuard.limitPerMinute host) .empty
        ((posts host (inputs ++ [⟨arrival.time, .arrives arrival.request⟩])).map
          Arrival.call) := by
      rw [hwindows, posts_concat_of_counts hcounts, List.map_append, Server.consume, h.windows]
      show _ = Ingestion.after _ _ (_ ++ [arrival.call])
      rw [Ingestion.after, Ingestion.after, List.foldl_append]
      rfl
    have hdecision : decisions host (inputs ++ [_]) = decisions host inputs ++ _ :=
      decisions_concat hcounts
    rw [← hallowed] at hdecision
    cases hdecided with
    | granted hyes hout htasks =>
      subst hout
      rw [hyes] at hdecision
      refine ⟨hafter, ?_, ?_, ?_⟩
      · rw [htasks, h.tasks, granted, granted, hdecision, List.filter_append, List.map_append]
        rfl
      · rw [Option.toList_none, List.append_nil, h.surplus, overLimit, overLimit, hdecision,
          List.filter_append, List.map_append]
        exact (List.append_nil _).symm
      · rw [Option.toList_none, List.append_nil]
        exact h.told
    | refused hno hout htasks =>
      subst hout
      rw [hno] at hdecision
      refine ⟨hafter, ?_, ?_, ?_⟩
      · rw [htasks, h.tasks, granted, granted, hdecision, List.filter_append, List.map_append]
        exact (List.append_nil _).symm
      · rw [List.filter_append, List.map_append, h.surplus, overLimit, overLimit, hdecision,
          List.filter_append, List.map_append]
        rfl
      · intro x hx hlimited
        rcases List.mem_append.mp hx with hold | hnew
        · exact h.told x hold hlimited
        · obtain rfl := List.mem_singleton.mp hnew
          refine ⟨(s.consume host arrival).1.retryAfterSec, ?_, ?_⟩
          · rw [retryAfterHeader, if_neg (by rw [hno]; exact Bool.false_ne_true)]
          · exact @consume_refused _ s.windows arrival.call hlimit hno
  · refine ⟨?_, ?_, ?_, ?_⟩
    · rw [hwindows, posts_concat_of_not_counts hcounts, h.windows]
    · rw [htasks, h.tasks, granted, granted, decisions, decisions,
        posts_concat_of_not_counts hcounts]
    · have hnone : answer.toList.filter isRateLimited = [] :=
        List.filter_eq_nil_iff.mpr fun x hx => by
          rw [hquiet x (Option.mem_toList.mp hx)]
          exact Bool.false_ne_true
      rw [List.filter_append, hnone, List.append_nil, h.surplus, overLimit, overLimit, decisions,
        decisions, posts_concat_of_not_counts hcounts]
    · intro x hx hlimited
      rcases List.mem_append.mp hx with hold | hnew
      · exact h.told x hold hlimited
      · rw [hquiet x (Option.mem_toList.mp hnew)] at hlimited
        exact absurd hlimited Bool.false_ne_true

theorem rateInv_start (database : Database) : RateInv host [] [] (.start database) :=
  ⟨rfl, rfl, rfl, fun _ h => absurd h List.not_mem_nil⟩

theorem rateInv_run (host : Host) (database : Database) (hordered : Ordered inputs) :
    RateInv host inputs ((Server.start database).exchanges host inputs)
      ((Server.start database).after host inputs) := by
  refine @run_induction _ _ _ (Server.step host) (.start database)
    (fun inputs out s => Ordered inputs → RateInv host inputs out s)
    (fun _ => rateInv_start database) (fun before out s input h hordered => ?_) inputs hordered
  exact (h (List.pairwise_append.mp hordered).1).step input hordered

/-- The rule grants `limit` batches of a minute, or all of them. -/
theorem countP_granted (m : ℤ) : (granted host inputs).countP (fun a => minute a.time = m) =
    min ((posts host inputs).countP fun a => minute a.time = m)
      (RateLimitGuard.limitPerMinute host) := by
  have hminute : minute (m * RATE_LIMIT_WINDOW_MS) = m := by
    rw [minute, index, mul_div_assoc, div_self window_pos.ne', mul_one, Int.floor_intCast]
  have hwindow := grants_window (W := RATE_LIMIT_WINDOW_MS)
    (L := RateLimitGuard.limitPerMinute host) []
    ((posts host inputs).map fun a => (a.time : ℚ)) m _ hminute
  rw [earlier, List.countP_nil, Nat.sub_zero, List.zip_map_left] at hwindow
  have htrue := congrArg (List.countP id) hwindow
  rw [List.countP_append, List.countP_map, List.filter_map, List.countP_map, List.countP_filter,
    List.countP_replicate, List.countP_replicate, if_pos (show id true = true from rfl),
    if_neg (show ¬id false = true from Bool.false_ne_true), add_zero, List.countP_map] at htrue
  rw [granted, List.countP_map, List.countP_filter]
  refine Eq.trans (List.countP_congr fun x _ => ?_) htrue
  show (decide (minute x.1.time = m) && x.2) = true ↔ (x.2 && decide (minute x.1.time = m)) = true
  rw [Bool.and_comm]

end Runs

/-- What the limit does to the batches of a run. -/
structure RateLimited (host : Host) (inputs : List Input) (out : List Exchange) (s : Server) :
    Prop where
  /-- The service is handed the first batches of every minute, and no other is. -/
  granted : (s.tasks .ingestion).map Task.toArrival = granted host inputs
  refused : (out.filter isRateLimited).map Exchange.toArrival = overLimit host inputs
  told : ∀ x ∈ out, isRateLimited x = true → Told host x
  per_minute : ∀ m, (s.tasks .ingestion).countP (fun task => minute task.time = m) =
    min ((posts host inputs).countP fun a => minute a.time = m)
      (RateLimitGuard.limitPerMinute host)
  /-- Sixty seconds that begin anywhere have twice as many at most. -/
  any_minute : ∀ t : ℚ, (s.tasks .ingestion).countP (fun task =>
    t ≤ task.time ∧ (task.time : ℚ) < t + RATE_LIMIT_WINDOW_MS) ≤
      2 * RateLimitGuard.limitPerMinute host

theorem RateInv.rateLimited {host : Host} {inputs : List Input} {out : List Exchange} {s : Server}
    (h : RateInv host inputs out s) : RateLimited host inputs out s := by
  have hminute : ∀ m : ℤ, (s.tasks .ingestion).countP (fun task => minute task.time = m) =
      min ((posts host inputs).countP fun a => minute a.time = m)
        (RateLimitGuard.limitPerMinute host) := by
    intro m
    rw [← countP_granted, ← h.tasks, List.countP_map]
    rfl
  refine ⟨h.tasks, h.surplus, h.told, hminute, fun t => ?_⟩
  have hinterval := countP_interval_le window_pos t (fun task : Task => (task.time : ℚ))
    (fun _ => true) (s.tasks .ingestion)
  simp only [and_true] at hinterval
  have hle : ∀ k : ℤ, (s.tasks .ingestion).countP
      (fun task => index RATE_LIMIT_WINDOW_MS (task.time : ℚ) = k) ≤
        RateLimitGuard.limitPerMinute host := fun k => (hminute k).trans_le (min_le_right _ _)
  have hfirst := hle (index RATE_LIMIT_WINDOW_MS t)
  have hsecond := hle (index RATE_LIMIT_WINDOW_MS t + 1)
  omega

/-- Inputs on a clock that does not go back. -/
structure Timeline where
  inputs : List Input
  ordered : Ordered inputs

/-- **The limit, whoever else knocks.** In every run, exactly the first `limit` batches of a
minute that carry the key and name no other instance are handed to the service, in whatever order
it comes to them; the others are told the truth about the next minute. -/
theorem rate_limited (host : Host) (database : Database) (T : Timeline) :
    RateLimited host T.inputs ((Server.start database).exchanges host T.inputs)
      ((Server.start database).after host T.inputs) :=
  (rateInv_run host database T.ordered).rateLimited

end Receiver
