/-
What holds of every run of the receiver, whatever comes in and however it is scheduled.

* `not_authorized_of_admin` — nobody holds both keys in one header;
* `Effect.waiting`, `Effect.progress`, `Effect.handled_cases` — what a step does to the requests
  in progress and to the tables;
* `Orderly`, `orderly` — every request has one answer, every batch past the guards is handled at
  most once, and the tables are those of the handled batches, one after the other.
-/
import LogStack.ReceiverServer

open Ingestion Metrics
open Reactive (run_induction)

namespace Receiver

/-! ### The guards -/

/-- The header that the owner of the metrics key sends. -/
def AdminAuthorized (env : Env) (authorization : Option HeaderValue) : Prop :=
  ∃ key, env.adminApiKey = some key ∧
    authorization.map HeaderValue.text = some (bearerPrefix ++ key)

section Guards

variable {host : Host} {request : HttpRequest} {value : Json} {query : MetricsRequest}
  {authorization : Option HeaderValue} {env : Env}

theorem adminAuthorized_of_canActivate (h : AdminApiKeyGuard.canActivate env authorization = none) :
    AdminAuthorized env authorization := by
  unfold AdminApiKeyGuard.canActivate at h
  cases hkey : env.adminApiKey.filter (· ≠ []) with
  | none => rw [hkey] at h; cases h
  | some key =>
    cases authorization with
    | none => rw [hkey] at h; cases h
    | some header =>
      rw [hkey] at h
      simp only at h
      split_ifs at h with hstart hequals
      have hstart' : bearerPrefix <+: header.text := by simpa using hstart
      obtain ⟨token, htoken⟩ := hstart'
      have hdrop : header.text.drop bearerPrefix.length = token := by
        rw [← htoken, List.drop_left]
      have hlatin : ∀ u ∈ token, u < 0x100 := fun u hu =>
        header.latin1 u (htoken ▸ List.mem_append_right _ hu)
      have heq : token = key := by
        rw [hdrop] at hequals
        exact eq_of_safeEquals hlatin (by simpa using hequals)
      exact ⟨key, (Option.filter_eq_some_iff.mp hkey).1, by rw [Option.map_some, ← htoken, heq]⟩

/-- A server does not start with one key for both controllers. -/
theorem not_authorized_of_admin (server : ServerEnv)
    (h : AdminAuthorized server.toEnv authorization) : ¬Authorized server.toEnv authorization := by
  rintro ⟨key, hkey, htext⟩
  obtain ⟨key', hkey', htext'⟩ := h
  have hsame : key = key' :=
    List.append_cancel_left (Option.some.inj (htext.symm.trans htext'))
  have hvalid := server.valid
  unfold validateEnv at hvalid
  simp only at hvalid
  split_ifs at hvalid with hmissing hequal
  exact hequal (by rw [hkey, hkey', hsame])

theorem admission_ingest (h : admission host request = .ok (.ingest value)) :
    request.controller = .ingestion ∧
      canActivate host.letterCase host.env.toEnv request.authorization value = none := by
  unfold admission at h
  split at h
  · rename_i body hbody
    refine ⟨by rw [HttpRequest.controller, hbody], ?_⟩
    split_ifs at h
    split at h
    · cases h
    · split at h
      · cases h
      · rename_i value' _ hguard
        cases h
        exact hguard
  · split at h
    · cases h
    · cases h

theorem admission_read (h : admission host request = .ok (.read query)) :
    request.controller = .metrics ∧ AdminAuthorized host.env.toEnv request.authorization := by
  unfold admission at h
  split at h
  · split_ifs at h
    split at h
    · cases h
    · split at h
      · cases h
      · cases h
  · rename_i query' hquery
    refine ⟨by rw [HttpRequest.controller, hquery], ?_⟩
    split at h
    · cases h
    · rename_i hguard
      exact adminAuthorized_of_canActivate hguard

/-- The guard of the key does not count. -/
theorem canActivate_ne_rateLimited {C : LetterCase} {body : Json} :
    canActivate C env authorization body ≠ some .rateLimited := by
  intro h
  unfold canActivate at h
  split at h
  · split_ifs at h
    · cases h
    · cases h
    · split at h
      · split_ifs at h
        cases h
      · cases h
  · cases h

theorem admin_eq_unauthorized {refusal : Refusal}
    (h : AdminApiKeyGuard.canActivate env authorization = some refusal) :
    refusal = .unauthorized := by
  unfold AdminApiKeyGuard.canActivate at h
  split at h
  · split_ifs at h
    · exact (Option.some.inj h).symm
    · exact (Option.some.inj h).symm
  · exact (Option.some.inj h).symm

/-- What is refused before it is counted. -/
theorem admission_error {reply : Reply} (h : admission host request = .error reply) :
    ∃ r : HttpResponse, reply = .response r none ∧ r.status ∈ [400, 401, 403, 413] := by
  unfold admission at h
  split at h
  · split_ifs at h with hsize
    · exact ⟨_, (Except.error.inj h).symm, by simp [respond]⟩
    · split at h
      · exact ⟨_, (Except.error.inj h).symm, by simp [respond]⟩
      · split at h
        · rename_i refusal hrefusal
          refine ⟨_, (Except.error.inj h).symm, ?_⟩
          cases refusal with
          | unauthorized => simp [Refusal.response, respond]
          | instanceMismatch => simp [Refusal.response, respond]
          | rateLimited => exact absurd hrefusal canActivate_ne_rateLimited
        · cases h
  · split at h
    · rename_i refusal hrefusal
      obtain rfl := admin_eq_unauthorized hrefusal
      exact ⟨_, (Except.error.inj h).symm, by simp [Refusal.response, respond]⟩
    · cases h

/-- A counted request carries the one key that there is. -/
theorem apiKey_of_admission {key : JsString} (hkey : host.env.ingestApiKey = some key)
    (h : admission host request = .ok (.ingest value)) : apiKey request.authorization = key := by
  obtain ⟨key', hkey', htext⟩ := (canActivate_eq_none (admission_ingest h).2).1
  obtain rfl := Option.some.inj (hkey.symm.trans hkey')
  cases hauth : request.authorization with
  | none => rw [hauth] at htext; cases htext
  | some header =>
    rw [hauth, Option.map_some, Option.some.injEq] at htext
    rw [apiKey, Option.elim_some, htext, List.drop_left]

end Guards

/-! ### Tasks -/

/-- A request in the list of its controller, with the work that the guards have let through. -/
structure Task.Valid (host : Host) (controller : Controller) (task : Task) : Prop where
  admitted : admission host task.request = .ok task.work
  controller_eq : task.request.controller = controller
  answered_of_done : task.done = true → task.answered = true

theorem Task.Valid.ingestion {host : Host} {controller : Controller} {task : Task} {value : Json}
    (h : task.Valid host controller) (hwork : task.work = .ingest value) :
    controller = .ingestion := by
  rw [← h.controller_eq]
  exact (admission_ingest (hwork ▸ h.admitted)).1

def Server.Valid (host : Host) (s : Server) : Prop :=
  ∀ controller, ∀ task ∈ s.tasks controller, task.Valid host controller

section Valid

variable {host : Host} {s : Server} {input : Input} {out : Option Exchange} {s' : Server}

theorem valid_enqueue (h : s.Valid host) {arrival : Arrival} {work : Work}
    (hadmission : admission host arrival.request = .ok work) :
    (s.enqueue arrival work).Valid host := by
  intro controller task htask
  by_cases hcontroller : controller = arrival.request.controller
  · subst hcontroller
    rw [Server.tasks_enqueue, List.mem_append, List.mem_singleton] at htask
    rcases htask with hold | rfl
    · exact h _ task hold
    · exact ⟨hadmission, rfl, fun h => absurd h Bool.false_ne_true⟩
  · rw [Server.tasks_enqueue_of_ne hcontroller] at htask
    exact h controller task htask

theorem valid_mark (h : s.Valid host) {controller : Controller} {number : ℕ} {task : Task}
    (htask : task.Valid host controller) : (s.mark controller number task).Valid host := by
  intro controller' task' htask'
  by_cases hcontroller : controller' = controller
  · subst hcontroller
    rw [Server.tasks_mark] at htask'
    rcases List.mem_or_eq_of_mem_set htask' with hold | rfl
    · exact h _ task' hold
    · exact htask
  · rw [Server.tasks_mark_of_ne hcontroller] at htask'
    exact h controller' task' htask'

/-- Every task stays one that the guards have let through. -/
theorem Effect.valid (h : Effect host s input out s') (hs : s.Valid host) : s'.Valid host := by
  cases h with
  | idle => exact hs
  | refused => exact hs
  | queued hadmission => exact valid_enqueue hs hadmission
  | granted hadmission => exact valid_enqueue (s := { s with windows := _ }) hs hadmission
  | limited => exact hs
  | expired htask =>
    have hvalid := hs _ _ (List.mem_of_getElem? htask)
    exact valid_mark hs ⟨hvalid.admitted, hvalid.controller_eq, fun _ => rfl⟩
  | read htask =>
    have hvalid := hs _ _ (List.mem_of_getElem? htask)
    exact valid_mark hs ⟨hvalid.admitted, hvalid.controller_eq, fun _ => rfl⟩
  | handled htask =>
    have hvalid := hs _ _ (List.mem_of_getElem? htask)
    exact valid_mark hs ⟨hvalid.admitted, hvalid.controller_eq, fun _ => rfl⟩

end Valid

/-! ### Arrivals -/

def Input.arrival? : Input → Option Arrival
  | ⟨time, .arrives request⟩ => some ⟨time, request⟩
  | _ => none

/-- The requests of a run. -/
def arrivals (inputs : List Input) : List Arrival := inputs.filterMap Input.arrival?

theorem arrivals_concat {inputs : List Input} {input : Input} :
    arrivals (inputs ++ [input]) = arrivals inputs ++ input.arrival?.toList := by
  rw [arrivals, List.filterMap_append, List.filterMap_cons]
  cases input.arrival? with
  | none => rfl
  | some arrival => rfl

/-- The requests that are not answered yet. -/
def unanswered (tasks : List Task) : List Arrival :=
  (tasks.filter fun task => !task.answered).map Task.toArrival

def Server.waiting (s : Server) : List Arrival :=
  unanswered (s.tasks .ingestion) ++ unanswered (s.tasks .metrics)

section Waiting

variable {tasks : List Task} {number : ℕ} {task task' : Task}

theorem exists_split (h : tasks[number]? = some task) (task' : Task) : ∃ before later,
    tasks = before ++ task :: later ∧ tasks.set number task' = before ++ task' :: later := by
  obtain ⟨hlt, rfl⟩ := List.getElem?_eq_some_iff.mp h
  refine ⟨tasks.take number, tasks.drop (number + 1), ?_, ?_⟩
  · rw [← List.drop_eq_getElem_cons hlt, List.take_append_drop]
  · rw [List.set_eq_take_append_cons_drop, if_pos hlt]

/-- An answer takes its request out, and only the first one does. -/
theorem unanswered_set (h : tasks[number]? = some task) (hanswered : task'.answered = true)
    (reply : Reply) : (unanswered tasks).Perm
      ((task.send reply).toList.map Exchange.toArrival ++ unanswered (tasks.set number task')) := by
  obtain ⟨before, later, htasks, hset⟩ := exists_split h task'
  rw [hset, htasks, unanswered, unanswered, Task.send]
  cases hwaits : task.answered with
  | true => simp [List.filter_append, hwaits, hanswered]
  | false =>
    simp only [List.filter_append, List.filter_cons, hwaits, hanswered, Bool.not_false,
      Bool.not_true, if_true, if_false, Bool.false_eq_true, List.map_append, List.map_cons,
      Option.toList_some, List.map_nil]
    exact List.perm_middle

theorem map_toArrival_set (h : tasks[number]? = some task)
    (hsame : task'.toArrival = task.toArrival) :
    (tasks.set number task').map Task.toArrival = tasks.map Task.toArrival := by
  obtain ⟨before, later, htasks, hset⟩ := exists_split h task'
  rw [hset, htasks, List.map_append, List.map_append, List.map_cons, List.map_cons, hsame]

variable {s : Server} {controller : Controller}

theorem map_toArrival_mark (h : (s.tasks controller)[number]? = some task)
    (hsame : task'.toArrival = task.toArrival) (other : Controller) :
    ((s.mark controller number task').tasks other).map Task.toArrival =
      (s.tasks other).map Task.toArrival := by
  by_cases hother : other = controller
  · subst hother
    rw [Server.tasks_mark, map_toArrival_set h hsame]
  · rw [Server.tasks_mark_of_ne hother]

theorem waiting_enqueue {arrival : Arrival} {work : Work} :
    (s.enqueue arrival work).waiting.Perm (arrival :: s.waiting) := by
  have hnew : unanswered (s.tasks arrival.request.controller ++ [⟨arrival, work, false, false⟩]) =
      unanswered (s.tasks arrival.request.controller) ++ [arrival] := by
    simp [unanswered]
  cases hcontroller : arrival.request.controller with
  | ingestion =>
    rw [Server.waiting, Server.waiting, ← hcontroller, Server.tasks_enqueue, hnew,
      Server.tasks_enqueue_of_ne (by rw [hcontroller]; decide), List.append_assoc]
    exact List.perm_middle
  | metrics =>
    rw [Server.waiting, Server.waiting, ← hcontroller, Server.tasks_enqueue, hnew,
      Server.tasks_enqueue_of_ne (by rw [hcontroller]; decide), ← List.append_assoc]
    exact List.perm_append_singleton _ _

theorem waiting_mark (h : (s.tasks controller)[number]? = some task)
    (hanswered : task'.answered = true) (reply : Reply) : s.waiting.Perm
      ((task.send reply).toList.map Exchange.toArrival ++
        (s.mark controller number task').waiting) := by
  have hset := unanswered_set h hanswered reply
  cases controller with
  | ingestion =>
    rw [Server.waiting, Server.waiting, Server.tasks_mark,
      Server.tasks_mark_of_ne (by decide : Controller.metrics ≠ .ingestion), ← List.append_assoc]
    exact hset.append_right _
  | metrics =>
    rw [Server.waiting, Server.waiting, Server.tasks_mark,
      Server.tasks_mark_of_ne (by decide : Controller.ingestion ≠ .metrics)]
    refine (hset.append_left _).trans ?_
    rw [← List.append_assoc, ← List.append_assoc]
    exact List.perm_append_comm.append_right _

end Waiting

section Steps

variable {host : Host} {s s' : Server} {input : Input} {out : Option Exchange}

/-- A request that comes in waits or is answered, and an answer is of one that waits. -/
theorem Effect.waiting (h : Effect host s input out s') : (input.arrival?.toList ++ s.waiting).Perm
    (out.toList.map Exchange.toArrival ++ s'.waiting) := by
  cases h with
  | @idle time event hevent =>
    cases event with
    | arrives request => exact absurd rfl (hevent request)
    | expires controller number => exact .refl _
    | completes controller number reachable => exact .refl _
  | refused => exact .refl _
  | queued => exact waiting_enqueue.symm
  | granted => exact (waiting_enqueue (s := { s with windows := _ })).symm
  | limited => exact .refl _
  | @expired _ _ _ task reply htask hwaits =>
    have hanswered : { task with answered := true }.answered = true := rfl
    have hmark := waiting_mark htask hanswered reply
    rwa [Task.send, if_neg (by rw [hwaits]; exact Bool.false_ne_true)] at hmark
  | read htask => exact waiting_mark htask rfl _
  | handled htask => exact waiting_mark htask rfl _

/-- Requests stay where they are; the new one comes last. -/
theorem Effect.tasks (h : Effect host s input out s') (controller : Controller) :
    ∃ new, (s'.tasks controller).map Task.toArrival =
      (s.tasks controller).map Task.toArrival ++ new ∧ ∀ a ∈ new, input.arrival? = some a := by
  have hsame : ∀ {t : Server}, (t.tasks controller).map Task.toArrival =
      (s.tasks controller).map Task.toArrival → ∃ new, (t.tasks controller).map Task.toArrival =
        (s.tasks controller).map Task.toArrival ++ new ∧ ∀ a ∈ new, input.arrival? = some a :=
    fun h => ⟨[], by rw [h, List.append_nil], fun a ha => absurd ha List.not_mem_nil⟩
  have henqueue : ∀ {t : Server} {arrival : Arrival} {work : Work}, t.tasks = s.tasks →
      input.arrival? = some arrival →
      ∃ new, ((t.enqueue arrival work).tasks controller).map Task.toArrival =
        (s.tasks controller).map Task.toArrival ++ new ∧ ∀ a ∈ new, input.arrival? = some a := by
    intro t arrival work ht harrival
    by_cases hcontroller : controller = arrival.request.controller
    · subst hcontroller
      refine ⟨[arrival], by rw [Server.tasks_enqueue, ht, List.map_append]; rfl, fun a ha => ?_⟩
      rw [harrival, List.mem_singleton.mp ha]
    · exact hsame (by rw [Server.tasks_enqueue_of_ne hcontroller, ht])
  cases h with
  | idle => exact hsame rfl
  | refused => exact hsame rfl
  | queued => exact henqueue rfl rfl
  | granted => exact henqueue rfl rfl
  | limited => exact hsame rfl
  | expired htask => exact hsame (map_toArrival_mark htask (by rfl) controller)
  | read htask => exact hsame (map_toArrival_mark htask (by rfl) controller)
  | handled htask => exact hsame (map_toArrival_mark htask (by rfl) controller)

/-- A task keeps its number, its request and its work. -/
structure Task.Progress (task task' : Task) : Prop where
  arrival_eq : task'.toArrival = task.toArrival
  work_eq : task'.work = task.work
  done_of_done : task.done = true → task'.done = true

theorem Effect.progress (h : Effect host s input out s') {controller : Controller} {number : ℕ}
    {task : Task} (htask : (s.tasks controller)[number]? = some task) :
    ∃ task', (s'.tasks controller)[number]? = some task' ∧ task.Progress task' := by
  have hsame : task.Progress task := ⟨rfl, rfl, id⟩
  have henqueue : ∀ {t : Server} {arrival : Arrival} {work : Work}, t.tasks = s.tasks →
      ∃ task', ((t.enqueue arrival work).tasks controller)[number]? = some task' ∧
        task.Progress task' := by
    intro t arrival work ht
    refine ⟨task, ?_, hsame⟩
    by_cases hcontroller : controller = arrival.request.controller
    · subst hcontroller
      rw [Server.tasks_enqueue, ht]
      rwa [List.getElem?_append_left (List.getElem?_eq_some_iff.mp htask).1]
    · rwa [Server.tasks_enqueue_of_ne hcontroller, ht]
  have hmark : ∀ {c : Controller} {n : ℕ} {old new : Task}, (s.tasks c)[n]? = some old →
      old.Progress new → ∃ task', ((s.mark c n new).tasks controller)[number]? = some task' ∧
        task.Progress task' := by
    intro c n old new hold hnew
    by_cases hcontroller : controller = c
    · subst hcontroller
      by_cases hnumber : n = number
      · subst hnumber
        obtain rfl := Option.some.inj (hold.symm.trans htask)
        obtain ⟨hlt, -⟩ := List.getElem?_eq_some_iff.mp hold
        exact ⟨new, by rw [Server.tasks_mark, List.getElem?_set_self hlt], hnew⟩
      · exact ⟨task, by rw [Server.tasks_mark, List.getElem?_set_ne hnumber, htask], hsame⟩
    · exact ⟨task, by rw [Server.tasks_mark_of_ne hcontroller, htask], hsame⟩
  cases h with
  | idle => exact ⟨task, htask, hsame⟩
  | refused => exact ⟨task, htask, hsame⟩
  | queued => exact henqueue rfl
  | granted => exact henqueue rfl
  | limited => exact ⟨task, htask, hsame⟩
  | expired hold => exact hmark hold ⟨rfl, rfl, id⟩
  | read hold => exact hmark hold ⟨rfl, rfl, fun _ => rfl⟩
  | handled hold => exact hmark hold ⟨rfl, rfl, fun _ => rfl⟩

end Steps

/-! ### The tables -/

section Tables

variable {host : Host} {s s' : Server} {input : Input} {out : Option Exchange}

/-- A batch that a step hands to the service is a task that was not done, and is done now. -/
structure Handled.Fresh (s s' : Server) (h : Handled) : Prop where
  was_open : ∃ task, (s.tasks .ingestion)[h.task]? = some task ∧ task.done = false
  is_done : ∃ task, (s'.tasks .ingestion)[h.task]? = some task ∧ task.work = .ingest h.request ∧
    task.done = true

theorem handleAll_concat {db : Tables} {handled : List Handled} {h : Handled} :
    handleAll host db (handled ++ [h]) = (h.result host (handleAll host db handled)).2 :=
  List.foldl_append

/-- A step hands one batch to the service, or leaves the tables alone. -/
theorem Effect.handled_cases (h : Effect host s input out s') (hs : s.Valid host) :
    (s'.handled = s.handled ∧ s'.database = s.database) ∨
      ∃ batch : Handled, batch.Fresh s s' ∧ s'.handled = s.handled ++ [batch] ∧
        s'.database.toTables = (batch.result host s.database.toTables).2 := by
  cases h with
  | idle => exact .inl ⟨rfl, rfl⟩
  | refused => exact .inl ⟨rfl, rfl⟩
  | queued => exact .inl ⟨rfl, rfl⟩
  | granted => exact .inl ⟨rfl, rfl⟩
  | limited => exact .inl ⟨rfl, rfl⟩
  | expired => exact .inl ⟨rfl, rfl⟩
  | read => exact .inl ⟨rfl, rfl⟩
  | @handled _ controller number task reachable value htask hopen hwork =>
    obtain ⟨hlt, -⟩ := List.getElem?_eq_some_iff.mp htask
    obtain rfl := (hs _ _ (List.mem_of_getElem? htask)).ingestion hwork
    refine .inr ⟨⟨number, value, reachable⟩, ⟨⟨task, htask, hopen⟩, task.finish, ?_, hwork, rfl⟩,
      rfl, rfl⟩
    show ((s.mark .ingestion number task.finish).tasks .ingestion)[number]? = _
    rw [Server.tasks_mark, List.getElem?_set_self hlt]

/-- What a reply comes from. -/
inductive Explained (host : Host) (db : Tables) (s : Server) (x : Exchange) : Prop where
  | refused (h : admission host x.request = .error x.reply)
  | limited (value : Json) (h : admission host x.request = .ok (.ingest value))
      (hstatus : x.reply.status = 429)
  | expired (work : Work) (h : admission host x.request = .ok work) (hstatus : x.reply.status = 503)
  /-- The metrics of the tables between two batches. -/
  | read (query : MetricsRequest) (reachable : Bool) (now : ℤ) (before later : List Handled)
      (h : admission host x.request = .ok (.read query)) (hhandled : s.handled = before ++ later)
      (hreply : x.reply = readReply host reachable now (handleAll host db before) query)
  /-- The service's response to the batch, at its place among the others. -/
  | handled (task : Task) (before : List Handled) (batch : Handled) (later : List Handled)
      (htask : (s.tasks .ingestion)[batch.task]? = some task)
      (harrival : task.toArrival = x.toArrival)
      (hhandled : s.handled = before ++ batch :: later)
      (hreply : x.reply = .response (batch.result host (handleAll host db before)).1 none)

theorem Explained.mono {db : Tables} {x : Exchange} (h : Explained host db s x)
    (heffect : Effect host s input out s') (hs : s.Valid host) : Explained host db s' x := by
  obtain ⟨more, hmore⟩ : ∃ more, s'.handled = s.handled ++ more := by
    obtain ⟨hhandled, -⟩ | ⟨batch, -, hhandled, -⟩ := heffect.handled_cases hs
    · exact ⟨[], by rw [hhandled, List.append_nil]⟩
    · exact ⟨[batch], hhandled⟩
  cases h with
  | refused h => exact .refused h
  | limited value h hstatus => exact .limited value h hstatus
  | expired work h hstatus => exact .expired work h hstatus
  | read query reachable now before later h hhandled hreply =>
    refine .read query reachable now before (later ++ more) h ?_ hreply
    rw [hmore, hhandled, List.append_assoc]
  | handled task before batch later htask harrival hhandled hreply =>
    obtain ⟨task', htask', hprogress⟩ := heffect.progress htask
    refine .handled task' before batch (later ++ more) htask'
      (hprogress.arrival_eq.trans harrival) ?_ hreply
    rw [hmore, hhandled, List.append_assoc, List.cons_append]

theorem eq_of_mem_send {task : Task} {reply : Reply} {x : Exchange}
    (hx : x ∈ (task.send reply).toList) : x = ⟨task.toArrival, reply⟩ := by
  unfold Task.send at hx
  split_ifs at hx
  · exact absurd hx List.not_mem_nil
  · exact List.mem_singleton.mp hx

/-- The reply of a step is explained by the tables that it finds. -/
theorem Effect.explained (h : Effect host s input out s') (hs : s.Valid host) {db : Tables}
    (hdatabase : s.database.toTables = handleAll host db s.handled) {x : Exchange}
    (hx : x ∈ out.toList) : Explained host db s' x := by
  have heffect := h
  cases h with
  | idle => exact absurd hx List.not_mem_nil
  | refused hadmission =>
    obtain rfl := List.mem_singleton.mp hx
    exact .refused hadmission
  | queued => exact absurd hx List.not_mem_nil
  | granted => exact absurd hx List.not_mem_nil
  | limited hadmission =>
    obtain rfl := List.mem_singleton.mp hx
    exact .limited _ hadmission rfl
  | expired htask _ _ hreply =>
    obtain rfl := List.mem_singleton.mp hx
    exact .expired _ (hs _ _ (List.mem_of_getElem? htask)).admitted hreply
  | @read time controller number task reachable query htask hopen hwork =>
    obtain rfl := eq_of_mem_send hx
    have hadmission := (hs _ _ (List.mem_of_getElem? htask)).admitted
    rw [hwork] at hadmission
    exact .read query reachable time s.handled [] hadmission (List.append_nil _).symm
      (by rw [hdatabase])
  | handled htask hopen hwork =>
    obtain rfl := eq_of_mem_send hx
    obtain rfl := (hs _ _ (List.mem_of_getElem? htask)).ingestion hwork
    obtain ⟨task', htask', hprogress⟩ := heffect.progress htask
    exact .handled task' s.handled _ [] htask' hprogress.arrival_eq rfl (by rw [hdatabase])

end Tables

/-! ### Whole runs -/

/-- The rows that were added carry the server's instance. -/
def OwnRows (host : Host) (db : Tables) (tables : Tables) : Prop :=
  ∃ added, tables.gameEvents = db.gameEvents ++ added ∧ ∀ row ∈ added,
    host.env.ingestInstanceId.map host.letterCase.lower = some row.instanceId

/-- What a run of the receiver has done with its requests. -/
structure Orderly (host : Host) (db : Tables) (inputs : List Input) (out : List Exchange)
    (s : Server) : Prop where
  /-- Every request waits or has exactly one answer. -/
  answers : (arrivals inputs).Perm (out.map Exchange.toArrival ++ s.waiting)
  tables : s.database.toTables = handleAll host db s.handled
  /-- No batch is handled twice. -/
  once : (s.handled.map Handled.task).Nodup
  origin : ∀ batch ∈ s.handled, ∃ task, (s.tasks .ingestion)[batch.task]? = some task ∧
    task.work = .ingest batch.request ∧ task.toArrival ∈ arrivals inputs ∧
    Authorized host.env.toEnv task.request.authorization
  own : OwnRows host db s.database.toTables
  replies : ∀ x ∈ out, Explained host db s x
  /-- Metrics go to the owner of their key, who cannot write. -/
  roles : ∀ x ∈ out, ∀ metrics, x.reply = .data metrics →
    AdminAuthorized host.env.toEnv x.request.authorization ∧
      ¬Authorized host.env.toEnv x.request.authorization

/-- What every step keeps. -/
structure OrderlyInv (host : Host) (db : Tables) (inputs : List Input) (out : List Exchange)
    (s : Server) : Prop where
  valid : s.Valid host
  came : ∀ controller, ∀ a ∈ (s.tasks controller).map Task.toArrival, a ∈ arrivals inputs
  answers : (arrivals inputs).Perm (out.map Exchange.toArrival ++ s.waiting)
  tables : s.database.toTables = handleAll host db s.handled
  once : (s.handled.map Handled.task).Nodup
  origin : ∀ batch ∈ s.handled, ∃ task, (s.tasks .ingestion)[batch.task]? = some task ∧
    task.work = .ingest batch.request ∧ task.done = true
  own : OwnRows host db s.database.toTables
  replies : ∀ x ∈ out, Explained host db s x

section Runs

variable {host : Host} {db : Tables} {inputs : List Input} {out : List Exchange} {s : Server}

theorem OrderlyInv.step (h : OrderlyInv host db inputs out s) (input : Input) :
    OrderlyInv host db (inputs ++ [input]) (out ++ (s.step host input).1.toList)
      (s.step host input).2 := by
  have heffect := step_effect host s input
  generalize (s.step host input).1 = answer at heffect ⊢
  generalize (s.step host input).2 = s' at heffect ⊢
  have hcases := heffect.handled_cases h.valid
  constructor
  case valid => exact heffect.valid h.valid
  case came =>
    intro controller a ha
    obtain ⟨new, htasks, hnew⟩ := heffect.tasks controller
    rw [htasks] at ha
    rw [arrivals_concat]
    rcases List.mem_append.mp ha with hold | hadded
    · exact List.mem_append_left _ (h.came controller a hold)
    · rw [hnew a hadded]
      exact List.mem_append_right _ (List.mem_singleton.mpr rfl)
  case answers =>
    rw [arrivals_concat, List.map_append, List.append_assoc]
    refine (h.answers.append_right _).trans ?_
    rw [List.append_assoc]
    exact (List.perm_append_comm.trans heffect.waiting).append_left _
  case tables =>
    obtain ⟨hhandled, hdatabase⟩ | ⟨batch, -, hhandled, hdatabase⟩ := hcases
    · rw [hhandled, hdatabase, h.tables]
    · rw [hhandled, hdatabase, handleAll_concat, h.tables]
  case once =>
    obtain ⟨hhandled, -⟩ | ⟨batch, hfresh, hhandled, -⟩ := hcases
    · rw [hhandled]
      exact h.once
    · rw [hhandled, List.map_append]
      refine List.Nodup.append h.once (List.nodup_singleton _) ?_
      -- a batch that has been handled is done
      intro number hold hnew
      obtain ⟨other, hother, rfl⟩ := List.mem_map.mp hold
      obtain ⟨task, htask, -, hdone⟩ := h.origin other hother
      obtain ⟨task', htask', hopen⟩ := hfresh.was_open
      rw [← List.mem_singleton.mp hnew, htask] at htask'
      rw [Option.some.inj htask', hopen] at hdone
      exact absurd hdone Bool.false_ne_true
  case origin =>
    have hkept : ∀ batch ∈ s.handled, ∃ task, (s'.tasks .ingestion)[batch.task]? = some task ∧
        task.work = .ingest batch.request ∧ task.done = true := by
      intro batch hbatch
      obtain ⟨task, htask, hwork, hdone⟩ := h.origin batch hbatch
      obtain ⟨task', htask', hprogress⟩ := heffect.progress htask
      exact ⟨task', htask', hprogress.work_eq.trans hwork, hprogress.done_of_done hdone⟩
    intro batch hbatch
    obtain ⟨hhandled, -⟩ | ⟨new, hfresh, hhandled, -⟩ := hcases
    · exact hkept batch (hhandled ▸ hbatch)
    · rw [hhandled, List.mem_append, List.mem_singleton] at hbatch
      rcases hbatch with hold | rfl
      · exact hkept batch hold
      · exact hfresh.is_done
  case own =>
    obtain ⟨-, hdatabase⟩ | ⟨batch, hfresh, -, hdatabase⟩ := hcases
    · rw [hdatabase]
      exact h.own
    · rw [hdatabase]
      obtain ⟨task, htask, hwork, -⟩ := hfresh.is_done
      have hadmission := (heffect.valid h.valid _ _ (List.mem_of_getElem? htask)).admitted
      have hguard := (admission_ingest (hwork ▸ hadmission)).2
      obtain ⟨added, hadded, hrows⟩ := handle_own host.json host.libraries host.postgres
        batch.reachable s.database (canActivate_eq_none hguard).2
      obtain ⟨before, hbefore, hown⟩ := h.own
      refine ⟨before ++ added, ?_, fun row hrow => ?_⟩
      · rw [Handled.result, hadded, hbefore, List.append_assoc]
      · rcases List.mem_append.mp hrow with hrow | hrow
        · exact hown row hrow
        · exact hrows row hrow
  case replies =>
    intro x hx
    rcases List.mem_append.mp hx with hold | hnew
    · exact (h.replies x hold).mono heffect h.valid
    · exact heffect.explained h.valid h.tables hnew

theorem orderlyInv_start (database : Database) :
    OrderlyInv host database.toTables [] [] (.start database) where
  valid := fun _ _ h => absurd h List.not_mem_nil
  came := fun _ _ h => absurd h List.not_mem_nil
  answers := .refl _
  tables := rfl
  once := List.nodup_nil
  origin := fun _ h => absurd h List.not_mem_nil
  own := ⟨[], (List.append_nil _).symm, fun _ h => absurd h List.not_mem_nil⟩
  replies := fun _ h => absurd h List.not_mem_nil

theorem orderlyInv_run (host : Host) (database : Database) (inputs : List Input) :
    OrderlyInv host database.toTables inputs ((Server.start database).exchanges host inputs)
      ((Server.start database).after host inputs) :=
  run_induction (orderlyInv_start database) (fun _ _ _ input h => h.step input) inputs

theorem OrderlyInv.summary (h : OrderlyInv host db inputs out s) :
    Orderly host db inputs out s where
  answers := h.answers
  tables := h.tables
  once := h.once
  own := h.own
  replies := h.replies
  origin := by
    intro batch hbatch
    obtain ⟨task, htask, hwork, -⟩ := h.origin batch hbatch
    have hmem := List.mem_of_getElem? htask
    have hadmission := (h.valid _ task hmem).admitted
    refine ⟨task, htask, hwork, h.came _ _ (List.mem_map_of_mem hmem), ?_⟩
    exact (canActivate_eq_none (admission_ingest (hwork ▸ hadmission)).2).1
  roles := by
    intro x hx metrics hmetrics
    cases h.replies x hx with
    | refused hrefused =>
      obtain ⟨r, hreply, -⟩ := admission_error hrefused
      exact nomatch hmetrics.symm.trans hreply
    | limited value _ hstatus =>
      rw [hmetrics] at hstatus
      exact absurd (show 200 = 429 from hstatus) (by decide)
    | expired work _ hstatus =>
      rw [hmetrics] at hstatus
      exact absurd (show 200 = 503 from hstatus) (by decide)
    | read query reachable now before later hadmission =>
      have hadmin := (admission_read hadmission).2
      exact ⟨hadmin, not_authorized_of_admin host.env hadmin⟩
    | handled task before batch later htask harrival hhandled hreply =>
      rw [hmetrics] at hreply
      cases hreply

end Runs

/-- **The receiver keeps order among its clients.** Whatever comes in, at whatever times, with
whatever keys, and in whatever order the handlers end or their deadlines pass. -/
theorem orderly (host : Host) (database : Database) (inputs : List Input) :
    Orderly host database.toTables inputs ((Server.start database).exchanges host inputs)
      ((Server.start database).after host inputs) :=
  (orderlyInv_run host database inputs).summary

end Receiver
