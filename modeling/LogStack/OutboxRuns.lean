/-
Runs of the outbox.

A process opens the outbox directory, calls the outbox's methods and may be killed in any of
them; another process opens the directory again.  The ledger is what such a run has
recorded: confirmed and pending events in the order of their recording, and the records of
the failed journal.

* `Action`, `Status`, `step` — one call, under a schedule of how its file-system calls end;
* `Effect` — what a call may do to the ledger, by the way it ended;
* `Agrees` — directory, open outbox and ledger fit together;
* `agrees_step` — every call keeps them together, whatever its schedule.
-/
import LogStack.OutboxOperations
import LogStack.Simulation

open FileProgram Lines KeyedInsert Simulation

namespace Outbox

inductive Action where
  | «open» (limit : ℕ)
  | appendMany (events : List Event)
  | confirm (count : ℕ)
  | quarantine (clock : Json → JsString) (events : List Event) (reason : JsString)
      (detail : Detail)
  | close

/-- How a call ended, with the number that `quarantine` returns. -/
inductive Ending where
  | returned (answer : ℕ)
  | threw
  | killed
  deriving DecidableEq

/-- The outbox directory, and the outbox of a process that has opened it. -/
inductive Status where
  | down (files : Files String)
  | up (ob : Outbox) (w : World String)

def Status.files : Status → Files String
  | .down files => files
  | .up _ w => w.files

/-- The limit of the cache of failed ids, where there is a cache. -/
def Status.limit : Status → ℕ
  | .down _ => 0
  | .up ob _ => ob.failedIdCacheLimit

/-- The limit that the last open was given. -/
def Action.limitAfter : Action → ℕ → ℕ
  | .open limit, _ => limit
  | _, limit => limit

/-- The ledger of an outbox directory. -/
structure Ledger (J : JsonText) where
  confirmed : List Event
  pending : List Event
  failed : List (FailedLine J)

namespace Ledger

variable {J : JsonText}

def empty : Ledger J := ⟨[], [], []⟩

/-- Every event ever recorded, in order. -/
def recorded (a : Ledger J) : List Event := a.confirmed ++ a.pending

def failedIds (a : Ledger J) : List JsString := a.failed.map FailedLine.id

def append (a : Ledger J) (es : List Event) : Ledger J := { a with pending := a.pending ++ es }

def confirm (a : Ledger J) (count : ℕ) : Ledger J :=
  { a with confirmed := a.confirmed ++ a.pending.take count, pending := a.pending.drop count }

def fail (a : Ledger J) (ls : List (FailedLine J)) : Ledger J :=
  { a with failed := a.failed ++ ls }

@[simp] theorem recorded_confirm (a : Ledger J) (count : ℕ) :
    (a.confirm count).recorded = a.recorded := by
  simp [recorded, confirm]

@[simp] theorem recorded_append (a : Ledger J) (es : List Event) :
    (a.append es).recorded = a.recorded ++ es := by
  simp [recorded, append]

end Ledger

variable (J : JsonText)

/-- The records that a call of `quarantine` adds. -/
def newRecords (a : Ledger J) (clock : Json → JsString) (es : List Event) (reason : JsString)
    (detail : Detail) : List (FailedLine J) :=
  recordLines J clock reason detail (firstNew Event.id a.failedIds es)

/-- The program of a call. -/
def program : Action → OutboxM ℕ
  | .open limit => do
    «open» J limit
    pure 0
  | .appendMany es => do
    appendMany J (es.map Event.value)
    pure 0
  | .confirm count => do
    confirm J count
    pure 0
  | .quarantine clock es reason detail =>
    quarantine J clock (es.map Event.value) reason detail.fields
  | .close => do
    close
    pure 0

/-- Where the program of a call starts: opening is done by a new process, and the other
calls need an outbox. -/
def start : Action → Status → Option (Outbox × World String)
  | .open _, s => some ({ failedIdCacheLimit := 0 }, World.boot s.files)
  | _, .up ob w => some (ob, w)
  | _, .down _ => none

/-- Where a call leaves the directory. A constructor that throws gives no outbox. -/
def finish : Action → Outcome String Outbox ℕ → Ending × Status
  | _, .returned n ob w => (.returned n, .up ob w)
  | .open _, .threw _ _ w => (.threw, .down w.files)
  | _, .threw _ ob w => (.threw, .up ob w)
  | _, .killed files => (.killed, .down files)

def step (call : Action × List Fate) (s : Status) : Ending × Status :=
  match start call.1 s with
  | some (ob, w) => finish call.1 (run (program J call.1) call.2 ob w)
  | none => (.threw, s)

/-- The schedule of a call keeps to the fates that are allowed. -/
def Permitted (allowed : Call String → Fate → Prop) (call : Action × List Fate) (s : Status) :
    Prop :=
  match start call.1 s with
  | some (ob, w) => Follows allowed (program J call.1) call.2 ob w
  | none => True

/-- What a call may do to the ledger. -/
def Effect : Action → Ending → Ledger J → Ledger J → Prop
  | .appendMany es, .returned _, a, a' => a' = a.append es
  | .appendMany es, _, a, a' => ∃ k, a' = a.append (es.take k)
  | .confirm count, .returned _, a, a' => count ≤ a.pending.length ∧ a' = a.confirm count
  | .confirm count, _, a, a' => a' = a ∨ count ≤ a.pending.length ∧ a' = a.confirm count
  | .quarantine clock es reason detail, .returned n, a, a' =>
    n = (firstNew Event.id a.failedIds es).length ∧
      a' = a.fail (newRecords J a clock es reason detail)
  | .quarantine clock es reason detail, _, a, a' =>
    ∃ k, a' = a.fail ((newRecords J a clock es reason detail).take k)
  | _, _, a, a' => a' = a

/-! ### Directory, outbox and ledger -/

/-- Some call may fail. -/
def MayFail (allowed : Call String → Fate → Prop) : Prop := ∃ c code n, allowed c (.fail code n)

/-- The directory of a process that is gone. -/
def Resting (files : Files String) (a : Ledger J) : Prop :=
  Durable J files a.confirmed a.pending ∧
    ∃ t, (files failedPath).getD [] = failedText a.failed ++ t ∧ newline ∉ t

/-- An outbox knows the ids of the failed journal, or it has seen a write fail; its cache is
bounded either way. -/
def Knows (allowed : Call String → Fate → Prop) (ob : Outbox) (w : World String)
    (a : Ledger J) : Prop :=
  Cached ob a.failedIds ∧ (w.files failedPath).getD [] = failedText a.failed ∨
    MayFail allowed ∧ ob.failedWriteFault = true ∧
      ob.cachedFailedIdCount ≤ ob.failedIdCacheLimit ∧
      ∃ t, (w.files failedPath).getD [] = failedText a.failed ++ t ∧ newline ∉ t

def Agrees (allowed : Call String → Fate → Prop) : Status → Ledger J → Prop
  | .down files, a => Resting J files a
  | .up ob w, a => (∃ gone head, a.confirmed = gone ++ head ∧ Live J ob w gone head a.pending) ∧
      Knows J allowed ob w a

variable {J} {allowed : Call String → Fate → Prop} {ob : Outbox} {w : World String}
  {a : Ledger J}

theorem Knows.tail (h : Knows J allowed ob w a) :
    ∃ t, (w.files failedPath).getD [] = failedText a.failed ++ t ∧ newline ∉ t := by
  rcases h with ⟨_, htext⟩ | ⟨_, _, _, htext⟩
  · exact ⟨[], by rw [htext, List.append_nil], List.not_mem_nil⟩
  · exact htext

theorem Knows.length_cache_le (h : Knows J allowed ob w a) :
    ob.cachedFailedIdCount ≤ ob.failedIdCacheLimit := by
  rcases h with ⟨hcache, _⟩ | ⟨_, _, hbound, _⟩
  · exact hcache.length_cache_le
  · exact hbound

theorem Agrees.resting {s : Status} (h : Agrees J allowed s a) : Resting J s.files a := by
  cases s with
  | down files => exact h
  | up ob w =>
    obtain ⟨⟨gone, head, hconfirmed, hlive⟩, hknows⟩ := h
    exact ⟨hconfirmed ▸ hlive.stable.durable, hknows.tail⟩

theorem Knows.congr {ob' : Outbox} {w' : World String} (h : Knows J allowed ob w a)
    (hcache : SameCache ob ob') (hfiles : w'.files failedPath = w.files failedPath) :
    Knows J allowed ob' w' a := by
  rcases h with ⟨hids, htext⟩ | ⟨hfail, hfault, hbound, htext⟩
  · exact .inl ⟨hids.sameCache hcache, hfiles ▸ htext⟩
  · refine .inr ⟨hfail, hcache.fault.trans hfault, ?_, hfiles ▸ htext⟩
    rw [cachedFailedIdCount, hcache.cache, hcache.limit]
    exact hbound

/-! ### Every call keeps them together -/

/-- The calls after which the cache stands for the failed journal, when they return. -/
def Refreshes : Action → Ending → Prop
  | .open _, .returned _ => True
  | .quarantine _ _ _ _, .returned _ => True
  | _, _ => False

/-- Directory and outbox after a call, with the new ledger; `limit` is the limit before it. -/
def AgreesAfter (allowed : Call String → Fate → Prop) (act : Action) (limit : ℕ)
    (r : Ending × Status) (a' : Ledger J) : Prop :=
  Agrees J allowed r.2 a' ∧
    (Refreshes act r.1 → ∃ ob w, r.2 = .up ob w ∧ Cached ob a'.failedIds) ∧
    ∀ ob w, r.2 = .up ob w → ob.failedIdCacheLimit = act.limitAfter limit

/-- The call does to the ledger what `Effect` says, and the result agrees with it. -/
def Settles (allowed : Call String → Fate → Prop) (act : Action) (limit : ℕ) (a : Ledger J)
    (outcome : Outcome String Outbox ℕ) : Prop :=
  ∃ a', Effect J act (finish act outcome).1 a a' ∧
    AgreesAfter allowed act limit (finish act outcome) a'

theorem Settles.killed {act : Action} {limit : ℕ} {files : Files String} (a' : Ledger J)
    (heffect : Effect J act .killed a a') (hresting : Resting J files a') :
    Settles allowed act limit a (.killed files) := by
  have hends : finish act (.killed files : Outcome String Outbox ℕ) = (.killed, .down files) := by
    cases act <;> rfl
  rw [Settles, hends]
  refine ⟨a', heffect, hresting, fun hrefreshes => ?_, fun ob w hup => nomatch hup⟩
  cases act <;> exact hrefreshes.elim

/-- A program that settles under every schedule. -/
def WpSettles (allowed : Call String → Fate → Prop) (act : Action) (a : Ledger J)
    (p : OutboxM ℕ) (ob : Outbox) (w : World String) : Prop :=
  wp allowed (fun r ob' w' => Settles allowed act ob.failedIdCacheLimit a (match r with
    | .ok n => .returned n ob' w'
    | .error e => .threw e ob' w'))
    (fun files => Settles allowed act ob.failedIdCacheLimit a (.killed files)) p ob w

theorem step_eq_finish {act : Action} {plan : List Fate} {s : Status}
    (hstart : start act s = some (ob, w)) :
    step J (act, plan) s = finish act (run (program J act) plan ob w) := by
  rw [step, hstart]

theorem WpSettles.settles {act : Action} {p : OutboxM ℕ} {plan : List Fate}
    (h : WpSettles allowed act a p ob w) (hplan : Follows allowed p plan ob w) :
    Settles allowed act ob.failedIdCacheLimit a (run p plan ob w) := by
  have hsat := wp_sound hplan h
  cases hrun : run p plan ob w <;> rw [hrun] at hsat <;> exact hsat

theorem throws_of_not_mayFail {α : Type} {Q : Except Failure α → Outbox → World String → Prop}
    {K : Files String → Prop} (h : ¬MayFail allowed) : Throws allowed Q K ob w :=
  fun c code n hf => absurd ⟨c, code, n, hf⟩ h

variable [Sturdy allowed]

theorem wpSettles_open {limit : ℕ} (h : Resting J w.files a) :
    WpSettles allowed (.open limit) a (program J (.open limit)) ob w := by
  have hkeep : ∀ files, Durable J files a.confirmed a.pending →
      (∃ t, (files failedPath).getD [] = failedText a.failed ++ t ∧ newline ∉ t) →
      Settles allowed (.open limit) ob.failedIdCacheLimit a (.killed files) := fun files hd hf =>
    .killed a rfl ⟨hd, hf⟩
  refine wp_bind (wp_open h.1 h.2 hkeep (fun ob' => ?_) ?_)
  · intro c code n hf w' hK _
    obtain ⟨a', ha', hrest, -⟩ := hK
    exact ⟨a', ha', hrest, False.elim, fun ob w hup => nomatch hup⟩
  · intro ob' w' gone head hconfirmed hlive hcache hclosed hlimit htext
    refine ⟨a, rfl, ⟨⟨gone, head, hconfirmed, hlive⟩, .inl ⟨hcache, htext⟩⟩,
      fun _ => ⟨ob', w', rfl, hcache⟩, ?_⟩
    rintro _ _ ⟨⟩
    exact hlimit

omit [Sturdy allowed] in
theorem wpSettles_appendMany {es : List Event} (hreliable : ¬MayFail allowed)
    (h : Agrees J allowed (.up ob w) a) :
    WpSettles allowed (.appendMany es) a (program J (.appendMany es)) ob w := by
  obtain ⟨⟨gone, head, hconfirmed, hlive⟩, hknows⟩ := h
  refine wp_bind (wp_appendMany hlive ?_ (throws_of_not_mayFail hreliable) ?_ ?_)
  · intro files k hother hstable
    refine .killed (a.append (es.take k)) ⟨k, rfl⟩ ⟨?_, ?_⟩
    · show Durable J files a.confirmed _
      rw [hconfirmed]
      exact hstable.durable
    · rw [hother _ (by decide)]
      exact hknows.tail
  · refine fun _ => ⟨a, ⟨0, by simp [Ledger.append]⟩, ⟨⟨gone, head, hconfirmed, hlive⟩, hknows⟩,
      False.elim, ?_⟩
    rintro _ _ ⟨⟩
    rfl
  · intro ob' w' hlive' hcache hclosed hother
    refine ⟨a.append es, rfl, ⟨⟨gone, head, hconfirmed, hlive'⟩,
      hknows.congr hcache (hother _ (by decide))⟩, False.elim, ?_⟩
    rintro _ _ ⟨⟩
    exact hcache.limit

theorem wpSettles_confirm {count : ℕ} (hreliable : ¬MayFail allowed)
    (h : Agrees J allowed (.up ob w) a) :
    WpSettles allowed (.confirm count) a (program J (.confirm count)) ob w := by
  obtain ⟨⟨gone, head, hconfirmed, hlive⟩, hknows⟩ := h
  -- an interrupted call confirms nothing, or all of it
  have heffect : ∀ n, (n = 0 ∨ n = count ∧ count ≤ a.pending.length) →
      a.confirm n = a ∨ count ≤ a.pending.length ∧ a.confirm n = a.confirm count := by
    rintro n (rfl | ⟨rfl, hcount⟩)
    · exact .inl (by simp [Ledger.confirm])
    · exact .inr ⟨hcount, rfl⟩
  refine wp_bind (wp_confirm hlive ?_ (fun _ _ => throws_of_not_mayFail hreliable) ?_ ?_)
  · intro files n hn hdurable hfailed
    refine .killed (a.confirm n) (heffect n hn) ⟨?_, ?_⟩
    · show Durable J files (a.confirmed ++ a.pending.take n) (a.pending.drop n)
      rw [hconfirmed]
      exact hdurable
    · rw [hfailed]
      exact hknows.tail
  · intro e n ob' w' hn hlive' hcache hfailed
    refine ⟨a.confirm n, heffect n (hn.imp And.left fun h => ⟨h.1, h.2.1⟩),
      ⟨⟨gone, head ++ a.pending.take n, ?_,
      hlive'⟩, hknows.congr hcache hfailed⟩, False.elim, ?_⟩
    · show a.confirmed ++ _ = _
      rw [hconfirmed, List.append_assoc]
    · rintro _ _ ⟨⟩
      exact hcache.limit
  · intro ob' w' gone' head' hsplit hcount hlive' hcache _ hfailed
    refine ⟨a.confirm count, ⟨hcount, rfl⟩, ⟨⟨gone', head', ?_, hlive'⟩,
      hknows.congr hcache hfailed⟩, False.elim, ?_⟩
    · show a.confirmed ++ _ = _
      rw [hconfirmed, hsplit]
    · rintro _ _ ⟨⟩
      exact hcache.limit

theorem wpSettles_quarantine {clock : Json → JsString} {es : List Event} {reason : JsString}
    {detail : Detail} (h : Agrees J allowed (.up ob w) a) :
    WpSettles allowed (.quarantine clock es reason detail) a
      (program J (.quarantine clock es reason detail)) ob w := by
  obtain ⟨⟨gone, head, hconfirmed, hlive⟩, hknows⟩ := h
  have hdurable : ∀ files : Files String, (∀ p ≠ failedPath, files p = w.files p) →
      Durable J files a.confirmed a.pending := fun files hother => by
    rw [hconfirmed]
    exact hlive.stable.durable.congr fun p hp => hother p (ne_of_mem_of_not_mem hp (by decide))
  -- the cache speaks for the journal, unless an append has failed: then the call throws at once
  rcases hknows with ⟨hcache, htext⟩ | ⟨hfail, hfault, hbound, htail⟩
  · have hlive' : ∀ w' : World String, (∀ p ≠ failedPath, w'.files p = w.files p) →
        w.Kept w' → Live J ob w' gone head a.pending := fun w' hother hkept =>
      hlive.congr (fun p hp => hother p (ne_of_mem_of_not_mem hp (by decide))) hkept
    refine wp_mono (wp_quarantine (K := fun files => Appending w.files files a.failed
      (newRecords J a clock es reason detail)) rfl hcache htext
      (fun _ hfiles => hfiles) ?_ ?_) (fun _ _ _ hr => hr) ?_
    · rintro c code n hf w' ⟨hother, k, t, htext', ht⟩ hkept
      refine ⟨a.fail ((newRecords J a clock es reason detail).take k), ⟨k, rfl⟩,
        ⟨⟨gone, head, hconfirmed, (hlive' w' hother hkept).sameJournal rfl⟩,
          .inr ⟨⟨c, code, n, hf⟩, rfl, hcache.length_cache_le, t, htext', ht⟩⟩, False.elim, ?_⟩
      rintro _ _ ⟨⟩
      rfl
    · intro ob' w' hcache' hsame hother htext' hkept
      have hids : Cached ob' (a.fail (newRecords J a clock es reason detail)).failedIds := by
        show Cached ob' ((a.failed ++ _).map FailedLine.id)
        rw [List.map_append, newRecords, map_id_recordLines]
        exact hcache'
      refine ⟨a.fail (newRecords J a clock es reason detail), ⟨rfl, rfl⟩,
        ⟨⟨gone, head, hconfirmed, (hlive' w' hother hkept).sameJournal hsame⟩,
          .inl ⟨hids, htext'⟩⟩, fun _ => ⟨ob', w', rfl, hids⟩, ?_⟩
      rintro _ _ ⟨⟩
      exact hsame.pending_eq.2.2.2
    · rintro files ⟨hother, k, t, htext', ht⟩
      exact .killed (a.fail ((newRecords J a clock es reason detail).take k)) ⟨k, rfl⟩
        ⟨hdurable files hother, t, htext', ht⟩
  · refine wp_fields ?_
    rw [hfault, if_pos rfl]
    refine ⟨a, ⟨0, by simp [Ledger.fail]⟩, ⟨⟨gone, head, hconfirmed, hlive⟩,
      .inr ⟨hfail, hfault, hbound, htail⟩⟩, False.elim, ?_⟩
    rintro _ _ ⟨⟩
    rfl

theorem wpSettles_close (h : Agrees J allowed (.up ob w) a) :
    WpSettles allowed .close a (program J .close) ob w := by
  have hresting := h.resting
  obtain ⟨⟨gone, head, hconfirmed, hlive⟩, hknows⟩ := h
  refine wp_bind (wp_close hlive (.killed a rfl hresting) ?_)
  intro ob' w' hlive' hcache _ hfiles
  refine ⟨a, rfl, ⟨⟨gone, head, hconfirmed, hlive'⟩, hknows.congr hcache (by rw [hfiles])⟩,
    False.elim, ?_⟩
  rintro _ _ ⟨⟩
  exact hcache.limit

/-- The calls that keep directory and ledger together even when writes fail. -/
def Action.LeavesJournal : Action → Prop
  | .appendMany _ | .confirm _ => False
  | _ => True

/-- **Every call keeps directory, outbox and ledger together**, under every schedule of
kills, and of failing writes where the journal is left alone. -/
theorem agrees_step {call : Action × List Fate} {s : Status} (h : Agrees J allowed s a)
    (hcall : ¬MayFail allowed ∨ Action.LeavesJournal call.1)
    (hplan : Permitted J allowed call s) :
    ∃ a', Effect J call.1 (step J call s).1 a a' ∧
      AgreesAfter allowed call.1 s.limit (step J call s) a' := by
  obtain ⟨act, plan⟩ := call
  have hsettle : ∀ ob w, start act s = some (ob, w) →
      act.limitAfter ob.failedIdCacheLimit = act.limitAfter s.limit →
      WpSettles allowed act a (program J act) ob w →
      ∃ a', Effect J act (step J (act, plan) s).1 a a' ∧
        AgreesAfter allowed act s.limit (step J (act, plan) s) a' := by
    intro ob w hstart hlimit hwp
    rw [Permitted, hstart] at hplan
    rw [step_eq_finish hstart]
    obtain ⟨a', heffect, hagrees, hrefreshes, hlimit'⟩ := hwp.settles hplan
    exact ⟨a', heffect, hagrees, hrefreshes, fun ob w hup => (hlimit' ob w hup).trans hlimit⟩
  cases act with
  | «open» limit => exact hsettle _ _ rfl rfl (wpSettles_open h.resting)
  | appendMany es =>
    cases s with
    | down files =>
      exact ⟨a, ⟨0, by simp [Ledger.append]⟩, h, False.elim, fun ob w hup => nomatch hup⟩
    | up ob w => exact hsettle ob w rfl rfl (wpSettles_appendMany (hcall.resolve_right id) h)
  | confirm count =>
    cases s with
    | down files => exact ⟨a, .inl rfl, h, False.elim, fun ob w hup => nomatch hup⟩
    | up ob w => exact hsettle ob w rfl rfl (wpSettles_confirm (hcall.resolve_right id) h)
  | quarantine clock es reason detail =>
    cases s with
    | down files =>
      exact ⟨a, ⟨0, by simp [Ledger.fail]⟩, h, False.elim, fun ob w hup => nomatch hup⟩
    | up ob w => exact hsettle ob w rfl rfl (wpSettles_quarantine h)
  | close =>
    cases s with
    | down files => exact ⟨a, rfl, h, False.elim, fun ob w hup => nomatch hup⟩
    | up ob w => exact hsettle ob w rfl rfl (wpSettles_close h)

end Outbox
