/-
Who may write which instance (`common/env.validation.ts`, `auth/api-key.guard.ts`).

The guard reads the raw body of a request, the service the copies that the pipe makes of its
events.

* `validateEnv` — the server does not start without its keys and its instance;
* `canActivate` — the guard's decision about a header and a body;
* `post` — a request with the guards before it;
* `own_instance` — whatever is posted, new rows belong to the instance of the key, and a
  request with a wrong key or another instance's event adds none.
-/
import LogStack.JsText
import LogStack.Receiver

open KeyedInsert
open Json (string? string?_eq_some array? array?_eq_some)
open JsString (isDigit isHexDigit)

namespace Ingestion

/-! ### The environment -/

structure Env where
  ingestApiKey : Option JsString
  ingestInstanceId : Option JsString
  adminApiKey : Option JsString

def requiredEnvVars (env : Env) : List (JsString × Option JsString) :=
  [(js "INGEST_API_KEY", env.ingestApiKey), (js "INGEST_INSTANCE_ID", env.ingestInstanceId),
    (js "ADMIN_API_KEY", env.adminApiKey)]

/-- A variable that is not set, or set to white space. -/
def isMissing (value : Option JsString) : Bool := value.all fun s => s.trim = []

def validateEnv (env : Env) : Except JsString Env :=
  let missing := ((requiredEnvVars env).filter fun v => isMissing v.2).map Prod.fst
  if missing ≠ [] then
    .error (js "missing required environment variables: " ++ List.intercalate (js ", ") missing ++
      js " — set them in the environment or .env (see .env.example)")
  else if env.ingestApiKey = env.adminApiKey then
    .error (js "INGEST_API_KEY and ADMIN_API_KEY must be different keys — " ++
      js "a shared key would collapse the ingest/admin role separation")
  else .ok env

/-- The environment of a server that has started. -/
structure ServerEnv extends Env where
  valid : validateEnv toEnv = .ok toEnv

/-- The value of an HTTP header: Node decodes its bytes as Latin-1. -/
structure HeaderValue where
  text : JsString
  latin1 : ∀ u ∈ text, u < 0x100

/-! ### The guard -/

/-- `Buffer.from(s)`, as the characters that UTF-8 carries. -/
def utf8Text (s : JsString) : List JsString := s.characters.map carried

def safeEquals (a b : JsString) : Bool := utf8Text a = utf8Text b

def bearerPrefix : JsString := js "Bearer "

section Guard

variable (C : LetterCase)

/-- The events for which the guard refuses a batch. -/
def isOtherInstance (mappedInstanceId : JsString) (event : Json) : Bool :=
  match event with
  | .obj _ | .arr _ => (string? (event.get? (js "instance_id"))).any fun instanceId =>
      C.lower instanceId ≠ mappedInstanceId
  | _ => false

/-- The check of the key, then that of the instance; an empty value counts as none. -/
def canActivate (env : Env) (authorization : Option HeaderValue) (body : Json) :
    Option Refusal :=
  match env.ingestApiKey.filter (· ≠ []), authorization with
  | some expectedKey, some header =>
    if !bearerPrefix.isPrefixOf header.text then some .unauthorized
    else if !safeEquals (header.text.drop bearerPrefix.length) expectedKey then
      some .unauthorized
    else
      match (env.ingestInstanceId.map C.lower).filter (· ≠ []),
        array? (body.get? (js "events")) with
      | some mappedInstanceId, some events =>
        if events.any (isOtherInstance C mappedInstanceId) then some .instanceMismatch else none
      | _, _ => none
  | _, _ => some .unauthorized

variable (J : JsonText) (L : Libraries) (pg : Postgres)

/-- `POST /api/v1/event-batches`: `ApiKeyGuard`, then `RateLimitGuard`, which may say that the
key has used up its minute. -/
def post (env : Env) (limited reachable : Bool) (authorization : Option HeaderValue)
    (content : Content) (db : Tables) : HttpResponse × Tables :=
  let refusal := (parseBody J content).bind fun request =>
    (canActivate C env authorization request).or (if limited then some .rateLimited else none)
  receive J L pg reachable refusal content db

end Guard

/-! ### Keys -/

/-- The header that the key's owner sends. -/
def Authorized (env : Env) (authorization : Option HeaderValue) : Prop :=
  ∃ key, env.ingestApiKey = some key ∧
    authorization.map HeaderValue.text = some (bearerPrefix ++ key)

theorem carried_eq_latin1 {c : JsString} {u : UInt16} (hu : u < 0x100) (h : carried c = [u]) :
    c = [u] := by
  unfold carried at h
  split at h
  · split_ifs at h with hsurrogate
    · obtain rfl := (List.cons.inj h).1
      exact absurd hu (by decide)
    · exact h
  · exact h

/-- Latin-1 text is its own characters. -/
theorem utf8Text_latin1 {s : JsString} (h : ∀ u ∈ s, u < 0x100) :
    utf8Text s = s.map fun u => [u] := by
  have hnot : ∀ u : UInt16, u < 0x100 → JsString.isHighSurrogate u = false ∧
      JsString.isSurrogate u = false := by
    intro u hu
    simp only [JsString.isSurrogate, JsString.isHighSurrogate, JsString.isLowSurrogate]
    grind
  have hcharacters := JsString.characters_eq_map fun u hu => (hnot u (h u hu)).1
  rw [utf8Text, hcharacters, List.map_map]
  refine List.map_congr_left fun u hu => ?_
  show carried [u] = [u]
  rw [carried, (hnot u (h u hu)).2, if_neg Bool.false_ne_true]

theorem flatten_characters (s : JsString) : s.characters.flatten = s := by
  fun_induction JsString.characters s with
  | case1 => rfl
  | case2 u => rfl
  | case3 u v rest h ih => simp [ih]
  | case4 u v rest h ih => simp [ih]

/-- A header is told from every other key. -/
theorem eq_of_safeEquals {s key : JsString} (hs : ∀ u ∈ s, u < 0x100)
    (h : safeEquals s key = true) : s = key := by
  rw [safeEquals, decide_eq_true_iff, utf8Text_latin1 hs] at h
  have hcharacters : key.characters = s.map fun u => [u] := by
    refine (List.map_injective_iff.mpr ?_ : Function.Injective (List.map id)) ?_
    · exact Function.injective_id
    · rw [List.map_id, List.map_id]
      refine List.ext_getElem? fun i => ?_
      have hi := congrArg (·[i]?) h
      simp only [utf8Text, List.getElem?_map] at hi ⊢
      cases hu : s[i]? with
      | none =>
        rw [hu] at hi
        cases hc : key.characters[i]? with
        | none => rfl
        | some c => rw [hc] at hi; cases hi
      | some u =>
        rw [hu] at hi
        cases hc : key.characters[i]? with
        | none => rw [hc] at hi; cases hi
        | some c =>
          rw [hc, Option.map_some, Option.map_some, Option.some.injEq] at hi
          rw [carried_eq_latin1 (hs u (List.mem_of_getElem? hu)) hi.symm, Option.map_some]
  rw [← flatten_characters key, hcharacters, ← List.flatMap_def, List.flatMap_singleton']

/-! ### What a request adds -/

variable {J : JsonText} {L : Libraries} {pg : Postgres} {C : LetterCase} {env : Env}
  {authorization : Option HeaderValue} {limited reachable : Bool} {content : Content}
  {request : Json} {db : Database}

/-- The tables after a request that has got past the guards: unchanged, or with the new ones
among the accepted events of the body. -/
theorem handle_cases (J : JsonText) (L : Libraries) (pg : Postgres) (reachable : Bool)
    (request : Json) (db : Database) :
    (handle J L pg reachable request db.toTables).2 = db.toTables ∨
      ∃ dto events accepted, L.plainToInstance request = some dto ∧
        dto.get? (js "events") = some (.arr events) ∧
        (∀ e ∈ accepted, ∃ raw ∈ events, validateEvent L raw = some (.accepted e)) ∧
        (handle J L pg reachable request db.toTables).2
          = db.toTables.store pg (newEvents db.toTables accepted) := by
  rw [handle]
  cases hcopy : L.plainToInstance request with
  | none => exact .inl rfl
  | some dto =>
    simp only
    split_ifs with hsync
    · exact .inl rfl
    split
    · rename_i batchId events hbatchId hevents
      cases hvalid : validateEvents L 0 events with
      | none =>
        refine .inl ?_
        rw [ingest, hvalid]
      | some result =>
        obtain ⟨accepted, rejected⟩ := result
        by_cases hcommits : Commits pg reachable db.toTables accepted
        · refine .inr ⟨dto, events, accepted, rfl, array?_eq_some.mp hevents, fun e he => ?_, ?_⟩
          · rw [accepted_eq hvalid] at he
            obtain ⟨raw, hraw, he⟩ := List.mem_filterMap.mp he
            exact ⟨raw, hraw, acceptedEvent?_eq_some.mp he⟩
          · rw [ingest_of_commits hvalid hcommits]
        · refine .inl ?_
          rw [ingest_of_not_commits hvalid hcommits]
    · exact .inl rfl

theorem Copied.of_arr {j : Json} {copies : List Json} (h : Copied j (.arr copies)) :
    ∃ items, j = .arr items ∧ List.Forall₂ Copied items copies := by
  cases h with
  | arr h => exact ⟨_, rfl, h⟩

theorem exists_of_mem_copies {items copies : List Json} (h : List.Forall₂ Copied items copies)
    {copy : Json} (hcopy : copy ∈ copies) : ∃ item ∈ items, Copied item copy := by
  induction h with
  | nil => exact absurd hcopy List.not_mem_nil
  | cons hhead _ ih =>
    rcases List.mem_cons.mp hcopy with rfl | hcopy
    · exact ⟨_, List.mem_cons_self, hhead⟩
    · obtain ⟨item, hitem, hcopied⟩ := ih hcopy
      exact ⟨item, List.mem_cons_of_mem _ hitem, hcopied⟩

/-- The instance of an accepted event is a text that its raw event carries. -/
theorem instanceId_of_accepted {raw : Json} {e : NormalizedEvent}
    (h : validateEvent L raw = some (.accepted e)) :
    ∃ s, raw.get? (js "instance_id") = some (.str s) ∧ isUuidText s = true ∧
      e.instanceId = s.toLowerCase := by
  obtain ⟨-, envelope, hcopy, haccepts⟩ := validateEvent_eq_accepted.mp h
  have hnormal : ∃ base, eventEnvelopeDto.holds L.toStringChecks envelope ∧
      normalize envelope = some base ∧ base.instanceId = e.instanceId := by
    cases haccepts with
    | plain hholds hnormal hother => exact ⟨e, hholds, hnormal, rfl⟩
    | purchase hholds hnormal hshop hcopied hpayload hparts => exact ⟨_, hholds, hnormal, rfl⟩
  obtain ⟨base, hholds, hbase, hinstance⟩ := hnormal
  obtain ⟨s, hs, hlower⟩ := Option.map_eq_some_iff.mp (normalize_eq_some.mp hbase).2.1
  have huuid : L.isUUID s = true := by
    have hcheck := hholds _ List.mem_cons_self .isUUID List.mem_cons_self
    rwa [Constraint.holds, hs] at hcheck
  obtain ⟨value, hvalue, hcopied⟩ := (L.copied _ _ hcopy).get? (string?_eq_some.mp hs)
  exact ⟨s, hcopied.eq_str ▸ hvalue, L.isUuidText_of_isUUID s huuid, by rw [← hinstance, ← hlower]⟩

theorem ascii_of_isUuidText {s : JsString} (h : isUuidText s = true) : ∀ u ∈ s, u < 0x80 := by
  intro u hu
  obtain ⟨i, hi⟩ := List.mem_iff_getElem?.mp hu
  simp only [isUuidText, Bool.and_eq_true, List.all_eq_true] at h
  have hchar := h.2 (u, i) (List.mem_zipIdx_iff_getElem?.mpr (by simpa using hi))
  split_ifs at hchar with hhyphen
  · obtain rfl : u = 0x2d := of_decide_eq_true hchar
    decide
  · simp only [isHexDigit, isDigit] at hchar
    grind

/-! ### The guard and the rows -/

/-- An event of the body names another instance. -/
def Impersonates (C : LetterCase) (env : Env) (request : Json) : Prop :=
  ∃ events fields instanceId, request.get? (js "events") = some (.arr events) ∧
    .obj fields ∈ events ∧ (Json.obj fields).get? (js "instance_id") = some (.str instanceId) ∧
    env.ingestInstanceId.map C.lower ≠ some (C.lower instanceId)

/-- A server that has started has an instance. -/
theorem exists_instanceId (server : ServerEnv) (C : LetterCase) : ∃ instanceId,
    server.ingestInstanceId = some instanceId ∧
      (server.ingestInstanceId.map C.lower).filter (· ≠ []) = some (C.lower instanceId) := by
  have hvalid := server.valid
  unfold validateEnv at hvalid
  simp only at hvalid
  split_ifs at hvalid with hmissing
  rw [not_not, List.map_eq_nil_iff, List.filter_eq_nil_iff] at hmissing
  have hset := hmissing (js "INGEST_INSTANCE_ID", server.ingestInstanceId)
    (by simp [requiredEnvVars])
  cases hid : server.ingestInstanceId with
  | none => rw [hid] at hset; exact absurd rfl hset
  | some instanceId =>
    refine ⟨instanceId, rfl, ?_⟩
    have hne : instanceId ≠ [] := by
      rintro rfl
      rw [hid] at hset
      exact hset (by decide)
    rw [Option.map_some, Option.filter_some, if_pos]
    exact decide_eq_true (C.lower_ne_nil instanceId hne)

/-- What the guard lets through has the key, and no event of another instance. -/
theorem canActivate_eq_none {server : ServerEnv}
    (h : canActivate C server.toEnv authorization request = none) :
    Authorized server.toEnv authorization ∧
      ∀ events, request.get? (js "events") = some (.arr events) → ∀ event ∈ events,
        ∀ instanceId, event.get? (js "instance_id") = some (.str instanceId) →
          server.ingestInstanceId.map C.lower = some (C.lower instanceId) := by
  obtain ⟨mappedId, hmapped, hfilter⟩ := exists_instanceId server C
  unfold canActivate at h
  rw [hfilter] at h
  cases hkey : server.ingestApiKey.filter (· ≠ []) with
  | none => rw [hkey] at h; cases h
  | some key =>
    cases authorization with
    | none => rw [hkey] at h; cases h
    | some header =>
      rw [hkey] at h
      simp only at h
      split_ifs at h with hstart hequals
      · constructor
        · have hstart' : bearerPrefix <+: header.text := by simpa using hstart
          obtain ⟨token, htoken⟩ := hstart'
          have hdrop : header.text.drop bearerPrefix.length = token := by
            rw [← htoken, List.drop_left]
          have hlatin : ∀ u ∈ token, u < 0x100 := fun u hu =>
            header.latin1 u (htoken ▸ List.mem_append_right _ hu)
          -- the comparison is of bytes; a header is Latin-1, so it is one of characters too
          have heq : token = key := by
            rw [hdrop] at hequals
            exact eq_of_safeEquals hlatin (by simpa using hequals)
          exact ⟨key, (Option.filter_eq_some_iff.mp hkey).1, by rw [Option.map_some, ← htoken, heq]⟩
        · intro events hevents event hevent instanceId hid
          rw [array?_eq_some.mpr hevents] at h
          simp only at h
          split_ifs at h with hany
          rw [Bool.not_eq_true, List.any_eq_false] at hany
          have hsame := hany event hevent
          have hstring : string? (event.get? (js "instance_id")) = some instanceId :=
            string?_eq_some.mpr hid
          unfold isOtherInstance at hsame
          split at hsame
          · rw [hstring, Option.any_some, decide_eq_true_iff, not_not] at hsame
            rw [hmapped, Option.map_some, hsame]
          · rw [hstring, Option.any_some, decide_eq_true_iff, not_not] at hsame
            rw [hmapped, Option.map_some, hsame]
          · -- an event that is no object has no `instance_id`
            rename_i hobj harr
            cases event with
            | obj fields => exact absurd rfl (hobj fields)
            | _ => cases hid

/-- The rows that a request past the guard adds carry the instance that the guard has checked. -/
theorem handle_own (J : JsonText) (L : Libraries) (pg : Postgres) (reachable : Bool) (db : Database)
    {server : ServerEnv} (hown : ∀ events,
      request.get? (js "events") = some (.arr events) → ∀ event ∈ events, ∀ instanceId,
        event.get? (js "instance_id") = some (.str instanceId) →
          server.ingestInstanceId.map C.lower = some (C.lower instanceId)) :
    ∃ added, (handle J L pg reachable request db.toTables).2.gameEvents = db.gameEvents ++ added ∧
      ∀ row ∈ added, server.ingestInstanceId.map C.lower = some row.instanceId := by
  obtain hsame | ⟨dto, events, accepted, hcopy, hevents, haccepted, hstore⟩ :=
    handle_cases J L pg reachable request db
  · exact ⟨[], by rw [hsame, List.append_nil], by simp⟩
  refine ⟨(newEvents db.toTables accepted).filterMap (gameEventRow pg), by rw [hstore]; rfl, ?_⟩
  intro row hrow
  obtain ⟨e, he, hbound⟩ := List.mem_filterMap.mp hrow
  obtain ⟨raw, hraw, hvalid⟩ := haccepted e (firstNew_sublist.mem he)
  obtain ⟨s, hs, huuid, hlower⟩ := instanceId_of_accepted hvalid
  -- the pipe has copied the event from one that the guard has seen
  obtain ⟨value, hvalue, hcopied⟩ := (L.copied _ _ hcopy).get? hevents
  obtain ⟨items, rfl, hitems⟩ := hcopied.of_arr
  obtain ⟨event, hevent, hraw'⟩ := exists_of_mem_copies hitems hraw
  obtain ⟨text, htext, hsame⟩ := hraw'.get? hs
  rw [hsame.eq_str] at htext
  rw [hown items hvalue event hevent s htext, C.lower_ascii s (ascii_of_isUuidText huuid),
    isUuidText_of_uuid? (columns_of_gameEventRow hbound).1, hlower, JsString.toLowerCase_idem]

/-- Of an empty object nothing is stored. -/
theorem handle_empty (J : JsonText) (L : Libraries) (pg : Postgres) (reachable : Bool)
    (db : Database) : (handle J L pg reachable (.obj []) db.toTables).2 = db.toTables := by
  obtain hsame | ⟨dto, events, accepted, hcopy, hevents, -⟩ :=
    handle_cases J L pg reachable (.obj []) db
  · exact hsame
  obtain ⟨value, hvalue, -⟩ := (L.copied _ _ hcopy).get? hevents
  cases hvalue

/-- A request that the guards refuse, that does not get to them or that has no value changes
nothing; the others are handled. -/
theorem post_cases (J : JsonText) (L : Libraries) (pg : Postgres) (C : LetterCase) (env : Env)
    (limited reachable : Bool) (authorization : Option HeaderValue) (content : Content)
    (db : Database) :
    (post C J L pg env limited reachable authorization content db.toTables).2 = db.toTables ∨
      ∃ request, J.parse content.bytes = some request ∧
        canActivate C env authorization request = none ∧
        (post C J L pg env limited reachable authorization content db.toTables).2
          = (handle J L pg reachable request db.toTables).2 := by
  rw [post, receive]
  by_cases hsize : content.TooLarge
  · rw [if_pos hsize]
    exact .inl rfl
  rw [if_neg hsize]
  cases hparse : parseBody J content with
  | none => exact .inl rfl
  | some request =>
    simp only [Option.bind_some]
    cases hguard : canActivate C env authorization request with
    | some refusal => exact .inl rfl
    | none =>
      cases limited with
      | true => exact .inl rfl
      | false =>
        obtain rfl | hvalue := parseBody_cases hparse
        · exact .inl (handle_empty J L pg reachable db)
        · exact .inr ⟨request, hvalue, hguard, rfl⟩

/-- **A key writes its own instance only.** For every header, every body and every database,
the rows that a request adds to `game_events` have the lower-cased instance of the server's
environment; a wrong key, or one event that names another instance, and it adds none. -/
theorem own_instance (J : JsonText) (L : Libraries) (pg : Postgres) (C : LetterCase)
    (server : ServerEnv) (limited reachable : Bool) (authorization : Option HeaderValue)
    (content : Content) (db : Database) :
    let after := (post C J L pg server.toEnv limited reachable authorization content db.toTables).2
    (∃ added, after.gameEvents = db.gameEvents ++ added ∧ ∀ row ∈ added,
      server.ingestInstanceId.map C.lower = some row.instanceId) ∧
    (¬Authorized server.toEnv authorization → after = db.toTables) ∧
    ∀ request, J.parse content.bytes = some request → Impersonates C server.toEnv request →
      after = db.toTables := by
  intro after
  obtain hafter | ⟨request, hrequest, hguard, hafter⟩ :=
    post_cases J L pg C server.toEnv limited reachable authorization content db
  · exact ⟨⟨[], by rw [List.append_nil]; exact congrArg Tables.gameEvents hafter, by simp⟩,
      fun _ => hafter, fun _ _ _ => hafter⟩
  obtain ⟨hauthorized, hown⟩ := canActivate_eq_none hguard
  refine ⟨?_, fun h => absurd hauthorized h, ?_⟩
  · obtain ⟨added, hadded, hrows⟩ := handle_own J L pg reachable db hown
    exact ⟨added, (congrArg Tables.gameEvents hafter).trans hadded, hrows⟩
  · rintro request' hrequest' ⟨events, fields, instanceId, hevents, hmem, hid, hother⟩
    obtain rfl := Option.some.inj (hrequest.symm.trans hrequest')
    exact absurd (hown events hevents _ hmem instanceId hid) hother

end Ingestion
