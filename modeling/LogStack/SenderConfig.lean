/-
The sender's configuration (`sender/src/config.ts`).

* `loadConfig` — the environment, checked and converted; a sender whose environment is refused
  does not start;
* `SenderConfig.Checked` — what a configuration that was loaded satisfies;
* `checked_of_loadConfig` — every configuration that was loaded does.
-/
import LogStack.ApiKeyGuard

open JsString (isDigit isHexDigit)
open Ingestion (isMissing)

namespace Sender

structure SenderEnv where
  instanceId : Option JsString
  apiKey : Option JsString
  targetUrl : Option JsString
  users : Option JsString
  eventRate : Option JsString
  sendRateLimit : Option JsString
  outboxDir : Option JsString

structure SenderConfig where
  instanceId : JsString
  apiKey : JsString
  targetUrl : JsString
  users : ℚ
  eventRate : ℚ
  sendRateLimit : ℚ
  outboxDir : JsString
  deriving DecidableEq

/-- The parts of a URL that are looked at. -/
structure Url where
  protocol : JsString
  username : JsString
  password : JsString
  search : JsString
  hash : JsString

def required (env : SenderEnv) : List (JsString × Option JsString) :=
  [(js "INSTANCE_ID", env.instanceId), (js "API_KEY", env.apiKey),
    (js "TARGET_URL", env.targetUrl)]

/-- `UUID_PATTERN`: the versions 1 to 5 of the usual variant. -/
def isInstanceUuid (s : JsString) : Bool :=
  s.length = 36 && s.zipIdx.all fun p =>
    if p.2 ∈ [8, 13, 18, 23] then p.1 = 0x2d
    else if p.2 = 14 then 0x31 ≤ p.1 && p.1 ≤ 0x35
    else if p.2 = 19 then p.1 ∈ js "89abAB"
    else isHexDigit p.1

def trimmed (value : Option JsString) : JsString := (value.getD []).trim

/-- `raw.replace(/\/+$/, '')` -/
def dropTrailingSlashes (s : JsString) : JsString :=
  (s.reverse.dropWhile fun u => u = 0x2f).reverse

/-- `parseUrl` is `new URL`, and answers `none` where that throws. -/
def parseTargetUrl (parseUrl : JsString → Option Url) (raw : JsString) :
    Except JsString JsString :=
  match parseUrl raw with
  | none => .error (js "TARGET_URL must be a valid http(s) URL")
  | some url =>
    if url.protocol ≠ js "http:" ∧ url.protocol ≠ js "https:" ∨ url.username ≠ [] ∨
        url.password ≠ [] ∨ url.search ≠ [] ∨ url.hash ≠ [] then
      .error (js "TARGET_URL must be an http(s) base URL without credentials, query, or fragment")
    else .ok (dropTrailingSlashes raw)

/-- `none` as `maximum` is `Infinity`. -/
def optionalNumber (D : Doubles) (raw : Option JsString) (fallback : ℚ) (name : JsString)
    (integer : Bool) (minimum : ℕ) (maximum : Option ℕ) : Except JsString ℚ :=
  if isMissing raw then .ok fallback
  else
    let kind := if integer then js "integer" else js "number"
    let range := match maximum with
      | some maximum => js "between " ++ decimal minimum ++ js " and " ++ decimal maximum
      | none => js ">= " ++ decimal minimum
    let refused := Except.error (name ++ js " must be a " ++ kind ++ js " " ++ range)
    match JsString.toNumber D (raw.getD []) with
    | some (.fin parsed) =>
      if integer ∧ parsed.den ≠ 1 ∨ parsed < minimum ∨
          maximum.any fun (m : ℕ) => decide ((m : ℚ) < parsed) then
        refused
      else .ok parsed
    | _ => refused

def loadConfig (D : Doubles) (parseUrl : JsString → Option Url) (env : SenderEnv) :
    Except JsString SenderConfig := do
  let missing := ((required env).filter fun v => isMissing v.2).map Prod.fst
  if missing ≠ [] then
    .error (js "missing required environment variables: " ++ List.intercalate (js ", ") missing ++
      js " — sender refuses to start (fail-closed)")
  else if !isInstanceUuid (trimmed env.instanceId) then .error (js "INSTANCE_ID must be a UUID")
  else do
    let targetUrl ← parseTargetUrl parseUrl (trimmed env.targetUrl)
    let users ← optionalNumber D env.users 30 (js "USERS") true 0 (some 30)
    let eventRate ← optionalNumber D env.eventRate (1 / 2) (js "EVENT_RATE") false 0 none
    let sendRateLimit ← optionalNumber D env.sendRateLimit 60 (js "SEND_RATE_LIMIT") true 1 none
    pure {
      instanceId := trimmed env.instanceId
      apiKey := trimmed env.apiKey
      targetUrl := targetUrl
      users := users
      eventRate := eventRate
      sendRateLimit := sendRateLimit
      outboxDir :=
        if isMissing env.outboxDir then js "sender/outbox-data" else trimmed env.outboxDir }

/-! ### What was loaded -/

structure SenderConfig.Checked (config : SenderConfig) : Prop where
  instanceId : isInstanceUuid config.instanceId = true
  apiKey : config.apiKey ≠ []
  users : ∃ n : ℕ, config.users = n ∧ n ≤ 30
  eventRate : 0 ≤ config.eventRate
  sendRateLimit : ∃ n : ℕ, config.sendRateLimit = n ∧ 1 ≤ n

variable {D : Doubles} {raw : Option JsString} {fallback value : ℚ} {name : JsString}
  {integer : Bool} {minimum : ℕ} {maximum : Option ℕ}

theorem trimmed_ne_nil (h : isMissing raw = false) : trimmed raw ≠ [] := by
  cases raw with
  | none => exact absurd h (by simp [isMissing])
  | some s => simpa [isMissing, trimmed] using h

/-- A number that was not refused is the default, or one in the range. -/
theorem optionalNumber_eq_ok
    (h : optionalNumber D raw fallback name integer minimum maximum = .ok value) :
    value = fallback ∨ (integer = true → value.den = 1) ∧ (minimum : ℚ) ≤ value ∧
      ∀ m ∈ maximum, value ≤ (m : ℚ) := by
  unfold optionalNumber at h
  by_cases hmissing : isMissing raw = true
  · rw [if_pos hmissing] at h
    exact .inl (Except.ok.inj h).symm
  rw [if_neg hmissing] at h
  dsimp only at h
  right
  split at h
  · rename_i parsed _
    split_ifs at h with hrefused
    obtain rfl := Except.ok.inj h
    simp only [not_or, not_and, not_not, not_lt] at hrefused
    refine ⟨hrefused.1, hrefused.2.1, fun m hm => ?_⟩
    have hmaximum := hrefused.2.2
    rw [Option.mem_def.mp hm, Option.any_some, decide_eq_true_iff] at hmaximum
    exact not_lt.mp hmaximum
  · cases h

theorem natCast_of_den {q : ℚ} (hden : q.den = 1) (hq : 0 ≤ q) : ∃ n : ℕ, q = n := by
  have hnum : (q.num : ℚ) = q := (Rat.den_eq_one_iff q).mp hden
  obtain ⟨n, hn⟩ := Int.eq_ofNat_of_zero_le (Rat.num_nonneg.mpr hq)
  exact ⟨n, by rw [← hnum, hn]; rfl⟩

theorem checked_of_loadConfig {parseUrl : JsString → Option Url} {env : SenderEnv}
    {config : SenderConfig} (h : loadConfig D parseUrl env = .ok config) : config.Checked := by
  unfold loadConfig at h
  dsimp only at h
  by_cases hmissing : ((required env).filter fun v => isMissing v.2).map Prod.fst ≠ []
  · rw [if_pos hmissing] at h
    cases h
  rw [if_neg hmissing] at h
  by_cases huuid : (!isInstanceUuid (trimmed env.instanceId)) = true
  · rw [if_pos huuid] at h
    cases h
  rw [if_neg huuid] at h
  obtain ⟨targetUrl, -, h⟩ := Except.bind_eq_ok.mp h
  obtain ⟨users, husers, h⟩ := Except.bind_eq_ok.mp h
  obtain ⟨eventRate, hrate, h⟩ := Except.bind_eq_ok.mp h
  obtain ⟨sendRateLimit, hlimit, h⟩ := Except.bind_eq_ok.mp h
  obtain rfl := Except.ok.inj h
  -- a key that is missing would have been named among the missing variables
  have hkey : isMissing env.apiKey = false := by
    by_contra hkey
    refine hmissing (List.ne_nil_of_mem (a := js "API_KEY") (List.mem_map.mpr
      ⟨(js "API_KEY", env.apiKey), List.mem_filter.mpr ⟨?_, by simpa using hkey⟩, rfl⟩))
    simp [required]
  refine ⟨by simpa using huuid, trimmed_ne_nil hkey, ?_, ?_, ?_⟩
  · rcases optionalNumber_eq_ok husers with rfl | ⟨hden, hmin, hmax⟩
    · exact ⟨30, rfl, le_rfl⟩
    · obtain ⟨n, rfl⟩ := natCast_of_den (hden rfl) (by simpa using hmin)
      exact ⟨n, rfl, by exact_mod_cast hmax 30 rfl⟩
  · rcases optionalNumber_eq_ok hrate with rfl | ⟨-, hmin, -⟩
    · show (0 : ℚ) ≤ 1 / 2
      norm_num
    · simpa using hmin
  · rcases optionalNumber_eq_ok hlimit with rfl | ⟨hden, hmin, -⟩
    · exact ⟨60, rfl, by decide⟩
    · obtain ⟨n, rfl⟩ := natCast_of_den (hden rfl) (le_trans (by norm_num) hmin)
      exact ⟨n, rfl, by exact_mod_cast hmin⟩

/-- A configuration that a sender has started with. -/
structure LoadedConfig extends SenderConfig where
  doubles : Doubles
  parseUrl : JsString → Option Url
  env : SenderEnv
  loaded : loadConfig doubles parseUrl env = .ok toSenderConfig

theorem LoadedConfig.checked (c : LoadedConfig) : c.toSenderConfig.Checked :=
  checked_of_loadConfig c.loaded

end Sender
