import HifiApi.Accounts.State
import HifiApi.Base.Json
import HifiApi.Lib.System

/-!
# Settings

The preferences of the server: what an update from the admin panel changes, what
a stored text of the SQLite table or of Redis changes, and the texts all settings
are stored as.  The three lists of settings are kept apart, as the source has
them.
-/

namespace HifiApi

inductive V1PlaybackEndpoint where
  | postpaywall
  | legacy
  deriving DecidableEq

namespace V1PlaybackEndpoint

def parse (value : String) : Except String V1PlaybackEndpoint :=
  let trimmed := String.ofList (AccountState.trim value.toList)
  if trimmed = "playbackinfopostpaywall" then .ok .postpaywall
  else if trimmed = "playbackinfo" then .ok .legacy
  else .error "v1_playback_endpoint must be playbackinfopostpaywall or playbackinfo"

def asStr : V1PlaybackEndpoint -> String
  | .postpaywall => "playbackinfopostpaywall"
  | .legacy => "playbackinfo"

theorem parse_asStr (e : V1PlaybackEndpoint) : parse e.asStr = .ok e := by
  cases e <;> decide

end V1PlaybackEndpoint

/-- The settings; the numbers are of type {lit}`u32`. -/
structure AppSettings where
  v1PlaybackEndpoint : V1PlaybackEndpoint
  atmosMode : String
  trackRequestsPerAccount : Nat
  catalogRequestsPerAccount : Nat
  catalogConcurrencyPerAccount : Nat
  trackConcurrencyPerAccount : Nat
  trackRequestDelayMs : Nat
  authFailureDisableHours : Nat
  requestsPerHourPerAccount : Nat
  discordWebhookUrl : String
  deriving DecidableEq

/-!
## Normal forms
-/

/-- Of the characters outside ASCII none has a lower-case form within one of the
two words. -/
def normalizeAtmosMode (s : String) : String :=
  let lower := (AccountState.trim s.toList).map Char.toLower
  if lower = "prefer".toList then "prefer"
  else if lower = "high".toList then "high"
  else "off"

def normalizeRequestsPerAccount (value : Nat) : Nat := max 1 (min value 10)

def normalizeConcurrencyPerAccount (value : Nat) : Nat := min value 1000

def normalizeRequestsPerHour (value : Nat) : Nat := min value 10000

def normalizeDisableHours (value : Nat) : Nat := min value 720

def normalizeRequestDelayMs (value : Nat) : Nat := min value 10000

/-- A number may have a plus sign. -/
def withoutPlus : List Char -> List Char
  | '+' :: rest => rest
  | all => all

/-- A text as {lit}`u32`: digits, after a plus sign at most. -/
def parseU32 (text : String) : Option Nat :=
  let digits := withoutPlus text.toList
  if digits = [] ∨ ¬ digits.all Char.isDigit then none
  else
    let n := Nat.ofDigitChars 10 digits 0
    if n < 4294967296 then some n else none

/-!
## One setting gets a value
-/

/-- A setting with the value it gets. -/
inductive Assignment where
  | v1PlaybackEndpoint (endpoint : V1PlaybackEndpoint)
  | atmosMode (mode : String)
  | discordWebhookUrl (url : String)
  | trackRequestsPerAccount (n : Nat)
  | catalogRequestsPerAccount (n : Nat)
  | catalogConcurrencyPerAccount (n : Nat)
  | trackConcurrencyPerAccount (n : Nat)
  | trackRequestDelayMs (n : Nat)
  | authFailureDisableHours (n : Nat)
  | requestsPerHourPerAccount (n : Nat)

namespace Assignment

def store (s : AppSettings) : Assignment -> AppSettings
  | v1PlaybackEndpoint e => { s with v1PlaybackEndpoint := e }
  | atmosMode mode => { s with atmosMode := mode }
  | discordWebhookUrl url => { s with discordWebhookUrl := url }
  | trackRequestsPerAccount n => { s with trackRequestsPerAccount := n }
  | catalogRequestsPerAccount n => { s with catalogRequestsPerAccount := n }
  | catalogConcurrencyPerAccount n => { s with catalogConcurrencyPerAccount := n }
  | trackConcurrencyPerAccount n => { s with trackConcurrencyPerAccount := n }
  | trackRequestDelayMs n => { s with trackRequestDelayMs := n }
  | authFailureDisableHours n => { s with authFailureDisableHours := n }
  | requestsPerHourPerAccount n => { s with requestsPerHourPerAccount := n }

/-- The name the setting is known by. -/
def name : Assignment -> String
  | v1PlaybackEndpoint _ => "v1_playback_endpoint"
  | atmosMode _ => "atmos_mode"
  | discordWebhookUrl _ => "discord_webhook_url"
  | trackRequestsPerAccount _ => "track_requests_per_account"
  | catalogRequestsPerAccount _ => "catalog_requests_per_account"
  | catalogConcurrencyPerAccount _ => "catalog_concurrency_per_account"
  | trackConcurrencyPerAccount _ => "track_concurrency_per_account"
  | trackRequestDelayMs _ => "track_request_delay_ms"
  | authFailureDisableHours _ => "auth_failure_disable_hours"
  | requestsPerHourPerAccount _ => "requests_per_hour_per_account"

/-- The setting has this value already. -/
def InForce (s : AppSettings) (a : Assignment) : Prop := a.store s = s

instance (s : AppSettings) (a : Assignment) : Decidable (a.InForce s) :=
  inferInstanceAs (Decidable (_ = _))

variable {a b : Assignment} {s : AppSettings}

theorem inForce_store (a : Assignment) (s : AppSettings) : a.InForce (a.store s) := by
  cases a <;> rfl

theorem store_comm (h : a.name ≠ b.name) :
    a.store (b.store s) = b.store (a.store s) := by
  cases a <;> cases b <;> first | rfl | exact absurd rfl h

/-- Another setting keeps its value. -/
theorem InForce.store (ha : a.InForce s) (h : a.name ≠ b.name) :
    a.InForce (b.store s) := by
  unfold InForce at ha ⊢
  rw [store_comm h, ha]

/-- Several settings get their values, one after the other. -/
def storeAll (s : AppSettings) (assigned : List Assignment) : AppSettings :=
  assigned.foldl Assignment.store s

theorem storeAll_cons (s : AppSettings) (a : Assignment) (rest : List Assignment) :
    storeAll s (a :: rest) = storeAll (a.store s) rest := rfl

theorem InForce.storeAll {rest : List Assignment} (ha : a.InForce s)
    (hother : a.name ∉ rest.map name) : a.InForce (storeAll s rest) := by
  induction rest generalizing s with
  | nil =>
      exact ha
  | cons b rest ih =>
      rw [List.map_cons, List.mem_cons, not_or] at hother
      rw [storeAll_cons]
      exact ih (ha.store hother.left) hother.right

/-- Each of them has its value in the end, if no setting is among them twice. -/
theorem inForce_storeAll {assigned : List Assignment}
    (hdistinct : (assigned.map name).Nodup) (ha : a ∈ assigned) :
    a.InForce (Assignment.storeAll s assigned) := by
  induction assigned generalizing s with
  | nil =>
      cases ha
  | cons b rest ih =>
      rw [List.map_cons, List.nodup_cons] at hdistinct
      rw [storeAll_cons]
      rcases List.mem_cons.mp ha with heq | hrest
      · rw [heq]
        exact (inForce_store b s).storeAll hdistinct.left
      · exact ih hdistinct.right hrest

/-- Nothing changes exactly when each of them had its value before. -/
theorem storeAll_eq_self_iff {assigned : List Assignment}
    (hdistinct : (assigned.map name).Nodup) :
    Assignment.storeAll s assigned = s <->
      forall a, a ∈ assigned -> a.InForce s := by
  constructor
  · intro h a ha
    have hforce : a.InForce (Assignment.storeAll s assigned) :=
      inForce_storeAll hdistinct ha
    rw [h] at hforce
    exact hforce
  · intro h
    clear hdistinct
    induction assigned with
    | nil =>
        rfl
    | cons b rest ih =>
        have hb : b.store s = s := h b List.mem_cons_self
        rw [storeAll_cons, hb]
        exact ih fun a ha => h a (List.mem_cons_of_mem b ha)

end Assignment

/-!
## Updates
-/

/-- {lit}`first_opt_u32` -/
def firstOptU32 (obj : Value) (key : String) : Except String (Option Nat) :=
  match obj.get key with
  | none => .ok none
  | some .null => .ok none
  | some (.number n) =>
      if 0 ≤ n ∧ n < 4294967296 then .ok (some n.toNat)
      else .error s!"{key} must be an integer"
  | some (.string value) =>
      match parseU32 value with
      | some n => .ok (some n)
      | none => .error s!"{key} must be an integer"
  | some _ => .error s!"{key} must be an integer"

/-- {lit}`first_opt_string` -/
def firstOptString (obj : Value) : List String -> Except String (Option String)
  | [] => .ok none
  | key :: keys =>
      match obj.get key with
      | none => firstOptString obj keys
      | some .null => .ok none
      | some v =>
          match v.asStr with
          | some s => .ok (some s)
          | none => .error s!"{key} must be a string"

/-- One of the fields {lit}`apply` looks for: nothing, a value for its setting,
or the reason why the update is refused. -/
structure FieldUpdate where
  name : String
  read : Value -> Except String (Option Assignment)
  named : forall updates a, read updates = .ok (some a) -> a.name = name

/-- A field that holds a number. -/
def numberUpdate (key : String) (normalize : Nat -> Nat) (assign : Nat -> Assignment)
    (hname : forall n, (assign n).name = key) : FieldUpdate where
  name := key
  read updates := (firstOptU32 updates key).map (Option.map fun v => assign (normalize v))
  named := by
    intro updates a h
    cases hread : firstOptU32 updates key with
    | error text =>
        rw [hread] at h
        cases h
    | ok value =>
        rw [hread] at h
        cases value with
        | none =>
            cases h
        | some v =>
            cases h
            exact hname (normalize v)

def updateV1PlaybackEndpoint : FieldUpdate where
  name := "v1_playback_endpoint"
  read updates :=
    match firstOptString updates ["v1_playback_endpoint"] with
    | .error text => .error text
    | .ok none => .ok none
    | .ok (some value) =>
        (V1PlaybackEndpoint.parse value).map fun endpoint =>
          some (.v1PlaybackEndpoint endpoint)
  named := by
    intro updates a h
    split at h
    · cases h
    · cases h
    · rename_i value _
      cases hparse : V1PlaybackEndpoint.parse value with
      | error text =>
          rw [hparse] at h
          cases h
      | ok endpoint =>
          rw [hparse] at h
          cases h
          rfl

def updateAtmosMode : FieldUpdate where
  name := "atmos_mode"
  read updates :=
    (firstOptString updates ["atmos_mode"]).map
      (Option.map fun v => .atmosMode (normalizeAtmosMode v))
  named := by
    intro updates a h
    cases hread : firstOptString updates ["atmos_mode"] with
    | error text =>
        rw [hread] at h
        cases h
    | ok value =>
        rw [hread] at h
        cases value with
        | none =>
            cases h
        | some v =>
            cases h
            rfl

def updateTrackRequests : FieldUpdate :=
  numberUpdate "track_requests_per_account" normalizeRequestsPerAccount
    .trackRequestsPerAccount fun _ => rfl

def updateCatalogRequests : FieldUpdate :=
  numberUpdate "catalog_requests_per_account" normalizeRequestsPerAccount
    .catalogRequestsPerAccount fun _ => rfl

def updateCatalogConcurrency : FieldUpdate :=
  numberUpdate "catalog_concurrency_per_account" normalizeConcurrencyPerAccount
    .catalogConcurrencyPerAccount fun _ => rfl

def updateTrackConcurrency : FieldUpdate :=
  numberUpdate "track_concurrency_per_account" normalizeConcurrencyPerAccount
    .trackConcurrencyPerAccount fun _ => rfl

def updateRequestsPerHour : FieldUpdate :=
  numberUpdate "requests_per_hour_per_account" normalizeRequestsPerHour
    .requestsPerHourPerAccount fun _ => rfl

def updateDisableHours : FieldUpdate :=
  numberUpdate "auth_failure_disable_hours" normalizeDisableHours
    .authFailureDisableHours fun _ => rfl

def updateRequestDelay : FieldUpdate :=
  numberUpdate "track_request_delay_ms" normalizeRequestDelayMs
    .trackRequestDelayMs fun _ => rfl

/-- The fields in the order in which {lit}`apply` takes them. -/
def fieldUpdates : List FieldUpdate :=
  [updateV1PlaybackEndpoint, updateAtmosMode, updateTrackRequests,
    updateCatalogRequests, updateCatalogConcurrency, updateTrackConcurrency,
    updateRequestsPerHour, updateDisableHours, updateRequestDelay]

/-- One field after the other; the first one that is refused ends the update. -/
def applyFields (updates : Value) :
    List FieldUpdate -> AppSettings -> AppSettings × Except String Unit
  | [], s => (s, .ok ())
  | field :: rest, s =>
      match field.read updates with
      | .error text => (s, .error text)
      | .ok none => applyFields updates rest s
      | .ok (some a) => applyFields updates rest (a.store s)

namespace AppSettings

def apply (updates : Value) (s : AppSettings) : AppSettings × Except String Unit :=
  applyFields updates fieldUpdates s

/-!
## Stored texts
-/

/-- What a stored text makes of its setting, if anything. -/
def kvAssignment (key value : String) : Option Assignment :=
  match key with
  | "v1_playback_endpoint" =>
      (V1PlaybackEndpoint.parse value).toOption.map .v1PlaybackEndpoint
  | "atmos_mode" => some (.atmosMode (normalizeAtmosMode value))
  | "discord_webhook_url" => some (.discordWebhookUrl value)
  | "track_requests_per_account" =>
      (parseU32 value).map fun n =>
        .trackRequestsPerAccount (normalizeRequestsPerAccount n)
  | "catalog_requests_per_account" =>
      (parseU32 value).map fun n =>
        .catalogRequestsPerAccount (normalizeRequestsPerAccount n)
  | "catalog_concurrency_per_account" =>
      (parseU32 value).map fun n =>
        .catalogConcurrencyPerAccount (normalizeConcurrencyPerAccount n)
  | "track_concurrency_per_account" =>
      (parseU32 value).map fun n =>
        .trackConcurrencyPerAccount (normalizeConcurrencyPerAccount n)
  | "requests_per_hour_per_account" =>
      (parseU32 value).map fun n =>
        .requestsPerHourPerAccount (normalizeRequestsPerHour n)
  | "auth_failure_disable_hours" =>
      (parseU32 value).map fun n =>
        .authFailureDisableHours (normalizeDisableHours n)
  | "track_request_delay_ms" =>
      (parseU32 value).map fun n => .trackRequestDelayMs (normalizeRequestDelayMs n)
  | _ => none

/-- {lit}`apply_kv` -/
def applyKv (key value : String) (s : AppSettings) : AppSettings :=
  match kvAssignment key value with
  | some a => a.store s
  | none => s

/-- {lit}`REDIS_SETTING_NAMES` -/
def redisSettingNames : List String :=
  ["v1_playback_endpoint", "atmos_mode", "discord_webhook_url",
    "track_requests_per_account", "catalog_requests_per_account",
    "catalog_concurrency_per_account", "track_concurrency_per_account",
    "track_request_delay_ms", "auth_failure_disable_hours",
    "requests_per_hour_per_account"]

def settingsEntries (s : AppSettings) : List (String × String) :=
  [("v1_playback_endpoint", s.v1PlaybackEndpoint.asStr),
    ("atmos_mode", s.atmosMode),
    ("discord_webhook_url", s.discordWebhookUrl),
    ("track_requests_per_account", Nat.repr s.trackRequestsPerAccount),
    ("catalog_requests_per_account", Nat.repr s.catalogRequestsPerAccount),
    ("catalog_concurrency_per_account", Nat.repr s.catalogConcurrencyPerAccount),
    ("track_concurrency_per_account", Nat.repr s.trackConcurrencyPerAccount),
    ("track_request_delay_ms", Nat.repr s.trackRequestDelayMs),
    ("auth_failure_disable_hours", Nat.repr s.authFailureDisableHours),
    ("requests_per_hour_per_account", Nat.repr s.requestsPerHourPerAccount)]

def snapshot (s : AppSettings) : Value :=
  .object
    [("v1_playback_endpoint", .string s.v1PlaybackEndpoint.asStr),
      ("auto_heal", .bool true),
      ("atmos_mode", .string s.atmosMode),
      ("track_requests_per_account", .number s.trackRequestsPerAccount),
      ("catalog_requests_per_account", .number s.catalogRequestsPerAccount),
      ("catalog_concurrency_per_account", .number s.catalogConcurrencyPerAccount),
      ("track_concurrency_per_account", .number s.trackConcurrencyPerAccount),
      ("track_request_delay_ms", .number s.trackRequestDelayMs),
      ("auth_failure_disable_hours", .number s.authFailureDisableHours),
      ("requests_per_hour_per_account", .number s.requestsPerHourPerAccount)]

/-!
## A run of the server
-/

/-- Atmos is preferred unless it has been turned off explicitly. -/
def defaultAtmosMode : Option String -> String
  | some v =>
      if AccountState.trim v.toList = [] then "prefer" else normalizeAtmosMode v
  | none => "prefer"

/-- The settings at start, from the two variables of the environment. -/
def fromEnv (atmosMode discordWebhookUrl : Option String) : AppSettings where
  v1PlaybackEndpoint := .postpaywall
  atmosMode := defaultAtmosMode atmosMode
  trackRequestsPerAccount := 1
  catalogRequestsPerAccount := 1
  catalogConcurrencyPerAccount := 0
  trackConcurrencyPerAccount := 1
  trackRequestDelayMs := 0
  authFailureDisableHours := 24
  requestsPerHourPerAccount := 0
  discordWebhookUrl := discordWebhookUrl.getD ""

end AppSettings

inductive SettingsAction where
  | apply (updates : Value)
  | applyKv (key value : String)
  /-- SQLite may refuse the new address; then it is not put in force. -/
  | setDiscordWebhookUrl (url : String) (saved : Bool)

def settingsSystem : System AppSettings SettingsAction where
  step s
    | .apply updates => some (s.apply updates).1
    | .applyKv key value => some (s.applyKv key value)
    | .setDiscordWebhookUrl url saved =>
        some (if saved then (Assignment.discordWebhookUrl url).store s else s)

/-- Settings that a run of the server leads to. -/
def AppSettings.Reachable (s : AppSettings) : Prop :=
  exists atmosMode discordWebhookUrl actions,
    settingsSystem.run (.fromEnv atmosMode discordWebhookUrl) actions = some s

end HifiApi
