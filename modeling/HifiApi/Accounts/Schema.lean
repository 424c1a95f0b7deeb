import HifiApi.Accounts.Backup
import HifiApi.Lib.Starts

/-!
# The schema of the database

What {lit}`init_pool` sends when a server starts: the tables as it creates them, and the
columns that it adds to tables of older versions.  Databases of older versions are read
as if they had always had the columns of this one, however many servers start on them at
once, and wherever a start breaks off.
-/

namespace HifiApi

inductive SqlCell where
  | null
  | integer (n : Int)
  | text (s : String)
  deriving DecidableEq

namespace Schema

/-- SQLite takes names that differ in the case of ASCII letters for the same. -/
def asciiLower (name : String) : String :=
  String.ofList (name.toList.map Char.toLower)

/-- A column without a default clause. -/
def plain (name : String) : SqlColumn String SqlCell := ⟨name, .null⟩

def integer (name : String) (n : Int) : SqlColumn String SqlCell := ⟨name, .integer n⟩

def text (name s : String) : SqlColumn String SqlCell := ⟨name, .text s⟩

def accounts : Migration String String SqlCell where
  table := "accounts"
  columns :=
    [plain "id", text "label" "", plain "client_id", plain "client_secret",
      plain "refresh_token", plain "user_id", integer "is_active" 1,
      integer "auto_disabled" 0, integer "disabled_at" 0, integer "is_catalog" 0,
      text "notes" "", plain "created_at", plain "updated_at"]
  added :=
    [integer "auto_disabled" 0, integer "disabled_at" 0, integer "is_catalog" 0,
      integer "heal_failures" 0, integer "heal_next_retry" 0,
      plain "rejected_access_token", plain "last_refresh_error",
      integer "preview_streak" 0, integer "rate_limited_until" 0,
      integer "auth_failing_since" 0, plain "country_code", plain "subscription_json",
      integer "subscription_checked_at" 0, plain "subscription_error",
      integer "subscription_error_at" 0]

def tokens : Migration String String SqlCell where
  table := "tokens"
  columns :=
    [plain "account_id", plain "access_token", plain "expires_at", plain "refreshed_at"]
  added := []

def accountMetrics : Migration String String SqlCell where
  table := "account_metrics"
  columns :=
    [plain "account_id", integer "request_count" 0, integer "error_count" 0,
      integer "rate_limit_hits" 0, plain "last_used_at", plain "last_error_at",
      plain "last_error_message"]
  added := []

def accountUptimeEvents : Migration String String SqlCell where
  table := "account_uptime_events"
  columns :=
    [plain "id", plain "account_id", plain "observed_at", plain "is_active",
      integer "token_ready" 1, plain "token_expires_at"]
  added := [integer "token_ready" 1, plain "token_expires_at"]

def dailyUsage : Migration String String SqlCell where
  table := "daily_usage"
  columns := [plain "account_id", plain "day", integer "count" 0]
  added := []

def apiKeys : Migration String String SqlCell where
  table := "api_keys"
  columns :=
    [plain "id", text "label" "", plain "key_hash", text "key_prefix" "",
      integer "quota" 0, integer "used" 0, integer "is_active" 1, plain "created_at"]
  added := []

def settings : Migration String String SqlCell where
  table := "settings"
  columns := [plain "key", plain "value"]
  added := []

def proxyAssignments : Migration String String SqlCell where
  table := "proxy_assignments"
  columns := [plain "account_id", plain "proxy_url"]
  added := []

/-- {lit}`init_pool`, table by table. -/
def initPool : List (Migration String String SqlCell) :=
  [accounts, tokens, accountMetrics, accountUptimeEvents, dailyUsage, apiKeys, settings,
    proxyAssignments]

/-- What the program takes a column to hold where nothing is given. -/
def columnDefault (table name : String) : SqlCell :=
  match initPool.find? fun m => m.table = table with
  | none => .null
  | some m =>
      match m.wanted.find? fun c => c.name = name with
      | none => .null
      | some c => c.default

/-- Servers that share the database file. -/
abbrev servers (defaults : String -> String -> SqlCell) :
    System (StartWorld String String SqlCell) (StartAction String String SqlCell) :=
  StartWorld.system asciiLower defaults initPool

/-- Every column of {lit}`init_pool` has one spelling and one default. -/
theorem sound_initPool {defaults : String -> String -> SqlCell}
    (hdefaults : forall m, m ∈ initPool -> forall c, c ∈ m.wanted ->
      c.default = defaults m.table c.name) : Migratable asciiLower defaults initPool where
  tables := by decide
  folded := by decide
  defaults := hdefaults
  distinct := by decide

def cellOf : SqlValue -> SqlCell
  | .null => .null
  | .integer n => .integer n.val
  | .text s => .text s

/-- The tables that a restore knows are those of {lit}`init_pool`. -/
theorem wanted_of_liveSchema : forall t, t ∈ liveSchema ->
    exists m, m ∈ initPool ∧ m.table = t.name ∧ forall c, c ∈ t.columns ->
      exists c', c' ∈ m.wanted ∧ c'.name = c.name ∧ c'.default = cellOf c.default := by
  decide

/-- Whoever is up finds the tables that a restore writes to, with the columns and the
defaults that the restore takes them to have. -/
theorem liveSchema_of_run {defaults : String -> String -> SqlCell}
    (hdefaults : forall m, m ∈ initPool -> forall c, c ∈ m.wanted ->
      c.default = defaults m.table c.name)
    {db : Database String String SqlCell} (hlegacy : Legacy asciiLower defaults initPool db)
    {actions : List (StartAction String String SqlCell)} {w : StartWorld String String SqlCell}
    (hrun : (servers defaults).run ⟨db, []⟩ actions = some w) (hup : .up ∈ w.servers)
    {t : TableDef} (ht : t ∈ liveSchema) {c : Column} (hc : c ∈ t.columns) :
    exists u, w.db t.name = some u ∧
      exists c', c' ∈ u.columns ∧ c'.name = c.name ∧ c'.default = cellOf c.default := by
  rcases StartWorld.starts_unseen (sound_initPool hdefaults) hlegacy hrun with
    ⟨hunseen, hcomplete, _⟩
  rcases wanted_of_liveSchema t ht with ⟨m, hm, htable, hcolumns⟩
  rcases hcolumns c hc with ⟨wanted, hwanted, hname, hdefault⟩
  rcases (hcomplete hup m hm).right wanted hwanted with ⟨u, hu, hmem⟩
  rcases List.mem_map.mp hmem with ⟨c', hc', hsame⟩
  rw [htable] at hu
  refine ⟨u, hu, c', hc', hsame.trans hname, ?_⟩
  calc
    c'.default = defaults t.name c'.name := hunseen.legacy.defaults t.name u hu c' hc'
    _ = defaults m.table wanted.name := by rw [htable, hsame]
    _ = wanted.default := (hdefaults m hm wanted hwanted).symm
    _ = cellOf c.default := hdefault

/-- The columns of accounts in an early version. -/
def earlyColumns : List (SqlColumn String SqlCell) :=
  [plain "id", text "label" "", plain "client_id", plain "client_secret",
    plain "refresh_token", plain "user_id", integer "is_active" 1, text "notes" "",
    plain "created_at", plain "updated_at"]

def earlyRow : List (String × SqlCell) :=
  [("id", .text "a"), ("label", .text ""), ("client_id", .text "c"),
    ("client_secret", .text "s"), ("refresh_token", .text "r"), ("user_id", .null),
    ("is_active", .integer 1), ("notes", .text ""), ("created_at", .integer 1),
    ("updated_at", .integer 1)]

theorem earlyRow_fits (row : List (String × SqlCell)) (hrow : row ∈ [earlyRow]) :
    row.map Prod.fst = earlyColumns.map SqlColumn.name := by
  rw [List.mem_singleton.mp hrow]
  rfl

/-- The database of that version. -/
def earlyDb : Database String String SqlCell :=
  Database.put (fun _ => none) "accounts" ⟨earlyColumns, [earlyRow], earlyRow_fits⟩

theorem legacy_earlyDb : Legacy asciiLower columnDefault initPool earlyDb := by
  have hempty : Legacy asciiLower columnDefault initPool (fun _ => none) :=
    ⟨fun _ _ h => absurd h (Option.some_ne_none _).symm,
      fun _ _ h => absurd h (Option.some_ne_none _).symm,
      fun _ _ _ h => absurd h (Option.some_ne_none _).symm⟩
  apply hempty.put
  · decide
  · decide
  · decide

/-- A start breaks off half way, another one comes up and its server writes. -/
def brokenOff : List (StartAction String String SqlCell) :=
  StartAction.launch :: List.replicate 7 (.go 0) ++ StartAction.kill 0 :: .launch ::
    List.replicate ((startProgram initPool).length + 1) (.go 1) ++
    [StartAction.write 1 "accounts" (.update ["id"] (fun cells => cells = [SqlCell.text "a"])
      [("heal_failures", SqlCell.integer 3)])]

end Schema

end HifiApi
