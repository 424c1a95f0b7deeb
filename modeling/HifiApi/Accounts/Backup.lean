import HifiApi.Accounts.Sqlite
import HifiApi.Base.AppError
import HifiApi.Lib.Columns

/-!
# The columns of a backup

A restore copies tables by a list of columns of its own.  The loader and the
migrations have theirs, and eight columns of {lit}`accounts` are missing from
the first list: after a restore they hold their defaults.
-/

namespace HifiApi

/-!
## The tables of this version
-/

/-- {lit}`DEFAULT 0` -/
def sqlZero : SqlValue := .integer 0

/-- {lit}`DEFAULT 1` -/
def sqlOne : SqlValue := .integer (.ofNat 1)

/-- {lit}`accounts`, with the columns that were added since. -/
def accountsTable : TableDef where
  name := "accounts"
  key := "id"
  parent := none
  columns :=
    [⟨"id", .null⟩, ⟨"label", .text ""⟩, ⟨"client_id", .null⟩,
      ⟨"client_secret", .null⟩, ⟨"refresh_token", .null⟩, ⟨"user_id", .null⟩,
      ⟨"is_active", sqlOne⟩, ⟨"auto_disabled", sqlZero⟩, ⟨"disabled_at", sqlZero⟩,
      ⟨"is_catalog", sqlZero⟩, ⟨"notes", .text ""⟩, ⟨"created_at", .null⟩,
      ⟨"updated_at", .null⟩, ⟨"heal_failures", sqlZero⟩,
      ⟨"heal_next_retry", sqlZero⟩, ⟨"rejected_access_token", .null⟩,
      ⟨"last_refresh_error", .null⟩, ⟨"preview_streak", sqlZero⟩,
      ⟨"rate_limited_until", sqlZero⟩, ⟨"auth_failing_since", sqlZero⟩,
      ⟨"country_code", .null⟩, ⟨"subscription_json", .null⟩,
      ⟨"subscription_checked_at", sqlZero⟩, ⟨"subscription_error", .null⟩,
      ⟨"subscription_error_at", sqlZero⟩]

def tokensTable : TableDef where
  name := "tokens"
  key := "account_id"
  parent := some ("accounts", "account_id")
  columns :=
    [⟨"account_id", .null⟩, ⟨"access_token", .null⟩, ⟨"expires_at", .null⟩,
      ⟨"refreshed_at", .null⟩]

def accountMetricsTable : TableDef where
  name := "account_metrics"
  key := "account_id"
  parent := some ("accounts", "account_id")
  columns :=
    [⟨"account_id", .null⟩, ⟨"request_count", sqlZero⟩, ⟨"error_count", sqlZero⟩,
      ⟨"rate_limit_hits", sqlZero⟩, ⟨"last_used_at", .null⟩,
      ⟨"last_error_at", .null⟩, ⟨"last_error_message", .null⟩]

def uptimeEventsTable : TableDef where
  name := "account_uptime_events"
  key := "id"
  parent := some ("accounts", "account_id")
  columns :=
    [⟨"id", .null⟩, ⟨"account_id", .null⟩, ⟨"observed_at", .null⟩,
      ⟨"is_active", .null⟩, ⟨"token_ready", sqlOne⟩, ⟨"token_expires_at", .null⟩]

def dailyUsageTable : TableDef where
  name := "daily_usage"
  key := "account_id"
  parent := some ("accounts", "account_id")
  columns := [⟨"account_id", .null⟩, ⟨"day", .null⟩, ⟨"count", sqlZero⟩]

def apiKeysTable : TableDef where
  name := "api_keys"
  key := "id"
  parent := none
  columns :=
    [⟨"id", .null⟩, ⟨"label", .text ""⟩, ⟨"key_hash", .null⟩,
      ⟨"key_prefix", .text ""⟩, ⟨"quota", sqlZero⟩, ⟨"used", sqlZero⟩,
      ⟨"is_active", sqlOne⟩, ⟨"created_at", .null⟩]

def settingsTable : TableDef where
  name := "settings"
  key := "key"
  parent := none
  columns := [⟨"key", .null⟩, ⟨"value", .null⟩]

def proxyAssignmentsTable : TableDef where
  name := "proxy_assignments"
  key := "account_id"
  parent := none
  columns := [⟨"account_id", .null⟩, ⟨"proxy_url", .null⟩]

/-- What {lit}`init_pool` creates. -/
def liveSchema : List TableDef :=
  [accountsTable, tokensTable, accountMetricsTable, uptimeEventsTable,
    dailyUsageTable, apiKeysTable, settingsTable, proxyAssignmentsTable]

/-!
## Restoring
-/

/-- The columns of {lit}`accounts` that a restore copies. -/
def accountsCopied : List (String × ColType) :=
  [("id", .text), ("label", .text), ("client_id", .text),
    ("client_secret", .text), ("refresh_token", .text),
    ("user_id", .nullableText), ("is_active", .int), ("auto_disabled", .int),
    ("disabled_at", .int), ("is_catalog", .int), ("notes", .text),
    ("created_at", .int), ("updated_at", .int), ("heal_failures", .int),
    ("heal_next_retry", .int), ("rejected_access_token", .nullableText),
    ("last_refresh_error", .nullableText)]

def tokensCopied : List (String × ColType) :=
  [("account_id", .text), ("access_token", .text), ("expires_at", .int),
    ("refreshed_at", .int)]

/-- The tables copied after {lit}`accounts` and {lit}`tokens`. -/
def othersCopied : List (TableDef × List (String × ColType)) :=
  [(accountMetricsTable,
      [("account_id", .text), ("request_count", .int), ("error_count", .int),
        ("rate_limit_hits", .int), ("last_used_at", .nullableInt),
        ("last_error_at", .nullableInt),
        ("last_error_message", .nullableText)]),
    (uptimeEventsTable,
      [("id", .int), ("account_id", .text), ("observed_at", .int),
        ("is_active", .int), ("token_ready", .int),
        ("token_expires_at", .nullableInt)]),
    (apiKeysTable,
      [("id", .text), ("label", .text), ("key_hash", .text),
        ("key_prefix", .text), ("quota", .int), ("used", .int),
        ("is_active", .int), ("created_at", .int)]),
    (settingsTable, [("key", .text), ("value", .text)]),
    (proxyAssignmentsTable, [("account_id", .text), ("proxy_url", .text)])]

def missingTable (table : String) : AppError :=
  .badRequest s!"Backup is missing the '{table}' table — not a hifi-api database"

def CopyError.toAppError : CopyError -> AppError
  | unreadable e => .badRequest s!"Cannot read backup: {e}"
  | failed e => .internal s!"Restore failed: {e}"

/-- The transaction of {lit}`restore_backup`. -/
def restoreTables (engine : SqlEngine) (file : SqlFile) (live : SqlRows) :
    Except CopyError SqlRows := do
  engine.check live .begin .failed
  let live ← engine.deleteTable liveSchema proxyAssignmentsTable live
  let live ← engine.deleteTable liveSchema uptimeEventsTable live
  let live ←
    engine.copyTables liveSchema file
      ((accountsTable, accountsCopied) :: (tokensTable, tokensCopied) ::
        othersCopied) live
  engine.check live .commit .failed
  return live

/-- Where an upload is kept while it is read. -/
structure UploadStore where
  write : List UInt8 -> Except String Unit
  openFile : List UInt8 -> Except String SqlFile

/-- The first bytes of a database file. -/
def sqliteMagic : List UInt8 :=
  [83, 81, 76, 105, 116, 101, 32, 102, 111, 114, 109, 97, 116, 32, 51, 0]

/-- The tables a backup must have. -/
def requiredTables : List String := ["accounts", "api_keys", "settings"]

/-- {lit}`restore_backup` up to the commit: the live database it leaves. -/
def restoreBackup (engine : SqlEngine) (store : UploadStore)
    (live : Option SqlRows) (body : List UInt8) : Except AppError SqlRows :=
  if body.length < 100 ∨ body.take 16 ≠ sqliteMagic then
    .error (.badRequest "Not a SQLite database file")
  else if body.length > 50 * 1024 * 1024 then
    .error (.badRequest "Backup file too large (max 50MB)")
  else
    match live with
    | none =>
        .error (.badRequest "No database configured (ephemeral mode)")
    | some live =>
        match store.write body with
        | .error e => .error (.internal s!"Restore write failed: {e}")
        | .ok () =>
            match store.openFile body with
            | .error e => .error (.badRequest s!"Cannot open backup: {e}")
            | .ok file =>
                match engine.refuses file.rows .tables with
                | some e => .error (.badRequest s!"Cannot read backup: {e}")
                | none =>
                    match requiredTables.find? fun t => !file.has t with
                    | some t => .error (missingTable t)
                    | none =>
                        (restoreTables engine file live).mapError
                          CopyError.toAppError

/-!
## Loading
-/

/-- The columns of {lit}`accounts` that {lit}`load_from_db` reads. -/
def accountsLoaded : List String :=
  ["id", "label", "client_id", "client_secret", "refresh_token", "user_id",
    "is_active", "auto_disabled", "disabled_at", "is_catalog", "notes",
    "updated_at", "created_at", "heal_failures", "heal_next_retry",
    "rejected_access_token", "last_refresh_error", "preview_streak",
    "rate_limited_until", "auth_failing_since", "country_code",
    "subscription_json", "subscription_checked_at", "subscription_error",
    "subscription_error_at"]

def tokensLoaded : List String := ["access_token", "expires_at"]

/-- The columns of {lit}`accounts` that are read and not copied. -/
def accountsDropped : List String :=
  ["preview_streak", "rate_limited_until", "auth_failing_since",
    "country_code", "subscription_json", "subscription_checked_at",
    "subscription_error", "subscription_error_at"]

namespace SqlRows

def accountRow (db : SqlRows) (id : String) : Option SqlRow :=
  (db "accounts").find? fun row => row "id" = .text id

def tokenRow (db : SqlRows) (id : String) : Option SqlRow :=
  (db "tokens").find? fun row => row "account_id" = .text id

/-- A column of the joined row of {lit}`tokens`; an account without a token has
{lit}`NULL` there. -/
def tokenColumn (token : Option SqlRow) (k : String) : SqlValue :=
  (token.map fun row => row k).getD .null

/-- The values {lit}`load_from_db` reads for an account. -/
def loadedColumns (db : SqlRows) (id : String) : Option (List SqlValue) :=
  (db.accountRow id).map fun account =>
    accountsLoaded.map account ++ tokensLoaded.map (tokenColumn (db.tokenRow id))

end SqlRows

/-- {lit}`DbAccountRow` from its columns; {lit}`parse` is what
{lit}`serde_json` makes of a text. -/
def AccountRow.ofColumns (parse : String -> Option Value) (account : SqlRow)
    (token : Option SqlRow) : Option AccountRow := do
  let id ← (account "id").asText
  let label ← (account "label").asText
  let clientId ← (account "client_id").asText
  let clientSecret ← (account "client_secret").asText
  let refreshToken ← (account "refresh_token").asText
  let userId ← (account "user_id").asNullableText
  let isActive ← (account "is_active").asInteger
  let autoDisabled ← (account "auto_disabled").asNullableInteger
  let disabledAt ← (account "disabled_at").asNullableInteger
  let isCatalog ← (account "is_catalog").asNullableInteger
  let notes ← (account "notes").asText
  let accessToken ← (SqlRows.tokenColumn token "access_token").asNullableText
  let expiresAt ← (SqlRows.tokenColumn token "expires_at").asNullableInteger
  let updatedAt ← (account "updated_at").asNullableInteger
  let createdAt ← (account "created_at").asInteger
  let healFailures ← (account "heal_failures").asInteger
  let healNextRetry ← (account "heal_next_retry").asInteger
  let rejectedAccessToken ← (account "rejected_access_token").asNullableText
  let lastRefreshError ← (account "last_refresh_error").asNullableText
  let previewStreak ← (account "preview_streak").asInteger
  let rateLimitedUntil ← (account "rate_limited_until").asInteger
  let authFailingSince ← (account "auth_failing_since").asInteger
  let countryCode ← (account "country_code").asNullableText
  let subscriptionJson ← (account "subscription_json").asNullableText
  let subscriptionCheckedAt ← (account "subscription_checked_at").asInteger
  let subscriptionError ← (account "subscription_error").asNullableText
  let subscriptionErrorAt ← (account "subscription_error_at").asInteger
  some
    { id := id
      label := label
      clientId := clientId
      clientSecret := clientSecret
      refreshToken := refreshToken
      userId := userId
      isActive := isActive.val
      autoDisabled := (autoDisabled.getD 0).val
      disabledAt := disabledAt.getD 0
      isCatalog := (isCatalog.getD 0).val
      notes := notes
      createdAt := createdAt
      updatedAt := updatedAt.getD 0
      healFailures := healFailures.val
      healNextRetry := healNextRetry.val
      rejectedAccessToken := rejectedAccessToken
      lastRefreshError := lastRefreshError
      previewStreak := previewStreak.val
      rateLimitedUntil := rateLimitedUntil.val
      authFailingSince := authFailingSince.val
      countryCode := countryCode
      subscriptionJson := subscriptionJson.map parse
      subscriptionCheckedAt := subscriptionCheckedAt.val
      subscriptionError := subscriptionError
      subscriptionErrorAt := subscriptionErrorAt.val
      token := accessToken.bind fun t => expiresAt.map fun e => ⟨t, e.val, 0⟩ }

/-- The account a host loads for an id. -/
def SqlRows.loadedState (parse : String -> Option Value) (db : SqlRows)
    (id : String) : Option AccountState :=
  (db.accountRow id).bind fun account =>
    (AccountRow.ofColumns parse account (db.tokenRow id)).map AccountRow.load

/-!
## What a restore leaves
-/

/-- The loader reads the same of the restored database for every account. -/
structure RestoredWhole (parse : String -> Option Value) (saved restored : SqlRows) :
    Prop where
  columns : forall id, restored.loadedColumns id = saved.loadedColumns id
  states : forall id,
    restored.loadedState parse id = saved.loadedState parse id

/-- The tables of accounts and tokens are the copies of the saved ones. -/
structure TablesCopied (saved restored : SqlRows) : Prop where
  accounts : restored "accounts" =
    (saved "accounts").map (accountsTable.copied accountsCopied)
  tokens : restored "tokens" =
    (saved "tokens").map (tokensTable.copied tokensCopied)

theorem loaded_copied_or_dropped {k : String} (h : k ∈ accountsLoaded) :
    k ∈ accountsCopied.map Prod.fst ∨ k ∈ accountsDropped := by
  revert h
  revert k
  decide

theorem dropped_loaded {k : String} (h : k ∈ accountsDropped) :
    k ∈ accountsLoaded ∧ k ∉ accountsCopied.map Prod.fst := by
  revert h
  revert k
  decide

theorem others_apart {name : String}
    (h : (liveSchema.find? fun t => t.name = name).bind TableDef.parent = none ∨
      (liveSchema.find? fun t => t.name = name).bind TableDef.parent =
        some ("accounts", "account_id"))
    {copies : List (TableDef × List (String × ColType))}
    (hnames : forall c, c ∈ copies -> name ≠ c.1.name ∧ "accounts" ≠ c.1.name) :
    forall c, c ∈ copies -> SqlEngine.Apart liveSchema name c.1.name := by
  intro c hc
  constructor
  · exact (hnames c hc).left
  · intro column heq
    rcases h with hnone | hsome
    · rw [hnone] at heq
      cases heq
    · rw [hsome] at heq
      injection heq with hpair
      injection hpair with hparent
      exact (hnames c hc).right hparent

section

variable {engine : SqlEngine} {store : UploadStore} {saved restored : SqlRows}
  {live : Option SqlRows} {body : List UInt8}

theorem restoreTables_of_restoreBackup
    (hopen : store.openFile body = .ok (saved.file liveSchema))
    (h : restoreBackup engine store live body = .ok restored) :
    exists db, restoreTables engine (saved.file liveSchema) db = .ok restored := by
  simp only [restoreBackup] at h
  split at h
  · cases h
  · split at h
    · cases h
    · split at h
      · cases h
      · rename_i db
        split at h
        · cases h
        · rw [hopen] at h
          dsimp only at h
          split at h
          · cases h
          · split at h
            · cases h
            · refine ⟨db, ?_⟩
              cases hdone : restoreTables engine (saved.file liveSchema) db with
              | error e =>
                  rw [hdone] at h
                  cases h
              | ok rows =>
                  rw [hdone] at h
                  cases h
                  rfl

theorem tablesCopied_of_restoreTables {db : SqlRows}
    (h : restoreTables engine (saved.file liveSchema) db = .ok restored) :
    TablesCopied saved restored := by
  rcases SqlEngine.bind_eq_ok.mp h with ⟨_, _, hbegun⟩
  rcases SqlEngine.bind_eq_ok.mp hbegun with ⟨_, _, hproxies⟩
  rcases SqlEngine.bind_eq_ok.mp hproxies with ⟨_, _, hevents⟩
  rcases SqlEngine.bind_eq_ok.mp hevents with ⟨copied, hcopied, hcommit⟩
  rcases SqlEngine.bind_eq_ok.mp hcommit with ⟨_, _, hdone⟩
  cases hdone
  constructor
  · refine SqlEngine.copyTables_eq_ok [] hcopied rfl (by decide) ?_ ?_
    · show forall c, c ∈ accountsCopied ->
        c.1 ∈ accountsTable.columns.map Column.name
      decide
    · apply others_apart (Or.inl rfl)
      decide
  · refine SqlEngine.copyTables_eq_ok [(accountsTable, accountsCopied)] hcopied
      rfl (by decide) ?_ ?_
    · show forall c, c ∈ tokensCopied ->
        c.1 ∈ tokensTable.columns.map Column.name
      decide
    · apply others_apart (Or.inr rfl)
      decide

namespace TablesCopied

theorem accountRow (h : TablesCopied saved restored) (id : String) :
    restored.accountRow id =
      (saved.accountRow id).map (accountsTable.copied accountsCopied) := by
  unfold SqlRows.accountRow
  rw [h.accounts, List.find?_map]
  rfl

theorem tokenRow (h : TablesCopied saved restored) (id : String) :
    restored.tokenRow id =
      (saved.tokenRow id).map (tokensTable.copied tokensCopied) := by
  unfold SqlRows.tokenRow
  rw [h.tokens, List.find?_map]
  rfl

/-- Every column of a token that is read is copied. -/
theorem tokenColumn (h : TablesCopied saved restored) (id : String) {k : String}
    (hk : k ∈ tokensLoaded) :
    SqlRows.tokenColumn (restored.tokenRow id) k =
      SqlRows.tokenColumn (saved.tokenRow id) k := by
  have hcopied : k ∈ tokensCopied.map Prod.fst := by
    revert hk
    revert k
    decide
  unfold SqlRows.tokenColumn
  rw [h.tokenRow, Option.map_map]
  congr 2
  funext row
  show tokensTable.copied tokensCopied row k = row k
  rw [TableDef.copied_apply, if_pos hcopied]

/-- The columns of an account that are read are those of the saved row, except
for the dropped ones. -/
theorem accountColumn (account : SqlRow) {k : String} (hk : k ∈ accountsLoaded) :
    accountsTable.copied accountsCopied account k =
      if k ∈ accountsDropped then accountsTable.defaultOf k else account k := by
  rw [TableDef.copied_apply]
  by_cases hdropped : k ∈ accountsDropped
  · rw [if_neg (dropped_loaded hdropped).right, if_pos hdropped]
  · rcases loaded_copied_or_dropped hk with hcopied | h
    · rw [if_pos hcopied, if_neg hdropped]
    · exact absurd h hdropped

end TablesCopied

/-- The account is decoded from the columns that are read. -/
theorem ofColumns_congr (parse : String -> Option Value) {a a' : SqlRow}
    {t t' : Option SqlRow} (ha : forall k, k ∈ accountsLoaded -> a' k = a k)
    (ht : forall k, k ∈ tokensLoaded ->
      SqlRows.tokenColumn t' k = SqlRows.tokenColumn t k) :
    AccountRow.ofColumns parse a' t' = AccountRow.ofColumns parse a t := by
  simp only [accountsLoaded, tokensLoaded, List.forall_mem_cons] at ha ht
  rcases ha with ⟨h1, h2, h3, h4, h5, h6, h7, h8, h9, h10, h11, h12, h13, h14,
    h15, h16, h17, h18, h19, h20, h21, h22, h23, h24, h25, _⟩
  unfold AccountRow.ofColumns
  rw [h1, h2, h3, h4, h5, h6, h7, h8, h9, h10, h11, h12, h13, h14, h15, h16, h17,
    h18, h19, h20, h21, h22, h23, h24, h25, ht.left, ht.right.left]

/-- A committed restore brings back everything the loader reads exactly when
the dropped columns of every saved account hold their defaults. -/
theorem restoreBackup_whole_iff (parse : String -> Option Value)
    (engine : SqlEngine) (store : UploadStore) (saved restored : SqlRows)
    (live : Option SqlRows) (body : List UInt8)
    (hopen : store.openFile body = .ok (saved.file liveSchema))
    (hdone : restoreBackup engine store live body = .ok restored) :
    RestoredWhole parse saved restored <->
      forall id account, saved.accountRow id = some account ->
        forall k, k ∈ accountsDropped -> account k = accountsTable.defaultOf k := by
  rcases restoreTables_of_restoreBackup hopen hdone with ⟨db, htables⟩
  have hcopied := tablesCopied_of_restoreTables htables
  constructor
  · intro h id account haccount k hk
    have hcolumns := h.columns id
    unfold SqlRows.loadedColumns at hcolumns
    rw [hcopied.accountRow, haccount, Option.map_some, Option.map_some,
      Option.map_some] at hcolumns
    have hsame := List.append_inj_left (Option.some.inj hcolumns) (by simp)
    have hvalue := List.map_inj_left.mp hsame k (dropped_loaded hk).left
    rw [TablesCopied.accountColumn account (dropped_loaded hk).left,
      if_pos hk] at hvalue
    exact hvalue.symm
  · intro h
    have hvalue : forall id account, saved.accountRow id = some account ->
        forall k, k ∈ accountsLoaded ->
          accountsTable.copied accountsCopied account k = account k := by
      intro id account haccount k hk
      rw [TablesCopied.accountColumn account hk]
      split
      · rename_i hdropped
        exact (h id account haccount k hdropped).symm
      · rfl
    constructor
    · intro id
      unfold SqlRows.loadedColumns
      rw [hcopied.accountRow]
      cases haccount : saved.accountRow id with
      | none =>
          rfl
      | some account =>
          rw [Option.map_some, Option.map_some, Option.map_some]
          congr 2
          · exact List.map_congr_left (hvalue id account haccount)
          · exact List.map_congr_left fun k hk => hcopied.tokenColumn id hk
    · intro id
      unfold SqlRows.loadedState
      rw [hcopied.accountRow]
      cases haccount : saved.accountRow id with
      | none =>
          rw [Option.map_none, Option.bind_none, Option.bind_none]
      | some account =>
          have hdecoded :
              AccountRow.ofColumns parse
                  (accountsTable.copied accountsCopied account)
                  (restored.tokenRow id) =
                AccountRow.ofColumns parse account (saved.tokenRow id) := by
            apply ofColumns_congr parse
            · exact hvalue id account haccount
            · intro k hk
              exact hcopied.tokenColumn id hk
          rw [Option.map_some, Option.bind_some, Option.bind_some]
          exact congrArg (Option.map AccountRow.load) hdecoded

end

/-- One account, paused by a 429. -/
def savedPaused : SqlRows := fun table =>
  if table = "accounts" then
    [accountsTable.newRow
      [("id", .text "a"), ("client_id", .text "c"), ("client_secret", .text "s"),
        ("refresh_token", .text "r"), ("created_at", sqlOne),
        ("updated_at", sqlOne),
        ("rate_limited_until", .integer ⟨600, by decide, by decide⟩)]]
  else []

/-- An engine that refuses nothing. -/
def willingEngine : SqlEngine := ⟨fun _ _ => none, fun _ _ => ""⟩

/-- Every upload holds the saved account. -/
def pausedStore : UploadStore :=
  ⟨fun _ => .ok (), fun _ => .ok (savedPaused.file liveSchema)⟩

def pausedBody : List UInt8 := sqliteMagic ++ List.replicate 84 0

theorem restoreBackup_whole_iff_paused :
    exists restored,
      restoreBackup willingEngine pausedStore (some fun _ => []) pausedBody =
        .ok restored ∧
      (RestoredWhole (fun _ => none) savedPaused restored <->
        forall id account, savedPaused.accountRow id = some account ->
          forall k, k ∈ accountsDropped ->
            account k = accountsTable.defaultOf k) :=
  ⟨_, rfl, restoreBackup_whole_iff _ willingEngine pausedStore savedPaused _
    (some fun _ => []) pausedBody rfl rfl⟩

/-- The pause of the account is gone after the restore. -/
theorem restoreBackup_not_whole :
    ¬ forall (parse : String -> Option Value) (engine : SqlEngine)
        (store : UploadStore) (saved restored : SqlRows) (live : Option SqlRows)
        (body : List UInt8),
      store.openFile body = .ok (saved.file liveSchema) ->
      restoreBackup engine store live body = .ok restored ->
      RestoredWhole parse saved restored := by
  intro h
  have hwhole := h (fun _ => none) willingEngine pausedStore savedPaused _
    (some fun _ => []) pausedBody rfl rfl
  exact absurd (hwhole.columns "a") (by decide)

end HifiApi
