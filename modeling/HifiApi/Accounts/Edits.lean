import HifiApi.Accounts.Sqlite

/-!
# Account mutations

The mutations of one account and the columns each of them writes.  A mutation
whose guard fails answers without changing anything.  Where one call reads the
clock twice, for memory and for SQLite, the readings are taken as one.
-/

namespace HifiApi

/-- The mutations of a known account. -/
inductive AccountEdit where
  | setAccountActive (active : Bool)
  | setAccountCatalog (catalog : Bool)
  | setSystemDisabled (disabled : Bool)
  | disableAfterAuthFailures (maxSecs : Int)
  | storeRefreshedCredentials (oldRefresh : String) (rotated : Option String)
      (token : String) (expiresAt : Int)
  | updateAccount (label clientId clientSecret refreshToken userId :
      Option String)

namespace AccountState

def setAccountActive (active : Bool) (now : I64) (a : AccountState) :
    AccountState :=
  { a with
    isActive := active
    autoDisabled := false
    healFailures := 0
    healNextRetry := 0
    authForbiddenStreak := 0
    authFailingSince := 0
    disabledAt :=
      if active then 0 else if a.isActive then now else a.disabledAt
    updatedAt := now }

def setAccountCatalog (catalog : Bool) (now : I64) (a : AccountState) :
    AccountState :=
  { a with
    isCatalog := catalog
    updatedAt := now }

/-- Conditional background transition; an explicit owner OFF is left alone. -/
def setSystemDisabled (disabled : Bool) (now : I64) (a : AccountState) :
    Option AccountState :=
  if disabled = true ∧ a.isActive = false ∧ a.autoDisabled = false then
    none
  else if disabled = false ∧ a.autoDisabled = false then
    none
  else
    let disabledAt : I64 :=
      if disabled then max a.disabledAt ⟨1, by decide, by decide⟩ else 0
    some
      { a with
        autoDisabled := disabled
        isActive := !disabled
        disabledAt := if disabledAt.val = 1 then now else disabledAt
        updatedAt := now }

/-- Switch off an account that Tidal auth has refused for {lit}`maxSecs`. -/
def disableAfterAuthFailures (maxSecs : Int) (now : I64) (a : AccountState) :
    Option AccountState :=
  let enabled := a.isActive || a.autoDisabled
  if maxSecs ≤ 0 ∨ a.authFailingSince ≤ 0 ∨
      now.val - a.authFailingSince < maxSecs ∨ enabled = false then
    none
  else
    some
      { a with
        isActive := false
        autoDisabled := false
        disabledAt := if a.disabledAt = 0 then now else a.disabledAt
        updatedAt := now }

/-- What {lit}`store_refreshed_credentials` writes into memory. -/
def storeRefreshedCredentials (oldRefresh : String) (rotated : Option String)
    (token : String) (expiresAt : Int) (now : I64) (a : AccountState) :
    Option AccountState :=
  if a.refreshToken ≠ oldRefresh then
    none
  else
    some
      { a with
        refreshToken := rotated.getD a.refreshToken
        accessToken := some token
        tokenExpiresAt := expiresAt
        updatedAt := now }

/-- The record {lit}`update_account` rebuilds. -/
def updateAccount
    (label clientId clientSecret refreshToken userId : Option String)
    (now : I64) (old : AccountState) : AccountState :=
  let updated := AccountState.new old.id (label.getD old.label)
    (clientId.getD old.clientId) (clientSecret.getD old.clientSecret)
    (refreshToken.getD old.refreshToken) (userId.or old.userId) old.isActive
    old.notes
  { carryOver updated old with updatedAt := now }

theorem storeRefreshedCredentials_eq_some {oldRefresh : String}
    {rotated : Option String} {token : String} {expiresAt : Int} {now : I64}
    {a a' : AccountState} :
    a.storeRefreshedCredentials oldRefresh rotated token expiresAt now =
        some a' <->
      a.refreshToken = oldRefresh ∧
        a' =
          { a with
            refreshToken := rotated.getD oldRefresh
            accessToken := some token
            tokenExpiresAt := expiresAt
            updatedAt := now } := by
  unfold storeRefreshedCredentials
  split
  · rename_i hne
    simp [hne]
  · rename_i heq
    rw [not_not.mp heq]
    simp [eq_comm]

end AccountState

namespace AccountEdit

/-- The record after a mutation, when its guard lets it through. -/
def apply : AccountEdit -> I64 -> AccountState -> Option AccountState
  | setAccountActive active, now, a => some (a.setAccountActive active now)
  | setAccountCatalog catalog, now, a => some (a.setAccountCatalog catalog now)
  | setSystemDisabled disabled, now, a => a.setSystemDisabled disabled now
  | disableAfterAuthFailures maxSecs, now, a =>
      a.disableAfterAuthFailures maxSecs now
  | storeRefreshedCredentials oldRefresh rotated token expiresAt, now, a =>
      a.storeRefreshedCredentials oldRefresh rotated token expiresAt now
  | updateAccount label clientId clientSecret refreshToken userId, now, a =>
      some (a.updateAccount label clientId clientSecret refreshToken userId now)

/-- An edit replaces the record behind its pointer; the others write into it. -/
def rebuilds : AccountEdit -> Bool
  | updateAccount .. => true
  | _ => false

def savesFirst : AccountEdit -> Bool
  | updateAccount .. => true
  | storeRefreshedCredentials .. => true
  | _ => false

/-- {lit}`persist_token` fails when no row carries the credentials sent. -/
def findsRow : AccountEdit -> AccountState -> Option AccountRow -> Bool
  | storeRefreshedCredentials oldRefresh _ _ _, a, some row =>
      row.matchesSent a oldRefresh
  | storeRefreshedCredentials .., _, none => false
  | _, _, _ => true

/-- The columns a mutation writes. -/
def save : AccountEdit -> I64 -> AccountState -> AccountState -> AccountRow ->
    AccountRow
  | setAccountActive active, now, _, a, row =>
      { row with
        isActive := flagColumn active
        autoDisabled := 0
        disabledAt := a.disabledAt
        updatedAt := now
        healFailures := 0
        healNextRetry := 0
        authFailingSince := 0 }
  | setAccountCatalog catalog, now, _, _, row =>
      { row with
        isCatalog := flagColumn catalog
        updatedAt := now }
  | setSystemDisabled disabled, now, _, a, row =>
      { row with
        isActive := flagColumn (!disabled)
        autoDisabled := flagColumn disabled
        disabledAt := a.disabledAt
        updatedAt := now }
  | disableAfterAuthFailures _, now, _, a, row =>
      { row with
        isActive := 0
        autoDisabled := 0
        disabledAt := a.disabledAt
        updatedAt := now }
  | storeRefreshedCredentials oldRefresh rotated token expiresAt, now, old, _,
      row => row.persistToken old oldRefresh rotated token expiresAt now
  | updateAccount .., now, old, a, row => row.saveUpdated old a now

/-- Every mutation that takes effect keeps the id and stamps the record. -/
theorem apply_stamps {e : AccountEdit} {now : I64} {a a' : AccountState}
    (h : e.apply now a = some a') : a'.id = a.id ∧ a'.updatedAt = now := by
  cases e with
  | setAccountActive active =>
      cases h
      exact ⟨rfl, rfl⟩
  | setAccountCatalog catalog =>
      cases h
      exact ⟨rfl, rfl⟩
  | setSystemDisabled disabled =>
      simp only [apply, AccountState.setSystemDisabled] at h
      split at h
      · cases h
      · split at h
        · cases h
        · cases h
          exact ⟨rfl, rfl⟩
  | disableAfterAuthFailures maxSecs =>
      simp only [apply, AccountState.disableAfterAuthFailures] at h
      split at h
      · cases h
      · cases h
        exact ⟨rfl, rfl⟩
  | storeRefreshedCredentials oldRefresh rotated token expiresAt =>
      simp only [apply, AccountState.storeRefreshedCredentials] at h
      split at h
      · cases h
      · cases h
        exact ⟨rfl, rfl⟩
  | updateAccount label clientId clientSecret refreshToken userId =>
      cases h
      exact ⟨AccountState.carryOver_id _ _, rfl⟩

theorem save_id (e : AccountEdit) (now : I64) (old a : AccountState)
    (row : AccountRow) : (e.save now old a row).id = row.id := by
  cases e <;> rfl

end AccountEdit

end HifiApi
