import HifiApi.Accounts.State

/-!
# Account rows

The row of an account in SQLite joined with its row in {lit}`tokens`, and the
statements that read and write it.  A statement that names no row changes
nothing, so each one is a function of the row it finds.
-/

namespace HifiApi

/-- A row of {lit}`tokens`. -/
structure TokenRow where
  accessToken : String
  expiresAt : Int
  refreshedAt : Int
  deriving DecidableEq

/-- A row of {lit}`accounts LEFT JOIN tokens`.  The subscription column holds a
text, modelled by what {lit}`serde_json` makes of it. -/
structure AccountRow where
  id : String
  label : String
  clientId : String
  clientSecret : String
  refreshToken : String
  userId : Option String
  isActive : Int
  autoDisabled : Int
  disabledAt : I64
  isCatalog : Int
  notes : String
  createdAt : I64
  updatedAt : I64
  healFailures : Int
  healNextRetry : Int
  rejectedAccessToken : Option String
  lastRefreshError : Option String
  previewStreak : Int
  rateLimitedUntil : Int
  authFailingSince : Int
  countryCode : Option String
  subscriptionJson : Option (Option Value)
  subscriptionCheckedAt : Int
  subscriptionError : Option String
  subscriptionErrorAt : Int
  token : Option TokenRow

/-- A flag as the integer column holds it. -/
def flagColumn (b : Bool) : Int := if b then 1 else 0

@[simp] theorem flagColumn_ne_zero (b : Bool) :
    (flagColumn b != 0) = b := by
  cases b <;> rfl

/-- {lit}`i64::try_from(n).unwrap_or(i64::MAX)` -/
def countColumn (n : Nat) : Int :=
  if n < 9223372036854775808 then n else 9223372036854775807

/-- A deadline some seconds ahead is later, up to the end of time. -/
theorem le_saturate_countColumn (now : I64) {n : Nat} (hn : 0 < n) :
    now.val ≤ I64.saturate (now.val + countColumn n) ∧
      (0 ≤ now.val -> 0 < I64.saturate (now.val + countColumn n)) := by
  have hlast := now.upper
  unfold I64.saturate countColumn
  split <;> omega

/-- The digits in a label {lit}`Tidal Account (<id>)`. -/
def userIdFromLabel (label : String) : Option String :=
  let start := "Tidal Account (".toList
  let cs := label.toList
  if start.isPrefixOf cs then
    let rest := cs.drop start.length
    if rest.getLast? = some ')' then
      let inner := rest.dropLast
      if inner ≠ [] ∧ inner.all Char.isDigit then some (String.ofList inner)
      else none
    else none
  else none

namespace AccountRow

def credentials (row : AccountRow) : AccountState.Credentials :=
  ⟨row.clientId, row.clientSecret, row.refreshToken⟩

/-!
## Loading
-/

/-- The user id of a row, taken from an old label when the column is empty. -/
def loadedUserId (row : AccountRow) : Option String :=
  row.userId.or (userIdFromLabel row.label)

/-- The updates {lit}`load_from_db` sends for a row it reads. -/
def repair (row : AccountRow) : AccountRow :=
  { row with
    clientSecret := normalizeClientSecret row.clientSecret
    userId := row.loadedUserId }

/-- The token {lit}`load_from_db` takes from a row. -/
def loadedToken (row : AccountRow) : Option TokenRow :=
  row.token.filter fun t => t.accessToken ≠ "" ∧ 0 < t.expiresAt

/-- The record {lit}`load_from_db` makes of a row. -/
def load (row : AccountRow) : AccountState :=
  let state := AccountState.new row.id row.label row.clientId row.clientSecret
    row.refreshToken row.loadedUserId (row.isActive != 0) row.notes
  let state :=
    { state with
      autoDisabled := row.autoDisabled != 0
      disabledAt := if row.isActive = 0 then row.disabledAt else 0
      isCatalog := row.isCatalog != 0
      accessToken := row.loadedToken.map TokenRow.accessToken
      tokenExpiresAt := (row.loadedToken.map TokenRow.expiresAt).getD 0
      createdAt := row.createdAt
      updatedAt := row.updatedAt
      healFailures := row.healFailures.toNat
      healNextRetry := max row.healNextRetry 0
      rejectedAccessToken := row.rejectedAccessToken
      lastRefreshError := row.lastRefreshError
      previewStreak := max row.previewStreak 0
      rateLimitedUntil := max row.rateLimitedUntil 0
      authFailingSince := max row.authFailingSince 0
      subscription := row.subscriptionJson.bind fun text => text
      subscriptionCheckedAt := max row.subscriptionCheckedAt 0
      subscriptionError := row.subscriptionError
      subscriptionErrorAt := max row.subscriptionErrorAt 0 }
  state.setCountry row.countryCode

/-!
## Inserting

Columns an insert does not name take their defaults; a new account has the
default in each column that {lit}`add_account` leaves out.
-/

/-- The row of an insert, from a new account or from a restored one. -/
def ofAccount (a : AccountState) : AccountRow where
  id := a.id
  label := a.label
  clientId := a.clientId
  clientSecret := a.clientSecret
  refreshToken := a.refreshToken
  userId := a.userId
  isActive := flagColumn a.isActive
  autoDisabled := flagColumn a.autoDisabled
  disabledAt := a.disabledAt
  isCatalog := flagColumn a.isCatalog
  notes := a.notes
  createdAt := a.createdAt
  updatedAt := a.updatedAt
  healFailures := 0
  healNextRetry := 0
  rejectedAccessToken := none
  lastRefreshError := none
  previewStreak := 0
  rateLimitedUntil := 0
  authFailingSince := 0
  countryCode := none
  subscriptionJson := none
  subscriptionCheckedAt := 0
  subscriptionError := none
  subscriptionErrorAt := 0
  token := none

/-!
## Updating
-/

/-- The update sent when a newer record is taken over from Redis. -/
def saveAdopted (rebuilt : AccountState) (row : AccountRow) : AccountRow :=
  { row with
    label := rebuilt.label
    clientId := rebuilt.clientId
    clientSecret := rebuilt.clientSecret
    refreshToken := rebuilt.refreshToken
    userId := rebuilt.userId
    isActive := flagColumn rebuilt.isActive
    autoDisabled := flagColumn rebuilt.autoDisabled
    disabledAt := rebuilt.disabledAt
    isCatalog := flagColumn rebuilt.isCatalog
    notes := rebuilt.notes
    updatedAt := rebuilt.updatedAt
    healFailures := countColumn rebuilt.healFailures
    healNextRetry := rebuilt.healNextRetry
    rejectedAccessToken := rebuilt.rejectedAccessToken
    lastRefreshError := rebuilt.lastRefreshError
    authFailingSince := rebuilt.authFailingSince }

/-- The transaction of {lit}`update_account`: tokens of replaced credentials are
deleted with the update. -/
def saveUpdated (old updated : AccountState) (now : I64) (row : AccountRow) :
    AccountRow :=
  { row with
    label := updated.label
    clientId := updated.clientId
    clientSecret := updated.clientSecret
    refreshToken := updated.refreshToken
    userId := updated.userId
    updatedAt := now
    healFailures := countColumn updated.healFailures
    healNextRetry := updated.healNextRetry
    rejectedAccessToken := updated.rejectedAccessToken
    lastRefreshError := updated.lastRefreshError
    authFailingSince := updated.authFailingSince
    token := if updated.credentials = old.credentials then row.token else none }

/-- The first statement of {lit}`persist_token` matches the row by id and by the
credentials that were sent. -/
def matchesSent (row : AccountRow) (a : AccountState) (oldRefresh : String) :
    Bool :=
  row.id = a.id ∧ row.refreshToken = oldRefresh ∧ row.clientId = a.clientId ∧
    row.clientSecret = a.clientSecret

/-- The transaction of {lit}`persist_token` on the row it matches. -/
def persistToken (a : AccountState) (oldRefresh : String)
    (rotated : Option String) (token : String) (expiresAt : Int) (now : I64)
    (row : AccountRow) : AccountRow :=
  { row with
    refreshToken := rotated.getD oldRefresh
    updatedAt := now
    healFailures := 0
    healNextRetry := 0
    lastRefreshError := none
    authFailingSince := 0
    countryCode := a.countryCode.or row.countryCode
    token := some ⟨token, expiresAt, now.val⟩ }

/-- The guarded update of {lit}`persist_refresh_state`. -/
def persistRefreshState (a : AccountState) (row : AccountRow) : AccountRow :=
  if row.id = a.id ∧ row.credentials = a.credentials then
    { row with
      healFailures := countColumn a.healFailures
      healNextRetry := a.healNextRetry
      rejectedAccessToken := a.rejectedAccessToken
      lastRefreshError := a.lastRefreshError
      authFailingSince := a.authFailingSince
      countryCode := a.countryCode.or row.countryCode }
  else
    row

end AccountRow

end HifiApi
