import HifiApi.Base.ClientSecret
import HifiApi.Base.Json

/-!
# Account records

One Tidal account as an instance keeps it in memory, its constructor, and the
copy of live state into a rebuilt record.

The decayed error rate, the uptime history and the database handle of the
record take no part in the results of this development and are left out.
-/

namespace HifiApi

structure AccountState where
  id : String
  label : String
  clientId : String
  clientSecret : String
  refreshToken : String
  userId : Option String
  accessToken : Option String
  tokenExpiresAt : Int
  isActive : Bool
  /-- Unix time when the account last became inactive. -/
  disabledAt : I64
  isCatalog : Bool
  /-- The system, not the owner, deactivated the account. -/
  autoDisabled : Bool
  healFailures : Nat
  healNextRetry : Int
  lastRefreshError : Option String
  authUseBasic : Bool
  authForbiddenStreak : Nat
  authFailingSince : Int
  trafficPreviewStreak : Nat
  countryCode : Option String
  subscription : Option Value
  subscriptionCheckedAt : Int
  subscriptionError : Option String
  subscriptionErrorAt : Int
  rejectedAccessToken : Option String
  notes : String
  lastUsed : Int
  requestCount : Nat
  errorCount : Nat
  catalogInflight : Nat
  playbackInflight : Nat
  metadataInflight : Nat
  restUntilMs : Int
  lastPickMs : Int
  hourPicks : List Int
  rateLimitedUntil : Int
  rateLimitStrikes : Nat
  premiumStatus : String
  premiumCheckedAt : Int
  previewStreak : Int
  createdAt : I64
  updatedAt : I64

namespace AccountState

/-- The constructor {lit}`AccountState::new`. -/
def new (id label clientId clientSecret refreshToken : String)
    (userId : Option String) (isActive : Bool) (notes : String) :
    AccountState where
  id := id
  label := label
  clientId := clientId
  clientSecret := normalizeClientSecret clientSecret
  refreshToken := refreshToken
  userId := userId
  accessToken := none
  tokenExpiresAt := 0
  isActive := isActive
  disabledAt := 0
  isCatalog := false
  autoDisabled := false
  healFailures := 0
  healNextRetry := 0
  lastRefreshError := none
  authUseBasic := false
  authForbiddenStreak := 0
  authFailingSince := 0
  trafficPreviewStreak := 0
  countryCode := none
  subscription := none
  subscriptionCheckedAt := 0
  subscriptionError := none
  subscriptionErrorAt := 0
  rejectedAccessToken := none
  notes := notes
  lastUsed := 0
  requestCount := 0
  errorCount := 0
  catalogInflight := 0
  playbackInflight := 0
  metadataInflight := 0
  restUntilMs := 0
  lastPickMs := 0
  hourPicks := []
  rateLimitedUntil := 0
  rateLimitStrikes := 0
  premiumStatus := "unknown"
  premiumCheckedAt := 0
  previewStreak := 0
  createdAt := 0
  updatedAt := 0

instance : Inhabited AccountState :=
  ⟨new "" "" "" "" "" none true ""⟩

/-!
## Countries
-/

/-- The characters {lit}`str::trim` removes. -/
def isWhitespace (c : Char) : Bool :=
  let n := c.toNat
  (9 ≤ n && n ≤ 13) || n == 32 || n == 133 || n == 160 || n == 5760 ||
    (8192 ≤ n && n ≤ 8202) || n == 8232 || n == 8233 || n == 8239 ||
    n == 8287 || n == 12288

def trim (cs : List Char) : List Char :=
  ((cs.dropWhile isWhitespace).reverse.dropWhile isWhitespace).reverse

/-- The upper-case form of a two-letter code. -/
def validCountry (code : String) : Option String :=
  let upper := (trim code.toList).map Char.toUpper
  if upper.length = 2 ∧ upper.all Char.isAlpha then
    some (String.ofList upper)
  else
    none

/-- Keep a valid two-letter code; anything else is ignored. -/
def setCountry (a : AccountState) (code : Option String) : AccountState :=
  { a with countryCode := (code.bind validCountry).or a.countryCode }

/-!
## Live state
-/

/-- The credentials an access token is issued to. -/
structure Credentials where
  clientId : String
  clientSecret : String
  refreshToken : String
  deriving DecidableEq

def credentials (a : AccountState) : Credentials :=
  ⟨a.clientId, a.clientSecret, a.refreshToken⟩

/-- Copy live counters from the old record into a rebuilt one; tokens and
refresh state follow only when the credentials are the same.  The locks around
the copied strings are taken as uncontended. -/
def carryOver (new old : AccountState) : AccountState :=
  let carried :=
    { new with
      lastUsed := old.lastUsed
      requestCount := old.requestCount
      errorCount := old.errorCount
      lastPickMs := old.lastPickMs
      hourPicks := old.hourPicks
      rateLimitedUntil := old.rateLimitedUntil
      rateLimitStrikes := old.rateLimitStrikes
      createdAt := old.createdAt
      tokenExpiresAt := old.tokenExpiresAt
      isCatalog := old.isCatalog
      autoDisabled := old.autoDisabled
      disabledAt := old.disabledAt
      healFailures := old.healFailures
      subscription := old.subscription
      subscriptionCheckedAt := old.subscriptionCheckedAt
      subscriptionError := old.subscriptionError
      subscriptionErrorAt := old.subscriptionErrorAt
      healNextRetry := old.healNextRetry }
  let carried := carried.setCountry old.countryCode
  if new.credentials = old.credentials then
    { carried with
      lastRefreshError := old.lastRefreshError
      authUseBasic := old.authUseBasic
      authForbiddenStreak := old.authForbiddenStreak
      authFailingSince := old.authFailingSince
      accessToken := old.accessToken
      rejectedAccessToken := old.rejectedAccessToken
      premiumStatus := old.premiumStatus
      premiumCheckedAt := old.premiumCheckedAt
      previewStreak := old.previewStreak }
  else
    { carried with
      tokenExpiresAt := 0
      healFailures := 0
      healNextRetry := 0
      authForbiddenStreak := 0 }

/-- Fields that other instances take over from a published record. -/
structure Shared where
  label : String
  credentials : Credentials
  userId : Option String
  isActive : Bool
  disabledAt : I64
  autoDisabled : Bool
  isCatalog : Bool
  notes : String
  updatedAt : I64
  deriving DecidableEq

def shared (a : AccountState) : Shared where
  label := a.label
  credentials := a.credentials
  userId := a.userId
  isActive := a.isActive
  disabledAt := a.disabledAt
  autoDisabled := a.autoDisabled
  isCatalog := a.isCatalog
  notes := a.notes
  updatedAt := a.updatedAt

section CarryOver

variable (new old : AccountState)

theorem carryOver_id : (carryOver new old).id = new.id := by
  unfold carryOver setCountry
  dsimp only
  split <;> rfl

/-- Of what instances share, a rebuild keeps the three switches of the old
record and takes the rest from the new one. -/
theorem carryOver_shared :
    (carryOver new old).shared =
      { new.shared with
        isCatalog := old.isCatalog
        autoDisabled := old.autoDisabled
        disabledAt := old.disabledAt } := by
  unfold carryOver setCountry
  dsimp only
  split <;> rfl

theorem carryOver_credentials :
    (carryOver new old).credentials = new.credentials := by
  unfold carryOver setCountry
  dsimp only
  split <;> rfl

/-- New credentials may be tried at once. -/
theorem carryOver_healNextRetry :
    (carryOver new old).healNextRetry =
      if new.credentials = old.credentials then old.healNextRetry else 0 := by
  unfold carryOver setCountry
  dsimp only
  split <;> rfl

/-- New credentials have not been refused. -/
theorem carryOver_authFailingSince :
    (carryOver new old).authFailingSince =
      if new.credentials = old.credentials then old.authFailingSince
      else new.authFailingSince := by
  unfold carryOver setCountry
  dsimp only
  split <;> rfl

theorem carryOver_hourPicks : (carryOver new old).hourPicks = old.hourPicks := by
  unfold carryOver setCountry
  dsimp only
  split <;> rfl

theorem carryOver_rateLimits :
    (carryOver new old).rateLimitedUntil = old.rateLimitedUntil ∧
      (carryOver new old).rateLimitStrikes = old.rateLimitStrikes := by
  unfold carryOver setCountry
  dsimp only
  split <;> exact ⟨rfl, rfl⟩

/-- Tokens survive a rebuild exactly when the credentials do. -/
theorem carryOver_accessToken :
    (carryOver new old).accessToken =
      if new.credentials = old.credentials then old.accessToken
      else new.accessToken := by
  unfold carryOver setCountry
  dsimp only
  split <;> rfl

end CarryOver

end AccountState

end HifiApi
