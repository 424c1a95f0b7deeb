import HifiApi.Accounts.Edits
import HifiApi.Base.AppError
import Mathlib.Algebra.Group.Nat.Defs

/-!
# Access tokens

The token manager: the cached token of an account and its rejection, the token
other instances share, and a refresh with its attempts and its outcome.  Each
function is what one call does between two await points; the answers of Tidal
and of Redis, the clock and the random jitter are arguments.
-/

namespace HifiApi

/-- A header {lit}`Retry-After`: absent, or present with the seconds it reads
as. -/
abbrev RetryAfter := Option (Option Nat)

namespace AccountManager

def retryAfterSecs (value : Option Nat) : Nat :=
  max (value.getD 30) 1

def rateLimitRemaining (now : I64) (a : AccountState) : Option Nat :=
  let remaining := I64.saturate (a.rateLimitedUntil - now.val)
  if 0 < remaining then some remaining.toNat else none

/-- The pause of a strike, doubled for every earlier one. -/
def rateLimitPauseSecs (value : Option Nat) (strike : Nat) : Nat :=
  let base := retryAfterSecs value
  min (base * 2 ^ min (strike - 1) 16) (max (15 * 60) base)

/-- {lit}`pause_account`: the pause of an account that Tidal rate limits, and
the seconds that remain of it. -/
def pauseAccount (now : I64) (value : Option Nat) (a : AccountState) :
    AccountState × Nat :=
  let previousUntil := a.rateLimitedUntil
  let strike :=
    if now.val < previousUntil then max a.rateLimitStrikes 1
    else if 0 < previousUntil ∧ now.val - previousUntil ≤ 30 * 60 then
      a.rateLimitStrikes + 1
    else 1
  let strikes :=
    if now.val < previousUntil then a.rateLimitStrikes
    else if 0 < previousUntil ∧ now.val - previousUntil ≤ 30 * 60 then
      a.rateLimitStrikes + 1
    else 1
  let seconds := rateLimitPauseSecs value strike
  let until_ := I64.saturate (now.val + countColumn seconds)
  let paused :=
    { a with
      rateLimitStrikes := strikes
      rateLimitedUntil := max a.rateLimitedUntil until_ }
  (paused, (rateLimitRemaining now paused).getD seconds)

end AccountManager

namespace TokenManager

open AccountManager

/-!
## The token at hand
-/

/-- {lit}`cached_token`: the token of an account, unless it is empty, expired
or refused by Tidal. -/
def cachedToken (now : I64) (a : AccountState) : Option String :=
  match a.accessToken with
  | none => none
  | some token =>
      if token = "" ∨ a.tokenExpiresAt ≤ now.val ∨
          a.rejectedAccessToken = some token then
        none
      else
        some token

/-- A refused token is marked while it is still the account's token. -/
def rejectAccessToken (rejected : String) (a : AccountState) : AccountState :=
  if a.accessToken = some rejected then
    { a with rejectedAccessToken := some rejected }
  else
    a

/-- {lit}`defer_retry`: the cooldown after a failure, with the delay it
sets. -/
def deferRetry (now : I64) (jitter minimum : Nat) (a : AccountState) :
    AccountState × Nat :=
  let failures := a.healFailures + 1
  let delay :=
    max (min (30 * 2 ^ min (failures - 1) 7) 3600 + jitter % 16) minimum
  ({ a with
      healFailures := failures
      healNextRetry := I64.saturate (now.val + countColumn delay) },
    delay)

def rejectRefreshedToken (now : I64) (jitter : Nat) (rejected : String)
    (a : AccountState) : AccountState :=
  (deferRetry now jitter 30
    { rejectAccessToken rejected a with
      lastRefreshError :=
        some "Tidal HTTP 401: refreshed access token rejected" }).1

/-- {lit}`shared_token`: take over the token of the Redis key, unless it is
about to expire, is the one the caller is about to replace, or is marked as
refused. -/
def sharedToken (now : I64) (previous : Option String)
    (raw : Option (Option Value)) (a : AccountState) :
    Option (AccountState × String) := do
  let data ← raw.bind fun text => text
  let token ← (data.get "t").bind Value.asStr
  let expires ← (data.get "e").bind Value.asI64
  if token = "" ∨ I64.wrap (expires.val - 60) ≤ now.val ∨
      previous = some token ∨ a.rejectedAccessToken = some token then
    none
  else
    some
      ({ a with
          accessToken := some token
          tokenExpiresAt := expires.val
          lastRefreshError := none
          authFailingSince := 0 },
        token)

/-!
## A refresh
-/

/-- How the first section of a refresh goes on. -/
inductive Entry where
  | answered (result : Except AppError String)
  | proceed

/-- The section of {lit}`refresh` that starts with the account's refresh
lock. -/
def enterRefresh (now : I64) (previous : Option String) (force : Bool)
    (a : AccountState) : Entry :=
  let cached := (cachedToken now a).filter fun token =>
    !force || some token ≠ previous
  match cached with
  | some token => .answered (.ok token)
  | none =>
      match rateLimitRemaining now a with
      | some seconds => .answered (.error (.rateLimited seconds))
      | none =>
          let remaining := a.healNextRetry - now.val
          if 0 < remaining then
            .answered (.error
              (.serviceUnavailableRetry "Token refresh is cooling down"
                remaining.toNat))
          else
            .proceed

/-- The answer of the auth server; a body that is not JSON reads as
{lit}`null`. -/
structure AuthResponse where
  status : StatusCode
  retryAfter : RetryAfter
  body : Value

/-- What a refresh is granted. -/
structure Grant where
  token : String
  expiresIn : I64
  rotated : Option String
  country : Option String

structure TokenAttemptFailure where
  error : AppError
  retryable : Bool
  retryAfter : Nat
  forbidden : Bool

/-- A failure that ends the cycle. -/
def nonRetryableAttempt (error : AppError) : TokenAttemptFailure :=
  ⟨error, false, 0, false⟩

/-- The grant of a successful answer: the access token must not be empty, its
lifetime must be positive. -/
def readGrant (body : Value) : Except TokenAttemptFailure Grant := do
  let token ←
    (((body.get "access_token").bind Value.asStr).filter
      fun t => t ≠ "").elim
      (.error (nonRetryableAttempt
        (.internal "Empty access_token in auth response"))) .ok
  let expiresIn ←
    (((body.get "expires_in").bind Value.asI64).filter
      fun n => decide (0 < n)).elim
      (.error (nonRetryableAttempt
        (.internal "Invalid expires_in in auth response"))) .ok
  return {
    token
    expiresIn
    rotated := ((body.get "refresh_token").bind Value.asStr).filter
      fun t => t ≠ ""
    country := ((body.get "user").bind (Value.get · "countryCode")).bind
      Value.asStr }

/-- The message for an answer that is no success. -/
def failureMessage (status : StatusCode) (oauthError description : String) :
    String :=
  if oauthError = "" ∧ description = "" then
    s!"Tidal auth HTTP {status.toString}"
  else if oauthError = "" then
    s!"Tidal auth HTTP {status.toString}: {description}"
  else if description = "" then
    s!"Tidal auth HTTP {status.toString}: {oauthError}"
  else
    s!"Tidal auth HTTP {status.toString}: {oauthError} ({description})"

/-- The failure of an answer that is neither a success nor a rate limit. -/
def readFailure (r : AuthResponse) : TokenAttemptFailure :=
  let oauthError := r.body.strField "error"
  if (r.status.code = 400 ∨ r.status.code = 401) ∧
      (oauthError = "invalid_grant" ∨ oauthError = "invalid_client") then
    nonRetryableAttempt
      (.unauthorized s!"Tidal auth HTTP {r.status.toString}: OAuth {oauthError}")
  else
    let retryAfter := (r.retryAfter.map retryAfterSecs).getD 0
    let message :=
      failureMessage r.status oauthError (r.body.strField "error_description")
    { error :=
        if r.retryAfter.isSome then .serviceUnavailableRetry message retryAfter
        else .upstreamError r.status message
      retryable := [403, 408, 425, 429, 500, 502, 503, 504].contains r.status.code
      retryAfter
      forbidden := r.status.code = 403 }

/-- {lit}`request_token_once` from the answer up to the store step. -/
def readAnswer (now : I64) (r : AuthResponse) (a : AccountState) :
    AccountState × Except TokenAttemptFailure Grant :=
  if r.status.code = 429 then
    let paused := pauseAccount now (r.retryAfter.bind fun value => value) a
    (paused.1, .error ⟨.rateLimited paused.2, true, paused.2, false⟩)
  else if r.status.isSuccess then
    match readGrant r.body with
    | .error failure => (a, .error failure)
    | .ok grant => (a.setCountry grant.country, .ok grant)
  else
    (a, .error (readFailure r))

/-- The expiry time stored with a token: a tenth of its life early, a minute
at most. -/
def expiresAt (now expiresIn : I64) : Int :=
  I64.saturate
    (I64.saturate (now.val + expiresIn.val) - min 60 (expiresIn.val / 10))

/-- The attempts of {lit}`request_token_cycle`: four at first, one on later
recoveries. -/
def cycleAttempts (a : AccountState) : Nat :=
  if a.healFailures = 0 then 4 else 1

/-- What a failed attempt leaves on the account. -/
def noteFailure (failure : TokenAttemptFailure) (useBasic : Bool)
    (a : AccountState) : AccountState :=
  if failure.forbidden then
    { a with
      authForbiddenStreak := a.authForbiddenStreak + 1
      authUseBasic := !useBasic }
  else
    { a with authForbiddenStreak := 0 }

/-- A failed attempt is followed by another one. -/
def retries (failure : TokenAttemptFailure) (attempt attempts : Nat) : Bool :=
  failure.retryable && attempt + 1 ≠ attempts &&
    failure.retryAfter * 1000 ≤ 20000

/-- A refresh that succeeded. -/
def finishRefresh (useBasic : Bool) (a : AccountState) : AccountState :=
  { a with
    authUseBasic := useBasic
    lastRefreshError := none
    healFailures := 0
    healNextRetry := 0
    authForbiddenStreak := 0
    authFailingSince := 0 }

/-- Only explicit OAuth credential errors disable the account. -/
def disablesAccount : AppError -> Bool
  | .unauthorized _ => true
  | _ => false

/-- What a refresh that failed leaves on the account. -/
def failRefresh (now : I64) (jitter : Nat) (error : AppError)
    (a : AccountState) : AccountState :=
  let minimum :=
    match error with
    | .rateLimited seconds => seconds
    | .serviceUnavailableRetry _ seconds => seconds
    | .unauthorized _ => 300
    | _ => 0
  let failing :=
    match error with
    | .upstreamError status _ =>
        if status.code = 403 ∧ a.authFailingSince = 0 then now.val
        else a.authFailingSince
    | _ => a.authFailingSince
  (deferRetry now jitter minimum
    { a with
      authFailingSince := failing
      lastRefreshError := some error.toString }).1

/-!
## What stays
-/

/-- The id, the credentials and the token are those of another record. -/
structure SameToken (a a' : AccountState) : Prop where
  id : a'.id = a.id
  credentials : a'.credentials = a.credentials
  accessToken : a'.accessToken = a.accessToken
  rejected : a'.rejectedAccessToken = a.rejectedAccessToken

theorem rejectAccessToken_id (rejected : String) (a : AccountState) :
    (rejectAccessToken rejected a).id = a.id := by
  unfold rejectAccessToken
  split <;> rfl

theorem failRefresh_sameToken (now : I64) (jitter : Nat) (error : AppError)
    (a : AccountState) : SameToken a (failRefresh now jitter error a) :=
  ⟨rfl, rfl, rfl, rfl⟩

theorem finishRefresh_sameToken (useBasic : Bool) (a : AccountState) :
    SameToken a (finishRefresh useBasic a) :=
  ⟨rfl, rfl, rfl, rfl⟩

theorem noteFailure_sameToken (failure : TokenAttemptFailure)
    (useBasic : Bool) (a : AccountState) :
    SameToken a (noteFailure failure useBasic a) := by
  unfold noteFailure
  split <;> exact ⟨rfl, rfl, rfl, rfl⟩

theorem readAnswer_sameToken (now : I64) (r : AuthResponse)
    (a : AccountState) : SameToken a (readAnswer now r a).1 := by
  unfold readAnswer
  split
  · exact ⟨rfl, rfl, rfl, rfl⟩
  · split
    · split <;> exact ⟨rfl, rfl, rfl, rfl⟩
    · exact ⟨rfl, rfl, rfl, rfl⟩

theorem setSystemDisabled_sameToken {disabled : Bool} {now : I64}
    {a a' : AccountState} (h : a.setSystemDisabled disabled now = some a') :
    SameToken a a' := by
  unfold AccountState.setSystemDisabled at h
  split at h
  · cases h
  · split at h
    · cases h
    · cases h
      exact ⟨rfl, rfl, rfl, rfl⟩

/-- What taking over a token of the Redis key changes. -/
theorem sharedToken_eq_some {now : I64} {previous : Option String}
    {raw : Option (Option Value)} {a a' : AccountState} {token : String}
    (h : sharedToken now previous raw a = some (a', token)) :
    a.rejectedAccessToken ≠ some token ∧ exists expires,
      a' =
        { a with
          accessToken := some token
          tokenExpiresAt := expires
          lastRefreshError := none
          authFailingSince := 0 } := by
  simp only [sharedToken, Option.bind_eq_bind, Option.bind_eq_some_iff] at h
  rcases h with ⟨data, _, held, _, expires, _, hlive⟩
  split at hlive
  · cases hlive
  · rename_i hnot
    cases hlive
    constructor
    · exact fun hrejected => hnot (Or.inr (Or.inr (Or.inr hrejected)))
    · exact ⟨expires.val, rfl⟩

/-- A grant that cannot be read ends the cycle. -/
theorem readGrant_eq_error {body : Value} {failure : TokenAttemptFailure}
    (h : readGrant body = .error failure) :
    exists text, failure = nonRetryableAttempt (.internal text) := by
  unfold readGrant at h
  cases htoken : ((body.get "access_token").bind Value.asStr).filter
      fun t => t ≠ "" with
  | none =>
      rw [htoken] at h
      cases h
      exact ⟨_, rfl⟩
  | some token =>
      cases hexpires : ((body.get "expires_in").bind Value.asI64).filter
          fun n => decide (0 < n) with
      | none =>
          rw [htoken, hexpires] at h
          cases h
          exact ⟨_, rfl⟩
      | some expiresIn =>
          rw [htoken, hexpires] at h
          cases h

theorem cachedToken_eq_some {now : I64} {a : AccountState} {token : String} :
    cachedToken now a = some token <->
      a.accessToken = some token ∧ token ≠ "" ∧ now.val < a.tokenExpiresAt ∧
        a.rejectedAccessToken ≠ some token := by
  unfold cachedToken
  cases ha : a.accessToken with
  | none =>
      simp
  | some held =>
      dsimp only
      constructor
      · intro h
        split at h
        · cases h
        · rename_i hnot
          cases h
          simp only [not_or, not_le] at hnot
          exact ⟨rfl, hnot.left, hnot.right.left, hnot.right.right⟩
      · intro h
        rcases h with ⟨heq, hne, hlive, hrejected⟩
        cases heq
        rw [if_neg]
        simp only [not_or, not_le]
        exact ⟨hne, hlive, hrejected⟩

end TokenManager

end HifiApi
