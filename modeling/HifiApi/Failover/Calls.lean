import HifiApi.Accounts.FullChecks
import HifiApi.Accounts.Selection
import HifiApi.Lib.Calls

/-!
# What a request to Tidal calls

The calls that the requests with failover make, and the 429s they have met.  Every
answer is an argument: the roster, the settings, the tokens and Tidal may be in any
state, and may change between two calls.  Headers that are always the same, log
lines and the drop of a lease are left out.
-/

namespace HifiApi

/-- A record: its pointer, and its id, which never changes. -/
structure AccountRef where
  pointer : Nat
  id : String
  deriving DecidableEq

structure TidalResponse where
  status : StatusCode
  retryAfter : Option String
  contentType : Option String

/-- The body of an answer, and what {lit}`serde_json` makes of it. -/
structure TidalBody where
  text : String
  json : Except String Value

/-- {lit}`reqwest::Error` -/
structure ReqwestError where
  isTimeout : Bool
  isConnect : Bool
  status : Option StatusCode
  text : String

namespace AppError

/-- {lit}`From<reqwest::Error>` -/
def ofReqwest (e : ReqwestError) : AppError :=
  if e.isTimeout then .timeout
  else if e.isConnect then .badGateway "Connection error to Tidal"
  else
    match e.status with
    | some s => .upstreamError s s!"Upstream API error: {s.toString}"
    | none => .internal s!"Request error: {e.text}"

def isRateLimited : AppError -> Bool
  | rateLimited _ => true
  | _ => false

/-- The error to report when no further account could be leased: a busy pool is the
actual reason. -/
def afterFailover (e : AppError) (previous : Option AppError) : AppError :=
  match e with
  | accountsBusy _ _ => e
  | other => previous.getD other

end AppError

/-- The answer of {lit}`claim_catalog_slot`, with the record. -/
inductive SlotClaim where
  | slot (a : AccountRef)
  | busy
  | unavailable

inductive TidalCall where
  | playbackCount
  | rateLimitRemaining (a : AccountRef)
  /-- A lease on an account that has been chosen already. -/
  | lease (a : AccountRef)
  | leasePoolAccount (excludeIds : List String) (kind : LeaseKind)
  | healthyCount
  | alertAllDown (total : Nat)
  | alert403 (a : AccountRef) (healthy total : Nat)
  | workingClientFor (id : String)
  | workingClient
  | getToken (a : AccountRef)
  | refreshAfterUnauthorized (a : AccountRef) (token : String)
  | rejectRefreshedToken (a : AccountRef) (token : String)
  /-- The pause before another attempt. -/
  | jitter
  /-- A request to Tidal; the catalog token belongs to no account. -/
  | send (a : Option AccountRef) (url : String) (params : List (String × String))
      (token : String)
  | sendLicense (a : AccountRef) (method contentType : String) (body : List UInt8)
      (token : String)
  | noteSuccessFor (id : String)
  | noteFailureFor (id : String)
  | noteSuccess
  | noteFailure
  /-- The message, and the error that is shown after it. -/
  | markAccountError (id : String) (message : String) (shown : Option AppError)
  | pauseAccount (a : AccountRef) (retryAfter : Option String)
  | retryAfterSecs (retryAfter : Option String)
  | readText
  | readBytes
  | getAccountById (id : String)
  | clock
  | resetTrafficStreak (a : AccountRef)
  /-- {lit}`fetch_add`, which answers the number before. -/
  | addTrafficStreak (a : AccountRef)
  | premiumCheckedAt (a : AccountRef)
  | premiumStatus (a : AccountRef)
  | setPremiumStatus (a : AccountRef) (status : String)
  | setPremiumCheckedAt (a : AccountRef) (now : Int)
  | swapPreviewStreak (a : AccountRef)
  | savePreviewStreak (a : AccountRef)
  | catalogConcurrency
  | catalogRequestsPerAccount
  | claimCatalogSlot (limit : Nat)
  | catalogRateLimitRemaining
  /-- The seconds that the pause of the catalog token remains. -/
  | catalogTokenPause
  | pauseCatalogToken (seconds : Nat)
  /-- No call of the source: it marks what {lit}`catalog_static_get` or
  {lit}`catalog_account_get` has returned. -/
  | catalogReturned (result : Except AppError Value)
  /-- No call of the source: it marks what {lit}`catalog_get` has got from the pool. -/
  | poolReturned (result : Except AppError Value)

namespace TidalCall

@[reducible] def Answer : TidalCall -> Type
  | playbackCount => Nat
  | rateLimitRemaining _ => Option Nat
  | leasePoolAccount _ _ => Except AppError AccountRef
  | healthyCount => Nat × Nat
  | workingClientFor _ | workingClient => Except AppError Unit
  | getToken _ | refreshAfterUnauthorized _ _ => Except AppError String
  | send _ _ _ _ | sendLicense _ _ _ _ _ => Except ReqwestError TidalResponse
  | pauseAccount _ _ | retryAfterSecs _ => Nat
  | readText => Except ReqwestError TidalBody
  | readBytes => List UInt8
  | getAccountById _ => Option AccountRef
  | clock | premiumCheckedAt _ | swapPreviewStreak _ => Int
  | addTrafficStreak _ => Nat
  | premiumStatus _ => String
  | catalogConcurrency | catalogRequestsPerAccount => Nat
  | claimCatalogSlot _ => SlotClaim
  | catalogRateLimitRemaining | catalogTokenPause => Option Nat
  | lease _ | alertAllDown _ | alert403 _ _ _ | rejectRefreshedToken _ _ | jitter
  | noteSuccessFor _ | noteFailureFor _ | noteSuccess | noteFailure
  | markAccountError _ _ _ | resetTrafficStreak _ | setPremiumStatus _ _
  | setPremiumCheckedAt _ _ | savePreviewStreak _ | pauseCatalogToken _
  | catalogReturned _ | poolReturned _ => Unit

/-- The answer says that an account is paused. -/
def isPause : (c : TidalCall) -> Answer c -> Bool
  | rateLimitRemaining _, remaining => remaining.isSome
  | getToken _, .error e => e.isRateLimited
  | refreshAfterUnauthorized _ _, .error e => e.isRateLimited
  | _, _ => false

/-- The answer to a request is a 429. -/
def isTooMany : Except ReqwestError TidalResponse -> Bool
  | .ok r => decide (r.status.code = 429)
  | .error _ => false

/-- The JSON of a body that can be read. -/
def dataOf : Except ReqwestError TidalBody -> Option Value
  | .ok body => body.json.toOption
  | .error _ => none

end TidalCall

abbrev TidalProg (α : Type) : Type := Prog TidalCall.Answer α

abbrev TidalEvent : Type := CallEvent TidalCall.Answer

open Prog TidalCall

/-- A request that got no answer counts against the proxy when it did not get
through. -/
def noteTransport (id : String) (e : ReqwestError) : TidalProg Unit := do
  if e.isConnect || e.isTimeout then
    ask (noteFailureFor id)

/-!
## 429s on the way
-/

/-- {lit}`RATE_LIMIT_FALLBACKS` -/
def rateLimitFallbacks : Nat := 2

structure RateLimitFallback where
  firstTry : Option Nat
  hits : Nat

/-- After the first 429 only few more accounts are tried, whatever they answer. -/
def RateLimitFallback.exhausted (r : RateLimitFallback) (accountTry : Nat) : Bool :=
  match r.firstTry with
  | some first => decide (first + rateLimitFallbacks < accountTry)
  | none => false

/-- The accounts that a request has failed on, and why it last failed. -/
structure Failover where
  failedIds : List String
  lastError : Option AppError
  rateLimits : RateLimitFallback

namespace Failover

def start : Failover := ⟨[], none, ⟨none, 0⟩⟩

def fail (id : String) (e : AppError) (s : Failover) : Failover :=
  { s with
    failedIds := s.failedIds ++ [id]
    lastError := some e }

/-- {lit}`RateLimitFallback::schedule` -/
def schedule (accountTry : Nat) (id : String) (e : AppError) (s : Failover) :
    Except AppError Failover :=
  let hits := s.rateLimits.hits + 1
  if rateLimitFallbacks < hits then .error e
  else
    .ok
      { failedIds := s.failedIds ++ [id]
        lastError := some e
        rateLimits := ⟨s.rateLimits.firstTry.or (some accountTry), hits⟩ }

end Failover

/-- How a request leaves an account: for another one, or with its result. -/
inductive Tried (σ ρ : Type) where
  | failover (s : σ)
  | answered (result : ρ)

/-!
## Settling PREVIEW answers
-/

/-- The status is FULL already, and has been written in the last minute. -/
def fullIsKnown (a : AccountRef) (now : Int) : TidalProg Bool := do
  let checkedAt ← ask (premiumCheckedAt a)
  if now - 60 < checkedAt then
    let status ← ask (premiumStatus a)
    return decide (status = premiumStatusFull)
  else
    return false

/-- {lit}`confirm_full` from the status on, which is written once a minute at most. -/
def recordFull (a : AccountRef) (now : Int) : TidalProg Unit := do
  let known ← fullIsKnown a now
  if known then
    return ()
  else
    ask (setPremiumStatus a premiumStatusFull)
    ask (setPremiumCheckedAt a now)
    let streak ← ask (swapPreviewStreak a)
    if streak ≠ 0 then
      ask (savePreviewStreak a)

/-- {lit}`confirm_full` -/
def confirmFull (a : AccountRef) : TidalProg Unit := do
  let now ← ask clock
  ask (resetTrafficStreak a)
  recordFull a now

/-- {lit}`note_traffic_preview` -/
def noteTrafficPreview (a : AccountRef) : TidalProg Bool := do
  let before ← ask (addTrafficStreak a)
  if before + 1 < trafficPreviewsBeforePreviewOnly then
    return false
  else
    ask (resetTrafficStreak a)
    ask (setPremiumStatus a premiumStatusPreview)
    let now ← ask clock
    ask (setPremiumCheckedAt a now)
    return true

/-- The loop over the accounts that answered PREVIEW. -/
def noteTrafficPreviews : List AccountRef -> TidalProg Unit
  | [] => return ()
  | a :: rest => do
      let _ ← noteTrafficPreview a
      noteTrafficPreviews rest

/-- The calls that record a FULL result, but for the counter of traffic. -/
def TidalCall.RecordsFull : TidalCall -> Prop
  | setPremiumStatus _ status => status = premiumStatusFull
  | premiumCheckedAt _ | premiumStatus _ | setPremiumCheckedAt _ _
  | swapPreviewStreak _ | savePreviewStreak _ => True
  | _ => False

/-- The calls on the PREVIEW counters and the status of an account. -/
def TidalCall.Settles : TidalCall -> Prop
  | clock | resetTrafficStreak _ | addTrafficStreak _ | premiumCheckedAt _
  | premiumStatus _ | setPremiumStatus _ _ | setPremiumCheckedAt _ _
  | swapPreviewStreak _ | savePreviewStreak _ => True
  | _ => False

theorem recordFull_only (a : AccountRef) (now : Int) :
    (recordFull a now).Only RecordsFull := by
  apply only_bind
  · apply only_bind (only_ask trivial)
    intro checkedAt
    split
    · exact only_bind (only_ask trivial) fun _ => trivial
    · trivial
  · intro known
    split
    · trivial
    · have hstatus : RecordsFull (setPremiumStatus a premiumStatusFull) := rfl
      apply only_bind (only_ask hstatus)
      intro _
      apply only_bind (only_ask trivial)
      intro _
      apply only_bind (only_ask trivial)
      intro streak
      split
      · exact only_ask trivial
      · trivial

theorem confirmFull_only (a : AccountRef) : (confirmFull a).Only Settles := by
  apply only_bind (only_ask trivial)
  intro now
  apply only_bind (only_ask trivial)
  intro _
  apply (recordFull_only a now).mono
  intro c hc
  cases c with
  | premiumCheckedAt | premiumStatus | setPremiumStatus | setPremiumCheckedAt
  | swapPreviewStreak | savePreviewStreak => trivial
  | _ => exact hc.elim

theorem noteTrafficPreview_only (a : AccountRef) :
    (noteTrafficPreview a).Only Settles := by
  apply only_bind (only_ask trivial)
  intro before
  split
  · trivial
  · apply only_bind (only_ask trivial)
    intro _
    apply only_bind (only_ask trivial)
    intro _
    apply only_bind (only_ask trivial)
    intro now
    exact only_bind (only_ask trivial) fun _ => trivial

theorem noteTrafficPreviews_only (accounts : List AccountRef) :
    (noteTrafficPreviews accounts).Only Settles := by
  induction accounts with
  | nil =>
      trivial
  | cons a rest ih =>
      exact only_bind (noteTrafficPreview_only a) fun _ => ih

end HifiApi
