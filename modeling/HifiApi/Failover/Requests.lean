import HifiApi.Failover.Calls

/-!
# Requests to the pool

{lit}`make_request_with_limit`: one account after the other, and on each of them a
bounded number of attempts.  An attempt asks for another one, leaves the account, or
ends the request.
-/

namespace HifiApi

open Prog TidalCall

structure PoolRequest where
  url : String
  params : Option (List (String × String))
  preferredAccount : Option AccountRef
  accountLimit : Option Nat
  requestsPerAccount : Nat
  kind : LeaseKind
  apiVersion : String

/-- What the loop over the accounts carries. -/
structure PoolTry extends Failover where
  /-- Accounts that answered PREVIEW. -/
  previewed : List AccountRef
  preferredCooldownConsumed : Bool

namespace PoolTry

def start : PoolTry := ⟨.start, [], false⟩

def fail (id : String) (e : AppError) (s : PoolTry) : PoolTry :=
  { s with toFailover := s.toFailover.fail id e }

/-- The error after the last account. -/
def finish (s : PoolTry) : Except AppError Value :=
  .error (s.lastError.getD (.serviceUnavailable "All accounts failed after fallback"))

end PoolTry

/-- Another attempt, with whether a token has been refreshed; or the account is
left. -/
abbrev Attempted : Type := (Bool × PoolTry) ⊕ Tried PoolTry (Except AppError Value)

def tryAgain (refreshed : Bool) (s : PoolTry) : TidalProg Attempted :=
  return .inl (refreshed, s)

def leaveAccount (s : PoolTry) : TidalProg Attempted :=
  return .inr (.failover s)

def answerWith (result : Except AppError Value) : TidalProg Attempted :=
  return .inr (.answered result)

/-- A 429: another account, or the error. -/
def leaveLimited (accountTry : Nat) (a : AccountRef) (seconds : Nat) (s : PoolTry) :
    TidalProg Attempted :=
  match s.schedule accountTry a.id (.rateLimited seconds) with
  | .error e => answerWith (.error e)
  | .ok f => leaveAccount { s with toFailover := f }

/-!
## The choice of an account
-/

/-- {lit}`alert_if_all_down` -/
def alertIfAllDown : AppError -> TidalProg Unit
  | .serviceUnavailable message => do
      if "All accounts".toList <:+: message.toList then
        let counts ← ask healthyCount
        ask (alertAllDown counts.2)
  | _ => return ()

def leaseNext (kind : LeaseKind) (s : PoolTry) :
    TidalProg (Except AppError (AccountRef × PoolTry)) := do
  match ← ask (leasePoolAccount s.failedIds kind) with
  | .ok a => return .ok (a, s)
  | .error e =>
      alertIfAllDown e
      return .error (e.afterFailover s.lastError)

/-- The preferred account comes first, unless it is paused. -/
def leasePreferred (kind : LeaseKind) (a : AccountRef) (accountTry : Nat)
    (s : PoolTry) : TidalProg (Except AppError (AccountRef × PoolTry)) := do
  match ← ask (rateLimitRemaining a) with
  | some seconds =>
      match s.schedule accountTry a.id (.rateLimited seconds) with
      | .error e => return .error e
      | .ok f =>
          match ← ask (leasePoolAccount f.failedIds kind) with
          | .ok alternative =>
              return .ok (alternative,
                { s with
                  toFailover := f
                  preferredCooldownConsumed := true })
          | .error _ => return .error (.rateLimited seconds)
  | none =>
      ask (lease a)
      return .ok (a, s)

def leaseFor (q : PoolRequest) (accountTry : Nat) (s : PoolTry) :
    TidalProg (Except AppError (AccountRef × PoolTry)) :=
  if accountTry = 0 ∧ s.failedIds = [] then
    match q.preferredAccount with
    | some a => leasePreferred q.kind a accountTry s
    | none => leaseNext q.kind s
  else
    leaseNext q.kind s

/-!
## One attempt
-/

namespace PoolRequest

/-- {lit}`requests_per_account.max(1)` -/
def attempts (q : PoolRequest) : Nat := max q.requestsPerAccount 1

end PoolRequest

def assetPresentation (data : Value) : Option String :=
  (data.get "assetPresentation").bind Value.asStr

/-- {lit}`data.pointer("/data/attributes/trackPresentation")` -/
def trackPresentation (data : Value) : Option String :=
  (((data.get "data").bind (Value.get · "attributes")).bind
    (Value.get · "trackPresentation")).bind Value.asStr

def hasPresentation (data : Value) (presentation : String) : Bool :=
  decide (assetPresentation data = some presentation) ||
    decide (trackPresentation data = some presentation)

def isPreview (data : Value) : Bool := hasPresentation data "PREVIEW"

def isFull (data : Value) : Bool := hasPresentation data "FULL"

def PoolRequest.envelope (q : PoolRequest) (data : Value) : Value :=
  .object [("version", .string q.apiVersion), ("data", data)]

/-- A FULL answer settles the PREVIEW answers before it. -/
def settleFull (q : PoolRequest) (a : AccountRef) (s : PoolTry) (data : Value) :
    TidalProg Unit := do
  if isFull data = true ∧ q.kind = .playback then
    confirmFull a
    noteTrafficPreviews s.previewed

/-- What comes of an answer that can be read. -/
def present (q : PoolRequest) (a : AccountRef) (s : PoolTry) (data : Value) :
    TidalProg Attempted := do
  settleFull q a s data
  if isPreview data then
    leaveAccount
      { s.fail a.id (.previewOnly
          s!"Preview only for track: account {a.id} cannot provide FULL (subscription required)")
        with previewed := s.previewed ++ [a] }
  else
    answerWith (.ok (q.envelope data))

/-- A body that cannot be read. -/
def parseError (status : StatusCode) (detail : String) (body : TidalBody) : AppError :=
  .upstreamError status
    s!"Failed to parse Tidal response: {detail} | body: {String.ofList (body.text.toList.take 200)}"

def readBody (q : PoolRequest) (a : AccountRef) (s : PoolTry)
    (status : StatusCode) : TidalProg Attempted := do
  match ← ask readText with
  | .error e => answerWith (.error (.ofReqwest e))
  | .ok body =>
      match body.json with
      | .error detail => answerWith (.error (parseError status detail body))
      | .ok data => present q a s data

/-- The account has been refused, and the next one is tried. -/
def leaveUnauthorized (a : AccountRef) (e : AppError) (s : PoolTry) :
    TidalProg Attempted := do
  ask (markAccountError a.id "Tidal 401 unauthorized" none)
  leaveAccount (s.fail a.id e)

def onUnauthorized (q : PoolRequest) (accountTry : Nat) (a : AccountRef)
    (attempt : Nat) (token : String) (refreshed : Bool) (s : PoolTry) :
    TidalProg Attempted := do
  if refreshed then
    ask (rejectRefreshedToken a token)
    leaveUnauthorized a (.unauthorized "Tidal rejected refreshed token") s
  else if attempt + 1 < q.attempts then
    match ← ask (refreshAfterUnauthorized a token) with
    | .ok _ => tryAgain true s
    | .error (.rateLimited seconds) => leaveLimited accountTry a seconds s
    | .error e => leaveUnauthorized a e s
  else
    leaveUnauthorized a
      (.unauthorized "Tidal rejected token; per-account request limit prevented refresh retry")
      s

def onForbidden (q : PoolRequest) (a : AccountRef) (attempt : Nat)
    (status : StatusCode) (refreshed : Bool) (s : PoolTry) : TidalProg Attempted := do
  if attempt + 1 < q.attempts then
    tryAgain refreshed s
  else
    ask (markAccountError a.id "Tidal 403 forbidden" none)
    let counts ← ask healthyCount
    ask (alert403 a counts.1 counts.2)
    leaveAccount (s.fail a.id (.upstreamError status "Upstream API error"))

/-- Any other status that is no success. -/
def onFailure (q : PoolRequest) (a : AccountRef) (attempt : Nat)
    (status : StatusCode) (refreshed : Bool) (s : PoolTry) : TidalProg Attempted := do
  if attempt + 1 < q.attempts ∧ 500 ≤ status.code then
    tryAgain refreshed s
  else
    ask (markAccountError a.id s!"Tidal HTTP {status.code}" none)
    leaveAccount (s.fail a.id (.upstreamError status "Upstream API error"))

def onResponse (q : PoolRequest) (accountTry : Nat) (a : AccountRef) (attempt : Nat)
    (token : String) (r : TidalResponse) (refreshed : Bool) (s : PoolTry) :
    TidalProg Attempted := do
  if r.status.code = 401 then
    onUnauthorized q accountTry a attempt token refreshed s
  else if r.status.code = 404 then
    answerWith (.error (.notFound "Resource not found"))
  else if r.status.code = 429 then
    let seconds ← ask (pauseAccount a r.retryAfter)
    ask (markAccountError a.id "Tidal HTTP 429" none)
    leaveLimited accountTry a seconds s
  else if r.status.code = 403 then
    onForbidden q a attempt r.status refreshed s
  else if r.status.isSuccess then
    readBody q a s r.status
  else
    onFailure q a attempt r.status refreshed s

def sendOnce (q : PoolRequest) (accountTry : Nat) (a : AccountRef) (attempt : Nat)
    (token : String) (refreshed : Bool) (s : PoolTry) : TidalProg Attempted := do
  match ← ask (send (some a) q.url (q.params.getD []) token) with
  | .error e =>
      noteTransport a.id e
      answerWith (.error (.ofReqwest e))
  | .ok r =>
      ask (noteSuccessFor a.id)
      onResponse q accountTry a attempt token r refreshed s

def attemptOnce (q : PoolRequest) (accountTry : Nat) (a : AccountRef) (attempt : Nat)
    (carried : Bool × PoolTry) : TidalProg Attempted := do
  let (refreshed, s) := carried
  match ← ask (getToken a) with
  | .error (.rateLimited seconds) => leaveLimited accountTry a seconds s
  | .error e =>
      ask (markAccountError a.id "token failure: " (some e))
      leaveAccount (s.fail a.id e)
  | .ok token =>
      if 0 < attempt then
        ask jitter
      -- the account may have been paused in the meantime
      match ← ask (rateLimitRemaining a) with
      | some seconds => leaveLimited accountTry a seconds s
      | none =>
          match ← ask (workingClientFor a.id) with
          | .error e => answerWith (.error e)
          | .ok _ => sendOnce q accountTry a attempt token refreshed s

/-!
## The loops
-/

/-- All attempts on an account; the loop ends early unless each of them has asked for
another one. -/
def onAccount (q : PoolRequest) (accountTry : Nat) (a : AccountRef) (s : PoolTry) :
    TidalProg (PoolTry ⊕ Except AppError Value) := do
  match ← ask (workingClientFor a.id) with
  | .error e => return .inr (.error e)
  | .ok _ =>
      match ← times (attemptOnce q accountTry a) q.attempts 0 (false, s) with
      | .inl (_, s') => return .inl s'
      | .inr (.failover s') => return .inl s'
      | .inr (.answered result) => return .inr result

def tryAccount (q : PoolRequest) (accountTry : Nat) (s : PoolTry) :
    TidalProg (PoolTry ⊕ Except AppError Value) := do
  if (s.preferredCooldownConsumed = true ∧ 0 < accountTry) ∨
      s.rateLimits.exhausted accountTry = true then
    return .inr s.finish
  else
    match ← leaseFor q accountTry s with
    | .error e => return .inr (.error e)
    | .ok (a, s') => onAccount q accountTry a s'

/-- The accounts that a request may try. -/
def PoolRequest.accountAttempts (q : PoolRequest) (playbackCount : Nat) : Nat :=
  match q.accountLimit with
  | none => max 1 playbackCount
  | some limit => min (max 1 playbackCount) limit

def makeRequestWithLimit (q : PoolRequest) : TidalProg (Except AppError Value) := do
  let count ← ask playbackCount
  match ← times (tryAccount q) (q.accountAttempts count) 0 .start with
  | .inl s => return s.finish
  | .inr result => return result

end HifiApi
