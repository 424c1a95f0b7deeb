import HifiApi.Lib.System
import HifiApi.Tokens.Refresh

/-!
# Requests to Tidal

The loop over the attempts of one request on one account, as
{lit}`make_request_with_limit` and {lit}`catalog_account_get` write it.  The
first leases its account from the pool and asks for the token before every
attempt, the second holds the token from one attempt to the next.  Requests run
concurrently; a step is what one of them does between two await points.  The
steps ignore the refresh lock of an account: they allow every interleaving it
allows, and more.
-/

namespace HifiApi

open TokenManager

inductive RequestKind where
  | pool
  | catalog
  deriving DecidableEq

/-- Where a request has got to. -/
inductive RequestStage where
  /-- About to ask for a token. -/
  | ready
  /-- Waiting for the refresh lock; forced when Tidal has refused a token. -/
  | entering (previous : Option String) (force : Bool)
  /-- Reading the Redis key. -/
  | sharing (previous : Option String) (force : Bool)
  | refreshing (force : Bool) (c : Cycle)
  /-- About to send its token. -/
  | holding (token : String)
  | sent (token : String)
  /-- Tidal has answered; the status has not been read yet. -/
  | answered (token : String) (status : Nat) (retryAfter : Option Nat)
  | ended

/-- A request on one account, with {lit}`requests_per_account` as its limit. -/
structure TidalRequest where
  pointer : Nat
  kind : RequestKind
  limit : Nat
  attempt : Nat
  refreshed : Bool
  stage : RequestStage

namespace TidalRequest

/-- The budget has room for another attempt. -/
def hasBudget (q : TidalRequest) : Bool := q.attempt + 1 < q.limit

/-- A token request or a refresh has come back. -/
def resume (q : TidalRequest) (force : Bool) (result : Except AppError String) :
    TidalRequest :=
  match result with
  | .error _ => { q with stage := .ended }
  | .ok token =>
      if force then
        match q.kind with
        | .pool => { q with attempt := q.attempt + 1, stage := .ready }
        | .catalog => { q with attempt := q.attempt + 1, stage := .holding token }
      else { q with stage := .holding token }

/-- Another attempt after a status that is worth one. -/
def again (q : TidalRequest) (token : String) : TidalRequest :=
  match q.kind with
  | .pool => { q with attempt := q.attempt + 1, stage := .ready }
  | .catalog => { q with attempt := q.attempt + 1, stage := .holding token }

end TidalRequest

namespace Roster

theorem rejectRefreshedToken_id (now : I64) (jitter : Nat) (rejected : String)
    (a : AccountState) :
    (TokenManager.rejectRefreshedToken now jitter rejected a).id = a.id :=
  rejectAccessToken_id rejected a

/-- {lit}`reject_access_token` -/
def rejectAccessToken (m : Roster accounts) (p : Nat) (rejected : String) :
    Roster accounts :=
  (m.rewrite p (TokenManager.rejectAccessToken rejected)
    (rejectAccessToken_id rejected)).saveRefreshState p

/-- {lit}`reject_refreshed_token` -/
def rejectRefreshedToken (m : Roster accounts) (p : Nat) (now : I64)
    (jitter : Nat) (rejected : String) : Roster accounts :=
  (m.rewrite p (TokenManager.rejectRefreshedToken now jitter rejected)
    (rejectRefreshedToken_id now jitter rejected)).saveRefreshState p

/-- {lit}`pause_account` -/
def pauseAccount (m : Roster accounts) (p : Nat) (now : I64)
    (retryAfter : Option Nat) : Roster accounts :=
  m.rewrite p (fun a => (AccountManager.pauseAccount now retryAfter a).1)
    fun _ => rfl

end Roster

namespace TidalRequest

/-- The loop of the pool on a refused token. -/
def unauthorizedPool (m : Roster accounts) (q : TidalRequest) (token : String)
    (now : I64) (jitter : Nat) : Roster accounts × TidalRequest :=
  if q.refreshed = false then
    if q.hasBudget then
      (m.rejectAccessToken q.pointer token,
        { q with refreshed := true, stage := .entering (some token) true })
    else
      (m, { q with stage := .ended })
  else
    (m.rejectRefreshedToken q.pointer now jitter token, { q with stage := .ended })

/-- The loop of the catalog on a refused token. -/
def unauthorizedCatalog (m : Roster accounts) (q : TidalRequest) (token : String)
    (now : I64) (jitter : Nat) : Roster accounts × TidalRequest :=
  if q.hasBudget then
    (m.rejectAccessToken q.pointer token,
      { q with stage := .entering (some token) true })
  else if 0 < q.attempt then
    (m.rejectRefreshedToken q.pointer now jitter token, { q with stage := .ended })
  else
    (m, { q with stage := .ended })

def unauthorized (m : Roster accounts) (q : TidalRequest) (token : String)
    (now : I64) (jitter : Nat) : Roster accounts × TidalRequest :=
  match q.kind with
  | .pool => unauthorizedPool m q token now jitter
  | .catalog => unauthorizedCatalog m q token now jitter

/-- The loop reads the status of an answer. -/
def react (m : Roster accounts) (q : TidalRequest) (token : String)
    (status : Nat) (retryAfter : Option Nat) (now : I64) (jitter : Nat) :
    Roster accounts × TidalRequest :=
  if status = 401 then unauthorized m q token now jitter
  else if status = 429 then
    (m.pauseAccount q.pointer now retryAfter, { q with stage := .ended })
  else if (status = 403 ∨ 500 ≤ status) ∧ q.hasBudget then
    (m, q.again token)
  else
    (m, { q with stage := .ended })

end TidalRequest

/-- The accounts of an instance and its requests to Tidal, with the tokens that
Tidal has refused while they were current and that no auth answer has issued
again since. -/
structure ClientState where
  roster : Roster accounts
  requests : List TidalRequest
  refused : List (Nat × String)

inductive ClientAction where
  | start (p : Nat) (kind : RequestKind) (requestsPerAccount : Nat)
  | getToken (k : Nat) (now : I64)
  | enter (k : Nat) (now : I64)
  | sharedToken (k : Nat) (now : I64) (text : Option (Option Value))
  | cycle (k : Nat) (e : CycleEvent)
  | send (k : Nat) (now : I64)
  | answer (k : Nat) (status : Nat) (retryAfter : Option Nat)
  /-- The request to Tidal fails without an answer. -/
  | lose (k : Nat)
  | react (k : Nat) (now : I64) (jitter : Nat)

namespace ClientState

def record (s : ClientState) (p : Nat) : AccountState := s.roster.memory.cells p

def putRequest (s : ClientState) (k : Nat) (q : TidalRequest) : ClientState :=
  { s with requests := s.requests.set k q }

/-- The refusals that are left when a refresh has gone on. -/
def reissued (refused : List (Nat × String)) : Cycle -> Cycle ->
    List (Nat × String)
  | .storing r _ _ _, .publishing _ token _ =>
      refused.filter fun entry => decide (entry ≠ (r.pointer, token))
  | _, _ => refused

/-- The request after a step of its refresh. -/
def afterCycle (q : TidalRequest) (force : Bool) : Cycle -> TidalRequest
  | .ended result => q.resume force result
  | c => { q with stage := .refreshing force c }

def getToken (s : ClientState) (k : Nat) (q : TidalRequest) (now : I64) :
    ClientState :=
  match AccountManager.rateLimitRemaining now (s.record q.pointer) with
  | some seconds =>
      s.putRequest k (q.resume false (.error (.rateLimited seconds)))
  | none =>
      match cachedToken now (s.record q.pointer) with
      | some token => s.putRequest k (q.resume false (.ok token))
      | none => s.putRequest k { q with stage := .entering none false }

def enter (s : ClientState) (k : Nat) (q : TidalRequest)
    (previous : Option String) (force : Bool) (now : I64) : ClientState :=
  match enterRefresh now previous force (s.record q.pointer) with
  | .answered result => s.putRequest k (q.resume force result)
  | .proceed => s.putRequest k { q with stage := .sharing previous force }

/-- The token a refresh must not take from the Redis key. -/
def excluded (previous : Option String) (force : Bool) : Option String :=
  if force then previous else none

def sharedToken (s : ClientState) (k : Nat) (q : TidalRequest)
    (previous : Option String) (force : Bool) (now : I64)
    (text : Option (Option Value)) : ClientState :=
  let a := s.record q.pointer
  match hshared : TokenManager.sharedToken now (excluded previous force) text a with
  | some (a', token) =>
      { s with
        roster :=
          Roster.saveRefreshState
            { s.roster with
              memory := s.roster.memory.write q.pointer a' (by
                rcases (sharedToken_eq_some hshared).right with ⟨_, ha⟩
                rw [ha]
                rfl) }
            q.pointer
        requests := s.requests.set k (q.resume force (.ok token)) }
  | none =>
      s.putRequest k
        { q with
          stage :=
            .refreshing force
              (.sending ⟨q.pointer, 0, cycleAttempts a, a.authUseBasic⟩) }

def cycle (s : ClientState) (k : Nat) (q : TidalRequest) (force : Bool)
    (c : Cycle) (e : CycleEvent) : Option ClientState :=
  (c.step s.roster e).map fun next =>
    { roster := next.1
      requests := s.requests.set k (afterCycle q force next.2)
      refused := reissued s.refused c next.2 }

def answer (s : ClientState) (k : Nat) (q : TidalRequest) (token : String)
    (status : Nat) (retryAfter : Option Nat) : ClientState :=
  { s with
    requests := s.requests.set k { q with stage := .answered token status retryAfter }
    refused :=
      if status = 401 ∧ (s.record q.pointer).accessToken = some token then
        (q.pointer, token) :: s.refused
      else s.refused }

def step (s : ClientState) : ClientAction -> Option ClientState
  | .start p kind requestsPerAccount =>
      if p < s.roster.memory.fresh then
        some
          { s with
            requests :=
              s.requests ++ [⟨p, kind, max requestsPerAccount 1, 0, false, .ready⟩] }
      else none
  | .getToken k now =>
      match s.requests[k]? with
      | some q =>
          match q.stage with
          | .ready => some (s.getToken k q now)
          | _ => none
      | none => none
  | .enter k now =>
      match s.requests[k]? with
      | some q =>
          match q.stage with
          | .entering previous force => some (s.enter k q previous force now)
          | _ => none
      | none => none
  | .sharedToken k now text =>
      match s.requests[k]? with
      | some q =>
          match q.stage with
          | .sharing previous force =>
              some (s.sharedToken k q previous force now text)
          | _ => none
      | none => none
  | .cycle k e =>
      match s.requests[k]? with
      | some q =>
          match q.stage with
          | .refreshing force c => s.cycle k q force c e
          | _ => none
      | none => none
  | .send k now =>
      match s.requests[k]? with
      | some q =>
          match q.stage with
          | .holding token =>
              match AccountManager.rateLimitRemaining now (s.record q.pointer) with
              | some _ => some (s.putRequest k { q with stage := .ended })
              | none => some (s.putRequest k { q with stage := .sent token })
          | _ => none
      | none => none
  | .answer k status retryAfter =>
      match s.requests[k]? with
      | some q =>
          match q.stage with
          | .sent token => some (s.answer k q token status retryAfter)
          | _ => none
      | none => none
  | .lose k =>
      match s.requests[k]? with
      | some q =>
          match q.stage with
          | .sent _ => some (s.putRequest k { q with stage := .ended })
          | _ => none
      | none => none
  | .react k now jitter =>
      match s.requests[k]? with
      | some q =>
          match q.stage with
          | .answered token status retryAfter =>
              let next := q.react s.roster token status retryAfter now jitter
              some
                { s with
                  roster := next.1
                  requests := s.requests.set k next.2 }
          | _ => none
      | none => none

end ClientState

/-- The requests of one instance as a step system. -/
def clientSystem : System ClientState ClientAction :=
  ⟨ClientState.step⟩

end HifiApi
