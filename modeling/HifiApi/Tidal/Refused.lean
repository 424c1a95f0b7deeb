import HifiApi.Tidal.Requests

/-!
# Refused tokens

Tidal answers 401 to a request whose token is still the account's.  The loop of
the request marks the token, and a marked token is not served again.  Two
branches end a request without a mark; the marker of an account holds a single
token; and a request that is under way keeps the token it has.
-/

namespace HifiApi

open TokenManager

namespace RequestStage

/-- No token is in hand, and none is being refreshed. -/
def idle : RequestStage -> Bool
  | .refreshing _ _ => false
  | .holding _ => false
  | _ => true

def isAnswered : RequestStage -> Bool
  | .answered _ _ _ => true
  | _ => false

end RequestStage

namespace TidalRequest

/-- The loop marks its token when it reads a 401 now. -/
def marks (q : TidalRequest) : Bool :=
  match q.kind with
  | .pool => q.refreshed || q.hasBudget
  | .catalog => q.hasBudget || decide (0 < q.attempt)

/-- The token that the request is going to send. -/
def inHand (q : TidalRequest) : Option String :=
  match q.stage with
  | .holding token => some token
  | .refreshing force (.publishing _ token _) =>
      if force = true ∧ q.kind = .pool then none else some token
  | _ => none

/-- The status of an answer is worth another attempt with the same token. -/
def resends (q : TidalRequest) (status : Nat) : Prop :=
  q.kind = .catalog ∧ (status = 403 ∨ 500 ≤ status) ∧ q.hasBudget = true

/-- Tidal has refused a token, and the request has not read the answer. -/
def Unread (q : TidalRequest) (p : Nat) (token : String) : Prop :=
  q.pointer = p ∧ exists retryAfter, q.stage = .answered token 401 retryAfter

end TidalRequest

namespace ClientAction

/-- The settings allow one to ten requests per account. -/
def InSettings : ClientAction -> Prop
  | .start _ _ requestsPerAccount =>
      1 ≤ requestsPerAccount ∧ requestsPerAccount ≤ 10
  | _ => True

end ClientAction

namespace ClientState

/-- Before the first request. -/
structure Starts (s : ClientState) : Prop where
  requests : s.requests = []
  refused : s.refused = []

/-- The cached token is not a refused one. -/
def NotReturned (s : ClientState) : ClientAction -> Prop
  | .getToken k now
  | .enter k now =>
      forall q token, s.requests[k]? = some q ->
        cachedToken now (s.record q.pointer) = some token ->
        (q.pointer, token) ∉ s.refused
  | _ => True

/-- No request is sent with a refused token. -/
def NotPresented (s : ClientState) : ClientAction -> Prop
  | .send k _ =>
      forall q token, s.requests[k]? = some q -> q.stage = .holding token ->
        (q.pointer, token) ∉ s.refused
  | _ => True

/-- A refused token is neither served nor sent again, in any run. -/
def RefusedNotServed : Prop :=
  forall (s : ClientState) (actions : List ClientAction), s.Starts ->
    (forall action, action ∈ actions -> action.InSettings) ->
      clientSystem.Along (fun s action => s.NotReturned action ∧
        s.NotPresented action) s actions

/-- The token that the text of the Redis key advertises, with its expiry
time. -/
def advertised (text : Option (Option Value)) : Option (String × I64) := do
  let data ← text.bind fun value => value
  let token ← (data.get "t").bind Value.asStr
  let expires ← (data.get "e").bind Value.asI64
  return (token, expires)

/-- A 401 for the current token is answered to a request that marks it, or the
token is marked; the token is asked for once the answers to it have been read;
the Redis key advertises a refused token only to callers that do not take it. -/
def Marked (s : ClientState) : ClientAction -> Prop
  | .getToken k _
  | .enter k _ =>
      forall q token, s.requests[k]? = some q ->
        (s.record q.pointer).accessToken = some token ->
        (s.record q.pointer).rejectedAccessToken ≠ some token ->
        forall q', q' ∈ s.requests -> ¬ q'.Unread q.pointer token
  | .sharedToken k now text =>
      forall q previous force token expires, s.requests[k]? = some q ->
        q.stage = .sharing previous force ->
        advertised text = some (token, expires) ->
        (q.pointer, token) ∈ s.refused ->
          I64.wrap (expires.val - 60) ≤ now.val ∨
            excluded previous force = some token ∨
            (s.record q.pointer).rejectedAccessToken = some token
  | .answer k status _ =>
      forall q token, s.requests[k]? = some q -> q.stage = .sent token ->
        status = 401 -> (s.record q.pointer).accessToken = some token ->
          (s.record q.pointer).rejectedAccessToken = some token ∨
            q.marks = true
  | _ => True

/-- No request has the current token in hand when Tidal answers 401 to it, and
none tries a refused token again. -/
def Released (s : ClientState) : ClientAction -> Prop
  | .answer k status _ =>
      forall q token, s.requests[k]? = some q -> q.stage = .sent token ->
        status = 401 -> (s.record q.pointer).accessToken = some token ->
          forall q', q' ∈ s.requests -> q'.pointer = q.pointer ->
            q'.inHand ≠ some token
  | .react k _ _ =>
      forall q token status retryAfter, s.requests[k]? = some q ->
        q.stage = .answered token status retryAfter -> q.resends status ->
          (q.pointer, token) ∉ s.refused
  | _ => True

/-!
## Where refused tokens stand
-/

/-- A 401 for the token is about to be read by a request that marks it. -/
def Pending (s : ClientState) (p : Nat) (token : String) : Prop :=
  exists q, q ∈ s.requests ∧ q.marks = true ∧ q.Unread p token

/-- The current token of an account is marked, or about to be, when Tidal has
refused it. -/
def Guarded (s : ClientState) : Prop :=
  forall p token, (p, token) ∈ s.refused ->
    (s.record p).accessToken = some token ->
      (s.record p).rejectedAccessToken = some token ∨ s.Pending p token

end ClientState

/-- The refresh that a cycle is still at. -/
def Cycle.refreshing? : Cycle -> Option Refreshing
  | .sending r => some r
  | .asking r _ => some r
  | .storing r _ _ _ => some r
  | .publishing r _ _ => some r
  | .ended _ => none

/-- The token in hand is none of the refused ones, and a refresh is about the
account of its request. -/
structure TidalRequest.Fresh (q : TidalRequest)
    (refused : List (Nat × String)) : Prop where
  inHand : forall token, q.inHand = some token -> (q.pointer, token) ∉ refused
  refresh : forall force c r, q.stage = .refreshing force c ->
    c.refreshing? = some r -> r.pointer = q.pointer

/-- Every request is fresh. -/
def ClientState.AllFresh (s : ClientState) : Prop :=
  forall q, q ∈ s.requests -> q.Fresh s.refused

/-!
## The steps
-/

namespace ClientState

/-- The steps, with the request that takes them and its stage. -/
inductive Moves (s : ClientState) : ClientAction -> ClientState -> Prop where
  | start (p : Nat) (kind : RequestKind) (n : Nat) :
      Moves s (.start p kind n)
        { s with requests := s.requests ++ [⟨p, kind, max n 1, 0, false, .ready⟩] }
  | getToken {k : Nat} {q : TidalRequest} (now : I64)
      (hq : s.requests[k]? = some q) (hstage : q.stage = .ready) :
      Moves s (.getToken k now) (s.getToken k q now)
  | enter {k : Nat} {q : TidalRequest} {previous : Option String} {force : Bool}
      (now : I64) (hq : s.requests[k]? = some q)
      (hstage : q.stage = .entering previous force) :
      Moves s (.enter k now) (s.enter k q previous force now)
  | sharedToken {k : Nat} {q : TidalRequest} {previous : Option String}
      {force : Bool} (now : I64) (text : Option (Option Value))
      (hq : s.requests[k]? = some q)
      (hstage : q.stage = .sharing previous force) :
      Moves s (.sharedToken k now text) (s.sharedToken k q previous force now text)
  | cycle {k : Nat} {q : TidalRequest} {force : Bool} {c c' : Cycle}
      {e : CycleEvent} {m : Roster accounts} (hq : s.requests[k]? = some q)
      (hstage : q.stage = .refreshing force c)
      (hstep : c.step s.roster e = some (m, c')) :
      Moves s (.cycle k e)
        ⟨m, s.requests.set k (afterCycle q force c'), reissued s.refused c c'⟩
  | send {k : Nat} {q : TidalRequest} {token : String} {stage : RequestStage}
      (now : I64) (hq : s.requests[k]? = some q)
      (hstage : q.stage = .holding token)
      (hnext : stage = .ended ∨ stage = .sent token) :
      Moves s (.send k now) (s.putRequest k { q with stage })
  | answer {k : Nat} {q : TidalRequest} {token : String} (status : Nat)
      (retryAfter : Option Nat) (hq : s.requests[k]? = some q)
      (hstage : q.stage = .sent token) :
      Moves s (.answer k status retryAfter) (s.answer k q token status retryAfter)
  | lose {k : Nat} {q : TidalRequest} {token : String}
      (hq : s.requests[k]? = some q) (hstage : q.stage = .sent token) :
      Moves s (.lose k) (s.putRequest k { q with stage := .ended })
  | react {k : Nat} {q : TidalRequest} {token : String} {status : Nat}
      {retryAfter : Option Nat} (now : I64) (jitter : Nat)
      (hq : s.requests[k]? = some q)
      (hstage : q.stage = .answered token status retryAfter) :
      Moves s (.react k now jitter)
        { s with
          roster := (q.react s.roster token status retryAfter now jitter).1
          requests := s.requests.set k
            (q.react s.roster token status retryAfter now jitter).2 }

theorem moves_of_step {s s' : ClientState} {action : ClientAction}
    (h : clientSystem.step s action = some s') : s.Moves action s' := by
  cases action with
  | start p kind n =>
      simp only [clientSystem, step] at h
      split at h
      · cases h
        exact .start p kind n
      · cases h
  | getToken k now =>
      simp only [clientSystem, step] at h
      split at h
      · rename_i q hq
        split at h
        · rename_i hstage
          cases h
          exact .getToken now hq hstage
        · cases h
      · cases h
  | enter k now =>
      simp only [clientSystem, step] at h
      split at h
      · rename_i q hq
        split at h
        · rename_i previous force hstage
          cases h
          exact .enter now hq hstage
        · cases h
      · cases h
  | sharedToken k now text =>
      simp only [clientSystem, step] at h
      split at h
      · rename_i q hq
        split at h
        · rename_i previous force hstage
          cases h
          exact .sharedToken now text hq hstage
        · cases h
      · cases h
  | cycle k e =>
      simp only [clientSystem, step] at h
      split at h
      · rename_i q hq
        split at h
        · rename_i force c hstage
          rcases Option.map_eq_some_iff.mp h with ⟨next, hstep, hs'⟩
          rw [← hs']
          exact .cycle hq hstage hstep
        · cases h
      · cases h
  | send k now =>
      simp only [clientSystem, step] at h
      split at h
      · rename_i q hq
        split at h
        · rename_i token hstage
          split at h
          · cases h
            exact .send now hq hstage (Or.inl rfl)
          · cases h
            exact .send now hq hstage (Or.inr rfl)
        · cases h
      · cases h
  | answer k status retryAfter =>
      simp only [clientSystem, step] at h
      split at h
      · rename_i q hq
        split at h
        · rename_i token hstage
          cases h
          exact .answer status retryAfter hq hstage
        · cases h
      · cases h
  | lose k =>
      simp only [clientSystem, step] at h
      split at h
      · rename_i q hq
        split at h
        · rename_i token hstage
          cases h
          exact .lose hq hstage
        · cases h
      · cases h
  | react k now jitter =>
      simp only [clientSystem, step] at h
      split at h
      · rename_i q hq
        split at h
        · rename_i token status retryAfter hstage
          cases h
          exact .react now jitter hq hstage
        · cases h
      · cases h

end ClientState

/-!
## What a step leaves on the records
-/

/-- Tokens and their marks stay. -/
structure Roster.KeepsSlots (m m' : Roster accounts) : Prop where
  slot : forall p,
    (m'.memory.cells p).accessToken = (m.memory.cells p).accessToken
  rejected : forall p,
    (m'.memory.cells p).rejectedAccessToken =
      (m.memory.cells p).rejectedAccessToken

/-- The token of an account has been marked, if it still is the token given. -/
structure Roster.MarksToken (m m' : Roster accounts) (p : Nat)
    (token : String) : Prop where
  slot : forall q,
    (m'.memory.cells q).accessToken = (m.memory.cells q).accessToken
  others : forall q, q ≠ p ->
    (m'.memory.cells q).rejectedAccessToken =
      (m.memory.cells q).rejectedAccessToken
  marked : (m.memory.cells p).accessToken = some token ->
    (m'.memory.cells p).rejectedAccessToken = some token
  unmarked : (m.memory.cells p).accessToken ≠ some token ->
    (m'.memory.cells p).rejectedAccessToken =
      (m.memory.cells p).rejectedAccessToken

namespace Roster

variable {m m' : Roster accounts}

theorem KeepsSlots.refl (m : Roster accounts) : m.KeepsSlots m where
  slot := fun _ => rfl
  rejected := fun _ => rfl

theorem Keeps.keepsSlots (h : m.Keeps m') : m.KeepsSlots m' where
  slot := fun p => (h.cells p).accessToken
  rejected := fun p => (h.cells p).rejected

theorem keepsSlots_pauseAccount (m : Roster accounts) (p : Nat) (now : I64)
    (retryAfter : Option Nat) :
    m.KeepsSlots (m.pauseAccount p now retryAfter) := by
  have hkeeps : m.Keeps (m.pauseAccount p now retryAfter) :=
    keeps_rewrite _ fun _ => ⟨rfl, rfl, rfl, rfl⟩
  exact hkeeps.keepsSlots

/-- A rewrite that marks the token at hand, and what {lit}`reject_access_token`
saves after it. -/
theorem marksToken_rewrite (m : Roster accounts) (p : Nat) (token : String)
    {f : AccountState -> AccountState} (hf : forall a, (f a).id = a.id)
    (hslot : forall a, (f a).accessToken = a.accessToken)
    (hmark : forall a, (f a).rejectedAccessToken =
      (TokenManager.rejectAccessToken token a).rejectedAccessToken) :
    m.MarksToken ((m.rewrite p f hf).saveRefreshState p) p token := by
  have hself : ((m.rewrite p f hf).saveRefreshState p).memory.cells p =
      f (m.memory.cells p) := Function.update_self ..
  have hother : forall q, q ≠ p ->
      ((m.rewrite p f hf).saveRefreshState p).memory.cells q =
        m.memory.cells q := fun q hq => Function.update_of_ne hq ..
  constructor
  · intro q
    by_cases hq : q = p
    · rw [hq, hself, hslot]
    · rw [hother q hq]
  · intro q hq
    rw [hother q hq]
  · intro hcurrent
    rw [hself, hmark, TokenManager.rejectAccessToken, if_pos hcurrent]
  · intro hcurrent
    rw [hself, hmark, TokenManager.rejectAccessToken, if_neg hcurrent]

theorem marksToken_rejectAccessToken (m : Roster accounts) (p : Nat)
    (token : String) : m.MarksToken (m.rejectAccessToken p token) p token := by
  apply marksToken_rewrite
  · intro a
    unfold TokenManager.rejectAccessToken
    split <;> rfl
  · exact fun _ => rfl

theorem marksToken_rejectRefreshedToken (m : Roster accounts) (p : Nat)
    (now : I64) (jitter : Nat) (token : String) :
    m.MarksToken (m.rejectRefreshedToken p now jitter token) p token := by
  apply marksToken_rewrite
  · intro a
    unfold TokenManager.rejectRefreshedToken TokenManager.rejectAccessToken
    split <;> rfl
  · exact fun _ => rfl

end Roster

namespace TidalRequest

variable {q : TidalRequest} {token : String} {status : Nat}
  {retryAfter : Option Nat} {now : I64} {jitter : Nat}
  {refused : List (Nat × String)}

theorem fresh_of_idle {stage : RequestStage} (hidle : stage.idle = true) :
    ({ q with stage } : TidalRequest).Fresh refused := by
  cases stage with
  | holding token =>
      cases hidle
  | refreshing force c =>
      cases hidle
  | _ =>
      constructor
      · intro token htoken
        cases htoken
      · intro force c r hstage
        cases hstage

/-- A request whose refresh has not stored its token yet. -/
theorem fresh_refreshing {force : Bool} {c : Cycle} {r : Refreshing}
    (hhand : ({ q with stage := .refreshing force c } : TidalRequest).inHand = none)
    (hc : c.refreshing? = some r) (hr : r.pointer = q.pointer) :
    ({ q with stage := .refreshing force c } : TidalRequest).Fresh refused where
  inHand := by
    intro token htoken
    rw [hhand] at htoken
    cases htoken
  refresh := by
    intro force' c' r' hstage hr'
    cases hstage
    cases hc.symm.trans hr'
    exact hr

theorem fresh_holding (htoken : (q.pointer, token) ∉ refused) :
    ({ q with stage := .holding token } : TidalRequest).Fresh refused where
  inHand := by
    intro held hheld
    cases hheld
    exact htoken
  refresh := by
    intro force c r hstage
    cases hstage

/-- A token request that has come back leaves its token in hand, except for the
forced one of the pool, which asks again. -/
theorem fresh_resume {force : Bool} {result : Except AppError String}
    (hresult : forall token, result = .ok token ->
      ¬ (force = true ∧ q.kind = .pool) -> (q.pointer, token) ∉ refused) :
    (q.resume force result).Fresh refused := by
  unfold resume
  cases result with
  | error e =>
      exact TidalRequest.fresh_of_idle rfl
  | ok token =>
      cases force with
      | false =>
          apply fresh_holding
          exact hresult token rfl fun h => Bool.noConfusion h.left
      | true =>
          dsimp only
          rw [if_pos rfl]
          cases hkind : q.kind with
          | pool =>
              constructor
              · intro held hheld
                cases hheld
              · intro force c r hstage
                cases hstage
          | catalog =>
              have htoken := hresult token rfl fun h => by
                rw [hkind] at h
                cases h.right
              constructor
              · intro held hheld
                cases hheld
                exact htoken
              · intro force c r hstage
                cases hstage

theorem fresh_resume_error (force : Bool) (e : AppError) :
    (q.resume force (.error e)).Fresh refused :=
  fresh_resume fun _ h => Except.noConfusion (rfl) (rfl) (heq_of_eq h)

/-- A 401 is marked by every branch but two. -/
theorem unauthorized_marksToken {m : Roster accounts} (hmarks : q.marks = true) :
    m.MarksToken (q.unauthorized m token now jitter).1 q.pointer token := by
  unfold marks at hmarks
  unfold unauthorized
  cases hkind : q.kind with
  | pool =>
      rw [hkind] at hmarks
      dsimp only at hmarks ⊢
      unfold unauthorizedPool
      split
      · rename_i hfirst
        have hbudget : q.hasBudget = true := by simpa [hfirst] using hmarks
        rw [if_pos hbudget]
        exact Roster.marksToken_rejectAccessToken m q.pointer token
      · exact Roster.marksToken_rejectRefreshedToken m q.pointer now jitter token
  | catalog =>
      rw [hkind] at hmarks
      dsimp only at hmarks ⊢
      unfold unauthorizedCatalog
      split
      · exact Roster.marksToken_rejectAccessToken m q.pointer token
      · rename_i hbudget
        have hattempt : 0 < q.attempt := by simpa [hbudget] using hmarks
        rw [if_pos hattempt]
        exact Roster.marksToken_rejectRefreshedToken m q.pointer now jitter token

theorem unauthorized_of_not_marks {m : Roster accounts} (hmarks : q.marks ≠ true) :
    (q.unauthorized m token now jitter).1 = m := by
  unfold marks at hmarks
  unfold unauthorized
  cases hkind : q.kind with
  | pool =>
      rw [hkind] at hmarks
      dsimp only at hmarks ⊢
      have hnone : q.refreshed = false ∧ q.hasBudget = false := by
        simpa using hmarks
      unfold unauthorizedPool
      rw [if_pos hnone.left, if_neg (by simp [hnone.right])]
  | catalog =>
      rw [hkind] at hmarks
      dsimp only at hmarks ⊢
      have hnone : q.hasBudget = false ∧ ¬ 0 < q.attempt := by
        simpa using hmarks
      unfold unauthorizedCatalog
      rw [if_neg (by simp [hnone.left]), if_neg hnone.right]

theorem react_marksToken {m : Roster accounts} (hstatus : status = 401)
    (hmarks : q.marks = true) :
    m.MarksToken (q.react m token status retryAfter now jitter).1 q.pointer
      token := by
  unfold react
  rw [if_pos hstatus]
  exact unauthorized_marksToken hmarks

theorem react_keepsSlots {m : Roster accounts}
    (h : ¬ (status = 401 ∧ q.marks = true)) :
    m.KeepsSlots (q.react m token status retryAfter now jitter).1 := by
  unfold react
  split
  · rename_i hstatus
    rw [unauthorized_of_not_marks fun hmarks => h ⟨hstatus, hmarks⟩]
    exact Roster.KeepsSlots.refl m
  · split
    · exact Roster.keepsSlots_pauseAccount m q.pointer now retryAfter
    · split <;> exact Roster.KeepsSlots.refl m

/-- The stages in which the loop leaves a request after an answer. -/
inductive Reacted (q : TidalRequest) (token : String) (status : Nat) :
    TidalRequest -> Prop where
  | ended : Reacted q token status { q with stage := .ended }
  | entering (refreshed : Bool) :
      Reacted q token status
        { q with refreshed, stage := .entering (some token) true }
  | ready (attempt : Nat) :
      Reacted q token status { q with attempt, stage := .ready }
  | holding (attempt : Nat) (hresends : q.resends status) :
      Reacted q token status { q with attempt, stage := .holding token }

theorem reacted_unauthorized (m : Roster accounts) :
    Reacted q token status (q.unauthorized m token now jitter).2 := by
  unfold unauthorized
  cases q.kind with
  | pool =>
      dsimp only
      unfold unauthorizedPool
      split
      · split
        · exact .entering true
        · exact .ended
      · exact .ended
  | catalog =>
      dsimp only
      unfold unauthorizedCatalog
      split
      · exact .entering q.refreshed
      · split <;> exact .ended

theorem reacted_react (m : Roster accounts) :
    Reacted q token status (q.react m token status retryAfter now jitter).2 := by
  unfold react
  split
  · exact reacted_unauthorized m
  · split
    · exact .ended
    · split
      · rename_i hagain
        unfold again
        cases hkind : q.kind with
        | pool =>
            have hready : Reacted q token status
                { q with attempt := q.attempt + 1, stage := .ready } :=
              .ready (q.attempt + 1)
            rw [hkind] at hready
            exact hready
        | catalog =>
            have hholding : Reacted q token status
                { q with attempt := q.attempt + 1, stage := .holding token } :=
              .holding (q.attempt + 1) ⟨hkind, hagain⟩
            rw [hkind] at hholding
            exact hholding
      · exact .ended

theorem fresh_of_reacted {q' : TidalRequest} (h : Reacted q token status q')
    (hresends : q.resends status -> (q.pointer, token) ∉ refused) :
    q'.Fresh refused := by
  cases h with
  | holding attempt hagain =>
      exact fresh_holding (q := { q with attempt }) (hresends hagain)
  | _ =>
      constructor
      · intro held hheld
        cases hheld
      · intro force c r hstage
        cases hstage

end TidalRequest

/-!
## What a refresh leaves
-/

section Refresh

variable {m m' : Roster accounts} {c c' : Cycle} {e : CycleEvent}
  {refused : List (Nat × String)}

/-- A refresh that ends after its token was stored answers with it, or with an
error. -/
theorem Cycle.step_publishing_result {r : Refreshing} {token : String}
    {expires : Int}
    (h : (publishing r token expires).step m e = some (m', c')) :
    c' = .ended (.ok token) ∨ exists error, c' = .ended (.error error) := by
  cases e with
  | publish =>
      cases h
      exact Or.inl rfl
  | timeout now jitter =>
      cases h
      exact Or.inr ⟨_, rfl⟩
  | _ =>
      cases h

/-- Only the store step of a refresh changes a token, and the new token is no
longer a refused one. -/
theorem Cycle.step_slots (refused : List (Nat × String))
    (h : c.step m e = some (m', c')) :
    (m.KeepsSlots m' ∧ ClientState.reissued refused c c' = refused) ∨
      exists p token, (m'.memory.cells p).accessToken = some token ∧
        (forall q, q ≠ p -> m'.memory.cells q = m.memory.cells q) ∧
        ClientState.reissued refused c c' =
          refused.filter fun entry => decide (entry ≠ (p, token)) := by
  cases c with
  | sending r =>
      rcases step_sending h with ⟨hkeeps, hnext⟩
      exact Or.inl ⟨hkeeps.keepsSlots, rfl⟩
  | asking r oldRefresh =>
      rcases step_asking h with ⟨hkeeps, hnext⟩
      exact Or.inl ⟨hkeeps.keepsSlots, rfl⟩
  | storing r oldRefresh grant expires =>
      rcases step_storing h with ⟨now, jitter, _, hstore, hc'⟩ | ⟨hkeeps, error, hc'⟩
      · have hstored := Roster.stored_of_ok hstore
        refine Or.inr ⟨r.pointer, grant.token, ?_, hstored.others, ?_⟩
        · rw [hstored.record]
        · rw [hc']
          rfl
      · rw [hc']
        exact Or.inl ⟨hkeeps.keepsSlots, rfl⟩
  | publishing r token expires =>
      rcases step_publishing h with ⟨hkeeps, result, hc'⟩
      rw [hc']
      exact Or.inl ⟨hkeeps.keepsSlots, rfl⟩
  | ended result =>
      cases e <;> cases h

/-- A refresh leaves its request fresh. -/
theorem TidalRequest.Fresh.afterCycle {q : TidalRequest} {force : Bool}
    (hfresh : q.Fresh refused) (hstage : q.stage = .refreshing force c)
    (h : c.step m e = some (m', c')) :
    (ClientState.afterCycle q force c').Fresh
      (ClientState.reissued refused c c') := by
  cases c with
  | sending r =>
      have hr : r.pointer = q.pointer := hfresh.refresh _ _ r hstage rfl
      rcases Cycle.step_sending h with ⟨_, hc' | ⟨error, hc'⟩⟩
      · rw [hc']
        exact fresh_refreshing rfl rfl hr
      · rw [hc']
        exact fresh_resume_error force error
  | asking r oldRefresh =>
      have hr : r.pointer = q.pointer := hfresh.refresh _ _ r hstage rfl
      rcases Cycle.step_asking h with
        ⟨_, ⟨r₁, hc', hr₁⟩ | ⟨error, hc'⟩ |
          ⟨now, jitter, response, grant, _, _, hc'⟩⟩
      · rw [hc']
        exact fresh_refreshing rfl rfl (hr₁.trans hr)
      · rw [hc']
        exact fresh_resume_error force error
      · rw [hc']
        exact fresh_refreshing rfl rfl hr
  | storing r oldRefresh grant expires =>
      have hr : r.pointer = q.pointer := hfresh.refresh _ _ r hstage rfl
      rcases Cycle.step_storing h with ⟨_, _, _, _, hc'⟩ | ⟨_, error, hc'⟩
      · rw [hc']
        constructor
        · intro token htoken
          have hgrant : grant.token = token := by
            change (if force = true ∧ q.kind = .pool then none
              else some grant.token) = some token at htoken
            split at htoken
            · cases htoken
            · exact Option.some.inj htoken
          rw [← hgrant]
          simp [ClientState.reissued, ClientState.afterCycle, hr]
        · intro force' c r' hstage' hr'
          cases hstage'
          cases hr'
          exact hr
      · rw [hc']
        exact fresh_resume_error force error
  | publishing r token expires =>
      rcases Cycle.step_publishing_result h with hc' | ⟨error, hc'⟩
      · rw [hc']
        show (q.resume force (.ok token)).Fresh refused
        apply fresh_resume
        intro token' htoken' hasks
        cases htoken'
        apply hfresh.inHand
        unfold TidalRequest.inHand
        rw [hstage]
        dsimp only
        rw [if_neg hasks]
      · rw [hc']
        exact fresh_resume_error force error
  | ended result =>
      cases e <;> cases h

end Refresh

/-!
## Tokens that are handed out
-/

/-- A refresh that is answered at its entry is answered with the cached
token. -/
theorem TokenManager.cachedToken_of_enterRefresh {now : I64}
    {previous : Option String} {force : Bool} {a : AccountState} {token : String}
    (h : enterRefresh now previous force a = .answered (.ok token)) :
    cachedToken now a = some token := by
  unfold enterRefresh at h
  dsimp only at h
  split at h
  · rename_i held hheld
    cases h
    exact (Option.filter_eq_some_iff.mp hheld).left
  · split at h
    · cases h
    · split at h <;> cases h

namespace ClientState

variable {s s' : ClientState} {k : Nat} {q : TidalRequest} {now : I64}

theorem getToken_eq (s : ClientState) (k : Nat) (q : TidalRequest) (now : I64) :
    exists q', s.getToken k q now = s.putRequest k q' ∧
      ((forall token, cachedToken now (s.record q.pointer) = some token ->
        (q.pointer, token) ∉ s.refused) -> q'.Fresh s.refused) := by
  unfold getToken
  split
  · rename_i seconds _
    exact ⟨_, rfl, fun _ => TidalRequest.fresh_resume_error false _⟩
  · split
    · rename_i token htoken
      refine ⟨_, rfl, fun hcached => TidalRequest.fresh_resume ?_⟩
      intro token' htoken' _
      cases htoken'
      exact hcached token htoken
    · exact ⟨_, rfl, fun _ => TidalRequest.fresh_of_idle rfl⟩

theorem enter_eq (s : ClientState) (k : Nat) (q : TidalRequest)
    (previous : Option String) (force : Bool) (now : I64) :
    exists q', s.enter k q previous force now = s.putRequest k q' ∧
      ((forall token, cachedToken now (s.record q.pointer) = some token ->
        (q.pointer, token) ∉ s.refused) -> q'.Fresh s.refused) := by
  unfold enter
  split
  · rename_i result hentry
    refine ⟨_, rfl, fun hcached => TidalRequest.fresh_resume ?_⟩
    intro token htoken _
    rw [htoken] at hentry
    exact hcached token (cachedToken_of_enterRefresh hentry)
  · exact ⟨_, rfl, fun _ => TidalRequest.fresh_of_idle rfl⟩

theorem advertised_of_sharedToken {previous : Option String}
    {text : Option (Option Value)} {a a' : AccountState} {token : String}
    (h : TokenManager.sharedToken now previous text a = some (a', token)) :
    exists expires, advertised text = some (token, expires) ∧
      ¬ I64.wrap (expires.val - 60) ≤ now.val ∧ previous ≠ some token ∧
      a.rejectedAccessToken ≠ some token := by
  simp only [TokenManager.sharedToken, Option.bind_eq_bind,
    Option.bind_eq_some_iff] at h
  rcases h with ⟨data, hdata, held, hheld, expires, hexpires, hlive⟩
  split at hlive
  · cases hlive
  · rename_i hnot
    cases hlive
    simp only [not_or] at hnot
    refine ⟨expires, ?_, hnot.right⟩
    simp only [advertised, Option.bind_eq_bind, Option.bind_eq_some_iff]
    exact ⟨data, hdata, _, hheld, expires, hexpires, rfl⟩

/-- The Redis key gives a request no refused token. -/
theorem not_refused_of_sharedToken {previous : Option String} {force : Bool}
    {text : Option (Option Value)} {a' : AccountState} {token : String}
    (hmarked : s.Marked (.sharedToken k now text))
    (hq : s.requests[k]? = some q) (hstage : q.stage = .sharing previous force)
    (h : TokenManager.sharedToken now (excluded previous force) text
      (s.record q.pointer) = some (a', token)) :
    (q.pointer, token) ∉ s.refused := by
  intro hentry
  rcases advertised_of_sharedToken h with
    ⟨expires, htext, hlive, hexcluded, hrejected⟩
  rcases hmarked q previous force token expires hq hstage htext hentry with
    hexpired | hprevious | hmark
  · exact hlive hexpired
  · exact hexcluded hprevious
  · exact hrejected hmark

/-- A step that reads the Redis key takes over its token, or goes on to the
auth server. -/
theorem sharedToken_eq (s : ClientState) (k : Nat) (q : TidalRequest)
    (previous : Option String) (force : Bool) (now : I64)
    (text : Option (Option Value)) :
    (exists r, r.pointer = q.pointer ∧
      s.sharedToken k q previous force now text =
        s.putRequest k { q with stage := .refreshing force (.sending r) }) ∨
    exists a' token,
      TokenManager.sharedToken now (excluded previous force) text
        (s.record q.pointer) = some (a', token) ∧
      (s.sharedToken k q previous force now text).requests =
        s.requests.set k (q.resume force (.ok token)) ∧
      (s.sharedToken k q previous force now text).refused = s.refused ∧
      ((s.sharedToken k q previous force now text).record
        q.pointer).accessToken = some token ∧
      forall p, p ≠ q.pointer ->
        (s.sharedToken k q previous force now text).record p = s.record p := by
  unfold sharedToken
  dsimp only
  split
  · rename_i a' token hshared
    rcases (sharedToken_eq_some hshared).right with ⟨expires, ha'⟩
    refine Or.inr ⟨a', token, hshared, rfl, rfl, ?_, ?_⟩
    · show (Function.update s.roster.memory.cells q.pointer a'
        q.pointer).accessToken = some token
      rw [Function.update_self, ha']
    · intro p hp
      exact Function.update_of_ne hp ..
  · exact Or.inl ⟨_, rfl, rfl⟩

/-!
## One step
-/

/-- A 401 that is about to be marked stays so while another request moves. -/
theorem Pending.set {p : Nat} {token : String} (h : s.Pending p token)
    (hq : s.requests[k]? = some q)
    (hread : q.marks = true -> ¬ q.Unread p token) (m : Roster accounts)
    (q' : TidalRequest) (refused : List (Nat × String)) :
    Pending ⟨m, s.requests.set k q', refused⟩ p token := by
  rcases h with ⟨w, hw, hmarks, hunread⟩
  rcases List.mem_iff_getElem?.mp hw with ⟨j, hj⟩
  have hkj : k ≠ j := by
    intro heq
    rw [← heq, hq] at hj
    cases hj
    exact hread hmarks hunread
  refine ⟨w, ?_, hmarks, hunread⟩
  apply List.mem_of_getElem? (i := j)
  show (s.requests.set k q')[j]? = some w
  rw [List.getElem?_set_ne hkj]
  exact hj

/-- A step of a request that has not to read a 401, and that leaves the tokens
and their marks alone. -/
theorem Guarded.set (h : s.Guarded) (hq : s.requests[k]? = some q)
    (hread : forall p token, q.marks = true -> ¬ q.Unread p token)
    {m : Roster accounts} (hm : s.roster.KeepsSlots m) (q' : TidalRequest)
    {refused : List (Nat × String)}
    (hrefused : forall entry, entry ∈ refused -> entry ∈ s.refused) :
    Guarded ⟨m, s.requests.set k q', refused⟩ := by
  intro p token hentry hslot
  have hslot' : (s.record p).accessToken = some token :=
    (hm.slot p).symm.trans hslot
  rcases h p token (hrefused _ hentry) hslot' with hmarked | hpending
  · exact Or.inl ((hm.rejected p).trans hmarked)
  · exact Or.inr (hpending.set hq (hread p token) m q' refused)

/-- The same when the step changes the token of one account, and the new token
is none of the refused ones. -/
theorem Guarded.replace (h : s.Guarded) (hq : s.requests[k]? = some q)
    (hread : forall p token, q.marks = true -> ¬ q.Unread p token)
    {m : Roster accounts} {p : Nat} {token : String}
    (hself : (m.memory.cells p).accessToken = some token)
    (hothers : forall p', p' ≠ p -> m.memory.cells p' = s.record p')
    (q' : TidalRequest) {refused : List (Nat × String)}
    (hrefused : forall entry, entry ∈ refused -> entry ∈ s.refused)
    (hnew : (p, token) ∉ refused) :
    Guarded ⟨m, s.requests.set k q', refused⟩ := by
  intro p' token' hentry hslot
  by_cases hp : p' = p
  · subst hp
    cases hself.symm.trans hslot
    exact absurd hentry hnew
  · have hcell := hothers p' hp
    change (m.memory.cells p').accessToken = some token' at hslot
    rw [hcell] at hslot
    rcases h p' token' (hrefused _ hentry) hslot with hmarked | hpending
    · left
      show (m.memory.cells p').rejectedAccessToken = some token'
      rw [hcell]
      exact hmarked
    · exact Or.inr (hpending.set hq (hread p' token') m q' refused)

/-- A step that marks the token of a 401. -/
theorem Guarded.mark (h : s.Guarded) (hq : s.requests[k]? = some q)
    {token : String} {status : Nat} {retryAfter : Option Nat}
    (hstage : q.stage = .answered token status retryAfter)
    {m : Roster accounts} (hm : s.roster.MarksToken m q.pointer token)
    (q' : TidalRequest) :
    Guarded ⟨m, s.requests.set k q', s.refused⟩ := by
  intro p held hentry hslot
  have hslot' : (s.record p).accessToken = some held :=
    (hm.slot p).symm.trans hslot
  by_cases hself : p = q.pointer ∧ held = token
  · left
    rw [hself.left, hself.right]
    rw [hself.left, hself.right] at hslot'
    exact hm.marked hslot'
  · have hsame : (m.memory.cells p).rejectedAccessToken =
        (s.record p).rejectedAccessToken := by
      by_cases hp : p = q.pointer
      · subst hp
        apply hm.unmarked
        intro hcurrent
        cases hcurrent.symm.trans hslot'
        exact hself ⟨rfl, rfl⟩
      · exact hm.others p hp
    rcases h p held hentry hslot' with hmarked | hpending
    · exact Or.inl (hsame.trans hmarked)
    · right
      apply hpending.set hq
      intro _ hunread
      rcases hunread with ⟨hp, _, hanswered⟩
      rw [hstage] at hanswered
      cases hanswered
      exact hself ⟨hp.symm, rfl⟩

/-- The cached token of an account is none of the refused ones, once the
answers to it have been read. -/
theorem Guarded.cached (h : s.Guarded) {p : Nat} {token : String}
    (hread : (s.record p).accessToken = some token ->
      (s.record p).rejectedAccessToken ≠ some token ->
        forall q', q' ∈ s.requests -> ¬ q'.Unread p token)
    (hcached : cachedToken now (s.record p) = some token) :
    (p, token) ∉ s.refused := by
  intro hentry
  rcases cachedToken_eq_some.mp hcached with ⟨hslot, _, _, hunmarked⟩
  rcases h p token hentry hslot with hmarked | ⟨q', hq', _, hunread⟩
  · exact hunmarked hmarked
  · exact hread hslot hunmarked q' hq' hunread

theorem not_unread_of_stage {stage : RequestStage} (hstage : q.stage = stage)
    (hstill : stage.isAnswered = false) (p : Nat) (token : String)
    (_ : q.marks = true) : ¬ q.Unread p token := by
  intro hunread
  rcases hunread with ⟨_, retryAfter, hanswered⟩
  rw [hanswered] at hstage
  rw [← hstage] at hstill
  cases hstill

/-- The answer of Tidal joins the refusals when it is a 401 for the current
token; the request that is to mark it takes it on. -/
theorem Guarded.answer (h : s.Guarded) {token : String} {status : Nat}
    (retryAfter : Option Nat) (hq : s.requests[k]? = some q)
    (hstage : q.stage = .sent token)
    (hmarks : status = 401 -> (s.record q.pointer).accessToken = some token ->
      (s.record q.pointer).rejectedAccessToken = some token ∨ q.marks = true) :
    (s.answer k q token status retryAfter).Guarded := by
  have hold : Guarded
      ⟨s.roster, s.requests.set k { q with stage := .answered token status retryAfter },
        s.refused⟩ :=
    h.set hq (not_unread_of_stage hstage rfl)
      (.refl _) _ fun _ hentry => hentry
  unfold ClientState.answer
  split
  · rename_i hrefused
    intro p held hentry hslot
    rcases List.mem_cons.mp hentry with hnew | hbefore
    · cases hnew
      rcases hmarks hrefused.left hrefused.right with hmarked | hreader
      · exact Or.inl hmarked
      · right
        refine ⟨{ q with stage := .answered token status retryAfter }, ?_, hreader,
          rfl, retryAfter, ?_⟩
        · rcases List.getElem?_eq_some_iff.mp hq with ⟨hlt, _⟩
          exact List.mem_set hlt _
        · rw [hrefused.left]
    · exact hold p held hbefore hslot
  · exact hold

theorem guarded_step {action : ClientAction} (h : s.Guarded)
    (hmarked : s.Marked action)
    (hstep : clientSystem.step s action = some s') : s'.Guarded := by
  cases moves_of_step hstep with
  | start p kind n =>
      intro p' token hentry hslot
      rcases h p' token hentry hslot with hmark | ⟨q', hq', hreader⟩
      · exact Or.inl hmark
      · exact Or.inr ⟨q', List.mem_append_left _ hq', hreader⟩
  | getToken now hq hstage =>
      rcases getToken_eq s _ _ now with ⟨q', hs', _⟩
      rw [hs']
      exact h.set hq (not_unread_of_stage hstage rfl) (.refl _) q' fun _ hentry =>
        hentry
  | enter now hq hstage =>
      rcases enter_eq s _ _ _ _ now with ⟨q', hs', _⟩
      rw [hs']
      exact h.set hq (not_unread_of_stage hstage rfl) (.refl _) q' fun _ hentry =>
        hentry
  | sharedToken now text hq hstage =>
      rename_i k q previous force
      have hread := not_unread_of_stage hstage rfl
      rcases sharedToken_eq s k q previous force now text with
        ⟨r, _, hs'⟩ | ⟨a', token, hshared, hrequests, hrefused, hself, hothers⟩
      · rw [hs']
        exact h.set hq hread (.refl _) _ fun _ hentry => hentry
      · have hnew := not_refused_of_sharedToken hmarked hq hstage hshared
        have hset := h.replace hq hread hself hothers
          (q.resume force (.ok token)) (fun _ hentry => hentry) hnew
        rw [← hrequests, ← hrefused] at hset
        exact hset
  | cycle hq hstage hcycle =>
      have hread := not_unread_of_stage hstage rfl
      rcases Cycle.step_slots s.refused hcycle with
        ⟨hkeeps, hrefused⟩ | ⟨p, token, hself, hothers, hrefused⟩
      · rw [hrefused]
        exact h.set hq hread hkeeps _ fun _ hentry => hentry
      · rw [hrefused]
        apply h.replace hq hread hself hothers
        · exact fun _ hentry => (List.mem_filter.mp hentry).left
        · simp
  | send now hq hstage hnext =>
      exact h.set hq (not_unread_of_stage hstage rfl) (.refl _) _ fun _ hentry =>
        hentry
  | answer status retryAfter hq hstage =>
      exact h.answer retryAfter hq hstage (hmarked _ _ hq hstage)
  | lose hq hstage =>
      exact h.set hq (not_unread_of_stage hstage rfl) (.refl _) _ fun _ hentry =>
        hentry
  | react now jitter hq hstage =>
      rename_i k q token status retryAfter
      by_cases hmarks : status = 401 ∧ q.marks = true
      · exact h.mark hq hstage
          (TidalRequest.react_marksToken hmarks.left hmarks.right) _
      · apply h.set hq _ (TidalRequest.react_keepsSlots hmarks) _
          fun _ hentry => hentry
        intro p held hreader hunread
        rcases hunread with ⟨_, _, hanswered⟩
        cases hstage.symm.trans hanswered
        exact hmarks ⟨rfl, hreader⟩

theorem AllFresh.set (h : s.AllFresh) (m : Roster accounts) {q' : TidalRequest}
    {refused : List (Nat × String)}
    (hrefused : forall entry, entry ∈ refused -> entry ∈ s.refused)
    (hq' : q'.Fresh refused) :
    AllFresh ⟨m, s.requests.set k q', refused⟩ := by
  intro w hw
  rcases List.mem_or_eq_of_mem_set hw with hold | hnew
  · constructor
    · intro token htoken hentry
      exact (h w hold).inHand token htoken (hrefused _ hentry)
    · exact (h w hold).refresh
  · rw [hnew]
    exact hq'

theorem AllFresh.answer (h : s.AllFresh) {token : String} {status : Nat}
    (retryAfter : Option Nat)
    (hreleased : status = 401 ->
      (s.record q.pointer).accessToken = some token ->
        forall q', q' ∈ s.requests -> q'.pointer = q.pointer ->
          q'.inHand ≠ some token) :
    (s.answer k q token status retryAfter).AllFresh := by
  have hstage : forall refused, ({ q with
      stage := .answered token status retryAfter } : TidalRequest).Fresh
        refused := by
    intro refused
    exact TidalRequest.fresh_of_idle rfl
  unfold ClientState.answer
  split
  · rename_i hrefused
    intro w hw
    rcases List.mem_or_eq_of_mem_set hw with hold | hnew
    · constructor
      · intro held hheld hentry
        rcases List.mem_cons.mp hentry with heq | hbefore
        · rcases Prod.mk.inj heq with ⟨hp, htoken⟩
          rw [htoken] at hheld
          exact hreleased hrefused.left hrefused.right w hold hp hheld
        · exact (h w hold).inHand held hheld hbefore
      · exact (h w hold).refresh
    · rw [hnew]
      exact hstage _
  · exact h.set s.roster (fun _ hentry => hentry) (hstage _)

theorem allFresh_step {action : ClientAction} (h : s.AllFresh)
    (hguarded : s.Guarded) (hmarked : s.Marked action)
    (hreleased : s.Released action)
    (hstep : clientSystem.step s action = some s') : s'.AllFresh := by
  cases moves_of_step hstep with
  | start p kind n =>
      intro w hw
      rcases List.mem_append.mp hw with hold | hnew
      · exact h w hold
      · rw [List.mem_singleton.mp hnew]
        constructor
        · intro token htoken
          cases htoken
        · intro force c r hstage
          cases hstage
  | getToken now hq hstage =>
      rcases getToken_eq s _ _ now with ⟨q', hs', hfresh⟩
      rw [hs']
      apply h.set s.roster fun _ hentry => hentry
      exact hfresh fun token hcached =>
        hguarded.cached (hmarked _ token hq) hcached
  | enter now hq hstage =>
      rcases enter_eq s _ _ _ _ now with ⟨q', hs', hfresh⟩
      rw [hs']
      apply h.set s.roster fun _ hentry => hentry
      exact hfresh fun token hcached =>
        hguarded.cached (hmarked _ token hq) hcached
  | sharedToken now text hq hstage =>
      rename_i k q previous force
      rcases sharedToken_eq s k q previous force now text with
        ⟨r, hr, hs'⟩ | ⟨a', token, hshared, hrequests, hrefused, _, _⟩
      · rw [hs']
        apply h.set s.roster fun _ hentry => hentry
        exact TidalRequest.fresh_refreshing rfl rfl hr
      · have hnew := not_refused_of_sharedToken hmarked hq hstage hshared
        have hresumed : (q.resume force (.ok token)).Fresh s.refused := by
          apply TidalRequest.fresh_resume
          intro token' htoken' _
          cases htoken'
          exact hnew
        have hset := h.set (k := k) s.roster (fun _ hentry => hentry) hresumed
        intro w hw
        rw [hrefused]
        rw [hrequests] at hw
        exact hset w hw
  | cycle hq hstage hcycle =>
      rename_i k q force c c' e m
      have hfresh := (h q (List.mem_of_getElem? hq)).afterCycle hstage hcycle
      apply h.set m _ hfresh
      intro entry hentry
      rcases Cycle.step_slots s.refused hcycle with
        ⟨_, hrefused⟩ | ⟨p, token, _, _, hrefused⟩
      · rw [hrefused] at hentry
        exact hentry
      · rw [hrefused] at hentry
        exact (List.mem_filter.mp hentry).left
  | send now hq hstage hnext =>
      apply h.set s.roster fun _ hentry => hentry
      rcases hnext with hended | hsent
      · rw [hended]
        exact TidalRequest.fresh_of_idle rfl
      · rw [hsent]
        exact TidalRequest.fresh_of_idle rfl
  | answer status retryAfter hq hstage =>
      exact h.answer retryAfter (hreleased _ _ hq hstage)
  | lose hq hstage =>
      apply h.set s.roster fun _ hentry => hentry
      exact TidalRequest.fresh_of_idle rfl
  | react now jitter hq hstage =>
      apply h.set _ fun _ hentry => hentry
      exact TidalRequest.fresh_of_reacted (TidalRequest.reacted_react s.roster)
        (hreleased _ _ _ _ hq hstage)

/-!
## Whole runs
-/

theorem Starts.guarded (h : s.Starts) : s.Guarded := by
  intro p token hentry
  rw [h.refused] at hentry
  cases hentry

theorem Starts.allFresh (h : s.Starts) : s.AllFresh := by
  intro q hq
  rw [h.requests] at hq
  cases hq

theorem Guarded.notReturned (h : s.Guarded) {action : ClientAction}
    (hmarked : s.Marked action) : s.NotReturned action := by
  cases action with
  | getToken k now =>
      intro q token hq hcached
      exact h.cached (hmarked q token hq) hcached
  | enter k now =>
      intro q token hq hcached
      exact h.cached (hmarked q token hq) hcached
  | _ =>
      trivial

theorem AllFresh.notPresented (h : s.AllFresh) (action : ClientAction) :
    s.NotPresented action := by
  cases action with
  | send k now =>
      intro q token hq hstage
      apply (h q (List.mem_of_getElem? hq)).inHand
      unfold TidalRequest.inHand
      rw [hstage]
  | _ =>
      trivial

/-- In a run that marks every 401, no refused token is served; and when no
request has a token in hand while it is refused, none is sent again. -/
theorem refused_not_served (hs : s.Starts) (actions : List ClientAction)
    (hmarked : clientSystem.Along Marked s actions) :
    clientSystem.Along NotReturned s actions ∧
      (clientSystem.Along Released s actions ->
        clientSystem.Along NotPresented s actions) := by
  constructor
  · apply System.along_of_invariant (I := Guarded) _ _ hs.guarded hmarked
    · exact fun _ _ _ h hm hstep => guarded_step h hm hstep
    · exact fun _ _ h hm => h.notReturned hm
  · intro hreleased
    have hboth : clientSystem.Along
        (fun s action => s.Marked action ∧ s.Released action) s actions :=
      System.along_and.mpr ⟨hmarked, hreleased⟩
    apply System.along_of_invariant (I := fun s => s.Guarded ∧ s.AllFresh) _ _
      ⟨hs.guarded, hs.allFresh⟩ hboth
    · intro t action t' h hm hstep
      constructor
      · exact guarded_step h.left hm.left hstep
      · exact allFresh_step h.right h.left hm.left hm.right hstep
    · exact fun _ action h _ => h.right.notPresented action

/-!
## A refusal without a mark
-/

/-- After a 401 for the cached token that a request does not mark, the next
request is served the same token. -/
theorem served_of_not_marks {token : String} (hq : s.requests[k]? = some q)
    (hstage : q.stage = .sent token) (hmarks : q.marks ≠ true)
    (hp : q.pointer < s.roster.memory.fresh)
    (hcached : cachedToken now (s.record q.pointer) = some token) :
    ¬ clientSystem.Along NotReturned s
      [.answer k 401 none, .react k now 0, .start q.pointer .pool 1,
        .getToken s.requests.length now] := by
  intro hrun
  have hcurrent := (cachedToken_eq_some.mp hcached).left
  have hanswer : clientSystem.step s (.answer k 401 none) =
      some (s.answer k q token 401 none) := by
    simp only [clientSystem, step, hq, hstage]
  have hanswered : (s.answer k q token 401 none).requests[k]? =
      some { q with stage := .answered token 401 none } := by
    rcases List.getElem?_eq_some_iff.mp hq with ⟨hlt, _⟩
    simp [ClientState.answer, hlt]
  have hreact : exists q', clientSystem.step (s.answer k q token 401 none)
      (.react k now 0) =
        some ⟨s.roster, (s.answer k q token 401 none).requests.set k q',
          (q.pointer, token) :: s.refused⟩ := by
    refine ⟨(TidalRequest.unauthorized s.roster
      { q with stage := .answered token 401 none } token now 0).2, ?_⟩
    have hroster : (TidalRequest.unauthorized s.roster
        { q with stage := .answered token 401 none } token now 0).1 = s.roster :=
      TidalRequest.unauthorized_of_not_marks hmarks
    simp only [clientSystem, step, hanswered, TidalRequest.react, if_true]
    simp only [ClientState.answer, hcurrent, and_self, if_true, hroster]
  rcases hreact with ⟨q', hreact⟩
  have hserved := (((hrun.right _ hanswer).right _ hreact).right _
    (if_pos hp)).left
  apply hserved ⟨q.pointer, .pool, max 1 1, 0, false, .ready⟩ token _ hcached
  · exact List.mem_cons_self
  · simp [ClientState.answer]

/-!
## Two runs
-/

/-- One account with a token that has not expired. -/
def oneToken : ClientState where
  roster :=
    (Roster.reload ⟨Arena.empty, oneRow⟩).rewrite 0
      (fun a => { a with accessToken := some "t", tokenExpiresAt := 100 })
      fun _ => rfl
  requests := []
  refused := []

theorem oneToken_starts : oneToken.Starts := ⟨rfl, rfl⟩

/-- A request that gets a token and sends it. -/
def firstRequest (requestsPerAccount : Nat) : List ClientAction :=
  [.start 0 .pool requestsPerAccount, .getToken 0 0, .send 0 0]

/-- A second request asks for the token that the first one has marked. -/
def markedRun : List ClientAction :=
  firstRequest 2 ++
    [ClientAction.answer 0 401 none, .react 0 0 0, .start 0 .pool 2, .getToken 1 0]

theorem markedRun_marked : clientSystem.Along Marked oneToken markedRun := by
  refine ⟨trivial, fun s hs => ?_⟩
  cases hs
  constructor
  · intro q token hq _ _ q' hq' hunread
    cases List.mem_singleton.mp hq'
    cases hunread.right.choose_spec
  · intro s hs
    cases hs
    refine ⟨trivial, fun s hs => ?_⟩
    cases hs
    refine ⟨fun q token hq hstage _ _ => ?_, fun s hs => ?_⟩
    · cases hq
      exact Or.inr rfl
    · cases hs
      refine ⟨trivial, fun s hs => ?_⟩
      cases hs
      refine ⟨trivial, fun s hs => ?_⟩
      cases hs
      refine ⟨fun q token hq hslot hunmarked => ?_, fun _ _ => trivial⟩
      cases hq
      cases hslot
      exact absurd rfl hunmarked

theorem markedRun_released : clientSystem.Along Released oneToken markedRun := by
  refine ⟨trivial, fun s hs => ?_⟩
  cases hs
  refine ⟨trivial, fun s hs => ?_⟩
  cases hs
  refine ⟨trivial, fun s hs => ?_⟩
  cases hs
  constructor
  · intro q token hq _ _ _ q' hq' _ hhand
    cases List.mem_singleton.mp hq'
    cases hhand
  · intro s hs
    cases hs
    refine ⟨fun q token status retryAfter hq hstage hresends => ?_, fun s hs => ?_⟩
    · cases hq
      cases hresends.left
    · cases hs
      exact ⟨trivial, fun s hs => ⟨trivial, fun _ _ => trivial⟩⟩

theorem refused_not_served_markedRun :
    clientSystem.Along NotReturned oneToken markedRun ∧
      clientSystem.Along NotPresented oneToken markedRun := by
  have hserved := refused_not_served oneToken_starts markedRun markedRun_marked
  exact ⟨hserved.left, hserved.right markedRun_released⟩

/-- The only request that the account is allowed is out with the token. -/
def oneSent : ClientState :=
  { oneToken with requests := [⟨0, .pool, 1, 0, false, .sent "t"⟩] }

/-- With one request per account nothing marks the token, and the next request
is served it. -/
theorem not_refusedNotServed : ¬ RefusedNotServed := by
  intro h
  have hrun := h oneToken
    (firstRequest 1 ++
      [ClientAction.answer 0 401 none, .react 0 0 0, .start 0 .pool 1, .getToken 1 0])
    oneToken_starts (by simp [firstRequest, ClientAction.InSettings])
  have hreturned := (System.along_and.mp hrun).left
  have hsent : clientSystem.run oneToken (firstRequest 1) = some oneSent := rfl
  have hserved := ((System.along_append hsent).mp hreturned).right
  have hq : oneSent.requests[0]? = some ⟨0, .pool, 1, 0, false, .sent "t"⟩ := rfl
  exact served_of_not_marks hq rfl (by decide) (by decide) rfl hserved

end ClientState

end HifiApi
