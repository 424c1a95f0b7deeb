import HifiApi.Tidal.Requests
import HifiApi.Tokens.RefreshSteps

/-!
# The cooldown of token refreshes

A refresh that fails waits before the next one, and longer when the auth server
asks for it.  The deadline is stored as it comes: a late answer 401 to a token
that has just been refreshed puts an earlier deadline in the place of the one
that the auth server has asked for.
-/

namespace HifiApi

open TokenManager

namespace TokenManager

namespace AuthResponse

/-- The seconds the auth server asks to wait: the pause of an answer 429, or the
header {lit}`Retry-After`. -/
def asks (r : AuthResponse) (now : I64) (a : AccountState) : Option Nat :=
  if r.status.code = 429 then
    some
      (AccountManager.pauseAccount now (r.retryAfter.bind fun value => value) a).2
  else r.retryAfter.map AccountManager.retryAfterSecs

/-- The credentials are refused for good. -/
def refusesCredentials (r : AuthResponse) : Bool :=
  (r.status.code = 400 ∨ r.status.code = 401) ∧
    (r.body.strField "error" = "invalid_grant" ∨
      r.body.strField "error" = "invalid_client")

/-- A header {lit}`Retry-After` comes with a grant, or with a refusal whose
header is read. -/
def Heeds (r : AuthResponse) : Prop :=
  r.retryAfter.isSome = true -> r.status.code ≠ 429 ->
    (r.status.isSuccess = true -> (readGrant r.body).isOk = true) ∧
      r.refusesCredentials = false

instance (r : AuthResponse) : Decidable r.Heeds :=
  inferInstanceAs (Decidable (_ -> _ -> _ ∧ _))

end AuthResponse

/-- {lit}`needs_renewal` -/
def needsRenewal (now : I64) (a : AccountState) : Bool :=
  a.tokenExpiresAt ≤ now.val + 300 ∨ (cachedToken now a).isNone

/-- A pass of the healing loop refreshes the account. -/
def refreshDue (now : I64) (a : AccountState) : Bool :=
  a.healNextRetry ≤ now.val ∧ (AccountManager.rateLimitRemaining now a).isNone ∧
    (a.autoDisabled ∨ (a.isActive ∧ needsRenewal now a))

end TokenManager

/-- The refreshes of the accounts, the clock, and until when the auth server has
asked each account to wait. -/
structure CooledWorld where
  tokens : TokenWorld
  now : I64
  asked : String -> Option Int

inductive CooldownAction where
  | token (a : TokenManagerAction)
  /-- A request with a token that has been refreshed is answered 401. -/
  | rejectRefreshedToken (p : Nat) (rejected : String) (jitter : Nat)
  /-- A pass of the healing loop comes to the account. -/
  | autoheal (p : Nat)
  | edit (id : String) (e : AccountEdit)
  | elapse (now : I64)

namespace CooldownAction

def token? : CooldownAction -> Option TokenManagerAction
  | token a => some a
  | _ => none

/-- The answer of the auth server. -/
def answer? : CooldownAction -> Option AuthResponse
  | token (.cycle _ (.answer _ _ (.ok response))) => some response
  | _ => none

/-- The record that a refresh is asked for. -/
def calls? : CooldownAction -> Option Nat
  | token (.call p _ _) => some p
  | autoheal p => some p
  | _ => none

/-- The account whose record is replaced. -/
def rebuilds? : CooldownAction -> Option String
  | edit id e => if e.rebuilds then some id else none
  | _ => none

end CooldownAction

namespace CooledWorld

def start (m : Roster accounts) (now : I64) : CooledWorld where
  tokens := .start m
  now := now
  asked := fun _ => none

/-- The account whose refresh a step completes. -/
def refreshes (s : CooledWorld) : TokenManagerAction -> Option String
  | .cycle i .publish => (s.tokens.caller i).map fun c => c.1.accountId
  | _ => none

/-- The account whose refresh has failed with an answer that asks it to wait, and
until when. -/
def asksUntil (s : CooledWorld) (t : TokenWorld) :
    TokenManagerAction -> Option (String × Int)
  | .cycle i (.answer now _ (.ok response)) =>
      match s.tokens.caller i, t.caller i with
      | some (job, .inside (.cycle (.asking r _))),
          some (_, .inside (.cycle (.ended (.error _)))) =>
          (response.asks now (s.tokens.account r.pointer)).map fun seconds =>
            (job.accountId, I64.saturate (now.val + countColumn seconds))
      | _, _ => none
  | _ => none

/-- Until when an account is to wait, after a step of the token manager. -/
def askedAfter (s : CooledWorld) (t : TokenWorld) (a : TokenManagerAction)
    (id : String) : Option Int :=
  if s.refreshes a = some id then none
  else
    match s.asksUntil t a with
    | some (id', until_) =>
        if id' = id then some (((s.asked id).map (max until_)).getD until_)
        else s.asked id
    | none => s.asked id

/-- The edit is the owner's switch, or it replaces the credentials. -/
def resets (s : CooledWorld) (id : String) : AccountEdit -> Bool
  | .setAccountActive _ => true
  | .updateAccount label clientId clientSecret refreshToken userId =>
      (s.tokens.roster.lookup id).any fun a =>
        decide ((a.updateAccount label clientId clientSecret refreshToken userId
          s.now).credentials ≠ a.credentials)
  | _ => false

def step (s : CooledWorld) : CooldownAction -> Option CooledWorld
  | .token (.others _) => none
  | .token a =>
      if a.time.all fun now => decide (now = s.now) then
        (s.tokens.step a).map fun t =>
          { s with
            tokens := t
            asked := s.askedAfter t a }
      else none
  | .rejectRefreshedToken p rejected jitter =>
      some
        { s with
          tokens :=
            { s.tokens with
              roster :=
                s.tokens.roster.rejectRefreshedToken p s.now jitter rejected } }
  | .autoheal p =>
      if refreshDue s.now (s.tokens.account p) then
        some { s with tokens := s.tokens.call p s.now .refreshToken }
      else some s
  | .edit id e =>
      some
        { s with
          tokens :=
            { s.tokens with roster := (s.tokens.roster.startEdit id e s.now).1 }
          asked :=
            if s.resets id e then Function.update s.asked id none else s.asked }
  | .elapse now => if s.now ≤ now then some { s with now := now } else none

/-- The refreshes and their cooldowns as a step system. -/
def system : System CooledWorld CooldownAction := ⟨step⟩

/-!
## What is claimed
-/

/-- The step refreshes the account, or is one that may shorten its wait: the
owner's switch, or new credentials. -/
def Excuses (s : CooledWorld) (id : String) : CooldownAction -> Prop
  | .token a => s.refreshes a = some id
  | .edit id' e => id' = id ∧ s.resets id e = true
  | _ => False

/-- No auth request is sent while the auth server has asked to wait, and no
account may be refreshed earlier after the step than before it. -/
structure Honours (s : CooledWorld) (a : CooldownAction) : Prop where
  waits : forall i job r, a = .token (.cycle i .send) ->
    s.tokens.caller i = some (job, .inside (.cycle (.sending r))) ->
    forall until_, until_ ∈ s.asked job.accountId -> until_ ≤ s.now.val
  later : forall s', s.step a = some s' -> forall id r r',
    ¬ s.Excuses id a -> s.tokens.roster.lookup id = some r ->
    s'.tokens.roster.lookup id = some r' -> r.healNextRetry ≤ r'.healNextRetry

/-- The record whose retry an action defers: its refresh fails, or its refreshed
token is refused. -/
def defers (s : CooledWorld) : CooldownAction -> Option Nat
  | .token a => (s.tokens.failing a).map RefreshJob.pointer
  | .rejectRefreshedToken p _ _ => some p
  | _ => none

/-- No refresh of the account has been asked for and not returned. -/
def Undisturbed (s : CooledWorld) (id : String) : Prop :=
  (forall job, job ∈ s.tokens.called -> job.accountId ≠ id) ∧
    forall c, c ∈ s.tokens.refreshLocks.callers -> c.key = id ->
      c.stage.isOpen = false

/-- A retry is deferred only when the deadline that stands is not further away
than the shortest pause, an account has one refresh at a time, an answer with a
header {lit}`Retry-After` is one whose header is read, and no refresh works on a
record that an edit has replaced. -/
structure Patient (s : CooledWorld) (a : CooldownAction) : Prop where
  defers : forall p, p ∈ s.defers a -> p ∈ s.tokens.roster.memory.roster ->
    s.tokens.roster.retryAt p ≤
      I64.saturate (s.now.val + countColumn (backoff (s.tokens.account p)))
  oneLock : forall t, t ∈ a.token? -> s.tokens.OneRefreshLock t
  heeds : forall response, response ∈ a.answer? -> response.Heeds
  listed : forall p, p ∈ a.calls? -> p ∈ s.tokens.roster.memory.roster
  undisturbed : forall id, id ∈ a.rebuilds? -> s.Undisturbed id

instance (s : CooledWorld) (id : String) : Decidable (s.Undisturbed id) :=
  inferInstanceAs (Decidable (_ ∧ _))

instance (s : CooledWorld) (a : CooldownAction) : Decidable (s.Patient a) :=
  decidable_of_iff
    ((forall p, p ∈ s.defers a -> p ∈ s.tokens.roster.memory.roster ->
      s.tokens.roster.retryAt p ≤
        I64.saturate (s.now.val + countColumn (backoff (s.tokens.account p)))) ∧
    (forall t, t ∈ a.token? -> s.tokens.OneRefreshLock t) ∧
    (forall response, response ∈ a.answer? -> response.Heeds) ∧
    (forall p, p ∈ a.calls? -> p ∈ s.tokens.roster.memory.roster) ∧
    (forall id, id ∈ a.rebuilds? -> s.Undisturbed id))
    ⟨fun h => ⟨h.1, h.2.1, h.2.2.1, h.2.2.2.1, h.2.2.2.2⟩,
      fun h => ⟨h.defers, h.oneLock, h.heeds, h.listed, h.undisturbed⟩⟩

end CooledWorld

/-- A {lit}`Retry-After` of the auth server is honoured. -/
def HonoursRetryAfter : Prop :=
  forall m now actions, CooledWorld.system.Along CooledWorld.Honours
    (.start m now) actions

/-!
## What the auth server asks for
-/

namespace TokenManager

/-- A failed answer whose header is read sets the pause it asks for. -/
theorem asks_le_failureMinimum {r : AuthResponse} {now : I64}
    {a : AccountState} {seconds : Nat} {failure : TokenAttemptFailure}
    (hheeds : r.Heeds) (hasks : r.asks now a = some seconds)
    (hfailure : (readAnswer now r a).2 = .error failure) :
    seconds ≤ failureMinimum failure.error := by
  unfold AuthResponse.asks at hasks
  unfold readAnswer at hfailure
  split at hasks
  · rename_i hlimited
    cases hasks
    rw [if_pos hlimited] at hfailure
    cases hfailure
    exact Nat.le_refl _
  · rename_i hlimited
    rcases Option.map_eq_some_iff.mp hasks with ⟨value, hvalue, hseconds⟩
    rcases hheeds (by rw [hvalue]; rfl) hlimited with ⟨hgrants, hcredentials⟩
    rw [if_neg hlimited] at hfailure
    split at hfailure
    · rename_i hsuccess
      have hgrant := hgrants hsuccess
      split at hfailure
      · rename_i refused hrefused
        rw [hrefused] at hgrant
        cases hgrant
      · cases hfailure
    · cases hfailure
      unfold AuthResponse.refusesCredentials at hcredentials
      unfold readFailure
      dsimp only
      rw [if_neg (of_decide_eq_false hcredentials), hvalue]
      exact Nat.le_of_eq hseconds.symm

/-- A refresh passes its gate only when its account may be refreshed. -/
theorem retry_le_of_proceed {now : I64} {previous : Option String} {force : Bool}
    {a : AccountState} (h : enterRefresh now previous force a = .proceed) :
    a.healNextRetry ≤ now.val := by
  unfold enterRefresh at h
  dsimp only at h
  split at h
  · cases h
  · split at h
    · cases h
    · split at h
      · cases h
      · rename_i hpassed
        omega

end TokenManager

namespace Roster

theorem sameEntries_rejectRefreshedToken (m : Roster accounts) (p : Nat)
    (now : I64) (jitter : Nat) (rejected : String) :
    m.SameEntries (m.rejectRefreshedToken p now jitter rejected) :=
  (sameEntries_rewrite m p _).trans (keeps_saveRefreshState _ p).sameEntries

/-- A refused token defers the retry like a failed refresh. -/
theorem retryAt_rejectRefreshedToken (m : Roster accounts) (p : Nat) (now : I64)
    (jitter : Nat) (rejected : String) :
    (m.rejectRefreshedToken p now jitter rejected).retryAt =
      Function.update m.retryAt p (deferredTo now jitter 30 (m.memory.cells p)) := by
  refine (retryAt_rewrite m p (rejectRefreshedToken_id now jitter rejected)).trans ?_
  congr 1
  show deferredTo now jitter 30 _ = _
  unfold deferredTo backoff
  have hsame :
      (TokenManager.rejectAccessToken rejected (m.memory.cells p)).healFailures =
        (m.memory.cells p).healFailures := by
    unfold TokenManager.rejectAccessToken
    split <;> rfl
  dsimp only
  rw [hsame]

end Roster

namespace RefreshStage

/-- The refresh may still send an auth request. -/
def pastGate : Stage RefreshStage -> Bool
  | .inside .sharing | .inside .queueing | .inside .resolving => true
  | .inside (.cycle (.ended _)) => false
  | .inside (.cycle _) => true
  | _ => false

theorem isInside_of_pastGate {stage : Stage RefreshStage}
    (h : pastGate stage = true) : stage.isInside = true := by
  cases stage with
  | inside x => rfl
  | _ => cases h

end RefreshStage

open RefreshStage

/-- A refresh passes the gate by its first look at the account only. -/
theorem TokenWorld.Goes.pastGate {s : TokenWorld} {a : TokenManagerAction}
    {i : Nat} {job : RefreshJob} {stage stage' : Stage RefreshStage}
    (h : s.Goes i job a stage stage')
    (hpast : RefreshStage.pastGate stage' = true) :
    RefreshStage.pastGate stage = true ∨
      exists now, a = .enter i now ∧
        (s.account job.pointer).healNextRetry ≤ now.val := by
  cases h with
  | locks => cases hpast
  | passes hproceeds => exact Or.inr ⟨_, rfl, retry_le_of_proceed hproceeds⟩
  | queues | acquires | resolves => exact Or.inl rfl
  | fails => cases hpast
  | cycles hstep =>
      rename_i c c' m
      cases c with
      | ended result => cases hstep
      | _ => exact Or.inl rfl
  | leaves => cases hpast

namespace CooledWorld

section Cool

variable {s s' : CooledWorld} {a : TokenManagerAction} {t : TokenWorld}
  {id : String} {until_ : Int}

theorem asksUntil_eq_some (h : s.asksUntil t a = some (id, until_)) :
    exists i now jitter response job r oldRefresh job' error seconds,
      a = .cycle i (.answer now jitter (.ok response)) ∧
      s.tokens.caller i = some (job, .inside (.cycle (.asking r oldRefresh))) ∧
      t.caller i = some (job', .inside (.cycle (.ended (.error error)))) ∧
      response.asks now (s.tokens.account r.pointer) = some seconds ∧
      job.accountId = id ∧
      until_ = I64.saturate (now.val + countColumn seconds) := by
  unfold asksUntil at h
  split at h
  · rename_i i now jitter response
    split at h
    · rename_i job r oldRefresh job' error hcaller hended
      rcases Option.map_eq_some_iff.mp h with ⟨seconds, hasks, heq⟩
      cases heq
      exact ⟨i, now, jitter, response, job, r, oldRefresh, job', error, seconds,
        rfl, hcaller, hended, hasks, rfl, rfl⟩
    · cases h
  · cases h

theorem mem_askedAfter (h : until_ ∈ s.askedAfter t a id) :
    s.refreshes a ≠ some id ∧
      (until_ ∈ s.asked id ∨ s.asksUntil t a = some (id, until_)) := by
  unfold askedAfter at h
  split at h
  · cases h
  · rename_i hother
    refine ⟨hother, ?_⟩
    split at h
    · rename_i id' new hasks
      split at h
      · rename_i hid
        rw [hid] at hasks
        have heq := Option.some.inj h
        cases hold : s.asked id with
        | none =>
            rw [hold] at heq
            rw [← heq]
            exact Or.inr hasks
        | some before =>
            rw [hold] at heq
            change max new before = until_ at heq
            rcases Int.le_total before new with hless | hless
            · rw [← heq, Int.max_eq_left hless]
              exact Or.inr hasks
            · rw [← heq, Int.max_eq_right hless]
              exact Or.inl rfl
      · exact Or.inl h
    · exact Or.inl h

/-- Every account waits as long as it has been asked to, and no refresh that may
still send a request has been asked to wait. -/
structure Cool (s : CooledWorld) : Prop where
  inPlace : s.tokens.InPlace
  held : forall id r, s.tokens.roster.lookup id = some r -> forall until_,
    until_ ∈ s.asked id -> until_ ≤ r.healNextRetry ∨ until_ ≤ s.now.val
  past : forall c, c ∈ s.tokens.refreshLocks.callers ->
    pastGate c.stage = true -> forall until_,
    until_ ∈ s.asked c.job.accountId -> until_ ≤ s.now.val

theorem Cool.retryAt (h : s.Cool) {p : Nat}
    (hp : p ∈ s.tokens.roster.memory.roster)
    (huntil : until_ ∈ s.asked (s.tokens.account p).id) :
    until_ ≤ s.tokens.roster.retryAt p ∨ until_ ≤ s.now.val := by
  apply h.held (s.tokens.account p).id (s.tokens.account p) _ until_ huntil
  exact Arena.lookup_of_find? (Arena.find?_eq_some.mpr ⟨hp, rfl⟩)

theorem cool_start (m : Roster accounts) (now : I64) : (start m now).Cool where
  inPlace := TokenWorld.inPlace_start m
  held := fun _ _ _ _ h => nomatch h
  past := fun _ hc => nomatch hc

/-- What the condition says about a step of the token manager. -/
structure TokenPatient (s : CooledWorld) (a : TokenManagerAction) : Prop where
  defers : forall job, s.tokens.failing a = some job ->
    job.pointer ∈ s.tokens.roster.memory.roster ->
    s.tokens.roster.retryAt job.pointer ≤ I64.saturate (s.now.val +
      countColumn (backoff (s.tokens.account job.pointer)))
  time : forall now, a.time = some now -> now = s.now
  oneLock : s.tokens.OneRefreshLock a
  heeds : forall i now jitter response,
    a = .cycle i (.answer now jitter (.ok response)) -> response.Heeds
  listed : forall p kind now, a = .call p kind now ->
    p ∈ s.tokens.roster.memory.roster
  others : forall m, a ≠ .others m

section Token

variable (h : s.Cool) (ha : s.TokenPatient a) (hstep : s.tokens.step a = some t)

include h ha hstep

/-- A step moves no retry time to an earlier time, except that of an account it
refreshes. -/
theorem retryAt_le_of_token {p : Nat}
    (hp : p ∈ s.tokens.roster.memory.roster)
    (hother : s.refreshes a ≠ some (s.tokens.account p).id) :
    s.tokens.roster.retryAt p ≤ t.roster.retryAt p := by
  rcases h.inPlace.step ha.oneLock ha.others ha.listed hstep with
    ⟨_, _, hretries⟩
  cases hretries with
  | stays heq =>
      rw [heq]
  | fails job now jitter error htime hfailing heq =>
      rw [heq]
      by_cases hjob : p = job.pointer
      · subst hjob
        rw [Function.update_self, ha.time now htime]
        exact (ha.defers job hfailing hp).trans
          (backoff_le_deferredTo s.now jitter _ _)
      · rw [Function.update_of_ne hjob]
  | succeeds i job r token expires heq hcaller hretry =>
      rw [hretry]
      by_cases hjob : p = job.pointer
      · exfalso
        apply hother
        rw [heq, refreshes, hcaller, hjob, (h.inPlace.caller hcaller).left.right]
        rfl
      · rw [Function.update_of_ne hjob]

/-- The account whose refresh has failed waits as long as it has been asked
to. -/
theorem le_retryAt_of_asksUntil {p : Nat}
    (hp : p ∈ s.tokens.roster.memory.roster)
    (hasks : s.asksUntil t a = some ((s.tokens.account p).id, until_)) :
    until_ ≤ t.roster.retryAt p := by
  rcases asksUntil_eq_some hasks with ⟨i, now, jitter, response, job, r,
    oldRefresh, job', error, seconds, heq, hcaller, hended, hseconds, hid, huntil⟩
  rcases h.inPlace.caller hcaller with ⟨hlisted, hholds⟩
  have hr : r.pointer = job.pointer := hholds _ rfl
  have hpointer : p = job.pointer := by
    have hfind := Arena.find?_eq_some.mpr ⟨hp, hid.symm⟩
    have hfind' := Arena.find?_eq_some.mpr hlisted
    exact Option.some.inj (hfind.symm.trans hfind')
  subst heq
  have hcycle := hstep
  simp only [TokenWorld.step, hcaller] at hcycle
  split at hcycle
  · rename_i m c' hanswer
    have hc' := TokenWorld.caller_of_advance hcaller hcycle
    cases hc'.symm.trans hended
    rcases Cycle.answer_failed hanswer with ⟨failure, hfailure, herror, hretry⟩
    rw [(TokenWorld.withLocks_of_map hcycle).right]
    dsimp only
    rw [hretry, hpointer, hr, Function.update_self, huntil]
    apply le_deferredTo
    rw [← herror]
    exact asks_le_failureMinimum (ha.heeds _ _ _ _ rfl) hseconds hfailure
  · cases hcycle

theorem Cool.token : Cool { s with tokens := t, asked := s.askedAfter t a } := by
  rcases h.inPlace.step ha.oneLock ha.others ha.listed hstep with
    ⟨hinPlace, hentries, _⟩
  constructor
  · exact hinPlace
  · intro id r hr until_ huntil
    rcases Option.map_eq_some_iff.mp hr with ⟨p, hfind, hcell⟩
    change t.roster.memory.find? id = some p at hfind
    rw [hentries.find?] at hfind
    rcases Arena.find?_eq_some.mp hfind with ⟨hp, hid⟩
    rw [← hcell]
    rw [← hid] at huntil
    rcases mem_askedAfter huntil with ⟨hother, hold | hnew⟩
    · rcases h.retryAt hp hold with hretry | hpassed
      · exact Or.inl (hretry.trans (retryAt_le_of_token h ha hstep hp hother))
      · exact Or.inr hpassed
    · exact Or.inl (le_retryAt_of_asksUntil h ha hstep hp hnew)
  · intro c' hc' hpast until_ huntil
    dsimp only at hc' huntil ⊢
    rcases List.mem_iff_getElem?.mp hc' with ⟨j, hj⟩
    rcases TokenWorld.moves_of_step hstep hj with ⟨c, hc, _, hjob, hstage⟩ |
      ⟨job, lock, _, hnew⟩
    · have hmem := List.mem_of_getElem? hc
      have hbefore : pastGate c.stage = true ∨ exists now, a = .enter j now ∧
          s.tokens.roster.retryAt c.job.pointer ≤ now.val := by
        rcases hstage with hsame | hgoes
        · rw [← hsame]
          exact Or.inl hpast
        · exact hgoes.pastGate hpast
      rw [hjob] at huntil
      rcases mem_askedAfter huntil with ⟨_, hold | hnew⟩
      · rcases hbefore with hwas | ⟨now, henter, hretry⟩
        · exact h.past c hmem hwas until_ hold
        · have hopen : c.stage.isOpen = true := by
            rcases hstage with hsame | hgoes
            · rw [← hsame]
              exact LockCache.isOpen_of_isInside (isInside_of_pastGate hpast)
            · exact hgoes.isOpen
                (LockCache.isOpen_of_isInside (isInside_of_pastGate hpast))
          rcases h.inPlace.callers c hmem hopen with ⟨hp, hid⟩
          rw [← hid] at hold
          have htime := ha.time now (by rw [henter]; rfl)
          rw [htime] at hretry
          rcases h.retryAt hp hold with hless | hpassed
          · exact hless.trans hretry
          · exact hpassed
      · rcases asksUntil_eq_some hnew with ⟨i, now, jitter, response, job, r,
          oldRefresh, job', error, seconds, heq, hcaller, hended, _, hid, _⟩
        have hwas : pastGate c.stage = true := by
          rcases hbefore with hwas | ⟨now', henter, _⟩
          · exact hwas
          · rw [heq] at henter
            cases henter
        rcases TokenWorld.caller_eq_some.mp hcaller with ⟨d, hd, hdjob, hdstage⟩
        have hsame : i = j := by
          apply h.inPlace.same hd hc (by rw [hdstage]; rfl)
            (isInside_of_pastGate hwas)
          rw [hdjob, hid]
        rcases TokenWorld.caller_eq_some.mp hended with ⟨d', hd', _, hdstage'⟩
        rw [hsame] at hd'
        cases hd'.symm.trans hj
        rw [hdstage'] at hpast
        cases hpast
    · rw [hnew] at hpast
      cases hpast

end Token

/-- A change of the accounts that shortens no wait. -/
theorem Cool.others (h : s.Cool) (m : Roster accounts)
    (asked : String -> Option Int)
    (hfind : forall job, job ∈ s.tokens.called ∨ (exists c,
        c ∈ s.tokens.refreshLocks.callers ∧ c.stage.isOpen = true ∧
          c.job = job) ->
      m.memory.find? job.accountId =
        s.tokens.roster.memory.find? job.accountId)
    (hasked : forall id until_, until_ ∈ asked id -> until_ ∈ s.asked id)
    (hretry : forall id r', m.lookup id = some r' -> (asked id).isSome = true ->
      exists r, s.tokens.roster.lookup id = some r ∧
        r.healNextRetry ≤ r'.healNextRetry) :
    Cool { s with
      tokens := { s.tokens with roster := m }
      asked := asked } where
  inPlace := h.inPlace.others m hfind
  held := by
    intro id r' hr' until_ huntil
    rcases hretry id r' hr' (Option.isSome_iff_exists.mpr ⟨until_, huntil⟩) with
      ⟨r, hr, hless⟩
    rcases h.held id r hr until_ (hasked id until_ huntil) with hheld | hpassed
    · exact Or.inl (hheld.trans hless)
    · exact Or.inr hpassed
  past := fun c hc hpast until_ huntil =>
    h.past c hc hpast until_ (hasked _ _ huntil)


/-- What an edit does to the accounts. -/
theorem startEdit_lookup (m : Roster accounts) (id : String) (e : AccountEdit)
    (now : I64) {k : String} {r' : AccountState}
    (h : (m.startEdit id e now).1.lookup k = some r') :
    m.lookup k = some r' ∨
      k = id ∧ exists r, m.lookup id = some r ∧ e.apply now r = some r' := by
  rcases m.startEdit_cases id e now with hsame | ⟨r, r₁, cell, task, _, hedited⟩
  · rw [hsame] at h
    exact Or.inl h
  · rw [hedited.after] at h
    split at h
    · rename_i hk
      cases h
      exact Or.inr ⟨hk, r, hedited.before, hedited.edit⟩
    · exact Or.inl h

theorem startEdit_find? (m : Roster accounts) (id : String) (e : AccountEdit)
    (now : I64) {k : String} (hk : e.rebuilds = true -> k ≠ id) :
    (m.startEdit id e now).1.memory.find? k = m.memory.find? k := by
  unfold Roster.startEdit
  split
  · rfl
  · rename_i p hfind
    split
    · rfl
    · rename_i r hr
      have hput : (m.putEdited e.rebuilds p r (accounts.edit_idOf hr)).1.find? k =
          m.memory.find? k := by
        unfold Roster.putEdited
        split
        · rename_i hrebuilds
          rw [Arena.find?_swap]
          cases hother : m.memory.find? k with
          | none => rfl
          | some q =>
              have hq : q ≠ p := by
                intro heq
                apply hk hrebuilds
                rw [← (Arena.find?_eq_some.mp hother).right, heq]
                exact (Arena.find?_eq_some.mp hfind).right
              exact congrArg some (if_neg hq)
        · exact Arena.find?_write _ _ _ (accounts.edit_idOf hr) k
      dsimp only
      split
      · split
        · exact hput
        · rfl
      · exact hput

/-- An edit that resets nothing keeps the retry time. -/
theorem retry_of_edit {e : AccountEdit} {r r' : AccountState}
    (hr : s.tokens.roster.lookup id = some r) (hedit : e.apply s.now r = some r')
    (hkeeps : s.resets id e = false) : r'.healNextRetry = r.healNextRetry := by
  cases e with
  | setAccountActive active =>
      cases hkeeps
  | setAccountCatalog catalog =>
      cases hedit
      rfl
  | setSystemDisabled disabled =>
      simp only [AccountEdit.apply, AccountState.setSystemDisabled] at hedit
      split at hedit
      · cases hedit
      · split at hedit
        · cases hedit
        · cases hedit
          rfl
  | disableAfterAuthFailures maxSecs =>
      simp only [AccountEdit.apply, AccountState.disableAfterAuthFailures] at hedit
      split at hedit
      · cases hedit
      · cases hedit
        rfl
  | storeRefreshedCredentials oldRefresh rotated token expires =>
      rw [(AccountState.storeRefreshedCredentials_eq_some.mp hedit).right]
  | updateAccount label clientId clientSecret refreshToken userId =>
      cases hedit
      simp only [resets, hr, Option.any_some, decide_eq_false_iff_not, not_not]
        at hkeeps
      have hsame : (AccountState.new r.id (label.getD r.label)
          (clientId.getD r.clientId) (clientSecret.getD r.clientSecret)
          (refreshToken.getD r.refreshToken) (userId.or r.userId) r.isActive
          r.notes).credentials = r.credentials :=
        (AccountState.carryOver_credentials _ _).symm.trans hkeeps
      show (AccountState.carryOver _ r).healNextRetry = r.healNextRetry
      rw [AccountState.carryOver_healNextRetry, if_pos hsame]

/-!
## Runs that keep their deadlines
-/

theorem Patient.token (h : s.Patient (.token a))
    (hothers : forall m, a ≠ .others m)
    (htime : a.time.all (fun now => decide (now = s.now)) = true) :
    s.TokenPatient a where
  defers := fun job hfailing hp =>
    h.defers job.pointer (by rw [CooledWorld.defers, hfailing]; rfl) hp
  time := by
    intro now hnow
    rw [hnow] at htime
    exact of_decide_eq_true htime
  oneLock := h.oneLock a rfl
  heeds := by
    intro i now jitter response heq
    exact h.heeds response (by rw [heq]; rfl)
  listed := by
    intro p kind now heq
    exact h.listed p (by rw [heq]; rfl)
  others := hothers

theorem tokenPatient_call {p : Nat} (hp : p ∈ s.tokens.roster.memory.roster)
    (kind : TokenCall) : s.TokenPatient (.call p kind s.now) where
  defers := fun _ hfailing => nomatch hfailing
  time := fun _ hnow => (Option.some.inj hnow).symm
  oneLock := fun _ hid => nomatch hid
  heeds := fun _ _ _ _ heq => nomatch heq
  listed := by
    intro q kind' now heq
    cases heq
    exact hp
  others := fun _ heq => nomatch heq

theorem step_token (h : s.step (.token a) = some s') :
    (forall m, a ≠ .others m) ∧
      a.time.all (fun now => decide (now = s.now)) = true ∧
      exists t, s.tokens.step a = some t ∧
        s' = { s with tokens := t, asked := s.askedAfter t a } := by
  cases a with
  | others m => cases h
  | _ =>
      simp only [step] at h
      split at h
      · rename_i htime
        rcases Option.map_eq_some_iff.mp h with ⟨t, ht, heq⟩
        exact ⟨(fun _ hothers => nomatch hothers), htime, t, ht, heq.symm⟩
      · cases h

/-- A pass of the healing loop is a call, or nothing. -/
theorem step_autoheal {p : Nat} (h : s.step (.autoheal p) = some s') :
    s' = s ∨ s.tokens.step (.call p .refreshToken s.now) = some s'.tokens ∧
      s' =
        { s with
          tokens := s'.tokens
          asked := s.askedAfter s'.tokens (.call p .refreshToken s.now) } := by
  simp only [step] at h
  split at h
  · cases h
    exact Or.inr ⟨rfl, rfl⟩
  · cases h
    exact Or.inl rfl

/-- A refused token defers the retry of its account. -/
theorem retry_of_reject {p : Nat} {rejected : String} {jitter : Nat}
    (hpatient : s.Patient (.rejectRefreshedToken p rejected jitter))
    {r' : AccountState}
    (hr' : (s.tokens.roster.rejectRefreshedToken p s.now jitter rejected).lookup
      id = some r') :
    exists r, s.tokens.roster.lookup id = some r ∧
      r.healNextRetry ≤ r'.healNextRetry := by
  rcases Option.map_eq_some_iff.mp hr' with ⟨q, hfind, hcell⟩
  have hentries := s.tokens.roster.sameEntries_rejectRefreshedToken p s.now jitter
    rejected
  rw [hentries.find?] at hfind
  have hretry := congrFun (s.tokens.roster.retryAt_rejectRefreshedToken p s.now
    jitter rejected) q
  have hq := (Arena.find?_eq_some.mp hfind).left
  refine ⟨_, Arena.lookup_of_find? hfind, ?_⟩
  rw [← hcell]
  refine le_of_le_of_eq ?_ hretry.symm
  by_cases hqp : q = p
  · rw [hqp, Function.update_self]
    rw [hqp] at hq
    exact (hpatient.defers p rfl hq).trans (backoff_le_deferredTo s.now jitter 30 _)
  · rw [Function.update_of_ne hqp]
    exact Int.le_refl _

/-- An edit that resets nothing shortens no wait. -/
theorem retry_of_startEdit {id' : String} {e : AccountEdit}
    (hkeeps : id' = id -> s.resets id' e = false) {r' : AccountState}
    (hr' : (s.tokens.roster.startEdit id' e s.now).1.lookup id = some r') :
    exists r, s.tokens.roster.lookup id = some r ∧
      r.healNextRetry ≤ r'.healNextRetry := by
  rcases startEdit_lookup _ _ _ _ hr' with hold | ⟨hid, r, hr, hedit⟩
  · exact ⟨r', hold, Int.le_refl _⟩
  · rw [hid]
    exact ⟨r, hr, Int.le_of_eq (retry_of_edit hr hedit (hkeeps hid.symm)).symm⟩

theorem Cool.step (h : s.Cool) {a : CooldownAction} (hpatient : s.Patient a)
    (hstep : s.step a = some s') : s'.Cool := by
  cases a with
  | token a =>
      rcases step_token hstep with ⟨hothers, htime, t, ht, heq⟩
      rw [heq]
      exact h.token (hpatient.token hothers htime) ht
  | rejectRefreshedToken p rejected jitter =>
      cases hstep
      apply h.others _ s.asked
      · intro job _
        exact (s.tokens.roster.sameEntries_rejectRefreshedToken p s.now jitter
          rejected).find? _
      · exact fun _ _ huntil => huntil
      · exact fun id r' hr' _ => retry_of_reject hpatient hr'
  | autoheal p =>
      rcases step_autoheal hstep with hsame | ⟨ht, heq⟩
      · rw [hsame]
        exact h
      · rw [heq]
        exact h.token (tokenPatient_call (hpatient.listed p rfl) _) ht
  | edit id e =>
      cases hstep
      apply h.others
      · intro job hjob
        apply startEdit_find?
        intro hrebuilds heq
        rcases hpatient.undisturbed id (if_pos hrebuilds) with
          ⟨hcalled, hcallers⟩
        rcases hjob with hmem | ⟨c, hc, hopen, hcjob⟩
        · exact hcalled job hmem heq
        · rw [hcallers c hc ((h.inPlace.keyed c hc).trans (hcjob ▸ heq))] at hopen
          cases hopen
      · intro k until_ huntil
        split at huntil
        · by_cases hk : k = id
          · rw [hk, Function.update_self] at huntil
            cases huntil
          · rwa [Function.update_of_ne hk] at huntil
        · exact huntil
      · intro k r' hr' hasked
        apply retry_of_startEdit _ hr'
        intro hid
        split at hasked
        · rw [hid, Function.update_self] at hasked
          cases hasked
        · rename_i hkeeps
          exact Bool.eq_false_iff.mpr hkeeps
  | elapse now =>
      simp only [CooledWorld.step] at hstep
      split at hstep
      · rename_i hle
        cases hstep
        have hval : s.now.val ≤ now.val := hle
        constructor
        · exact h.inPlace
        · intro id r hr until_ huntil
          rcases h.held id r hr until_ huntil with hheld | hpassed
          · exact Or.inl hheld
          · exact Or.inr (hpassed.trans hval)
        · intro c hc hpast until_ huntil
          exact (h.past c hc hpast until_ huntil).trans hval
      · cases hstep

/-- As long as this holds, a step honours what the auth server has asked for. -/
theorem Cool.honours (h : s.Cool) {a : CooldownAction} (hpatient : s.Patient a) :
    s.Honours a := by
  constructor
  · intro i job r _ hcaller until_ huntil
    rcases TokenWorld.caller_eq_some.mp hcaller with ⟨c, hc, hjob, hstage⟩
    apply h.past c (List.mem_of_getElem? hc) (by rw [hstage]; rfl)
    rw [hjob]
    exact huntil
  · intro s' hstep id r r' hexcuses hr hr'
    have htoken : forall (a : TokenManagerAction) (t : TokenWorld),
        s.TokenPatient a -> s.tokens.step a = some t -> s.refreshes a ≠ some id ->
        t.roster.lookup id = some r' -> r.healNextRetry ≤ r'.healNextRetry := by
      intro a t ha ht hother hlookup
      have hentries := (h.inPlace.step ha.oneLock ha.others ha.listed ht).right.left
      rcases Option.map_eq_some_iff.mp hlookup with ⟨p, hfind, hcell⟩
      change t.roster.memory.find? id = some p at hfind
      rw [hentries.find?] at hfind
      have hold := Arena.lookup_of_find? hfind
      cases hold.symm.trans hr
      rcases Arena.find?_eq_some.mp hfind with ⟨hp, hid⟩
      rw [← hcell]
      apply retryAt_le_of_token h ha ht hp
      change accounts.idOf (s.tokens.account p) = id at hid
      rw [show (s.tokens.account p).id = id from hid]
      exact hother
    have hsame : forall r₀, s.tokens.roster.lookup id = some r₀ ∧
        r₀.healNextRetry ≤ r'.healNextRetry ->
        r.healNextRetry ≤ r'.healNextRetry := by
      intro r₀ hr₀
      cases hr.symm.trans hr₀.left
      exact hr₀.right
    cases a with
    | token a =>
        rcases step_token hstep with ⟨hothers, htime, t, ht, heq⟩
        rw [heq] at hr'
        exact htoken a t (hpatient.token hothers htime) ht hexcuses hr'
    | rejectRefreshedToken p rejected jitter =>
        cases hstep
        rcases retry_of_reject hpatient hr' with ⟨r₀, hr₀⟩
        exact hsame r₀ hr₀
    | autoheal p =>
        rcases step_autoheal hstep with heq | ⟨ht, heq⟩
        · rw [heq] at hr'
          cases hr.symm.trans hr'
          exact Int.le_refl _
        · exact htoken _ _ (tokenPatient_call (hpatient.listed p rfl) _) ht
            (fun hnone => nomatch hnone) hr'
    | edit id' e =>
        cases hstep
        have hkeeps : id' = id -> s.resets id' e = false := by
          intro hid
          apply Bool.eq_false_iff.mpr
          intro hresets
          exact hexcuses ⟨hid, hid ▸ hresets⟩
        rcases retry_of_startEdit hkeeps hr' with ⟨r₀, hr₀⟩
        exact hsame r₀ hr₀
    | elapse now =>
        simp only [CooledWorld.step] at hstep
        split at hstep
        · cases hstep
          cases hr.symm.trans hr'
          exact Int.le_refl _
        · cases hstep

end Cool

end CooledWorld

open CooledWorld

/-- A call that gets to its first auth request. -/
def askingAt (i : Nat) (kind : TokenCall) (now : I64) : List CooldownAction :=
  [.call 0 kind now, .lookUp 0, .lock i, .enter i now, .share i now none,
    .acquire i, .resolve i false now 0 (.ok ()), .cycle i .send].map .token

/-- The auth server is down for ten minutes. -/
def downForTenMinutes : AuthResponse where
  status := ⟨503, "Service Unavailable"⟩
  retryAfter := some (some 600)
  body := .null

def tenMinutes : I64 := .ofNat 600

/-- The next request is sent when the auth server is back. -/
def asksAgain : List CooldownAction :=
  askingAt 0 .getToken 0 ++
    [CooldownAction.token (.cycle 0 (.answer 0 0 (.ok downForTenMinutes))), .token (.leave 0),
      .elapse tenMinutes] ++
    askingAt 1 .getToken tenMinutes

def granted : AuthResponse where
  status := ⟨200, "OK"⟩
  retryAfter := none
  body :=
    .object [("access_token", .string "t"), ("expires_in", .number 3600)]

/-- The account is refreshed, and again by hand, which the auth server puts off
for ten minutes. -/
def putOff : List CooldownAction :=
  askingAt 0 .getToken 0 ++
    [CooldownAction.token (.cycle 0 (.answer 0 0 (.ok granted))), .token (.cycle 0 (.store 0 0)),
      .token (.cycle 0 .publish), .token (.leave 0)] ++
    askingAt 1 .refreshToken 0 ++
    [CooldownAction.token (.cycle 1 (.answer 0 0 (.ok downForTenMinutes))), .token (.leave 1)]

end HifiApi
