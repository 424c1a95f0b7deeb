import HifiApi.Lib.LockCache
import HifiApi.Lib.System
import HifiApi.Tokens.Refresh

/-!
# One refresh at a time

A refresh takes the lock of its account, looks at the account again, asks Redis,
waits for one of two auth slots and runs its cycle.  The locks are kept in a
cache that forgets a lock an hour after its insertion: an account has one auth
request in flight as long as no second lock is made for it while a caller with
an earlier one has not returned.
-/

namespace HifiApi

open TokenManager

/-- A call of {lit}`refresh`, with the id it asks the lock for. -/
structure RefreshJob where
  pointer : Nat
  accountId : String
  previous : Option String
  force : Bool

/-- How a token is asked for. -/
inductive TokenCall where
  | getToken
  | refreshToken
  | refreshAfterUnauthorized (rejected : String)

/-- What a refresh does under its lock. -/
inductive RefreshStage where
  | entered
  /-- The Redis key is being read. -/
  | sharing
  /-- An auth slot is being waited for. -/
  | queueing
  /-- The client for the auth server is being resolved. -/
  | resolving
  | cycle (c : Cycle)

structure TokenWorld where
  roster : Roster accounts
  /-- Calls that are about to look their lock up. -/
  called : List RefreshJob
  refreshLocks : LockCache String RefreshJob RefreshStage

inductive TokenManagerAction where
  | call (p : Nat) (kind : TokenCall) (now : I64)
  | lookUp (k : Nat)
  | lock (i : Nat)
  | enter (i : Nat) (now : I64)
  | share (i : Nat) (now : I64) (raw : Option (Option Value))
  | acquire (i : Nat)
  | resolve (i : Nat) (rotates : Bool) (now : I64) (jitter : Nat)
      (client : Except AppError Unit)
  | cycle (i : Nat) (e : CycleEvent)
  /-- The deadline passes before the first request. -/
  | expire (i : Nat) (now : I64) (jitter : Nat)
  /-- The refresh returns, or its caller drops it. -/
  | leave (i : Nat)
  /-- The rest of the program changes the accounts. -/
  | others (m : Roster accounts)
  | dropLock (id : String)
  | wait (ms : Nat)

namespace TokenManager

/-- The cache of the locks, in milliseconds. -/
def refreshLockPolicy : CachePolicy where
  timeToLive := 3600 * 1000
  capacity := 500

def authConcurrency : Nat := 2

/-- The first request of a cycle. -/
def firstAttempt (p : Nat) (a : AccountState) : Cycle :=
  .sending
    { pointer := p
      attempt := 0
      attempts := cycleAttempts a
      useBasic := a.authUseBasic }

end TokenManager

namespace RefreshStage

/-- The refresh holds an auth slot. -/
def holdsSlot : Stage RefreshStage -> Bool
  | .inside .resolving => true
  | .inside (.cycle _) => true
  | _ => false

end RefreshStage

namespace TokenWorld

def start (m : Roster accounts) : TokenWorld :=
  ⟨m, [], .start⟩

/-- The record behind a pointer. -/
def account (s : TokenWorld) (p : Nat) : AccountState :=
  s.roster.memory.cells p

/-- The call of a caller, with the stage it has reached. -/
def caller (s : TokenWorld) (i : Nat) :
    Option (RefreshJob × Stage RefreshStage) :=
  s.refreshLocks.callers[i]?.map fun c => (c.job, c.stage)

def withLocks (s : TokenWorld)
    (g : LockCache String RefreshJob RefreshStage) : TokenWorld :=
  { s with refreshLocks := g }

/-- {lit}`get_token`, {lit}`refresh_token` or
{lit}`refresh_after_unauthorized`, up to the lookup of the lock. -/
def call (s : TokenWorld) (p : Nat) (now : I64) : TokenCall -> TokenWorld
  | .getToken =>
      let a := s.account p
      if (AccountManager.rateLimitRemaining now a).isSome ∨
          (cachedToken now a).isSome then s
      else { s with called := s.called ++ [⟨p, a.id, none, false⟩] }
  | .refreshToken =>
      let a := s.account p
      { s with called := s.called ++ [⟨p, a.id, a.accessToken, true⟩] }
  | .refreshAfterUnauthorized rejected =>
      { s with
        roster :=
          (s.roster.rewrite p (rejectAccessToken rejected)
            (rejectAccessToken_id rejected)).saveRefreshState p
        called := s.called ++ [⟨p, (s.account p).id, some rejected, true⟩] }

/-- The token of the Redis key is taken over, if it is usable. -/
def share (s : TokenWorld) (job : RefreshJob) (now : I64)
    (raw : Option (Option Value)) : Option TokenWorld :=
  let previous := if job.force then job.previous else none
  match htaken : sharedToken now previous raw (s.account job.pointer) with
  | none => none
  | some (a, _) =>
      some
        { s with
          roster :=
            ({ s.roster with
                memory := s.roster.memory.write job.pointer a (by
                  rcases sharedToken_eq_some htaken with ⟨_, expires, heq⟩
                  rw [heq]
                  rfl) } : Roster accounts).saveRefreshState job.pointer }

/-- A slot of the auth semaphore is free. -/
def slotFree (s : TokenWorld) : Bool :=
  decide (s.refreshLocks.callers.countP
    (fun c => RefreshStage.holdsSlot c.stage) < authConcurrency)

/-- The account's proxy is exchanged before the first request. -/
def rotateProxy (m : Roster accounts) (p : Nat) (rotates : Bool) :
    Roster accounts :=
  if rotates then
    m.rewrite p (fun a => { a with authForbiddenStreak := 0 }) fun _ => rfl
  else m

def step (s : TokenWorld) : TokenManagerAction -> Option TokenWorld
  | .call p kind now => some (s.call p now kind)
  | .lookUp k =>
      match s.called[k]? with
      | none => none
      | some job =>
          some
            { s with
              called := s.called.eraseIdx k
              refreshLocks :=
                s.refreshLocks.join refreshLockPolicy job.accountId job }
  | .lock i => (s.refreshLocks.enter i .entered).map s.withLocks
  | .enter i now =>
      match s.caller i with
      | some (job, .inside .entered) =>
          match enterRefresh now job.previous job.force
              (s.account job.pointer) with
          | .answered _ => (s.refreshLocks.leave i).map s.withLocks
          | .proceed => (s.refreshLocks.advance i .sharing).map s.withLocks
      | _ => none
  | .share i now raw =>
      match s.caller i with
      | some (job, .inside .sharing) =>
          match s.share job now raw with
          | some s' => (s.refreshLocks.leave i).map s'.withLocks
          | none => (s.refreshLocks.advance i .queueing).map s.withLocks
      | _ => none
  | .acquire i =>
      match s.caller i with
      | some (_, .inside .queueing) =>
          if s.slotFree then
            (s.refreshLocks.advance i .resolving).map s.withLocks
          else none
      | _ => none
  | .resolve i rotates now jitter client =>
      match s.caller i with
      | some (job, .inside .resolving) =>
          let m := rotateProxy s.roster job.pointer rotates
          match client with
          | .error e =>
              (s.refreshLocks.advance i (.cycle (.ended (.error e)))).map
                { s with
                  roster := m.failRefresh job.pointer now jitter e }.withLocks
          | .ok _ =>
              (s.refreshLocks.advance i (.cycle
                (firstAttempt job.pointer (m.memory.cells job.pointer)))).map
                { s with roster := m }.withLocks
      | _ => none
  | .cycle i e =>
      match s.caller i with
      | some (_, .inside (.cycle c)) =>
          match c.step s.roster e with
          | some (m, c') =>
              (s.refreshLocks.advance i (.cycle c')).map
                { s with roster := m }.withLocks
          | none => none
      | _ => none
  | .expire i now jitter =>
      match s.caller i with
      | some (job, .inside .resolving) =>
          (s.refreshLocks.advance i (.cycle (.ended (.error .timeout)))).map
            { s with
              roster :=
                s.roster.failRefresh job.pointer now jitter .timeout }.withLocks
      | _ => none
  | .leave i => (s.refreshLocks.leave i).map s.withLocks
  | .others m => some { s with roster := m }
  | .dropLock id =>
      (s.refreshLocks.drop refreshLockPolicy id).map s.withLocks
  | .wait ms => some (s.withLocks (s.refreshLocks.tick ms))

/-- A refresh of the account has an auth request in flight. -/
def Asks (s : TokenWorld) (i : Nat) (id : String) : Prop :=
  exists c r oldRefresh, s.refreshLocks.callers[i]? = some c ∧
    c.stage = .inside (.cycle (.asking r oldRefresh)) ∧ c.key = id

/-- No account has two auth requests in flight. -/
def AsksOnce (s : TokenWorld) : Prop :=
  forall id i j, s.Asks i id -> s.Asks j id -> i = j

end TokenWorld

/-- The token manager as a step system. -/
def tokenManagerSystem : System TokenWorld TokenManagerAction :=
  ⟨TokenWorld.step⟩

/-- At most one token refresh for each account at a time. -/
def SingleRefresh : Prop :=
  forall m actions s', tokenManagerSystem.run (.start m) actions = some s' ->
    s'.AsksOnce

namespace TokenWorld

/-- The account whose lock an action looks up. -/
def wanted (s : TokenWorld) : TokenManagerAction -> Option String
  | .lookUp k => s.called[k]?.map fun job => job.accountId
  | _ => none

/-- No lock is made for an account while a refresh of it has an earlier one. -/
def OneRefreshLock (s : TokenWorld) (a : TokenManagerAction) : Prop :=
  forall id, id ∈ s.wanted a -> s.refreshLocks.MakesNoSecond refreshLockPolicy id

instance (s : TokenWorld) (a : TokenManagerAction) : Decidable (OneRefreshLock s a) :=
  inferInstanceAs (Decidable (forall id, id ∈ s.wanted a -> _))

/-!
## What a step does to the locks
-/

section Steps

variable {s s' : TokenWorld}

theorem call_refreshLocks (s : TokenWorld) (p : Nat) (now : I64)
    (kind : TokenCall) : (s.call p now kind).refreshLocks = s.refreshLocks := by
  cases kind with
  | getToken =>
      unfold call
      dsimp only
      split <;> rfl
  | refreshToken =>
      rfl
  | refreshAfterUnauthorized rejected =>
      rfl

theorem stepped_of_advance {a : TokenManagerAction} {i : Nat} {x : RefreshStage}
    {t : TokenWorld}
    (hstep : (s.refreshLocks.advance i x).map t.withLocks = some s') :
    s.refreshLocks.Stepped refreshLockPolicy (s.wanted a) s'.refreshLocks := by
  rcases Option.map_eq_some_iff.mp hstep with ⟨g, hg, heq⟩
  rw [← heq]
  exact .moves (LockCache.moved_of_advance hg)

theorem stepped_of_leave {a : TokenManagerAction} {i : Nat} {t : TokenWorld}
    (hstep : (s.refreshLocks.leave i).map t.withLocks = some s') :
    s.refreshLocks.Stepped refreshLockPolicy (s.wanted a) s'.refreshLocks := by
  rcases Option.map_eq_some_iff.mp hstep with ⟨g, hg, heq⟩
  rw [← heq]
  exact .moves (LockCache.moved_of_leave hg)

theorem stepped_of_step {a : TokenManagerAction} (h : s.step a = some s') :
    s.refreshLocks.Stepped refreshLockPolicy (s.wanted a) s'.refreshLocks := by
  cases a with
  | call p kind now =>
      cases h
      rw [call_refreshLocks]
      exact .stays
  | lookUp k =>
      simp only [step] at h
      split at h
      · cases h
      · rename_i job hcalled
        cases h
        exact .joins (by rw [wanted, hcalled]; rfl)
  | lock i =>
      rcases Option.map_eq_some_iff.mp h with ⟨g, hg, heq⟩
      rw [← heq]
      exact .moves (LockCache.moved_of_enter hg)
  | enter i now =>
      simp only [step] at h
      split at h
      · split at h
        · exact stepped_of_leave h
        · exact stepped_of_advance h
      · cases h
  | share i now raw =>
      simp only [step] at h
      split at h
      · split at h
        · exact stepped_of_leave h
        · exact stepped_of_advance h
      · cases h
  | acquire i =>
      simp only [step] at h
      split at h
      · split at h
        · exact stepped_of_advance h
        · cases h
      · cases h
  | resolve i rotates now jitter client =>
      simp only [step] at h
      split at h
      · split at h
        · exact stepped_of_advance h
        · exact stepped_of_advance h
      · cases h
  | cycle i e =>
      simp only [step] at h
      split at h
      · split at h
        · exact stepped_of_advance h
        · cases h
      · cases h
  | expire i now jitter =>
      simp only [step] at h
      split at h
      · exact stepped_of_advance h
      · cases h
  | leave i =>
      exact stepped_of_leave h
  | others m =>
      cases h
      exact .stays
  | dropLock id =>
      rcases Option.map_eq_some_iff.mp h with ⟨g, hg, heq⟩
      rw [← heq]
      exact .drops hg
  | wait ms =>
      cases h
      exact .waits

theorem asksOnce_of_sound (hs : s.refreshLocks.Sound) : s.AsksOnce := by
  intro id i j hi hj
  rcases hi with ⟨c, r, old, hc, hasks, hkey⟩
  rcases hj with ⟨c', r', old', hc', hasks', hkey'⟩
  refine hs.of_key hc hc' ?_ ?_ (hkey.trans hkey'.symm)
  · rw [hasks]
    rfl
  · rw [hasks']
    rfl

end Steps

end TokenWorld

open TokenWorld

/-- As long as no account gets a second lock while a refresh of it has an
earlier one, it has one auth request in flight. -/
theorem singleRefresh_of_oneLock (m : Roster accounts)
    (actions : List TokenManagerAction) (s' : TokenWorld)
    (hone : tokenManagerSystem.Along OneRefreshLock (.start m) actions)
    (hrun : tokenManagerSystem.run (.start m) actions = some s') : s'.AsksOnce := by
  have hsound : s'.refreshLocks.Sound :=
    System.run_invariant_along (I := fun s => s.refreshLocks.Sound)
      (fun s a s' hs ha h => (stepped_of_step h).sound hs ha)
      LockCache.sound_start hone hrun
  exact asksOnce_of_sound hsound

/-- One account without a token. -/
def oneTokenless : Roster accounts :=
  .reload ⟨Arena.empty, oneRow⟩

/-- A caller that gets to its first auth request. -/
def askingCall (i : Nat) : List TokenManagerAction :=
  [.call 0 .getToken 0, .lookUp 0, .lock i, .enter i 0, .share i 0 none,
    .acquire i, .resolve i false 0 0 (.ok ()), .cycle i .send]

/-- The second refresh starts when the first one has returned. -/
def refreshAfterRefresh : List TokenManagerAction :=
  askingCall 0 ++ [TokenManagerAction.leave 0, .wait 3600000] ++ askingCall 1

theorem refreshAfterRefresh_oneLock :
    tokenManagerSystem.Along OneRefreshLock (.start oneTokenless)
      refreshAfterRefresh := by
  decide

theorem singleRefresh_of_oneLock_twice :
    exists s', tokenManagerSystem.run (.start oneTokenless) refreshAfterRefresh =
        some s' ∧ s'.AsksOnce := by
  refine ⟨_, rfl, ?_⟩
  exact singleRefresh_of_oneLock oneTokenless refreshAfterRefresh _
    refreshAfterRefresh_oneLock rfl

/-- An earlier call has put the lock into the cache; it is forgotten while the
request of the second caller is out. -/
theorem not_singleRefresh : ¬ SingleRefresh := by
  intro h
  have honce := h oneTokenless
    ([TokenManagerAction.call 0 .getToken 0, .lookUp 0, .leave 0, .wait 3599000] ++ askingCall 1 ++
      [TokenManagerAction.wait 1000] ++ askingCall 2) _ rfl
  have hsame := honce "a" 1 2 ⟨_, _, _, rfl, rfl, rfl⟩ ⟨_, _, _, rfl, rfl, rfl⟩
  cases hsame

end HifiApi
