import HifiApi.Cache.Responses
import HifiApi.Lib.LockCache
import HifiApi.Lib.System

/-!
# Identical requests at once

A miss waits for the guard of its key and looks again; a stale hit refreshes its
entry in the background if it gets the guard at once.  The guards are kept in a
cache of their own, which forgets a guard a minute after its insertion: the
handler of a key runs once at a time as long as no second guard is made for the
key while a request still waits for an earlier one or works under it.
-/

namespace HifiApi

open ResponseCache

/-- A request the cache may answer, with its query in canonical form. -/
structure CacheRequest where
  path : String
  query : String

def CacheRequest.key (r : CacheRequest) : String :=
  r.path ++ "?" ++ r.query

/-- An inline miss, or the background refresh of a stale entry. -/
structure CacheJob where
  request : CacheRequest
  background : Bool

/-- What a request does under its guard. -/
inductive Handling where
  /-- A miss looks whether another one has filled the cache. -/
  | checking
  /-- The inner handler runs. -/
  | running
  /-- The body of the answer is read and kept. -/
  | keeping (response : Streamed)

structure CacheWorld where
  cache : String -> Option CachedResponse
  negative : String -> Option NegativeEntry
  /-- Requests that are about to look their guard up. -/
  called : List CacheJob
  inflight : LockCache String CacheJob Handling

inductive CacheAction where
  | request (r : CacheRequest) (now : Int)
  | lookUp (k : Nat)
  | lock (i : Nat)
  | tryLock (i : Nat)
  | check (i : Nat) (now : Int)
  | answer (i : Nat) (response : Streamed)
  | keep (i : Nat) (now : Int)
  /-- The client of a miss hangs up. -/
  | hangUp (i : Nat)
  /-- An answer expires, is evicted or is invalidated. -/
  | forget (key : String)
  | forgetNegative (key : String)
  /-- The cache of the guards drops one. -/
  | dropGuard (key : String)
  | wait (ms : Nat)

namespace ResponseCache

/-- The cache of the guards, in milliseconds. -/
def inflightPolicy : CachePolicy where
  timeToLive := 60 * 1000
  capacity := 10000

end ResponseCache

namespace CacheWorld

def start : CacheWorld :=
  ⟨fun _ => none, fun _ => none, [], .start⟩

/-- How a cached answer of the key may be served. -/
def hit (s : CacheWorld) (r : CacheRequest) (now : Int) : Option Freshness :=
  (s.cache r.key).map fun h => freshness r.path (now - h.fetchedAt)

/-- The negative cache answers. -/
def refuses (s : CacheWorld) (r : CacheRequest) (now : Int) : Bool :=
  (s.negative r.key).any fun n => decide (now < n.expiresAt)

/-- A request comes in: {lit}`cache_responses` up to the lookup of the
guard. -/
def request (s : CacheWorld) (r : CacheRequest) (now : Int) : CacheWorld :=
  match s.hit r now with
  | some .fresh => s
  | some .stale => { s with called := s.called ++ [⟨r, true⟩] }
  | _ =>
      if s.refuses r now then s
      else { s with called := s.called ++ [⟨r, false⟩] }

/-- The request behind a caller, with the stage it has reached. -/
def caller (s : CacheWorld) (i : Nat) : Option (CacheJob × Stage Handling) :=
  s.inflight.callers[i]?.map fun c => (c.job, c.stage)

def withGuards (s : CacheWorld) (g : LockCache String CacheJob Handling) :
    CacheWorld :=
  { s with inflight := g }

/-- Keep an answer under its key. -/
def store (s : CacheWorld) (key : String) : Kept -> CacheWorld
  | .cached entry => { s with cache := Function.update s.cache key (some entry) }
  | .negative entry =>
      { s with negative := Function.update s.negative key (some entry) }
  | .nothing => s

def step (s : CacheWorld) : CacheAction -> Option CacheWorld
  | .request r now => some (s.request r now)
  | .lookUp k =>
      match s.called[k]? with
      | none => none
      | some job =>
          some
            { s with
              called := s.called.eraseIdx k
              inflight := s.inflight.join inflightPolicy job.request.key job }
  | .lock i =>
      match s.caller i with
      | some (job, .waiting) =>
          if job.background then none
          else (s.inflight.enter i .checking).map s.withGuards
      | _ => none
  | .tryLock i =>
      match s.caller i with
      | some (job, .waiting) =>
          if job.background then
            match s.inflight.enter i .running with
            | some g => some (s.withGuards g)
            | none => (s.inflight.leave i).map s.withGuards
          else none
      | _ => none
  | .check i now =>
      match s.caller i with
      | some (job, .inside .checking) =>
          if s.hit job.request now = some .fresh ∨
              s.hit job.request now = some .stale ∨
              s.refuses job.request now = true then
            (s.inflight.leave i).map s.withGuards
          else (s.inflight.advance i .running).map s.withGuards
      | _ => none
  | .answer i response =>
      match s.caller i with
      | some (_, .inside .running) =>
          (s.inflight.advance i (.keeping response)).map s.withGuards
      | _ => none
  | .keep i now =>
      match s.caller i with
      | some (job, .inside (.keeping response)) =>
          let kept :=
            if job.background then keepRefresh now response
            else keepMiss now response
          (s.inflight.leave i).map (s.store job.request.key kept).withGuards
      | _ => none
  | .hangUp i =>
      match s.caller i with
      | some (job, .waiting) | some (job, .inside _) =>
          if job.background then none
          else (s.inflight.leave i).map s.withGuards
      | _ => none
  | .forget key => some { s with cache := Function.update s.cache key none }
  | .forgetNegative key =>
      some { s with negative := Function.update s.negative key none }
  | .dropGuard key => (s.inflight.drop inflightPolicy key).map s.withGuards
  | .wait ms => some (s.withGuards (s.inflight.tick ms))

/-- The inner handler runs for a request with the key. -/
def Runs (s : CacheWorld) (i : Nat) (key : String) : Prop :=
  exists c, s.inflight.callers[i]? = some c ∧ c.stage = .inside .running ∧
    c.key = key

/-- No key has its handler running twice. -/
def RunsOnce (s : CacheWorld) : Prop :=
  forall key i j, s.Runs i key -> s.Runs j key -> i = j

end CacheWorld

/-- The metadata cache as a step system. -/
def cacheSystem : System CacheWorld CacheAction :=
  ⟨CacheWorld.step⟩

/-- Concurrent requests with one key run the handler one at a time. -/
def Singleflight : Prop :=
  forall actions s', cacheSystem.run .start actions = some s' -> s'.RunsOnce

namespace CacheWorld

/-- The key whose guard an action looks up. -/
def wanted (s : CacheWorld) : CacheAction -> Option String
  | .lookUp k => s.called[k]?.map fun job => job.request.key
  | _ => none

/-- No guard is made for a key while a request has an earlier one. -/
def OneGuard (s : CacheWorld) (a : CacheAction) : Prop :=
  forall key, key ∈ s.wanted a -> s.inflight.MakesNoSecond inflightPolicy key

instance (s : CacheWorld) (a : CacheAction) : Decidable (OneGuard s a) :=
  inferInstanceAs (Decidable (forall key, key ∈ s.wanted a -> _))

/-!
## What a step does to the guards
-/

section Steps

variable {s s' : CacheWorld}

theorem store_inflight (s : CacheWorld) (key : String) (kept : Kept) :
    (s.store key kept).inflight = s.inflight := by
  cases kept <;> rfl

theorem request_inflight (s : CacheWorld) (r : CacheRequest) (now : Int) :
    (s.request r now).inflight = s.inflight := by
  unfold request
  split
  · rfl
  · rfl
  · split <;> rfl

theorem stepped_of_enter {a : CacheAction} {i : Nat} {h : Handling}
    (hstep : (s.inflight.enter i h).map s.withGuards = some s') :
    s.inflight.Stepped inflightPolicy (s.wanted a) s'.inflight := by
  rcases Option.map_eq_some_iff.mp hstep with ⟨g, hg, heq⟩
  rw [← heq]
  exact .moves (LockCache.moved_of_enter hg)

theorem stepped_of_advance {a : CacheAction} {i : Nat} {h : Handling}
    (hstep : (s.inflight.advance i h).map s.withGuards = some s') :
    s.inflight.Stepped inflightPolicy (s.wanted a) s'.inflight := by
  rcases Option.map_eq_some_iff.mp hstep with ⟨g, hg, heq⟩
  rw [← heq]
  exact .moves (LockCache.moved_of_advance hg)

theorem stepped_of_leave {a : CacheAction} {i : Nat} {t : CacheWorld}
    (hstep : (s.inflight.leave i).map t.withGuards = some s') :
    s.inflight.Stepped inflightPolicy (s.wanted a) s'.inflight := by
  rcases Option.map_eq_some_iff.mp hstep with ⟨g, hg, heq⟩
  rw [← heq]
  exact .moves (LockCache.moved_of_leave hg)

theorem stepped_of_step {a : CacheAction} (h : s.step a = some s') :
    s.inflight.Stepped inflightPolicy (s.wanted a) s'.inflight := by
  cases a with
  | request r now =>
      cases h
      rw [request_inflight]
      exact .stays
  | lookUp k =>
      simp only [step] at h
      split at h
      · cases h
      · rename_i job hcalled
        cases h
        exact .joins (by rw [wanted, hcalled]; rfl)
  | lock i =>
      simp only [step] at h
      split at h
      · split at h
        · cases h
        · exact stepped_of_enter h
      · cases h
  | tryLock i =>
      simp only [step] at h
      split at h
      · split at h
        · split at h
          · rename_i g hg
            cases h
            exact .moves (LockCache.moved_of_enter hg)
          · exact stepped_of_leave h
        · cases h
      · cases h
  | check i now =>
      simp only [step] at h
      split at h
      · split at h
        · exact stepped_of_leave h
        · exact stepped_of_advance h
      · cases h
  | answer i response =>
      simp only [step] at h
      split at h
      · exact stepped_of_advance h
      · cases h
  | keep i now =>
      simp only [step] at h
      split at h
      · exact stepped_of_leave h
      · cases h
  | hangUp i =>
      simp only [step] at h
      split at h
      · split at h
        · cases h
        · exact stepped_of_leave h
      · split at h
        · cases h
        · exact stepped_of_leave h
      · cases h
  | forget key =>
      cases h
      exact .stays
  | forgetNegative key =>
      cases h
      exact .stays
  | dropGuard key =>
      rcases Option.map_eq_some_iff.mp h with ⟨g, hg, heq⟩
      rw [← heq]
      exact .drops hg
  | wait ms =>
      cases h
      exact .waits

theorem runsOnce_of_sound (hs : s.inflight.Sound) : s.RunsOnce := by
  intro key i j hi hj
  rcases hi with ⟨c, hc, hrun, hkey⟩
  rcases hj with ⟨c', hc', hrun', hkey'⟩
  refine hs.of_key hc hc' ?_ ?_ (hkey.trans hkey'.symm)
  · rw [hrun]
    rfl
  · rw [hrun']
    rfl

end Steps

end CacheWorld

open CacheWorld

/-- As long as no key gets a second guard while a request has an earlier one,
its handler runs once at a time. -/
theorem singleflight_of_oneGuard (actions : List CacheAction) (s' : CacheWorld)
    (hone : cacheSystem.Along OneGuard .start actions)
    (hrun : cacheSystem.run .start actions = some s') : s'.RunsOnce := by
  have hsound : s'.inflight.Sound :=
    System.run_invariant_along (I := fun s => s.inflight.Sound)
      (fun s a s' hs ha h => (stepped_of_step h).sound hs ha)
      LockCache.sound_start hone hrun
  exact runsOnce_of_sound hsound

/-- A request that runs its handler. -/
def runningMiss (i : Nat) : List CacheAction :=
  [.request ⟨"/album/", "id=1"⟩ 0, .lookUp 0, .lock i, .check i 0]

/-- The second request comes when the first one has been answered. -/
def missAfterMiss : List CacheAction :=
  runningMiss 0 ++ [CacheAction.answer 0 ⟨400, [], []⟩, .keep 0 0, .wait 60000] ++
    runningMiss 1

theorem missAfterMiss_oneGuard :
    cacheSystem.Along OneGuard .start missAfterMiss := by decide

theorem singleflight_of_oneGuard_twice :
    exists s', cacheSystem.run .start missAfterMiss = some s' ∧ s'.RunsOnce := by
  refine ⟨_, rfl, ?_⟩
  exact singleflight_of_oneGuard missAfterMiss _ missAfterMiss_oneGuard rfl

/-- The handler of the first request takes more than a minute. -/
theorem not_singleflight : ¬ Singleflight := by
  intro h
  have honce := h (runningMiss 0 ++ [CacheAction.wait 60000] ++ runningMiss 1) _ rfl
  have hsame := honce "/album/?id=1" 0 1 ⟨_, rfl, rfl, rfl⟩ ⟨_, rfl, rfl, rfl⟩
  cases hsame

end HifiApi
