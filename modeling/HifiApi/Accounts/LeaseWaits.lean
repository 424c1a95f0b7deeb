import HifiApi.Accounts.BusySlots
import HifiApi.Accounts.LeaseSpec
import HifiApi.Lib.Threads

/-!
# Waiting for a lease

A request that finds all usable accounts busy sleeps until a lease is released or a
short timer ends, and tries again until its deadline.  It registers for the release
before it tries, so that a release in between wakes it as well.
-/

namespace HifiApi

open AccountManager

namespace LeaseWaits

/-- The arguments of {lit}`lease_account_for`. -/
structure LeaseCall where
  excludeIds : List String
  kind : LeaseKind
  rules : LeaseRules

/-- What one selection pass reads. -/
structure Reading where
  now : I64
  nowMs : Int
  lastUse : AccountState -> Int

def LeaseCall.request (c : LeaseCall) (r : Reading) : LeaseRequest where
  excludeIds := c.excludeIds
  kind := c.kind
  rules := c.rules
  now := r.now
  nowMs := r.nowMs
  lastUse := r.lastUse

/-- {lit}`LEASE_WAIT`, in milliseconds -/
def leaseWait : Nat := 20000

/-- The timer that also catches accounts that become usable without a release. -/
def retryPause : Nat := 100

/-- {lit}`slice::join` with a comma -/
def joinLimits (limits : List String) : String := ", ".intercalate limits

def busyDetail (rules : LeaseRules) : String :=
  let limits :=
    (if 0 < rules.concurrency then
      [s!"at most {rules.concurrency} request(s) to Tidal at a time"] else []) ++
    (if 0 < rules.restMs then [s!"a {rules.restMs} ms rest after each"] else []) ++
    (if 0 < rules.perHour then [s!"at most {rules.perHour} requests an hour"] else [])
  s!"All playback accounts are busy: each allows {joinLimits limits}, " ++
    s!"and none freed up within {leaseWait / 1000} s. Retry shortly."

def busyError (rules : LeaseRules) : AppError :=
  .accountsBusy (busyDetail rules) (if 0 < rules.perHour then 5 else 1)

inductive Stage where
  | registering
  | trying
  /-- all usable accounts are busy, and the deadline is looked at -/
  | judging
  | sleeping (since : Nat)

/-- A selection pass: what it read, and how many leases had been released. -/
structure Pass where
  roster : LeasedRoster
  request : LeaseRequest
  drops : Nat

def Pass.answer (a : Pass) : Except AppError (Option Nat) :=
  tryLease a.request a.roster.memory.cells a.roster.memory.roster a.roster.rrSeq

structure Waiter where
  call : LeaseCall
  deadline : Nat
  stage : Stage
  /-- The future that the request has registered is ready. -/
  notified : Bool
  /-- its last pass -/
  seen : Option Pass

/-- The accounts, a clock in milliseconds, the number of leases released so far, and
the requests that have no answer yet. -/
structure World where
  roster : LeasedRoster
  clock : Nat
  drops : Nat
  waiters : List Waiter

/-- An answer, with the pass it comes from and the time it is given. -/
structure Given where
  waiter : Waiter
  pass : Option Pass
  clock : Nat
  answer : Except AppError Nat

inductive Action where
  | elapse (ms : Nat)
  | ask (call : LeaseCall)
  | advance (i : Nat) (reading : Reading)
  /-- Whatever else happens to the accounts. -/
  | other (a : LeaseAction)

namespace World

def setWaiter (w : World) (i : Nat) (x : Waiter) : World :=
  { w with waiters := w.waiters.set i x }

/-- The request at a place is answered. -/
def leave (w : World) (i : Nat) : World := { w with waiters := w.waiters.eraseIdx i }

def attempt (w : World) (i : Nat) (x : Waiter) (reading : Reading) : World × List Given :=
  let pass : Pass := ⟨w.roster, x.call.request reading, w.drops⟩
  match pass.answer with
  | .ok (some p) =>
      (leave { w with roster := w.roster.lease pass.request p } i,
        [⟨x, some pass, w.clock, .ok p⟩])
  | .ok none => (w.setWaiter i { x with stage := .judging, seen := some pass }, [])
  | .error e => (w.leave i, [⟨x, some pass, w.clock, .error e⟩])

/-- The next step of a request. -/
def advance (w : World) (i : Nat) (x : Waiter) (reading : Reading) :
    Option (World × List Given) :=
  match x.stage with
  | .registering => some (w.setWaiter i { x with stage := .trying, notified := false }, [])
  | .trying => if w.roster.replacing.isSome then none else some (w.attempt i x reading)
  | .judging =>
      if x.deadline ≤ w.clock then
        some (w.leave i, [⟨x, x.seen, w.clock, .error (busyError x.call.rules)⟩])
      else some (w.setWaiter i { x with stage := .sleeping w.clock }, [])
  | .sleeping since =>
      if x.notified ∨ since + retryPause ≤ w.clock then
        some (w.setWaiter i { x with stage := .registering }, [])
      else none

/-- {lit}`notify_waiters` -/
def notifyWaiters (w : World) : World :=
  { w with
    drops := w.drops + 1
    waiters := w.waiters.map fun x => { x with notified := true } }

def turn (w : World) : Action -> Option (World × List Given)
  | .elapse ms => some ({ w with clock := w.clock + ms }, [])
  | .ask call =>
      let x : Waiter := ⟨call, w.clock + leaseWait, .registering, false, none⟩
      some ({ w with waiters := w.waiters ++ [x] }, [])
  | .advance i reading => w.waiters[i]?.bind fun x => w.advance i x reading
  | .other (.tryLease _) => none
  | .other (.dropLease i nowMs) =>
      (w.roster.step (.dropLease i nowMs)).map fun roster =>
        (notifyWaiters { w with roster := roster }, [])
  | .other a => (w.roster.step a).map fun roster => ({ w with roster := roster }, [])

def system : System World Action := ⟨fun w a => (w.turn a).map Prod.fst⟩

/-- The answers of a step. -/
def given (w : World) (a : Action) : List Given := ((w.turn a).map Prod.snd).getD []

def start (rows : Table accounts.Row accounts.rowId) : World := ⟨.start rows, 0, 0, []⟩

/-- Only accounts at rest get a new record. -/
def ReplacesAtRest (w : World) : Action -> Prop
  | .other a => w.roster.ReplacesAtRest a
  | .elapse _ | .ask _ | .advance _ _ => True

/-- A request asks for a limit, of `limit` at most. -/
def AsksWithin (limit : Nat) (_ : World) : Action -> Prop
  | .ask call => 1 ≤ call.rules.concurrency ∧ call.rules.concurrency ≤ limit
  | .elapse _ | .advance _ _ | .other _ => True

end World

/-!
## What holds of every request
-/

/-- The pass found usable accounts, all of them busy. -/
def Pass.Busy (a : Pass) : Prop :=
  (exists p, p ∈ a.roster.memory.roster ∧ a.request.Serves (a.roster.memory.cells p)) ∧
    forall p, p ∈ a.roster.memory.roster ->
      a.request.Serves (a.roster.memory.cells p) ->
        ¬ a.request.Free (a.roster.memory.cells p)

/-- The account can serve the request, and is the first of those that can. -/
def Pass.Picks (a : Pass) (p : Nat) : Prop :=
  p ∈ a.roster.memory.roster ∧ a.request.Serves (a.roster.memory.cells p) ∧
    a.request.Free (a.roster.memory.cells p) ∧
    forall p', p' ∈ a.roster.memory.roster ->
      a.request.Serves (a.roster.memory.cells p') ->
      a.request.Free (a.roster.memory.cells p') ->
        a.request.rank (a.roster.memory.cells p) ≤ a.request.rank (a.roster.memory.cells p')

/-- The last pass was busy, and no lease has been released since, unless the request
has been told. -/
def Waiter.Waits (drops : Nat) (x : Waiter) : Prop :=
  exists pass, x.seen = some pass ∧ pass.Busy ∧ pass.request.rules = x.call.rules ∧
    (x.notified = false -> pass.drops = drops)

def Waiter.Sound (drops : Nat) (x : Waiter) : Prop :=
  match x.stage with
  | .registering | .trying => True
  | .judging => x.Waits drops
  | .sleeping since => x.Waits drops ∧ since < x.deadline

/-- An answer is a lease on the account that comes first, the error of a pass without a
usable account, or the error of a request that waited for its whole time. -/
def Given.Sound (g : Given) : Prop :=
  match g.answer with
  | .ok p => exists pass, g.pass = some pass ∧ pass.Picks p
  | .error e =>
      (exists pass, g.pass = some pass ∧ pass.answer = .error e) ∨
      (exists pass, g.pass = some pass ∧ pass.Busy ∧ e = busyError g.waiter.call.rules ∧
        g.waiter.deadline ≤ g.clock)

section Requests

variable {drops : Nat} {x : Waiter} {pass : Pass}

theorem busy_of_answer (h : pass.answer = .ok none) : pass.Busy :=
  (pass.request.specified_tryLease _ _ _).waits.mp h

theorem picks_of_answer {p : Nat} (h : pass.answer = .ok (some p)) : pass.Picks p :=
  (pass.request.specified_tryLease _ _ _).least p h

/-- A release tells every request that has registered. -/
theorem Waiter.Sound.notified (h : x.Sound drops) :
    Waiter.Sound (drops + 1) { x with notified := true } := by
  have hwaits : x.Waits drops -> Waiter.Waits (drops + 1) { x with notified := true } := by
    intro hold
    rcases hold with ⟨pass, hseen, hbusy, hrules, _⟩
    refine ⟨pass, hseen, hbusy, hrules, ?_⟩
    intro htold
    cases htold
  unfold Waiter.Sound at h ⊢
  cases hstage : x.stage with
  | registering => trivial
  | trying => trivial
  | judging =>
      rw [hstage] at h
      exact hwaits h
  | sleeping since =>
      rw [hstage] at h
      exact ⟨hwaits h.left, h.right⟩

end Requests

def World.Sound (w : World) : Prop := forall x, x ∈ w.waiters -> x.Sound w.drops

section Step

variable {w w' : World} {i : Nat} {x : Waiter} {out : List Given}

theorem sound_setWaiter (hw : w.Sound) {y : Waiter} (hy : y.Sound w.drops) :
    (w.setWaiter i y).Sound := by
  intro z hz
  rcases List.mem_or_eq_of_mem_set hz with hold | hnew
  · exact hw z hold
  · rw [hnew]
    exact hy

theorem sound_leave (hw : w.Sound) : (w.leave i).Sound :=
  Threads.forall_eraseIdx hw

theorem sound_attempt (hw : w.Sound) (reading : Reading) :
    (w.attempt i x reading).1.Sound ∧
      forall g : Given, g ∈ (w.attempt i x reading).2 -> g.Sound := by
  unfold World.attempt
  dsimp only
  split
  · rename_i p hanswer
    refine ⟨sound_leave hw, ?_⟩
    intro g hg
    rw [List.mem_singleton.mp hg]
    exact ⟨_, rfl, picks_of_answer hanswer⟩
  · rename_i hanswer
    refine ⟨sound_setWaiter hw ?_, ?_⟩
    · exact ⟨_, rfl, busy_of_answer hanswer, rfl, fun _ => rfl⟩
    · intro g hg
      cases hg
  · rename_i e hanswer
    refine ⟨sound_leave hw, ?_⟩
    intro g hg
    rw [List.mem_singleton.mp hg]
    exact Or.inl ⟨_, rfl, hanswer⟩

theorem sound_advance (hw : w.Sound) (hx : w.waiters[i]? = some x) {reading : Reading}
    (hadvance : w.advance i x reading = some (w', out)) :
    w'.Sound ∧ forall g, g ∈ out -> g.Sound := by
  have hmine := hw x (List.mem_of_getElem? hx)
  have hnone : forall g : Given, g ∈ [] -> g.Sound := by
    intro g hg
    cases hg
  unfold World.advance at hadvance
  unfold Waiter.Sound at hmine
  cases hstage : x.stage with
  | registering =>
      rw [hstage] at hadvance
      cases hadvance
      exact ⟨sound_setWaiter hw trivial, hnone⟩
  | trying =>
      rw [hstage] at hadvance
      dsimp only at hadvance
      split at hadvance
      · cases hadvance
      · have hattempt := @sound_attempt w i x hw reading
        rw [Option.some.inj hadvance] at hattempt
        exact hattempt
  | judging =>
      rw [hstage] at hadvance hmine
      rcases hmine with ⟨pass, hseen, hbusy, hrules, hdrops⟩
      dsimp only at hadvance
      split at hadvance
      · rename_i hdeadline
        cases hadvance
        refine ⟨sound_leave hw, ?_⟩
        intro g hg
        rw [List.mem_singleton.mp hg]
        exact Or.inr ⟨pass, hseen, hbusy, rfl, hdeadline⟩
      · rename_i hearly
        cases hadvance
        refine ⟨sound_setWaiter hw ?_, hnone⟩
        exact ⟨⟨pass, hseen, hbusy, hrules, hdrops⟩, Nat.not_le.mp hearly⟩
  | sleeping since =>
      rw [hstage] at hadvance
      dsimp only at hadvance
      split at hadvance
      · cases hadvance
        exact ⟨sound_setWaiter hw trivial, hnone⟩
      · cases hadvance

theorem sound_turn (hw : w.Sound) {a : Action} (hturn : w.turn a = some (w', out)) :
    w'.Sound ∧ forall g, g ∈ out -> g.Sound := by
  have hnone : forall g : Given, g ∈ [] -> g.Sound := by
    intro g hg
    cases hg
  cases a with
  | elapse ms =>
      cases hturn
      exact ⟨hw, hnone⟩
  | ask call =>
      cases hturn
      exact ⟨Threads.forall_concat hw trivial, hnone⟩
  | advance i reading =>
      rcases Option.bind_eq_some_iff.mp hturn with ⟨x, hx, hadvance⟩
      exact sound_advance hw hx hadvance
  | other a =>
      cases a with
      | tryLease q => cases hturn
      | dropLease i nowMs =>
          rcases Option.map_eq_some_iff.mp hturn with ⟨roster, _, heq⟩
          cases heq
          refine ⟨?_, hnone⟩
          intro y hy
          rcases List.mem_map.mp hy with ⟨x, hx, heq⟩
          rw [← heq]
          exact (hw x hx).notified
      | claimCatalogSlot _ _ _ | dropSlot _ | replace _ _ _ | install | abandon
      | restore _ _ _ =>
          rcases Option.map_eq_some_iff.mp hturn with ⟨roster, _, heq⟩
          cases heq
          exact ⟨hw, hnone⟩

theorem turn_of_step {a : Action} (hstep : World.system.step w a = some w') :
    w.turn a = some (w', w.given a) := by
  rcases Option.map_eq_some_iff.mp hstep with ⟨⟨t, out⟩, hturn, heq⟩
  have hgiven : w.given a = out := by
    rw [World.given, hturn]
    rfl
  rw [hgiven, hturn]
  exact congrArg (fun v => some (v, out)) heq

/-- A request that cannot go on. -/
theorem waits_of_stuck (hw : w.Sound) (hx : w.waiters[i]? = some x) {reading : Reading}
    (hstuck : w.turn (.advance i reading) = none) :
    x.stage = .trying ∧ w.roster.replacing.isSome = true ∨
      exists pass, x.seen = some pass ∧ pass.Busy ∧ pass.drops = w.drops ∧
        w.clock < x.deadline + retryPause := by
  have hmine := hw x (List.mem_of_getElem? hx)
  unfold World.turn at hstuck
  dsimp only at hstuck
  rw [hx, Option.bind_some] at hstuck
  unfold World.advance at hstuck
  unfold Waiter.Sound at hmine
  cases hstage : x.stage with
  | registering =>
      rw [hstage] at hstuck
      cases hstuck
  | trying =>
      rw [hstage] at hstuck
      dsimp only at hstuck
      split at hstuck
      · rename_i hlocked
        exact Or.inl ⟨rfl, hlocked⟩
      · cases hstuck
  | judging =>
      rw [hstage] at hstuck
      dsimp only at hstuck
      split at hstuck <;> cases hstuck
  | sleeping since =>
      rw [hstage] at hstuck hmine
      rcases hmine with ⟨⟨pass, hseen, hbusy, _, hdrops⟩, hsince⟩
      dsimp only at hstuck
      split at hstuck
      · cases hstuck
      · rename_i hasleep
        rw [not_or, Bool.not_eq_true] at hasleep
        have hclock := hasleep.right
        exact Or.inr ⟨pass, hseen, hbusy, hdrops hasleep.left, by omega⟩

end Step

/-!
## Limits over a run
-/

/-- The requests in flight on a record. -/
def onRecord (s : LeasedRoster) (p : Nat) : Nat :=
  s.leases.countP fun l => decide (l.account = p)

/-- The counters are right, and no record has more requests than the limit. -/
structure Limited (limit : Nat) (w : World) : Prop where
  home : w.roster.AtHome
  calls : forall x, x ∈ w.waiters ->
    1 ≤ x.call.rules.concurrency ∧ x.call.rules.concurrency ≤ limit
  most : forall p, onRecord w.roster p ≤ limit

/-- A lease begins after the rest of its account. -/
def Given.Rested (g : Given) : Prop :=
  forall pass p, g.pass = some pass -> g.answer = .ok p ->
    pass.roster.restEnds (pass.roster.memory.cells p).id ≤ pass.request.nowMs

section Limits

variable {limit : Nat} {w w' : World} {i : Nat} {x : Waiter} {out : List Given}

theorem poolInflight_eq {s : LeasedRoster} (h : s.AtHome) {p : Nat}
    (hp : p ∈ s.memory.roster) : (s.memory.cells p).poolInflight = onRecord s p := by
  rw [onRecord, LeasedRoster.countP_account, ← h.counted p hp .playback,
    ← h.counted p hp .metadata]
  rfl

theorem onRecord_lease (s : LeasedRoster) (q : LeaseRequest) (p p' : Nat) :
    onRecord (s.lease q p) p' = onRecord s p' + (decide (p = p')).toNat :=
  Threads.countP_concat _ _

/-- What is neither a pass nor a release leaves the leases alone. -/
theorem leases_of_step {s s' : LeasedRoster} {a : LeaseAction}
    (hpass : forall q, a ≠ .tryLease q) (hdrop : forall i nowMs, a ≠ .dropLease i nowMs)
    (hstep : s.step a = some s') : s'.leases = s.leases := by
  cases a with
  | tryLease q => exact absurd rfl (hpass q)
  | dropLease i nowMs => exact absurd rfl (hdrop i nowMs)
  | claimCatalogSlot limit now nowMs =>
      simp only [LeasedRoster.step] at hstep
      split at hstep
      · cases hstep
      · split at hstep <;> cases hstep <;> rfl
  | dropSlot i =>
      rcases Option.map_eq_some_iff.mp hstep with ⟨p, _, heq⟩
      rw [← heq]
      rfl
  | replace id how now =>
      simp only [LeasedRoster.step] at hstep
      split at hstep
      · cases hstep
      · split at hstep
        · cases hstep
          rfl
        · split at hstep <;> cases hstep <;> rfl
  | install =>
      simp only [LeasedRoster.step] at hstep
      split at hstep
      · cases hstep
      · split at hstep
        · cases hstep
          rfl
        · cases hstep
  | abandon =>
      simp only [LeasedRoster.step] at hstep
      split at hstep <;> cases hstep
      rfl
  | restore id remote now =>
      simp only [LeasedRoster.step] at hstep
      split at hstep
      · cases hstep
      · split at hstep <;> cases hstep
        rfl

theorem Limited.setWaiter (h : Limited limit w) (hx : w.waiters[i]? = some x) {y : Waiter}
    (hcall : y.call = x.call) : Limited limit (w.setWaiter i y) where
  home := h.home
  calls := by
    intro z hz
    rcases List.mem_or_eq_of_mem_set hz with hold | hnew
    · exact h.calls z hold
    · rw [hnew, hcall]
      exact h.calls x (List.mem_of_getElem? hx)
  most := h.most

theorem Limited.leave (h : Limited limit w) : Limited limit (w.leave i) where
  home := h.home
  calls := Threads.forall_eraseIdx h.calls
  most := h.most

/-- A pass takes an account that has a slot left, and has rested. -/
theorem Limited.attempt (h : Limited limit w) (hx : w.waiters[i]? = some x)
    (reading : Reading) :
    Limited limit (w.attempt i x reading).1 ∧
      forall g : Given, g ∈ (w.attempt i x reading).2 -> g.Rested := by
  unfold World.attempt
  dsimp only
  split
  · rename_i p hanswer
    have hpicks := picks_of_answer hanswer
    have hcall := h.calls x (List.mem_of_getElem? hx)
    have hfree := hpicks.right.right.left
    have hslot : onRecord w.roster p < x.call.rules.concurrency := by
      rcases hfree.slot with hzero | hlt
      · have hpos : x.call.rules.concurrency ≠ 0 := Nat.ne_of_gt hcall.left
        exact absurd hzero hpos
      · rw [← poolInflight_eq h.home hpicks.left]
        exact hlt
    have hlease : Limited limit
        { w with roster := w.roster.lease (x.call.request reading) p } := by
      refine ⟨h.home.lease _ hpicks.left, h.calls, ?_⟩
      intro p'
      have hcount := onRecord_lease w.roster (x.call.request reading) p p'
      have hle := h.most p'
      dsimp only
      by_cases hp : p = p'
      · rw [← hp] at hcount ⊢
        rw [decide_eq_true rfl] at hcount
        have hone : (true).toNat = 1 := rfl
        omega
      · rw [decide_eq_false hp] at hcount
        have hzero : (false).toNat = 0 := rfl
        omega
    refine ⟨hlease.leave, ?_⟩
    intro g hg pass p' hpass hok
    rw [List.mem_singleton.mp hg] at hpass hok
    cases hpass
    cases hok
    exact Int.le_trans (h.home.rest p hpicks.left) hfree.rested
  · refine ⟨h.setWaiter hx rfl, ?_⟩
    intro g hg
    cases hg
  · refine ⟨h.leave, ?_⟩
    intro g hg pass p' hpass hok
    rw [List.mem_singleton.mp hg] at hok
    cases hok

theorem Limited.advance (h : Limited limit w) (hx : w.waiters[i]? = some x)
    {reading : Reading} (hadvance : w.advance i x reading = some (w', out)) :
    Limited limit w' ∧ forall g, g ∈ out -> g.Rested := by
  have hnone : forall g : Given, g ∈ [] -> g.Rested := by
    intro g hg
    cases hg
  unfold World.advance at hadvance
  split at hadvance
  · cases hadvance
    exact ⟨h.setWaiter hx rfl, hnone⟩
  · split at hadvance
    · cases hadvance
    · have hattempt := h.attempt hx reading
      rw [Option.some.inj hadvance] at hattempt
      exact hattempt
  · split at hadvance
    · cases hadvance
      refine ⟨h.leave, ?_⟩
      intro g hg pass p hpass hok
      rw [List.mem_singleton.mp hg] at hok
      cases hok
    · cases hadvance
      exact ⟨h.setWaiter hx rfl, hnone⟩
  · split at hadvance
    · cases hadvance
      exact ⟨h.setWaiter hx rfl, hnone⟩
    · cases hadvance

theorem Limited.turn (h : Limited limit w) {a : Action} (hasks : w.AsksWithin limit a)
    (hrest : w.ReplacesAtRest a) (hturn : w.turn a = some (w', out)) :
    Limited limit w' ∧ forall g, g ∈ out -> g.Rested := by
  have hnone : forall g : Given, g ∈ [] -> g.Rested := by
    intro g hg
    cases hg
  cases a with
  | elapse ms =>
      cases hturn
      exact ⟨⟨h.home, h.calls, h.most⟩, hnone⟩
  | ask call =>
      cases hturn
      exact ⟨⟨h.home, Threads.forall_concat h.calls hasks, h.most⟩, hnone⟩
  | advance i reading =>
      rcases Option.bind_eq_some_iff.mp hturn with ⟨x, hx, hadvance⟩
      exact h.advance hx hadvance
  | other a =>
      have hroster : w.roster.ReplacesAtRest a := hrest
      cases a with
      | tryLease q => cases hturn
      | dropLease i nowMs =>
          rcases Option.map_eq_some_iff.mp hturn with ⟨roster, hstep, heq⟩
          cases heq
          refine ⟨⟨h.home.step hroster hstep, ?_, ?_⟩, hnone⟩
          · intro y hy
            rcases List.mem_map.mp hy with ⟨x, hx, heq⟩
            rw [← heq]
            exact h.calls x hx
          · intro p
            rcases Option.map_eq_some_iff.mp hstep with ⟨l, _, heq⟩
            rw [← heq]
            exact Nat.le_trans ((List.eraseIdx_sublist _ _).countP_le) (h.most p)
      | claimCatalogSlot _ _ _ | dropSlot _ | replace _ _ _ | install | abandon
      | restore _ _ _ =>
          rcases Option.map_eq_some_iff.mp hturn with ⟨roster, hstep, heq⟩
          cases heq
          refine ⟨⟨h.home.step hroster hstep, h.calls, ?_⟩, hnone⟩
          intro p
          have hleases := leases_of_step (by intro q hq; cases hq)
            (by intro j ms hj; cases hj) hstep
          show roster.leases.countP _ ≤ limit
          rw [hleases]
          exact h.most p

end Limits

/-!
## Every run
-/

section Runs

variable {rows : Table accounts.Row accounts.rowId} {actions : List Action} {w : World}

theorem sound_of_run (hrun : World.system.run (.start rows) actions = some w) :
    w.Sound ∧ forall g, g ∈ World.system.history World.given (.start rows) actions ->
      g.Sound := by
  have hbegin : (World.start rows).Sound ∧ forall g : Given, g ∈ [] -> g.Sound := by
    constructor
    · intro x hx
      cases hx
    · intro g hg
      cases hg
  have hend : w.Sound ∧
      forall g, g ∈ [] ++ World.system.history World.given (.start rows) actions ->
        g.Sound := by
    refine System.run_history_invariant (P := fun _ _ => True)
      (I := fun v (log : List Given) => v.Sound ∧ forall g, g ∈ log -> g.Sound) ?_ hbegin
      (System.along_of_forall_mem fun _ _ => trivial) hrun
    intro v a v' log hv _ hstep
    have hturn := sound_turn hv.left (turn_of_step hstep)
    exact ⟨hturn.left, fun g hg => (List.mem_append.mp hg).elim (hv.right g) (hturn.right g)⟩
  rw [List.nil_append] at hend
  exact hend

theorem limited_of_run {limit : Nat}
    (hasks : World.system.Along (World.AsksWithin limit) (.start rows) actions)
    (hrest : World.system.Along World.ReplacesAtRest (.start rows) actions)
    (hrun : World.system.run (.start rows) actions = some w) :
    Limited limit w ∧ forall g, g ∈ World.system.history World.given (.start rows) actions ->
      g.Rested := by
  have hbegin : Limited limit (World.start rows) ∧ forall g : Given, g ∈ [] -> g.Rested := by
    refine ⟨⟨LeasedRoster.atHome_start rows, ?_, fun _ => Nat.zero_le _⟩, ?_⟩
    · intro x hx
      cases hx
    · intro g hg
      cases hg
  have hend : Limited limit w ∧
      forall g, g ∈ [] ++ World.system.history World.given (.start rows) actions ->
        g.Rested := by
    refine System.run_history_invariant
      (I := fun v (log : List Given) => Limited limit v ∧ forall g, g ∈ log -> g.Rested) ?_
      hbegin (System.along_and.mpr ⟨hasks, hrest⟩) hrun
    intro v a v' log hv hboth hstep
    have hturn := hv.left.turn hboth.left hboth.right (turn_of_step hstep)
    exact ⟨hturn.left, fun g hg => (List.mem_append.mp hg).elim (hv.right g) (hturn.right g)⟩
  rw [List.nil_append] at hend
  exact hend

end Runs

/-- One request at a time. -/
def singly : LeaseCall := ⟨[], .playback, ⟨1, 0, 0⟩⟩

def midnight : Reading := ⟨.ofNat 100, 100000, fun _ => 0⟩

/-- The second request sleeps until the first one is done. -/
def secondSleeps : List Action :=
  [.ask singly, .ask singly, .advance 0 midnight, .advance 0 midnight,
    .advance 0 midnight, .advance 0 midnight, .advance 0 midnight,
    .other (.dropLease 0 100000), .advance 0 midnight, .advance 0 midnight,
    .advance 0 midnight]

end LeaseWaits

end HifiApi
