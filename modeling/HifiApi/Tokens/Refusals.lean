import HifiApi.Proxies.Moves
import HifiApi.Tokens.FailingSince

/-!
# The proxy of a refused account

The refreshes of an account next to the proxy manager.  The auth server's
refusals in a row are counted on the account, and the fourth one arms a change of
the proxy in the next refresh; the binding itself is kept by the proxy manager,
where traffic, other instances and the admin change it.
-/

namespace HifiApi

open TokenManager

namespace TokenManager

def authForbiddenRotateThreshold : Nat := 4

end TokenManager

/-!
## Attempts and bindings
-/

/-- What a request to the auth server comes to. -/
abbrev AuthAnswer := Except TransportError AuthResponse

namespace AuthAnswer

def event (now : I64) (jitter : Nat) : AuthAnswer -> CycleEvent
  | .error e => .answer now jitter (.error e.failure)
  | .ok response => .answer now jitter (.ok response)

def forbidden : AuthAnswer -> Bool
  | .error _ => false
  | .ok response => decide (response.status.code = 403)

/-- What the proxy manager is told before the answer is read. -/
def note (id : String) : AuthAnswer -> Option ProxyCall
  | .ok _ => some (.noteSuccessFor id)
  | .error .timeout => some (.noteFailureFor id)
  | .error .connect => some (.noteFailureFor id)
  | .error (.other _) => none

end AuthAnswer

namespace ProxyEvent

/-- The account gets a binding. -/
def binds (id : String) : ProxyEvent -> Bool
  | bound id' _ _ _ => decide (id' = id)
  | restored => true
  | _ => false

/-- The account is taken off its proxy by {lit}`rotate_account` itself. -/
def rotatesOff (id : String) : ProxyEvent -> Bool
  | dropped id' _ .caller => decide (id' = id)
  | _ => false

def isAnswer : ProxyEvent -> Bool
  | answered _ _ => true
  | _ => false

def isRefusal : ProxyEvent -> Bool
  | refused => true
  | _ => false

/-- The bindings an account has had; the last one's number. -/
def bindings (id : String) (log : List ProxyEvent) : Nat :=
  log.countP (binds id)

end ProxyEvent

namespace ProxyTask

/-- The points at which an account gets a binding. -/
def rebinds (id : String) : ProxyTask -> Bool
  | assigning id' _ _ _ => decide (id' = id)
  | installing _ _ => true
  | _ => false

def isDone : ProxyTask -> Bool
  | done => true
  | _ => false

end ProxyTask

/-- A request to the auth server that is over: the binding its client has been
taken from, and whether it was answered 403. -/
structure AuthAttempt where
  binding : Option Nat
  forbidden : Bool

/-- A refresh has taken the account off its proxy: the binding that goes, and the
attempts until then, the last one first. -/
structure AuthRotation where
  binding : Nat
  attempts : List AuthAttempt

/-- The last four attempts were all answered 403, through the binding that
goes. -/
def AuthRotation.Earned (rot : AuthRotation) : Prop :=
  exists recent rest, rot.attempts = recent ++ rest ∧
    recent.length = authForbiddenRotateThreshold ∧
    forall a, a ∈ recent -> a.forbidden = true ∧ a.binding = some rot.binding

/-!
## The refreshes of an account
-/

/-- Where a refresh is with its cycle; a task of the proxy manager it waits for
goes by its place. -/
inductive AuthStage where
  | rotating (k : Nat)
  | rotated
  | resolving (k : Nat)
  | resolved (binding : Option Nat)
  | unresolved (error : AppError)
  | attempting (binding : Option Nat) (c : Cycle)
  /-- The request is over; the proxy manager is told before the answer is
  read. -/
  | noting (k : Option Nat) (binding : Option Nat) (r : Refreshing)
      (oldRefresh : String) (answer : AuthAnswer)
  | ended

namespace AuthStage

def isEnded : AuthStage -> Bool
  | ended => true
  | _ => false

/-- The task of the proxy manager that is waited for. -/
def awaited : AuthStage -> Option Nat
  | rotating k => some k
  | resolving k => some k
  | noting k _ _ _ _ => k
  | _ => none

/-- The attempt that is cut off with the refresh. -/
def cut : AuthStage -> Option AuthAttempt
  | attempting binding (.asking _ _) => some ⟨binding, false⟩
  | attempting binding (.storing _ _ _ _) => some ⟨binding, false⟩
  | attempting binding (.publishing _ _ _) => some ⟨binding, false⟩
  | noting _ binding _ _ answer => some ⟨binding, answer.forbidden⟩
  | _ => none

/-- The binding through which a refusal came that is about to be counted. -/
def refusedThrough : AuthStage -> Option (Option Nat)
  | noting _ binding _ _ answer => if answer.forbidden then some binding else none
  | _ => none

/-- The refresh waits for something. -/
def waits : AuthStage -> Bool
  | rotating _ => true
  | resolving _ => true
  | attempting _ _ => true
  | noting _ _ _ _ _ => true
  | _ => false

/-- Where a refresh is when its cycle has got this far. -/
def ofCycle (binding : Option Nat) : Cycle -> AuthStage
  | .ended _ => ended
  | c => attempting binding c

/-- The refresh waits for {lit}`rotate_account` in this task. -/
def rotatesBy (k : Nat) : AuthStage -> Bool
  | rotating k' => decide (k' = k)
  | _ => false

end AuthStage

/-- The account whose refreshes are followed, and the settings of the proxy
manager. -/
structure AuthAccount where
  cfg : ProxyConfig
  rotatesOnRefresh : Bool
  id : String
  pointer : Nat

structure AuthWorld where
  proxies : ProxyWorld
  roster : Roster accounts
  refreshes : List AuthStage
  /-- The attempts so far, the last one first. -/
  attempts : List AuthAttempt
  /-- The times a refresh has taken the account off a proxy. -/
  rotations : List AuthRotation

inductive AuthAction where
  /-- The proxy manager is called by others, or one of its tasks goes on. -/
  | proxy (a : ProxyAction)
  | begin (now : Int)
  | resume (j : Nat) (now : I64) (jitter : Nat)
  | send (j : Nat)
  | answer (j : Nat) (answer : AuthAnswer) (now : Int)
  | read (j : Nat) (now : I64) (jitter : Nat)
  | store (j : Nat) (now : I64) (jitter : Nat)
  | publish (j : Nat)
  /-- The deadline of 45 seconds has passed. -/
  | deadline (j : Nat) (now : I64) (jitter : Nat)
  /-- The caller of a refresh hangs up. -/
  | abandon (j : Nat)

namespace ProxyWorld

/-- A call comes in as the last task. -/
def called (cfg : ProxyConfig) (s : ProxyWorld) (c : ProxyCall) (now : Int) :
    ProxyWorld :=
  let x := s.manager.begin cfg now c
  ⟨x.manager, s.tasks ++ [x.task], s.log ++ x.events⟩

/-- A call is dropped by the one who waits for it. -/
def cancel (s : ProxyWorld) : Option Nat -> ProxyWorld
  | some k => { s with tasks := s.tasks.set k .done }
  | none => s

end ProxyWorld

namespace AuthAccount

variable (acc : AuthAccount)

/-- The binding a client has been taken from at the last point of
{lit}`working_auth_client_for`. -/
def takenFrom (s : ProxyWorld) : ProxyTask -> Option Nat
  | .routing id =>
      if (s.manager.routes.route id).isSome then
        some (ProxyEvent.bindings acc.id s.log)
      else none
  | _ => none

def resolveError : ProxyTask -> AppError
  | .routing _ =>
      .serviceUnavailable "Account proxy changed during auth resolution"
  | _ =>
      .serviceUnavailable
        "No working proxy available and direct fallback is disabled"

/-- A task of the proxy manager has run a section: a refresh that waits for it
goes on when it has returned. -/
def hears (s : ProxyWorld) (k : Nat) (x : Section) : AuthStage -> AuthStage
  | .rotating k' =>
      if k' = k ∧ x.task.isDone = true then .rotated else .rotating k'
  | .resolving k' =>
      if k' = k ∧ x.task.isDone = true then
        let t := (s.tasks[k]?).getD .done
        if x.events.any ProxyEvent.isAnswer then .resolved (acc.takenFrom s t)
        else if x.events.any ProxyEvent.isRefusal then .unresolved (resolveError t)
        else .ended
      else .resolving k'
  | stage => stage

end AuthAccount

namespace AuthWorld

variable (acc : AuthAccount)

def start (enabled : Bool) (proxies : List String) (m : Roster accounts) :
    AuthWorld :=
  ⟨.start enabled proxies, m, [], [], []⟩

/-- {lit}`auth_forbidden_streak`. -/
def streak (s : AuthWorld) : Nat :=
  (s.roster.memory.cells acc.pointer).authForbiddenStreak

/-- The number of the account's last binding. -/
def binding (s : AuthWorld) : Nat :=
  ProxyEvent.bindings acc.id s.proxies.log

/-- The refreshes after a section of the proxy manager. -/
def told (s : AuthWorld) (x : Section) : ProxyAction -> List AuthStage
  | .call _ _ => s.refreshes
  | .go k _ => s.refreshes.map (acc.hears s.proxies k x)

/-- The rotations after a section of the proxy manager. -/
def rotated (s : AuthWorld) (x : Section) : ProxyAction -> List AuthRotation
  | .call _ _ => s.rotations
  | .go k _ =>
      if s.refreshes.any (AuthStage.rotatesBy k) &&
          x.events.any (ProxyEvent.rotatesOff acc.id) then
        s.rotations ++ [⟨s.binding acc, s.attempts⟩]
      else s.rotations

/-- A refresh calls the proxy manager. -/
def calls (s : AuthWorld) (c : ProxyCall) (now : Int) : AuthWorld :=
  { s with proxies := s.proxies.called acc.cfg c now }

def withStage (s : AuthWorld) (j : Nat) (stage : AuthStage) : AuthWorld :=
  { s with refreshes := s.refreshes.set j stage }

/-- The cycle of a refresh has moved on. -/
def attempted (s : AuthWorld) (j : Nat) (binding : Option Nat) (m : Roster accounts)
    (c : Cycle) : AuthWorld :=
  { s with roster := m }.withStage j (.ofCycle binding c)

/-- An attempt is over. -/
def noted (s : AuthWorld) (attempt : AuthAttempt) : AuthWorld :=
  { s with attempts := attempt :: s.attempts }

/-- The start of {lit}`request_token_cycle`. -/
def begin (s : AuthWorld) (now : Int) : AuthWorld :=
  let k := s.proxies.tasks.length
  if acc.rotatesOnRefresh = true ∨
      s.proxies.manager.enabled = true ∧
        authForbiddenRotateThreshold ≤ s.streak acc then
    { s.calls acc (.rotateAccount acc.id) now with
      refreshes := s.refreshes ++ [AuthStage.rotating k] }
  else
    { s.calls acc (.workingAuthClientFor acc.id) now with
      refreshes := s.refreshes ++ [AuthStage.resolving k] }

/-- A refresh goes on when the proxy manager has answered it. -/
def resume (s : AuthWorld) (j : Nat) (now : I64) (jitter : Nat) :
    AuthStage -> Option AuthWorld
  | .rotated =>
      some
        ({ s with
          roster := TokenWorld.rotateProxy s.roster acc.pointer true }.calls acc
            (.workingAuthClientFor acc.id) now.val
          |>.withStage j (.resolving s.proxies.tasks.length))
  | .resolved binding =>
      some
        (s.withStage j
          (.attempting binding
            (firstAttempt acc.pointer (s.roster.memory.cells acc.pointer))))
  | .unresolved error =>
      some
        ({ s with roster := s.roster.failRefresh acc.pointer now jitter error }
          |>.withStage j .ended)
  | _ => none

/-- An answer is read: the attempt is over unless a token has been granted. -/
def read (s : AuthWorld) (j : Nat) (binding : Option Nat) (r : Refreshing)
    (oldRefresh : String) (answer : AuthAnswer) (now : I64) (jitter : Nat) :
    Option AuthWorld :=
  match (Cycle.asking r oldRefresh).step s.roster (answer.event now jitter) with
  | none => none
  | some (m, .storing r oldRefresh grant expires) =>
      some (s.attempted j binding m (.storing r oldRefresh grant expires))
  | some (m, c) =>
      some ((s.noted ⟨binding, answer.forbidden⟩).attempted j binding m c)

/-- A granted token is stored and published: the attempt is over unless the
token goes to Redis next. -/
def grant (s : AuthWorld) (j : Nat) (binding : Option Nat) (c : Cycle)
    (e : CycleEvent) : Option AuthWorld :=
  match c.step s.roster e with
  | none => none
  | some (m, .publishing r token expires) =>
      some (s.attempted j binding m (.publishing r token expires))
  | some (m, c) => some ((s.noted ⟨binding, false⟩).attempted j binding m c)

/-- A refresh is cut off where it stands. -/
def cutOff (s : AuthWorld) (j : Nat) (stage : AuthStage) : AuthWorld :=
  { s with
    proxies := s.proxies.cancel stage.awaited
    attempts := stage.cut.toList ++ s.attempts }.withStage j .ended

def step (s : AuthWorld) : AuthAction -> Option AuthWorld
  | .proxy a =>
      (s.proxies.sectionOf acc.cfg a).map fun x =>
        { s with
          proxies := ⟨x.manager, s.proxies.moved x.task a, s.proxies.log ++ x.events⟩
          refreshes := s.told acc x a
          rotations := s.rotated acc x a }
  | .begin now => some (s.begin acc now)
  | .resume j now jitter =>
      match s.refreshes[j]? with
      | some stage => s.resume acc j now jitter stage
      | none => none
  | .send j =>
      match s.refreshes[j]? with
      | some (.attempting binding (.sending r)) =>
          some
            (s.attempted j binding s.roster
              (.asking r (s.roster.memory.cells r.pointer).refreshToken))
      | _ => none
  | .answer j answer now =>
      match s.refreshes[j]? with
      | some (.attempting binding (.asking r oldRefresh)) =>
          match answer.note acc.id with
          | some c =>
              some
                ((s.calls acc c now).withStage j
                  (.noting (some s.proxies.tasks.length) binding r oldRefresh
                    answer))
          | none => some (s.withStage j (.noting none binding r oldRefresh answer))
      | _ => none
  | .read j now jitter =>
      match s.refreshes[j]? with
      | some (.noting k binding r oldRefresh answer) =>
          if k.all fun k => (s.proxies.tasks[k]?).any ProxyTask.isDone then
            s.read j binding r oldRefresh answer now jitter
          else none
      | _ => none
  | .store j now jitter =>
      match s.refreshes[j]? with
      | some (.attempting binding (.storing r oldRefresh grant expires)) =>
          s.grant j binding (.storing r oldRefresh grant expires) (.store now jitter)
      | _ => none
  | .publish j =>
      match s.refreshes[j]? with
      | some (.attempting binding (.publishing r token expires)) =>
          s.grant j binding (.publishing r token expires) .publish
      | _ => none
  | .deadline j now jitter =>
      match s.refreshes[j]? with
      | some stage =>
          if stage.waits then
            some
              { s.cutOff j stage with
                roster := s.roster.failRefresh acc.pointer now jitter .timeout }
          else none
      | none => none
  | .abandon j =>
      match s.refreshes[j]? with
      | some stage => if stage.waits then some (s.cutOff j stage) else none
      | none => none

end AuthWorld

/-- The refreshes of an account and the proxy manager, as a step system. -/
def authSystem (acc : AuthAccount) : System AuthWorld AuthAction :=
  ⟨AuthWorld.step acc⟩

/-- A refresh changes the account's proxy only after four refusals through that
very binding. -/
def RotatesWhenEarned : Prop :=
  forall acc enabled proxies m, acc.rotatesOnRefresh = false ->
    (m.memory.cells acc.pointer).authForbiddenStreak = 0 ->
    forall actions s',
      (authSystem acc).run (AuthWorld.start enabled proxies m) actions = some s' ->
      forall rot, rot ∈ s'.rotations -> rot.Earned

namespace AuthWorld

variable (acc : AuthAccount)

/-- The account has a binding. -/
def isBound (s : AuthWorld) : Bool :=
  (s.proxies.manager.routes.route acc.id).isSome

/-- Refreshes come one at a time, and the account gets no new binding while
refusals are counted; while it has a binding, a refusal is counted only if it
came through that binding, and no attempt is cut off. -/
def Steady (s : AuthWorld) : AuthAction -> Prop
  | .proxy a => s.streak acc ≠ 0 -> (s.proxies.stands a).rebinds acc.id = false
  | .begin _ => s.refreshes.all AuthStage.isEnded = true
  | .read j _ _ =>
      s.isBound acc = true ->
        forall binding,
          binding ∈ (s.refreshes[j]?).bind AuthStage.refusedThrough ->
          binding = some (s.binding acc)
  | .deadline j _ _ =>
      s.streak acc ≠ 0 -> s.isBound acc = true ->
        ((s.refreshes[j]?).bind AuthStage.cut).isNone = true
  | .abandon j =>
      s.streak acc ≠ 0 -> s.isBound acc = true ->
        ((s.refreshes[j]?).bind AuthStage.cut).isNone = true
  | _ => True

instance (s : AuthWorld) : (a : AuthAction) -> Decidable (Steady acc s a)
  | .proxy a =>
      inferInstanceAs (Decidable (s.streak acc ≠ 0 ->
        (s.proxies.stands a).rebinds acc.id = false))
  | .begin _ =>
      inferInstanceAs (Decidable (s.refreshes.all AuthStage.isEnded = true))
  | .read j _ _ =>
      inferInstanceAs (Decidable (s.isBound acc = true -> forall binding,
        binding ∈ (s.refreshes[j]?).bind AuthStage.refusedThrough ->
          binding = some (s.binding acc)))
  | .deadline j _ _ | .abandon j =>
      inferInstanceAs (Decidable (s.streak acc ≠ 0 -> s.isBound acc = true ->
        Option.isNone ((s.refreshes[j]?).bind AuthStage.cut) = true))
  | .resume _ _ _ | .send _ | .answer _ _ _ | .store _ _ _ | .publish _ =>
      inferInstanceAs (Decidable True)

end AuthWorld

end HifiApi
