import HifiApi.Lib.System
import HifiApi.Proxies.Routes

/-!
# The proxy manager

The calls of the proxy manager as tasks that stand at an await point.  A step
runs one task up to its next await point; what it waits for there (the lock of
the switches, the list of the proxies, a probe, Redis) decides whether it can go
on.  The lock of the switches belongs to the task that stands at one of the
points where the code holds it.
-/

namespace HifiApi

structure ProxyManager where
  enabled : Bool
  proxies : List String
  client : Egress
  current : Option String
  ready : Bool
  fails : Nat
  lastTry : Int
  rotating : Bool
  generation : Nat
  routes : AccountRoutes

/-- Who waits for a resolved proxy. -/
inductive Resolver where
  | client
  | authClient
  | initial
  | replacement
  | rotation (generation : Nat)

/-- Who asks for the client of an account. -/
inductive RouteUser where
  | api
  | auth

/-- Who takes an account off its proxy. -/
inductive Leaver where
  /-- {lit}`note_failure_for`. -/
  | failures
  | caller
  deriving DecidableEq

/-- How an account came to its proxy. -/
inductive Binder where
  | request
  | rebalance
  | fleet
  deriving DecidableEq

/-- What follows an assignment. -/
inductive AfterAssign where
  | answer (user : RouteUser)
  | balance (loads : ProxyManager.Loads) (targets : List String)
  | sync (entries : List String)
      (rest : List (String × String × Option String))

def AfterAssign.binder : AfterAssign -> Binder
  | .answer _ => .request
  | .balance _ _ => .rebalance
  | .sync _ _ => .fleet

/-- The await points. -/
inductive ProxyTask where
  | done
  -- `configure`
  | configure (enabled : Bool) (list : List String)
  | comparing (enabled : Bool) (list : List String)
  | replacing (enabled : Bool) (list : List String) (rebalances : Bool)
  | switching (enabled : Bool) (list : List String) (rebalances : Bool)
  | retaining (list : List String) (rebalances : Bool)
  | clearing (list : List String) (rebalances : Bool) (removed : List String)
  -- `rebalance_assignments_locked`
  | weighing (list : List String)
  | testingSpares (loads : ProxyManager.Loads) (free : List String)
  | electing (loads : ProxyManager.Loads) (source target : String)
      (targets : List String)
  -- `assign`
  | assigning (id url : String) (verified : Bool) (after : AfterAssign)
  | sharing (id url : String) (after : AfterAssign)
  -- `load_assignments`
  | loading
  | reading
  | installing (entries : List String) (rows : List (String × String))
  -- `working_client_for`
  | wanting (user : RouteUser) (id : String)
  | queueing (user : RouteUser) (id : String)
  | listing (user : RouteUser) (id : String)
  | matching (user : RouteUser) (id : String) (entries : List String)
  | probing (user : RouteUser) (id : String) (entries : List String)
      (url : String)
  | asking (user : RouteUser) (id : String) (entries : List String)
      (avoid : Option String) (candidates : List String)
      (fallback : Option String) (now : Int)
  | testing (user : RouteUser) (id : String) (candidates : List String)
      (fallback : Option String) (now : Int)
  | failing (id : String) (now : Int)
  | authorized (id : String)
  | routing (id : String)
  -- `working_client`, `try_resolve`, `swap_to`
  | picking (generation : Nat) (avoid : Option String) (who : Resolver)
  | testingPicked (generation : Nat) (choices : List String) (who : Resolver)
  | swapping (generation : Nat) (url : String) (who : Resolver)
  | storing (url : String) (who : Resolver)
  | resolved (ok : Bool) (who : Resolver)
  | starting
  -- `working_auth_client`, `replace_auth_client`
  | authQueued
  | authReading
  | authFailed (generation : Nat)
  -- `rotate`
  | rotation
  | rotationList (generation : Nat)
  | rotationNext (generation : Nat) (list : List String)
  | rotationCheck (generation : Nat)
  | rotationProbe (generation : Nat) (url : String)
  -- `rotate_account`, `forget_account`
  | leaving (id : String) (who : Leaver)
  | dropping (id : String) (who : Leaver)
  | forgetting (id : String)
  | erasing (id : String)
  | unsharing (id : String)
  -- `note_failure_for`, `note_success_for`
  | counting (id : String)
  | succeeding (id : String)
  -- `sync_shared_assignments`
  | syncing
  | syncEntries
  | syncLocal (entries : List String)
  | syncRead (entries : List String) (bindings : List (String × String))
  | reconciling (entries : List String)
      (rest : List (String × String × Option String))
  | publishing (id url : String) (entries : List String)
      (rest : List (String × String × Option String))
  | offering (id url : String) (entries : List String)
      (rest : List (String × String × Option String))

/-- The points where a task holds the lock of the switches. -/
def ProxyTask.holds : ProxyTask -> Bool
  | comparing _ _ | replacing _ _ _ | switching _ _ _ | retaining _ _
  | clearing _ _ _ | weighing _ | testingSpares _ _ | electing _ _ _ _
  | assigning _ _ _ _ | sharing _ _ _ | reading | installing _ _
  | listing _ _ | matching _ _ _ | probing _ _ _ _ | asking _ _ _ _ _ _ _
  | testing _ _ _ _ _ | failing _ _ | storing _ _ | authReading
  | dropping _ _ | erasing _ | unsharing _ | syncEntries | syncLocal _
  | syncRead _ _ | reconciling _ _ | publishing _ _ _ _
  | offering _ _ _ _ => true
  | _ => false

/-- The new list waits to be written. -/
def ProxyTask.writes : ProxyTask -> Bool
  | replacing _ _ _ => true
  | _ => false

inductive ProxyCall where
  | configure (enabled : Bool) (proxies : List String)
  | workingClient
  | workingClientFor (id : String)
  | workingAuthClient
  | workingAuthClientFor (id : String)
  | replaceAuthClient
  | tryResolve
  | spawnInitialResolve
  | rotate
  | rotateAccount (id : String)
  | forgetAccount (id : String)
  | loadAssignments
  | syncSharedAssignments
  | noteFailureFor (id : String)
  | noteSuccessFor (id : String)

/-- What a section is told from outside: the clock, an order of the proxies, how
they answer their probes, what Redis holds for an account, and the rows of
SQLite. -/
structure Outside where
  now : Int
  order : List String
  health : String -> ProxyHealth
  shared : String -> Option String
  rows : Option (List (String × String))

/-- What a section answers, does to a binding or sends to Redis. -/
inductive ProxyEvent where
  /-- A client is returned while proxies are enabled, or are not. -/
  | answered (client : Egress) (enabled : Bool)
  | refused
  | panicked
  /-- An account gets a proxy, and the mark of the one it avoided goes. -/
  | bound (id url : String) (how : Binder) (avoided : Option String)
  /-- All bindings are those of SQLite. -/
  | restored
  | dropped (id : String) (route : AccountProxy) (who : Leaver)
  | reported (id : String)
  | succeeded (id : String)
  | published (id fingerprint : String)
  | shared (id fingerprint : String)
  | unshared (id : String)
  deriving DecidableEq

/-- The state after a section, where the task stands then, and what it did. -/
structure Section where
  manager : ProxyManager
  task : ProxyTask
  events : List ProxyEvent

namespace ProxyManager

/-- {lit}`ProxyManager::new`. -/
def new (enabled : Bool) (proxies : List String) : ProxyManager where
  enabled := enabled
  proxies := proxies
  client := .direct
  current := none
  ready := false
  fails := 0
  lastTry := 0
  rotating := false
  generation := 0
  routes := ⟨∅, fun _ => none, fun _ => none⟩

variable (cfg : ProxyConfig)

/-- {lit}`client`. -/
def clientNow (m : ProxyManager) : Egress :=
  if m.enabled then m.client else .direct

/-- The answer when there is no proxy to use. -/
def unavailable (m : ProxyManager) : Section :=
  ⟨m, .done,
    [if cfg.fallbackToDirect then .answered .direct m.enabled else .refused]⟩

def answer (m : ProxyManager) (client : Egress) : Section :=
  ⟨m, .done, [.answered client m.enabled]⟩

/-- {lit}`try_resolve` up to its first await point. -/
def beginResolve (m : ProxyManager) (now : Int) (who : Resolver) : Section :=
  if m.ready then ⟨m, .resolved true who, []⟩
  else if now - m.lastTry < 30 then ⟨m, .resolved false who, []⟩
  else ⟨{ m with lastTry := now }, .picking m.generation none who, []⟩

/-- {lit}`working_client` up to its first await point. -/
def beginClient (m : ProxyManager) (now : Int) : Section :=
  if ¬ m.enabled then m.answer .direct
  else if m.ready then m.answer m.clientNow
  else m.beginResolve now .client

/-- {lit}`working_auth_client` up to its first await point. -/
def beginAuthClient (m : ProxyManager) (now : Int) : Section :=
  if ¬ m.enabled ∨ m.ready then ⟨m, .authQueued, []⟩
  else m.beginResolve now .authClient

/-- {lit}`working_client_for` has got a client. -/
def answerFor (m : ProxyManager) (user : RouteUser) (id : String)
    (client : Egress) : Section :=
  match user with
  | .api => m.answer client
  | .auth => ⟨m, .authorized id, []⟩

/-- {lit}`working_client_for` once the account has no usable binding. -/
def seek (m : ProxyManager) (user : RouteUser) (id : String)
    (entries : List String) (fallback : Option String) (now : Int) : Section :=
  if (m.routes.lastFailed id).any fun last => decide (now - last < 30) then
    m.unavailable cfg
  else
    let avoid := m.routes.avoided id
    ⟨m, .asking user id entries avoid
      (orderedCandidates cfg id entries m.routes.assignments avoid) fallback now,
      []⟩

/-- The loop of {lit}`rebalance_assignments_locked` up to the next account. -/
def balance (m : ProxyManager) (loads : Loads) : List String -> Section
  | [] => ⟨m, .done, []⟩
  | target :: targets =>
      match heaviest loads with
      | none => ⟨m, .done, []⟩
      | some source => ⟨m, .electing loads source target targets, []⟩

/-- The loop of {lit}`sync_shared_assignments` up to the next account. -/
def sync (m : ProxyManager) (entries : List String) :
    List (String × String × Option String) -> Section
  | [] => ⟨m, .done, []⟩
  | next :: rest => ⟨m, .reconciling entries (next :: rest), []⟩

/-- What an assignment was made for goes on. -/
def resume (m : ProxyManager) (id url : String) : AfterAssign -> Section
  | .answer user => m.answerFor user id (.proxied url)
  | .balance loads targets => m.balance loads targets
  | .sync entries rest => m.sync entries rest

/-- A switch has returned to the one that waits for it. -/
def resumeResolve (m : ProxyManager) (ok : Bool) (now : Int) :
    Resolver -> Section
  | .client => if ok then m.answer m.clientNow else m.unavailable cfg
  | .authClient =>
      if ok ∨ cfg.fallbackToDirect then ⟨m, .authQueued, []⟩
      else ⟨m, .done, [.refused]⟩
  | .initial => ⟨m, .done, []⟩
  | .replacement => if ok then m.beginAuthClient now else m.unavailable cfg
  | .rotation generation =>
      if ok then ⟨m, .rotationCheck generation, []⟩
      else ⟨{ m with rotating := false }, .done, []⟩

/-- A rotation ends; the manager is no longer ready if it found no proxy under
the list it started with. -/
def endRotation (m : ProxyManager) (generation : Nat) (fails : Bool) : Section :=
  ⟨{ m with
      ready := m.ready && !(fails && decide (m.generation = generation))
      rotating := false }, .done, []⟩

/-- The entry that follows the current one. -/
def nextProxy (list : List String) (current : Option String) : Option String :=
  let start :=
    match current with
    | none => 0
    | some url =>
        if url ∈ list then (list.idxOf url + 1) % list.length else 0
  list[start]?

/-- A call up to its first await point. -/
def begin (m : ProxyManager) (now : Int) : ProxyCall -> Section
  | .configure enabled proxies =>
      match normalizeProxies cfg proxies enabled with
      | .error _ => ⟨m, .done, [.refused]⟩
      | .ok list => ⟨m, .configure enabled list, []⟩
  | .workingClient => m.beginClient now
  | .workingClientFor id =>
      if m.enabled then ⟨m, .wanting .api id, []⟩ else m.answer .direct
  | .workingAuthClient => m.beginAuthClient now
  | .workingAuthClientFor id =>
      if m.enabled then ⟨m, .wanting .auth id, []⟩ else ⟨m, .authorized id, []⟩
  | .replaceAuthClient =>
      if m.enabled then ⟨m, .authFailed m.generation, []⟩
      else m.answer .direct
  | .tryResolve => m.beginResolve now .initial
  | .spawnInitialResolve =>
      if m.enabled then ⟨m, .starting, []⟩
      else ⟨{ m with ready := true }, .done, []⟩
  | .rotate =>
      if m.rotating then ⟨m, .done, []⟩
      else ⟨{ m with rotating := true }, .rotation, []⟩
  | .rotateAccount id => ⟨m, .leaving id .caller, []⟩
  | .forgetAccount id => ⟨m, .forgetting id, []⟩
  | .loadAssignments => ⟨m, .loading, []⟩
  | .syncSharedAssignments =>
      if m.enabled then ⟨m, .syncing, []⟩ else ⟨m, .done, []⟩
  | .noteFailureFor id =>
      if m.enabled then ⟨m, .counting id, []⟩ else ⟨m, .done, []⟩
  | .noteSuccessFor id => ⟨m, .succeeding id, []⟩

/-- One section of a task, from an await point to the next.  The lock of the
switches may be free, and a new list may wait to be written: who asks for the
list under the generation of that list asks after its writer. -/
def advance (m : ProxyManager) (free writing : Bool) (o : Outside) :
    ProxyTask -> Option Section
  | .done => none
  | .configure enabled list =>
      if free then some ⟨m, .comparing enabled list, []⟩ else none
  | .comparing enabled list =>
      let added := list.any fun url => decide (url ∉ m.proxies)
      some
        ⟨{ m with generation := m.generation + 1 },
          .replacing enabled list (enabled && (added || !m.enabled)), []⟩
  | .replacing enabled list rebalances =>
      some ⟨{ m with proxies := list }, .switching enabled list rebalances, []⟩
  | .switching enabled list rebalances =>
      some
        ⟨{ m with
            current := none
            client := .direct
            enabled := enabled
            ready := !enabled
            fails := 0
            lastTry := 0 },
          .retaining list rebalances, []⟩
  | .retaining list rebalances =>
      some
        ⟨{ m with routes := m.routes.retain list },
          .clearing list rebalances (m.routes.removed list), []⟩
  | .clearing list rebalances removed =>
      match removed with
      | id :: rest =>
          some ⟨m, .clearing list rebalances rest, [.unshared id]⟩
      | [] => some ⟨m, if rebalances then .weighing list else .done, []⟩
  | .weighing list =>
      let loads := countLoads m.routes.assignments
      if loads.entries.any fun e => decide (1 < e.2) then
        some
          ⟨m, .testingSpares loads (list.filter fun url => url ∉ loads.keys), []⟩
      else some ⟨m, .done, []⟩
  | .testingSpares loads spares =>
      some (m.balance loads (spares.filter fun url => o.health url = .ok))
  | .electing loads source target targets =>
      match lastAccountOn m.routes.assignments source with
      | none => some (m.balance loads targets)
      | some id =>
          if cfg.builds target then
            some
              ⟨m, .assigning id target true
                (.balance (moveLoad loads source target) targets), []⟩
          else some (m.balance loads targets)
  | .assigning id url verified after =>
      some
        ⟨{ m with routes := m.routes.assign id url verified },
          .sharing id url after,
          [.bound id url after.binder (m.routes.avoided id)]⟩
  | .sharing id url after =>
      let next := m.resume id url after
      some ⟨next.manager, next.task,
        .shared id (cfg.fingerprint url) :: next.events⟩
  | .loading => if free then some ⟨m, .reading, []⟩ else none
  | .reading =>
      match o.rows with
      | none => some ⟨m, .done, []⟩
      | some rows => some ⟨m, .installing m.proxies rows, []⟩
  | .installing entries rows =>
      some
        ⟨{ m with routes := AccountRoutes.load cfg entries rows },
          if m.enabled then .weighing entries else .done, [.restored]⟩
  | .wanting user id =>
      match (m.routes.route id).filter AccountProxy.verified with
      | some route => some (m.answerFor user id route.client)
      | none => some ⟨m, .queueing user id, []⟩
  | .queueing user id =>
      if free then
        if m.enabled then some ⟨m, .listing user id, []⟩
        else some (m.answerFor user id .direct)
      else none
  | .listing user id => some ⟨m, .matching user id m.proxies, []⟩
  | .matching user id entries =>
      match m.routes.route id with
      | none => some (m.seek cfg user id entries none o.now)
      | some route =>
          if route.url ∈ entries then
            if route.verified then
              some (m.answerFor user id route.client)
            else some ⟨m, .probing user id entries route.url, []⟩
          else
            some
              (({ m with routes := m.routes.unbind id } : ProxyManager).seek
                cfg user id entries none o.now)
  | .probing user id entries url =>
      if o.health url = .ok then
        match m.routes.route id with
        | none => some ⟨m, .done, [.panicked]⟩
        | some route =>
            some
              (({ m with routes := m.routes.verify id } : ProxyManager).answerFor
                user id route.client)
      else
        let fallback := if o.health url = .blocked then some url else none
        some
          (({ m with routes := m.routes.refuse id url } : ProxyManager).seek
            cfg user id entries fallback o.now)
  | .asking user id entries avoid candidates fallback now =>
      let shared := sharedProxyFor cfg (o.shared id) entries
      some
        ⟨m, .testing user id (sharedFirst shared avoid candidates) fallback now,
          []⟩
  | .testing user id candidates fallback now =>
      match candidates with
      | [] =>
          match fallback with
          | some url =>
              if cfg.builds url then
                some ⟨m, .assigning id url true (.answer user), []⟩
              else some ⟨m, .failing id now, []⟩
          | none => some ⟨m, .failing id now, []⟩
      | _ :: _ =>
          let tested := (candidates.take 5).map fun url => (url, o.health url)
          match firstAccepted cfg fallback tested with
          | (some url, _) =>
              some ⟨m, .assigning id url true (.answer user), []⟩
          | (none, fallback) =>
              some ⟨m, .testing user id (candidates.drop 5) fallback now, []⟩
  | .failing id now =>
      some
        (({ m with routes := m.routes.fail id now } : ProxyManager).unavailable
          cfg)
  | .authorized id =>
      if m.enabled then some ⟨m, .routing id, []⟩ else some (m.answer .direct)
  | .routing id =>
      match m.routes.route id with
      | some route => some (m.answer route.client)
      | none => some (m.unavailable cfg)
  | .picking generation avoid who =>
      if writing ∧ generation = m.generation ∨ ¬ o.order.Perm m.proxies then
        none
      else
        let choices := (o.order.filter fun url => some url ≠ avoid).take 3
        some ⟨m, .testingPicked generation choices who, []⟩
  | .testingPicked generation choices who =>
      match workingProxy (choices.map fun url => (url, o.health url)) with
      | some url => some ⟨m, .swapping generation url who, []⟩
      | none => some ⟨m, .resolved false who, []⟩
  | .swapping generation url who =>
      if free then
        if ¬ m.enabled ∨ m.generation ≠ generation then
          some ⟨m, .resolved false who, []⟩
        else if cfg.builds url then
          some ⟨{ m with client := .proxied url }, .storing url who, []⟩
        else some ⟨{ m with ready := false }, .resolved false who, []⟩
      else none
  | .storing url who =>
      some
        ⟨{ m with current := some url, ready := true, fails := 0 },
          .resolved true who, []⟩
  | .resolved ok who => some (m.resumeResolve cfg ok o.now who)
  | .starting => some (m.beginResolve o.now .initial)
  | .authQueued =>
      if free then
        if m.enabled then some ⟨m, .authReading, []⟩
        else some (m.answer .direct)
      else none
  | .authReading =>
      match m.current with
      | some url =>
          if cfg.builds url then some (m.answer (.proxied url))
          else some ⟨m, .done, [.refused]⟩
      | none => some (m.unavailable cfg)
  | .authFailed generation =>
      some
        ⟨{ m with ready := false }, .picking generation m.current .replacement,
          []⟩
  | .rotation => some ⟨m, .rotationList m.generation, []⟩
  | .rotationList generation =>
      if writing ∧ generation = m.generation then none
      else if m.proxies = [] then some (m.endRotation generation true)
      else some ⟨m, .rotationNext generation m.proxies, []⟩
  | .rotationNext generation list =>
      match nextProxy list m.current with
      | some url => some ⟨m, .swapping generation url (.rotation generation), []⟩
      | none => some (m.endRotation generation true)
  | .rotationCheck generation =>
      match m.current with
      | some url => some ⟨m, .rotationProbe generation url, []⟩
      | none => some (m.endRotation generation false)
  | .rotationProbe generation url =>
      some (m.endRotation generation (decide (o.health url = .dead)))
  | .leaving id who => if free then some ⟨m, .dropping id who, []⟩ else none
  | .dropping id who =>
      match m.routes.route id with
      | none => some ⟨m, .done, []⟩
      | some route =>
          some
            ⟨{ m with routes := m.routes.rotate id route.url }, .unsharing id,
              [.dropped id route who]⟩
  | .forgetting id => if free then some ⟨m, .erasing id, []⟩ else none
  | .erasing id =>
      some ⟨{ m with routes := m.routes.forget id }, .unsharing id, []⟩
  | .unsharing id => some ⟨m, .done, [.unshared id]⟩
  | .counting id =>
      match m.routes.route id with
      | none => some ⟨m, .done, []⟩
      | some route =>
          some
            ⟨{ m with routes := m.routes.noteFailure id },
              if 3 ≤ route.failures + 1 then .leaving id .failures else .done,
              [.reported id]⟩
  | .succeeding id =>
      match m.routes.route id with
      | none => some ⟨m, .done, []⟩
      | some _ =>
          some
            ⟨{ m with routes := m.routes.noteSuccess id }, .done,
              [.succeeded id]⟩
  | .syncing => if free then some ⟨m, .syncEntries, []⟩ else none
  | .syncEntries => some ⟨m, .syncLocal m.proxies, []⟩
  | .syncLocal entries =>
      let bindings := m.routes.assignments.entries.map fun e => (e.1, e.2.url)
      if bindings = [] then some ⟨m, .done, []⟩
      else some ⟨m, .syncRead entries bindings, []⟩
  | .syncRead entries bindings =>
      some (m.sync entries (bindings.map fun b => (b.1, b.2, o.shared b.1)))
  | .reconciling entries bindings =>
      match bindings with
      | [] => some ⟨m, .done, []⟩
      | (id, url, shared) :: rest =>
          match reconcileBinding cfg url shared entries (m.routes.avoided id) with
          | .keep => some (m.sync entries rest)
          | .publish => some ⟨m, .publishing id url entries rest, []⟩
          | .offer => some ⟨m, .offering id url entries rest, []⟩
          | .adopt target =>
              if cfg.builds target then
                some ⟨m, .assigning id target false (.sync entries rest), []⟩
              else some (m.sync entries rest)
  | .publishing id url entries rest =>
      let next := m.sync entries rest
      some ⟨next.manager, next.task,
        .published id (cfg.fingerprint url) :: next.events⟩
  | .offering id url entries rest =>
      let next := m.sync entries rest
      some ⟨next.manager, next.task,
        .shared id (cfg.fingerprint url) :: next.events⟩

end ProxyManager

/-- The manager with its calls, and what has happened so far. -/
structure ProxyWorld where
  manager : ProxyManager
  tasks : List ProxyTask
  log : List ProxyEvent

inductive ProxyAction where
  | call (c : ProxyCall) (now : Int)
  | go (i : Nat) (o : Outside)

namespace ProxyWorld

def start (enabled : Bool) (proxies : List String) : ProxyWorld :=
  ⟨.new enabled proxies, [], []⟩

/-- Nobody holds the lock of the switches. -/
def lockFree (s : ProxyWorld) : Bool :=
  s.tasks.all fun t => !t.holds

def writing (s : ProxyWorld) : Bool :=
  s.tasks.any ProxyTask.writes

/-- The section that an action runs. -/
def sectionOf (cfg : ProxyConfig) (s : ProxyWorld) :
    ProxyAction -> Option Section
  | .call c now => some (s.manager.begin cfg now c)
  | .go i o =>
      match s.tasks[i]? with
      | none => none
      | some t => s.manager.advance cfg s.lockFree s.writing o t

/-- The tasks after a section: a call comes in, or a task has moved on. -/
def moved (s : ProxyWorld) (t : ProxyTask) : ProxyAction -> List ProxyTask
  | .call _ _ => s.tasks ++ [t]
  | .go i _ => s.tasks.set i t

def step (cfg : ProxyConfig) (s : ProxyWorld) (a : ProxyAction) :
    Option ProxyWorld :=
  (s.sectionOf cfg a).map fun x =>
    ⟨x.manager, s.moved x.task a, s.log ++ x.events⟩

end ProxyWorld

/-- The proxy manager as a step system. -/
def proxySystem (cfg : ProxyConfig) : System ProxyWorld ProxyAction :=
  ⟨ProxyWorld.step cfg⟩

end HifiApi
