import HifiApi.Proxies.Moves

/-!
# Dropped for its own failures

{lit}`note_failure_for` counts under the lock of the routes and takes the
binding away later, under the lock of the switches.  The binding it takes away
has recorded three failures of its own as long as the account gets no other one,
and no success, in between.
-/

namespace HifiApi

namespace ProxyEvent

/-- What an event leaves of the failures counted so far for an account. -/
def count (id : String) (n : Nat) : ProxyEvent -> Nat
  | bound id' _ _ _ => if id' = id then 0 else n
  | restored => 0
  | succeeded id' => if id' = id then 0 else n
  | reported id' => if id' = id then n + 1 else n
  | _ => n

/-- The failures recorded since the account's proxy was assigned and since its
last success. -/
def recorded (id : String) (log : List ProxyEvent) : Nat :=
  log.foldl (count id) 0

/-- The account whose proxy {lit}`note_failure_for` takes away. -/
def droppedForFailures : ProxyEvent -> Option String
  | dropped id _ .failures => some id
  | _ => none

theorem count_of_not_onRoutes {id : String} {n : Nat} {e : ProxyEvent}
    (h : e.onRoutes = false) : count id n e = n := by
  cases e with
  | bound _ _ _ _ | restored | dropped _ _ _ | reported _ | succeeded _ =>
      cases h
  | _ => rfl

theorem recorded_append {id : String} {log events : List ProxyEvent}
    (h : forall e, e ∈ events -> e.onRoutes = false) :
    recorded id (log ++ events) = recorded id log := by
  unfold recorded
  rw [List.foldl_append]
  generalize log.foldl (count id) 0 = n
  induction events with
  | nil =>
      rfl
  | cons e rest ih =>
      rw [List.foldl_cons, count_of_not_onRoutes (h e List.mem_cons_self)]
      exact ih fun e' he' => h e' (List.mem_cons_of_mem _ he')

theorem recorded_concat (id : String) (log : List ProxyEvent)
    (e : ProxyEvent) :
    recorded id (log ++ [e]) = count id (recorded id log) e := by
  unfold recorded
  rw [List.foldl_append]
  rfl

end ProxyEvent

open ProxyEvent (recorded)

/-- The points at which an account gets a new binding or a success. -/
def ProxyTask.renews (id : String) : ProxyTask -> Bool
  | assigning id' _ _ _ => decide (id' = id)
  | succeeding id' => decide (id' = id)
  | installing _ _ => true
  | _ => false

namespace ProxyWorld

variable (cfg : ProxyConfig)

/-- A binding that {lit}`note_failure_for` takes away has recorded three
failures. -/
def DroppedForOwn (s : ProxyWorld) (a : ProxyAction) : Prop :=
  forall x, x ∈ s.sectionOf cfg a -> forall e, e ∈ x.events ->
    forall id, id ∈ e.droppedForFailures -> 3 ≤ recorded id s.log

instance (s : ProxyWorld) (a : ProxyAction) :
    Decidable (DroppedForOwn cfg s a) :=
  inferInstanceAs (Decidable (forall x, x ∈ s.sectionOf cfg a -> forall e,
    e ∈ x.events -> forall id, id ∈ e.droppedForFailures ->
      3 ≤ recorded id s.log))

/-- No account gets a new binding or a success while its proxy is about to be
taken away for its failures. -/
def WaitsForLeaver (s : ProxyWorld) (a : ProxyAction) : Prop :=
  forall t, t ∈ s.tasks -> forall id, id ∈ t.decided ->
    (s.stands a).renews id = false

instance (s : ProxyWorld) (a : ProxyAction) : Decidable (WaitsForLeaver s a) :=
  inferInstanceAs (Decidable (forall t, t ∈ s.tasks -> forall id,
    id ∈ t.decided -> (s.stands a).renews id = false))

end ProxyWorld

/-- A binding is dropped only for its own failures. -/
def OwnFailures : Prop :=
  forall cfg enabled proxies actions,
    (proxySystem cfg).Along (ProxyWorld.DroppedForOwn cfg)
      (.start enabled proxies) actions

namespace ProxyWorld

/-- The count of a binding is that of its reports, and has come to three where
the proxy is about to be taken away for it. -/
structure Counted (s : ProxyWorld) : Prop where
  recorded : forall id route, s.manager.routes.route id = some route ->
    route.failures = ProxyEvent.recorded id s.log
  decided : forall t, t ∈ s.tasks -> forall id, t.decided = some id ->
    forall route, s.manager.routes.route id = some route -> 3 ≤ route.failures

theorem counted_start (enabled : Bool) (proxies : List String) :
    (start enabled proxies).Counted where
  recorded := by
    intro id route h
    cases h
  decided := by
    intro t ht
    cases ht

section Steps

variable {cfg} {s : ProxyWorld} {a : ProxyAction} {x : Section}

/-- Bindings that go, or keep their counts, are no new ones. -/
theorem Counted.of_routes (hs : s.Counted) {m : ProxyManager}
    (hkept : forall id route, m.routes.route id = some route ->
      exists old, s.manager.routes.route id = some old ∧
        old.failures = route.failures)
    (hx : m.Quiet x) :
    Counted ⟨x.manager, s.moved x.task a, s.log ++ x.events⟩ where
  recorded := by
    intro id route hroute
    dsimp only at hroute ⊢
    rw [hx.routes] at hroute
    rcases hkept id route hroute with ⟨old, hold, hsame⟩
    rw [ProxyEvent.recorded_append hx.events, ← hsame]
    exact hs.recorded id old hold
  decided := by
    intro t ht id hid route hroute
    dsimp only at hroute
    rw [hx.routes] at hroute
    rcases hkept id route hroute with ⟨old, hold, hsame⟩
    rw [← hsame]
    rcases mem_moved ht with hnew | hmem
    · rw [hnew, hx.task] at hid
      cases hid
    · exact hs.decided t hmem id hid old hold

theorem counted_step (hs : s.Counted) (hwaits : s.WaitsForLeaver a)
    (hx : s.sectionOf cfg a = some x) :
    Counted ⟨x.manager, s.moved x.task a, s.log ++ x.events⟩ := by
  cases routesStep_of_section hx with
  | quiet h =>
      exact hs.of_routes (fun id route hroute => ⟨route, hroute, rfl⟩) h
  | locked ht =>
      rename_i id who
      constructor
      · intro id' route hroute
        simpa using hs.recorded id' route hroute
      · intro t hmem id' hid route hroute
        rcases mem_moved hmem with hnew | hold
        · have hleaving : (ProxyTask.leaving id who).decided = some id' := by
            rw [hnew] at hid
            cases who with
            | failures => exact hid
            | caller => cases hid
          exact hs.decided _ (stands_mem ht (by simp)) id' hleaving route hroute
        · exact hs.decided t hold id' hid route hroute
  | assigned ht =>
      rename_i id url verified after
      constructor
      · intro id' route hroute
        dsimp only at hroute ⊢
        rw [AccountRoutes.route_assign] at hroute
        rw [ProxyEvent.recorded_concat, ProxyEvent.count]
        split at hroute
        · rename_i hid
          cases hroute
          rw [if_pos hid.symm]
        · rename_i hid
          rw [if_neg (Ne.symm hid)]
          exact hs.recorded id' route hroute
      · intro t hmem id' hid route hroute
        dsimp only at hroute
        rcases mem_moved hmem with hnew | hold
        · rw [hnew] at hid
          cases hid
        · have hne := hwaits t hold id' hid
          rw [ht] at hne
          rw [AccountRoutes.route_assign,
            if_neg (Ne.symm (of_decide_eq_false hne))] at hroute
          exact hs.decided t hold id' hid route hroute
  | unbound _ h =>
      refine hs.of_routes (fun id' route hroute => ?_) h
      rw [AccountRoutes.route_unbind] at hroute
      split at hroute
      · cases hroute
      · exact ⟨route, hroute, rfl⟩
  | refused _ h =>
      refine hs.of_routes (fun id' route hroute => ?_) h
      rw [AccountRoutes.route_refuse] at hroute
      split at hroute
      · cases hroute
      · exact ⟨route, hroute, rfl⟩
  | verified _ h =>
      refine hs.of_routes (fun id' route hroute => ?_) h
      rw [AccountRoutes.verify, AccountRoutes.route_modify] at hroute
      split at hroute
      · rename_i hid
        rcases Option.map_eq_some_iff.mp hroute with ⟨old, hold, heq⟩
        rw [← heq, hid]
        exact ⟨old, hold, rfl⟩
      · exact ⟨route, hroute, rfl⟩
  | failed _ h =>
      refine hs.of_routes (fun id' route hroute => ?_) h
      exact ⟨route, hroute, rfl⟩
  | retained _ h =>
      refine hs.of_routes (fun id' route hroute => ?_) h
      rw [AccountRoutes.route_retain, Option.filter_eq_some_iff] at hroute
      exact ⟨route, hroute.left, rfl⟩
  | loaded ht ht' =>
      constructor
      · intro id' route hroute
        dsimp only at hroute ⊢
        rw [ProxyEvent.recorded_concat]
        exact (AccountRoutes.route_load hroute).right
      · intro t hmem id' hid
        rcases mem_moved hmem with hnew | hold
        · rw [hnew, ht'] at hid
          cases hid
        · have hrenews := hwaits t hold id' hid
          rw [ht] at hrenews
          cases hrenews
  | dropped ht hroute =>
      constructor
      · intro id' route' hroute'
        dsimp only at hroute' ⊢
        rw [AccountRoutes.route_rotate] at hroute'
        split at hroute'
        · cases hroute'
        · rw [ProxyEvent.recorded_concat]
          exact hs.recorded id' route' hroute'
      · intro t hmem id' hid route' hroute'
        dsimp only at hroute'
        rw [AccountRoutes.route_rotate] at hroute'
        split at hroute'
        · cases hroute'
        · rcases mem_moved hmem with hnew | hold
          · rw [hnew] at hid
            cases hid
          · exact hs.decided t hold id' hid route' hroute'
  | forgotten _ h =>
      refine hs.of_routes (fun id' route hroute => ?_) h
      rw [AccountRoutes.route_forget] at hroute
      split at hroute
      · cases hroute
      · exact ⟨route, hroute, rfl⟩
  | counted ht hroute =>
      rename_i id held
      have hfailures := hs.recorded id held hroute
      constructor
      · intro id' route hroute'
        dsimp only at hroute' ⊢
        rw [AccountRoutes.noteFailure, AccountRoutes.route_modify] at hroute'
        rw [ProxyEvent.recorded_concat, ProxyEvent.count]
        split at hroute'
        · rename_i hid
          rw [hroute] at hroute'
          cases hroute'
          rw [if_pos hid.symm, hid, ← hfailures]
        · rename_i hid
          rw [if_neg (Ne.symm hid)]
          exact hs.recorded id' route hroute'
      · intro t hmem id' hid route hroute'
        dsimp only at hroute'
        rw [AccountRoutes.noteFailure, AccountRoutes.route_modify] at hroute'
        rcases mem_moved hmem with hnew | hold
        · rw [hnew] at hid
          split at hid
          · rename_i hthree
            cases hid
            rw [if_pos rfl, hroute] at hroute'
            cases hroute'
            exact hthree
          · cases hid
        · split at hroute'
          · rename_i hsame
            rw [hroute] at hroute'
            cases hroute'
            rw [hsame] at hid
            exact Nat.le_succ_of_le (hs.decided t hold id hid held hroute)
          · exact hs.decided t hold id' hid route hroute'
  | succeeded ht hroute =>
      rename_i id held
      constructor
      · intro id' route hroute'
        dsimp only at hroute' ⊢
        rw [AccountRoutes.noteSuccess, AccountRoutes.route_modify] at hroute'
        rw [ProxyEvent.recorded_concat, ProxyEvent.count]
        split at hroute'
        · rename_i hid
          rw [hroute] at hroute'
          cases hroute'
          rw [if_pos hid.symm]
        · rename_i hid
          rw [if_neg (Ne.symm hid)]
          exact hs.recorded id' route hroute'
      · intro t hmem id' hid route hroute'
        dsimp only at hroute'
        rcases mem_moved hmem with hnew | hold
        · rw [hnew] at hid
          cases hid
        · have hne := hwaits t hold id' hid
          rw [ht] at hne
          rw [AccountRoutes.noteSuccess, AccountRoutes.route_modify,
            if_neg (Ne.symm (of_decide_eq_false hne))] at hroute'
          exact hs.decided t hold id' hid route hroute'

theorem droppedForOwn_of_counted (hs : s.Counted) : s.DroppedForOwn cfg a := by
  intro x hx e he id hid
  have hquiet : forall {m : ProxyManager}, m.Quiet x -> False := by
    intro m h
    have hnone := h.events e he
    cases e with
    | dropped _ _ _ => cases hnone
    | _ => cases hid
  cases routesStep_of_section hx with
  | dropped ht hroute =>
      rename_i who route
      rw [List.mem_singleton.mp he] at hid
      cases who with
      | failures =>
          cases hid
          rw [← hs.recorded _ route hroute]
          exact hs.decided _ (stands_mem ht (by simp)) _ rfl route hroute
      | caller =>
          cases hid
  | assigned _ | loaded _ _ | counted _ _ | succeeded _ _ =>
      rw [List.mem_singleton.mp he] at hid
      cases hid
  | locked _ =>
      cases he
  | quiet h | unbound _ h | refused _ h | verified _ h | failed _ h
  | retained _ h | forgotten _ h =>
      exact (hquiet h).elim

end Steps

end ProxyWorld

open ProxyWorld

/-- In a run where no account gets a new binding or a success while its proxy
is about to be taken away, bindings are dropped for their own failures. -/
theorem ownFailures_of_waits (cfg : ProxyConfig) (enabled : Bool)
    (proxies : List String) (actions : List ProxyAction)
    (hwaits : (proxySystem cfg).Along WaitsForLeaver (.start enabled proxies)
      actions) :
    (proxySystem cfg).Along (DroppedForOwn cfg) (.start enabled proxies)
      actions := by
  refine System.along_of_invariant (I := Counted) ?_ ?_
    (counted_start enabled proxies) hwaits
  · intro s a s' hs ha h
    rcases step_eq_some h with ⟨x, hx, heq⟩
    rw [heq]
    exact counted_step hs ha hx
  · intro s a hs _
    exact droppedForOwn_of_counted hs

/-!
## Two runs
-/

/-- Two proxies, both of them accepted by Tidal. -/
def twoProxies : ProxyConfig where
  fallbackToDirect := false
  urlError := fun _ => none
  builds := fun _ => true
  fingerprint := fun url => url
  hash := fun _ => 0

def accepted : Outside where
  now := 100
  order := []
  health := fun _ => .ok
  shared := fun _ => none
  rows := none

/-- The account gets a proxy. -/
def getsProxy (i : Nat) : List ProxyAction :=
  .call (.workingClientFor "a") 100 :: List.replicate 8 (.go i accepted)

/-- A request through the proxy of the account has failed. -/
def reportsFailure (i : Nat) : List ProxyAction :=
  [.call (.noteFailureFor "a") 100, .go i accepted]

/-- Three failures, and the proxy is taken away. -/
def threeFailures : List ProxyAction :=
  getsProxy 0 ++ reportsFailure 1 ++ reportsFailure 2 ++ reportsFailure 3 ++
    [ProxyAction.go 3 accepted, .go 3 accepted]

theorem ownFailures_of_waits_three :
    (proxySystem twoProxies).Along (DroppedForOwn twoProxies)
      (.start true ["p", "q"]) threeFailures :=
  ownFailures_of_waits twoProxies true ["p", "q"] threeFailures (by decide)

/-- Four failures make two decisions: the second one takes away the proxy that
the account has got after the first. -/
theorem not_ownFailures : ¬ OwnFailures := by
  intro h
  have hrun := h twoProxies true ["p", "q"]
    (getsProxy 0 ++ reportsFailure 1 ++ reportsFailure 2 ++ reportsFailure 3 ++
      reportsFailure 4 ++ List.replicate 3 (.go 3 accepted) ++ getsProxy 5 ++
      [ProxyAction.go 4 accepted, .go 4 accepted])
  revert hrun
  decide

end HifiApi
