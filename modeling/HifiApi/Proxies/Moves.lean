import HifiApi.Proxies.Manager
import Mathlib.Data.List.Perm.Basic

/-!
# What a section does to the bindings

Few sections touch the bindings.  The relation below has one case for each of
them and one for all others; what later modules say about the bindings of an
account over a run is read off it.
-/

namespace HifiApi

/-- The account that {lit}`note_failure_for` has decided to take off its
proxy. -/
def ProxyTask.decided : ProxyTask -> Option String
  | leaving id .failures => some id
  | dropping id .failures => some id
  | _ => none

/-- Next to the holder of the lock nobody holds it. -/
theorem ProxyTask.not_holds_of_single {t : ProxyTask} {others : List ProxyTask}
    (hsingle : (t :: others).countP ProxyTask.holds ≤ 1) (ht : t.holds = true) :
    forall u, u ∈ others -> u.holds = false := by
  intro u hu
  rw [List.countP_cons_of_pos ht] at hsingle
  have hzero : others.countP ProxyTask.holds = 0 := by omega
  exact Bool.eq_false_iff.mpr (List.countP_eq_zero.mp hzero u hu)

/-- The events that say something about a binding. -/
def ProxyEvent.onRoutes : ProxyEvent -> Bool
  | bound _ _ _ _ | restored | dropped _ _ _ | reported _ | succeeded _ => true
  | _ => false

namespace ProxyManager

/-- A section leaves the bindings alone and decides nothing about them. -/
structure Quiet (m : ProxyManager) (x : Section) : Prop where
  routes : x.manager.routes = m.routes
  events : forall e, e ∈ x.events -> e.onRoutes = false
  task : x.task.decided = none

section Quiet

variable {cfg : ProxyConfig} (m : ProxyManager)

theorem quiet_of_silent {m' : ProxyManager} {t : ProxyTask}
    (hroutes : m'.routes = m.routes) (ht : t.decided = none) :
    m.Quiet ⟨m', t, []⟩ where
  routes := hroutes
  events := by
    intro e he
    cases he
  task := ht

theorem quiet_of_event {m' : ProxyManager} {t : ProxyTask} {e : ProxyEvent}
    (hroutes : m'.routes = m.routes) (ht : t.decided = none)
    (he : e.onRoutes = false) : m.Quiet ⟨m', t, [e]⟩ where
  routes := hroutes
  events := by
    intro e' he'
    rw [List.mem_singleton.mp he']
    exact he
  task := ht

theorem Quiet.cons {x : Section} (h : m.Quiet x) {e : ProxyEvent}
    (he : e.onRoutes = false) :
    m.Quiet ⟨x.manager, x.task, e :: x.events⟩ where
  routes := h.routes
  events := by
    intro e' he'
    rcases List.mem_cons.mp he' with hfirst | hrest
    · rw [hfirst]
      exact he
    · exact h.events e' hrest
  task := h.task

theorem quiet_answer (client : Egress) : m.Quiet (m.answer client) :=
  quiet_of_event m rfl rfl rfl

theorem quiet_unavailable : m.Quiet (m.unavailable cfg) := by
  unfold unavailable
  split
  · exact quiet_of_event m rfl rfl rfl
  · exact quiet_of_event m rfl rfl rfl

theorem quiet_answerFor (user : RouteUser) (id : String) (client : Egress) :
    m.Quiet (m.answerFor user id client) := by
  cases user with
  | api =>
      exact quiet_answer m client
  | auth =>
      rw [answerFor]
      exact quiet_of_silent m rfl rfl

theorem quiet_seek (user : RouteUser) (id : String) (entries : List String)
    (fallback : Option String) (now : Int) :
    m.Quiet (m.seek cfg user id entries fallback now) := by
  unfold seek
  split
  · exact quiet_unavailable m
  · exact quiet_of_silent m rfl rfl

theorem quiet_balance (loads : Loads) (targets : List String) :
    m.Quiet (m.balance loads targets) := by
  cases targets with
  | nil =>
      rw [balance]
      exact quiet_of_silent m rfl rfl
  | cons target targets =>
      simp only [balance]
      split
      · exact quiet_of_silent m rfl rfl
      · exact quiet_of_silent m rfl rfl

theorem quiet_sync (entries : List String)
    (rest : List (String × String × Option String)) :
    m.Quiet (m.sync entries rest) := by
  cases rest with
  | nil =>
      rw [sync]
      exact quiet_of_silent m rfl rfl
  | cons next rest =>
      rw [sync]
      exact quiet_of_silent m rfl rfl

theorem quiet_resume (id url : String) (after : AfterAssign) :
    m.Quiet (m.resume id url after) := by
  cases after with
  | answer user =>
      exact quiet_answerFor m user id _
  | balance loads targets =>
      exact quiet_balance m loads targets
  | sync entries rest =>
      exact quiet_sync m entries rest

theorem quiet_beginResolve (now : Int) (who : Resolver) :
    m.Quiet (m.beginResolve now who) := by
  unfold beginResolve
  split
  · exact quiet_of_silent m rfl rfl
  · split
    · exact quiet_of_silent m rfl rfl
    · exact quiet_of_silent m rfl rfl

theorem quiet_beginClient (now : Int) : m.Quiet (m.beginClient now) := by
  unfold beginClient
  split
  · exact quiet_answer m _
  · split
    · exact quiet_answer m _
    · exact quiet_beginResolve m now _

theorem quiet_beginAuthClient (now : Int) :
    m.Quiet (m.beginAuthClient now) := by
  unfold beginAuthClient
  split
  · exact quiet_of_silent m rfl rfl
  · exact quiet_beginResolve m now _

theorem quiet_endRotation (generation : Nat) (fails : Bool) :
    m.Quiet (m.endRotation generation fails) :=
  quiet_of_silent m rfl rfl

theorem quiet_resumeResolve (ok : Bool) (now : Int) (who : Resolver) :
    m.Quiet (m.resumeResolve cfg ok now who) := by
  cases who with
  | client =>
      simp only [resumeResolve]
      split
      · exact quiet_answer m _
      · exact quiet_unavailable m
  | authClient =>
      simp only [resumeResolve]
      split
      · exact quiet_of_silent m rfl rfl
      · exact quiet_of_event m rfl rfl rfl
  | initial =>
      rw [resumeResolve]
      exact quiet_of_silent m rfl rfl
  | replacement =>
      simp only [resumeResolve]
      split
      · exact quiet_beginAuthClient m now
      · exact quiet_unavailable m
  | rotation generation =>
      simp only [resumeResolve]
      split
      · exact quiet_of_silent m rfl rfl
      · exact quiet_of_silent m rfl rfl

theorem quiet_begin (now : Int) (c : ProxyCall) :
    m.Quiet (m.begin cfg now c) := by
  cases c with
  | configure enabled proxies =>
      simp only [begin]
      split
      · exact quiet_of_event m rfl rfl rfl
      · exact quiet_of_silent m rfl rfl
  | workingClient =>
      exact quiet_beginClient m now
  | workingClientFor id =>
      simp only [begin]
      split
      · exact quiet_of_silent m rfl rfl
      · exact quiet_answer m _
  | workingAuthClient =>
      exact quiet_beginAuthClient m now
  | replaceAuthClient =>
      simp only [begin]
      split
      · exact quiet_of_silent m rfl rfl
      · exact quiet_answer m _
  | tryResolve =>
      exact quiet_beginResolve m now _
  | workingAuthClientFor id | spawnInitialResolve | rotate
  | syncSharedAssignments | noteFailureFor id =>
      simp only [begin]
      split
      · exact quiet_of_silent m rfl rfl
      · exact quiet_of_silent m rfl rfl
  | rotateAccount id | forgetAccount id | loadAssignments
  | noteSuccessFor id =>
      rw [begin]
      exact quiet_of_silent m rfl rfl

end Quiet

/-- What a section of a task does to the bindings. -/
inductive RoutesStep (cfg : ProxyConfig) (m : ProxyManager) (t : ProxyTask) :
    Section -> Prop
  | quiet {x : Section} (h : m.Quiet x) : RoutesStep cfg m t x
  | locked {id : String} {who : Leaver} (ht : t = .leaving id who) :
      RoutesStep cfg m t ⟨m, .dropping id who, []⟩
  | assigned {id url : String} {verified : Bool} {after : AfterAssign}
      (ht : t = .assigning id url verified after) :
      RoutesStep cfg m t
        ⟨{ m with routes := m.routes.assign id url verified },
          .sharing id url after,
          [.bound id url after.binder (m.routes.avoided id)]⟩
  | unbound {id : String} {x : Section} (hholds : t.holds = true)
      (h : ({ m with routes := m.routes.unbind id } : ProxyManager).Quiet x) :
      RoutesStep cfg m t x
  | refused {id url : String} {x : Section} (hholds : t.holds = true)
      (h : ({ m with routes := m.routes.refuse id url } : ProxyManager).Quiet
        x) : RoutesStep cfg m t x
  | verified {id : String} {x : Section} (hholds : t.holds = true)
      (h : ({ m with routes := m.routes.verify id } : ProxyManager).Quiet x) :
      RoutesStep cfg m t x
  | failed {id : String} {now : Int} {x : Section} (hholds : t.holds = true)
      (h : ({ m with routes := m.routes.fail id now } : ProxyManager).Quiet x) :
      RoutesStep cfg m t x
  | retained {list : List String} {rebalances : Bool} {x : Section}
      (ht : t = .retaining list rebalances)
      (h : ({ m with routes := m.routes.retain list } : ProxyManager).Quiet x) :
      RoutesStep cfg m t x
  | loaded {entries : List String} {rows : List (String × String)}
      {t' : ProxyTask} (ht : t = .installing entries rows)
      (ht' : t'.decided = none) :
      RoutesStep cfg m t
        ⟨{ m with routes := AccountRoutes.load cfg entries rows }, t',
          [.restored]⟩
  | dropped {id : String} {who : Leaver} {route : AccountProxy}
      (ht : t = .dropping id who) (hroute : m.routes.route id = some route) :
      RoutesStep cfg m t
        ⟨{ m with routes := m.routes.rotate id route.url }, .unsharing id,
          [.dropped id route who]⟩
  | forgotten {id : String} {x : Section} (hholds : t.holds = true)
      (h : ({ m with routes := m.routes.forget id } : ProxyManager).Quiet x) :
      RoutesStep cfg m t x
  | counted {id : String} {route : AccountProxy} (ht : t = .counting id)
      (hroute : m.routes.route id = some route) :
      RoutesStep cfg m t
        ⟨{ m with routes := m.routes.noteFailure id },
          if 3 ≤ route.failures + 1 then .leaving id .failures else .done,
          [.reported id]⟩
  | succeeded {id : String} {route : AccountProxy} (ht : t = .succeeding id)
      (hroute : m.routes.route id = some route) :
      RoutesStep cfg m t
        ⟨{ m with routes := m.routes.noteSuccess id }, .done, [.succeeded id]⟩

section Advance

variable {cfg : ProxyConfig} {m : ProxyManager} {free writing : Bool}
  {o : Outside} {t : ProxyTask} {x : Section}

/-- The sections of {lit}`configure`, of the rebalancing and of {lit}`assign`
among the steps. -/
theorem routesStep_of_advance
    (h : m.advance cfg free writing o t = some x) : RoutesStep cfg m t x := by
  cases t with
  | done =>
      cases h
  | configure enabled list =>
      simp only [advance] at h
      split at h
      · cases h
        exact .quiet (quiet_of_silent m rfl rfl)
      · cases h
  | comparing enabled list =>
      cases h
      exact .quiet (quiet_of_silent m rfl rfl)
  | replacing enabled list rebalances =>
      cases h
      exact .quiet (quiet_of_silent m rfl rfl)
  | switching enabled list rebalances =>
      cases h
      exact .quiet (quiet_of_silent m rfl rfl)
  | retaining list rebalances =>
      cases h
      exact .retained rfl (quiet_of_silent _ rfl rfl)
  | clearing list rebalances removed =>
      cases removed with
      | nil =>
          cases h
          apply RoutesStep.quiet
          apply quiet_of_silent m rfl
          split <;> rfl
      | cons id rest =>
          cases h
          exact .quiet (quiet_of_event m rfl rfl rfl)
  | weighing list =>
      simp only [advance] at h
      split at h
      · cases h
        exact .quiet (quiet_of_silent m rfl rfl)
      · cases h
        exact .quiet (quiet_of_silent m rfl rfl)
  | testingSpares loads spares =>
      cases h
      exact .quiet (quiet_balance m _ _)
  | electing loads source target targets =>
      simp only [advance] at h
      split at h
      · cases h
        exact .quiet (quiet_balance m _ _)
      · split at h
        · cases h
          exact .quiet (quiet_of_silent m rfl rfl)
        · cases h
          exact .quiet (quiet_balance m _ _)
  | assigning id url verified after =>
      cases h
      exact .assigned rfl
  | sharing id url after =>
      cases h
      exact .quiet (quiet_resume m id url after |>.cons m rfl)
  | loading =>
      simp only [advance] at h
      split at h
      · cases h
        exact .quiet (quiet_of_silent m rfl rfl)
      · cases h
  | reading =>
      simp only [advance] at h
      split at h
      · cases h
        exact .quiet (quiet_of_silent m rfl rfl)
      · cases h
        exact .quiet (quiet_of_silent m rfl rfl)
  | installing entries rows =>
      cases h
      apply RoutesStep.loaded rfl
      split <;> rfl
  | wanting user id =>
      simp only [advance] at h
      split at h
      · cases h
        exact .quiet (quiet_answerFor m user id _)
      · cases h
        exact .quiet (quiet_of_silent m rfl rfl)
  | queueing user id =>
      simp only [advance] at h
      split at h
      · split at h
        · cases h
          exact .quiet (quiet_of_silent m rfl rfl)
        · cases h
          exact .quiet (quiet_answerFor m user id _)
      · cases h
  | listing user id =>
      cases h
      exact .quiet (quiet_of_silent m rfl rfl)
  | matching user id entries =>
      simp only [advance] at h
      split at h
      · cases h
        exact .quiet (quiet_seek m user id entries none _)
      · split at h
        · split at h
          · cases h
            exact .quiet (quiet_answerFor m user id _)
          · cases h
            exact .quiet (quiet_of_silent m rfl rfl)
        · cases h
          exact .unbound rfl (quiet_seek _ user id entries none _)
  | probing user id entries url =>
      simp only [advance] at h
      split at h
      · split at h
        · cases h
          exact .quiet (quiet_of_event m rfl rfl rfl)
        · cases h
          exact .verified rfl (quiet_answerFor _ user id _)
      · cases h
        exact .refused rfl (quiet_seek _ user id entries _ _)
  | asking user id entries avoid candidates fallback now =>
      cases h
      exact .quiet (quiet_of_silent m rfl rfl)
  | testing user id candidates fallback now =>
      simp only [advance] at h
      split at h
      · split at h
        · split at h
          · cases h
            exact .quiet (quiet_of_silent m rfl rfl)
          · cases h
            exact .quiet (quiet_of_silent m rfl rfl)
        · cases h
          exact .quiet (quiet_of_silent m rfl rfl)
      · split at h
        · cases h
          exact .quiet (quiet_of_silent m rfl rfl)
        · cases h
          exact .quiet (quiet_of_silent m rfl rfl)
  | failing id now =>
      cases h
      exact .failed rfl (quiet_unavailable _)
  | authorized id =>
      simp only [advance] at h
      split at h
      · cases h
        exact .quiet (quiet_of_silent m rfl rfl)
      · cases h
        exact .quiet (quiet_answer m _)
  | routing id =>
      simp only [advance] at h
      split at h
      · cases h
        exact .quiet (quiet_answer m _)
      · cases h
        exact .quiet (quiet_unavailable m)
  | picking generation avoid who =>
      simp only [advance] at h
      split at h
      · cases h
      · cases h
        exact .quiet (quiet_of_silent m rfl rfl)
  | testingPicked generation choices who =>
      simp only [advance] at h
      split at h
      · cases h
        exact .quiet (quiet_of_silent m rfl rfl)
      · cases h
        exact .quiet (quiet_of_silent m rfl rfl)
  | swapping generation url who =>
      simp only [advance] at h
      split at h
      · split at h
        · cases h
          exact .quiet (quiet_of_silent m rfl rfl)
        · split at h
          · cases h
            exact .quiet (quiet_of_silent m rfl rfl)
          · cases h
            exact .quiet (quiet_of_silent m rfl rfl)
      · cases h
  | storing url who =>
      cases h
      exact .quiet (quiet_of_silent m rfl rfl)
  | resolved ok who =>
      cases h
      exact .quiet (quiet_resumeResolve m ok _ who)
  | starting =>
      cases h
      exact .quiet (quiet_beginResolve m _ _)
  | authQueued =>
      simp only [advance] at h
      split at h
      · split at h
        · cases h
          exact .quiet (quiet_of_silent m rfl rfl)
        · cases h
          exact .quiet (quiet_answer m _)
      · cases h
  | authReading =>
      simp only [advance] at h
      split at h
      · split at h
        · cases h
          exact .quiet (quiet_answer m _)
        · cases h
          exact .quiet (quiet_of_event m rfl rfl rfl)
      · cases h
        exact .quiet (quiet_unavailable m)
  | authFailed generation =>
      cases h
      exact .quiet (quiet_of_silent m rfl rfl)
  | rotation =>
      cases h
      exact .quiet (quiet_of_silent m rfl rfl)
  | rotationList generation =>
      simp only [advance] at h
      split at h
      · cases h
      · split at h
        · cases h
          exact .quiet (quiet_endRotation m _ _)
        · cases h
          exact .quiet (quiet_of_silent m rfl rfl)
  | rotationNext generation list =>
      simp only [advance] at h
      split at h
      · cases h
        exact .quiet (quiet_of_silent m rfl rfl)
      · cases h
        exact .quiet (quiet_endRotation m _ _)
  | rotationCheck generation =>
      simp only [advance] at h
      split at h
      · cases h
        exact .quiet (quiet_of_silent m rfl rfl)
      · cases h
        exact .quiet (quiet_endRotation m _ _)
  | rotationProbe generation url =>
      cases h
      exact .quiet (quiet_endRotation m _ _)
  | leaving id who =>
      simp only [advance] at h
      split at h
      · cases h
        exact .locked rfl
      · cases h
  | dropping id who =>
      simp only [advance] at h
      split at h
      · cases h
        exact .quiet (quiet_of_silent m rfl rfl)
      · rename_i route hroute
        cases h
        exact .dropped rfl hroute
  | forgetting id =>
      simp only [advance] at h
      split at h
      · cases h
        exact .quiet (quiet_of_silent m rfl rfl)
      · cases h
  | erasing id =>
      cases h
      exact .forgotten rfl (quiet_of_silent _ rfl rfl)
  | unsharing id =>
      cases h
      exact .quiet (quiet_of_event m rfl rfl rfl)
  | counting id =>
      simp only [advance] at h
      split at h
      · cases h
        exact .quiet (quiet_of_silent m rfl rfl)
      · rename_i route hroute
        cases h
        exact .counted rfl hroute
  | succeeding id =>
      simp only [advance] at h
      split at h
      · cases h
        exact .quiet (quiet_of_silent m rfl rfl)
      · rename_i route hroute
        cases h
        exact .succeeded rfl hroute
  | syncing =>
      simp only [advance] at h
      split at h
      · cases h
        exact .quiet (quiet_of_silent m rfl rfl)
      · cases h
  | syncEntries =>
      cases h
      exact .quiet (quiet_of_silent m rfl rfl)
  | syncLocal entries =>
      simp only [advance] at h
      split at h
      · cases h
        exact .quiet (quiet_of_silent m rfl rfl)
      · cases h
        exact .quiet (quiet_of_silent m rfl rfl)
  | syncRead entries bindings =>
      cases h
      exact .quiet (quiet_sync m entries _)
  | reconciling entries bindings =>
      cases bindings with
      | nil =>
          cases h
          exact .quiet (quiet_of_silent m rfl rfl)
      | cons next rest =>
          simp only [advance] at h
          split at h
          · cases h
            exact .quiet (quiet_sync m entries rest)
          · cases h
            exact .quiet (quiet_of_silent m rfl rfl)
          · cases h
            exact .quiet (quiet_of_silent m rfl rfl)
          · split at h
            · cases h
              exact .quiet (quiet_of_silent m rfl rfl)
            · cases h
              exact .quiet (quiet_sync m entries rest)
  | publishing id url entries rest =>
      cases h
      exact .quiet (quiet_sync m entries rest |>.cons m rfl)
  | offering id url entries rest =>
      cases h
      exact .quiet (quiet_sync m entries rest |>.cons m rfl)

end Advance

section Effects

variable {cfg : ProxyConfig} {m : ProxyManager} {t : ProxyTask} {x : Section}

/-- Without the lock of the switches no binding is taken away. -/
theorem RoutesStep.route_ne_none (h : RoutesStep cfg m t x)
    (ht : t.holds = false) {id : String} (hid : m.routes.route id ≠ none) :
    x.manager.routes.route id ≠ none := by
  have hmodify : forall {id' : String} {f : AccountProxy -> AccountProxy},
      (m.routes.modify id' f).route id ≠ none := by
    intro id' f
    rw [AccountRoutes.route_modify]
    split
    · rename_i heq
      rw [← heq]
      simpa using hid
    · exact hid
  cases h with
  | quiet h =>
      rw [h.routes]
      exact hid
  | locked _ =>
      exact hid
  | counted _ _ =>
      exact hmodify
  | succeeded _ _ =>
      exact hmodify
  | unbound hholds _ | refused hholds _ | verified hholds _ | failed hholds _
  | forgotten hholds _ =>
      rw [ht] at hholds
      cases hholds
  | assigned heq | retained heq _ | loaded heq _ | dropped heq _ =>
      rw [heq] at ht
      cases ht

end Effects

end ProxyManager

namespace ProxyWorld

/-- The await point that an action takes up. -/
def stands (s : ProxyWorld) : ProxyAction -> ProxyTask
  | .call _ _ => .done
  | .go i _ => (s.tasks[i]?).getD .done

section Steps

variable {cfg : ProxyConfig} {s s' : ProxyWorld} {a : ProxyAction} {x : Section}

theorem step_eq_some (h : s.step cfg a = some s') :
    exists x, s.sectionOf cfg a = some x ∧
      s' = ⟨x.manager, s.moved x.task a, s.log ++ x.events⟩ := by
  rcases Option.map_eq_some_iff.mp h with ⟨x, hx, heq⟩
  exact ⟨x, hx, heq.symm⟩

theorem stands_mem {t : ProxyTask} (h : s.stands a = t) (ht : t ≠ .done) :
    t ∈ s.tasks := by
  cases a with
  | call c now =>
      exact absurd h.symm ht
  | go i o =>
      cases hi : s.tasks[i]? with
      | none =>
          rw [stands, hi] at h
          exact absurd h.symm ht
      | some u =>
          rw [stands, hi] at h
          rw [← h]
          exact List.mem_of_getElem? hi

theorem mem_moved {t u : ProxyTask} (h : u ∈ s.moved t a) :
    u = t ∨ u ∈ s.tasks := by
  cases a with
  | call c now =>
      rcases List.mem_append.mp h with hold | hnew
      · exact Or.inr hold
      · exact Or.inl (List.mem_singleton.mp hnew)
  | go i o =>
      exact (List.mem_or_eq_of_mem_set h).symm

/-- An action takes one task out of the others. -/
theorem exists_others (hx : s.sectionOf cfg a = some x) :
    exists others, (forall u, u ∈ others -> u ∈ s.tasks) ∧
      ((s.stands a = .done ∧ others = s.tasks) ∨
        s.tasks.Perm (s.stands a :: others)) ∧
      (s.moved x.task a).Perm (x.task :: others) := by
  cases a with
  | call c now =>
      refine ⟨s.tasks, fun _ hu => hu, Or.inl ⟨rfl, rfl⟩, ?_⟩
      exact List.perm_append_singleton x.task s.tasks
  | go i o =>
      cases hi : s.tasks[i]? with
      | none =>
          rw [sectionOf, hi] at hx
          cases hx
      | some t =>
          rcases List.getElem?_eq_some_iff.mp hi with ⟨hlt, ht⟩
          refine ⟨s.tasks.eraseIdx i, fun _ hu => List.mem_of_mem_eraseIdx hu,
            Or.inr ?_, ?_⟩
          · rw [stands, hi, Option.getD_some, ← ht]
            exact (List.getElem_cons_eraseIdx_perm hlt).symm
          · exact List.set_perm_cons_eraseIdx hlt x.task

theorem holds_of_lockFree (h : s.lockFree = true) :
    forall t, t ∈ s.tasks -> t.holds = false := by
  intro t ht
  simpa using List.all_eq_true.mp h t ht

theorem routesStep_of_section (h : s.sectionOf cfg a = some x) :
    ProxyManager.RoutesStep cfg s.manager (s.stands a) x := by
  cases a with
  | call c now =>
      cases h
      exact .quiet (ProxyManager.quiet_begin s.manager now c)
  | go i o =>
      cases hi : s.tasks[i]? with
      | none =>
          rw [sectionOf, hi] at h
          cases h
      | some t =>
          rw [sectionOf, hi] at h
          rw [stands, hi]
          exact ProxyManager.routesStep_of_advance h

end Steps

end ProxyWorld

end HifiApi
