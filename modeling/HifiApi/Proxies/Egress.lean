import HifiApi.Proxies.Switches

/-!
# No leak of the host address

Without the fallback, a client that is returned while proxies are enabled leaves
through a proxy.  The exception is a call that has resolved a proxy and then
reads the shared client: a configuration may have put the direct client there in
the meantime.  List, bindings, current proxy and shared client fit together
whenever the lock of the switches is free.
-/

namespace HifiApi

open ProxyManager

namespace ProxyWorld

/-- The bindings and the current proxy are entries, and a ready manager has the
client of the current proxy. -/
structure Listed (m : ProxyManager) : Prop where
  current : forall url, m.current = some url -> url ∈ m.proxies
  bindings : forall id route, m.routes.route id = some route ->
    route.url ∈ m.proxies
  client : m.enabled = true -> m.ready = true ->
    exists url, m.current = some url ∧ m.client = .proxied url

/-- No direct client has been returned while proxies were enabled, nothing has
panicked, and with the lock of the switches free everything is listed. -/
structure ProxyOnly (s : ProxyWorld) : Prop where
  answered : .answered .direct true ∉ s.log
  unwraps : .panicked ∉ s.log
  listed : s.lockFree = true -> Listed s.manager

end ProxyWorld

/-- The host address never leaks in proxy-only mode. -/
def NeverLeaks : Prop :=
  forall cfg enabled proxies actions s', cfg.fallbackToDirect = false ->
    (proxySystem cfg).run (.start enabled proxies) actions = some s' ->
    s'.ProxyOnly

/-- The point where a configuration that enables proxies puts the direct client
into its place. -/
def ProxyTask.enables : ProxyTask -> Bool
  | switching enabled _ _ => enabled
  | _ => false

namespace ProxyWorld

/-- No configuration enables proxies while a call has resolved a proxy and has
not yet read the shared client. -/
def WaitsForAnswer (s : ProxyWorld) (a : ProxyAction) : Prop :=
  (s.stands a).enables = true -> forall t, t ∈ s.tasks -> t.answers = false

instance (s : ProxyWorld) (a : ProxyAction) : Decidable (WaitsForAnswer s a) :=
  inferInstanceAs (Decidable ((s.stands a).enables = true ->
    forall t, t ∈ s.tasks -> t.answers = false))

/-!
## What holds at every await point
-/

/-- What a task carries fits the manager. -/
structure Fits (m : ProxyManager) (t : ProxyTask) : Prop where
  listed : forall url, url ∈ t.listed -> url ∈ m.proxies
  probed : forall id, t.probed = some id -> m.routes.route id ≠ none
  stored : forall url, t.stored = some url -> m.client = .proxied url
  known : forall g, t.generation = some g -> g ≤ m.generation
  picked : forall g, t.generation = some g -> g = m.generation ->
    forall url, url ∈ t.picked -> url ∈ m.proxies
  answers : t.answers = true -> m.enabled = true -> m.client ≠ .direct

/-- One task at most holds the lock of the switches; what the others find
changed is what that task stands at. -/
structure Ordered (m : ProxyManager) (tasks : List ProxyTask) : Prop where
  single : tasks.countP ProxyTask.holds ≤ 1
  fits : forall t, t ∈ tasks -> Fits m t
  pending : forall w, w ∈ tasks -> w.writes = true -> forall t, t ∈ tasks ->
    forall g, t.generation = some g -> g = m.generation -> t.picked = []
  bindings : (forall t, t ∈ tasks -> t.rebinding = false) ->
    forall id route, m.routes.route id = some route -> route.url ∈ m.proxies
  current : (forall t, t ∈ tasks -> t.relisting = false) ->
    forall url, m.current = some url -> url ∈ m.proxies
  client : m.enabled = true -> m.ready = true ->
    exists url, m.client = .proxied url ∧
      ((forall t, t ∈ tasks -> t.stored = none) -> m.current = some url)

theorem ordered_new (enabled : Bool) (proxies : List String) :
    Ordered (.new enabled proxies) [] where
  single := Nat.zero_le _
  fits := by
    intro t ht
    cases ht
  pending := by
    intro w hw
    cases hw
  bindings := by
    intro _ id route h
    cases h
  current := by
    intro _ url h
    cases h
  client := by
    intro _ h
    cases h

section Tasks

variable {m : ProxyManager} {tasks tasks' : List ProxyTask}

theorem Ordered.perm (h : Ordered m tasks) (hperm : tasks.Perm tasks') :
    Ordered m tasks' where
  single := by
    rw [← hperm.countP_eq]
    exact h.single
  fits := fun t ht => h.fits t (hperm.mem_iff.mpr ht)
  pending := fun w hw hwrites t ht =>
    h.pending w (hperm.mem_iff.mpr hw) hwrites t (hperm.mem_iff.mpr ht)
  bindings := fun hall => h.bindings fun t ht => hall t (hperm.mem_iff.mp ht)
  current := fun hall => h.current fun t ht => hall t (hperm.mem_iff.mp ht)
  client := by
    intro henabled hready
    rcases h.client henabled hready with ⟨url, hclient, hcurrent⟩
    exact ⟨url, hclient,
      fun hall => hcurrent fun t ht => hall t (hperm.mem_iff.mp ht)⟩

theorem fits_done (m : ProxyManager) : Fits m .done where
  listed := by
    intro url h
    cases h
  probed := by
    intro id h
    cases h
  stored := by
    intro url h
    cases h
  known := by
    intro g h
    cases h
  picked := by
    intro g h
    cases h
  answers := by
    intro h
    cases h

theorem Ordered.cons_done (h : Ordered m tasks) :
    Ordered m (.done :: tasks) where
  single := h.single
  fits := by
    intro t ht
    rcases List.mem_cons.mp ht with hdone | hrest
    · rw [hdone]
      exact fits_done m
    · exact h.fits t hrest
  pending := by
    intro w hw hwrites t ht g hg
    rcases List.mem_cons.mp hw with hdone | hwRest
    · rw [hdone] at hwrites
      cases hwrites
    · rcases List.mem_cons.mp ht with hdone | hrest
      · rw [hdone]
        exact fun _ => rfl
      · exact h.pending w hwRest hwrites t hrest g hg
  bindings := fun hall => h.bindings fun t ht => hall t (List.mem_cons_of_mem _ ht)
  current := fun hall => h.current fun t ht => hall t (List.mem_cons_of_mem _ ht)
  client := by
    intro henabled hready
    rcases h.client henabled hready with ⟨url, hclient, hcurrent⟩
    exact ⟨url, hclient,
      fun hall => hcurrent fun t ht => hall t (List.mem_cons_of_mem _ ht)⟩

end Tasks

theorem Ordered.listed {m : ProxyManager} {tasks : List ProxyTask}
    (h : Ordered m tasks) (hfree : forall t, t ∈ tasks -> t.holds = false) :
    Listed m where
  current := h.current fun t ht =>
    (ProxyTask.idle_of_not_holds (hfree t ht)).relisting
  bindings := h.bindings fun t ht =>
    (ProxyTask.idle_of_not_holds (hfree t ht)).rebinding
  client := by
    intro henabled hready
    rcases h.client henabled hready with ⟨url, hclient, hcurrent⟩
    refine ⟨url, hcurrent fun t ht => ?_, hclient⟩
    exact (ProxyTask.idle_of_not_holds (hfree t ht)).stored

/-!
## One section
-/

section Section

variable {cfg : ProxyConfig} {m : ProxyManager} {free writing : Bool}
  {t : ProxyTask} {others : List ProxyTask} {x : Section}

/-- A section of the holder, or one that finds the lock free, is alone. -/
theorem Ordered.alone (h : Ordered m (t :: others))
    (hfree : free = true -> forall u, u ∈ others -> u.holds = false)
    (ht : t.holds = true ∨ free = true) :
    forall u, u ∈ others -> u.holds = false := by
  rcases ht with hholds | hfreeTrue
  · exact ProxyTask.not_holds_of_single h.single hholds
  · exact hfree hfreeTrue

theorem Ordered.answerable (h : Ordered m (t :: others)) : m.Answerable t where
  ready := by
    intro henabled hready
    rcases h.client henabled hready with ⟨url, hclient, _⟩
    rw [hclient]
    exact fun hdirect => by cases hdirect
  answers := (h.fits t List.mem_cons_self).answers
  probed := (h.fits t List.mem_cons_self).probed

/-- What an idle task carries is all about its generation and its answer. -/
theorem fits_of_idle {m' : ProxyManager} {u : ProxyTask}
    (hu : u.holds = false)
    (hknown : forall g, u.generation = some g -> g ≤ m'.generation)
    (hpicked : forall g, u.generation = some g -> g = m'.generation ->
      forall url, url ∈ u.picked -> url ∈ m'.proxies)
    (hanswers : u.answers = true -> m'.enabled = true -> m'.client ≠ .direct) :
    Fits m' u := by
  have hidle := ProxyTask.idle_of_not_holds hu
  constructor
  · intro url hurl
    rw [hidle.listed] at hurl
    cases hurl
  · intro id hid
    rw [hidle.probed] at hid
    cases hid
  · intro url hurl
    rw [hidle.stored] at hurl
    cases hurl
  · exact hknown
  · exact hpicked
  · exact hanswers

theorem ordered_of_alone {m' : ProxyManager} {u : ProxyTask}
    (halone : forall v, v ∈ others -> v.holds = false)
    (hfits : Fits m' u) (hothers : forall v, v ∈ others -> Fits m' v)
    (hpending : u.writes = true -> forall v, v ∈ u :: others ->
      forall g, v.generation = some g -> g = m'.generation -> v.picked = [])
    (hbindings : u.rebinding = false -> forall id route,
      m'.routes.route id = some route -> route.url ∈ m'.proxies)
    (hcurrent : u.relisting = false -> forall url, m'.current = some url ->
      url ∈ m'.proxies)
    (hclient : m'.enabled = true -> m'.ready = true ->
      exists url, m'.client = .proxied url ∧
        (u.stored = none -> m'.current = some url)) :
    Ordered m' (u :: others) where
  single := by
    have hzero : others.countP ProxyTask.holds = 0 :=
      List.countP_eq_zero.mpr fun v hv => Bool.eq_false_iff.mp (halone v hv)
    rw [List.countP_cons, hzero]
    split <;> omega
  fits := by
    intro v hv
    rcases List.mem_cons.mp hv with hfirst | hrest
    · rw [hfirst]
      exact hfits
    · exact hothers v hrest
  pending := by
    intro w hw hwrites
    rcases List.mem_cons.mp hw with hfirst | hrest
    · rw [hfirst] at hwrites
      exact hpending hwrites
    · rw [(ProxyTask.idle_of_not_holds (halone w hrest)).writes] at hwrites
      cases hwrites
  bindings := fun hall => hbindings (hall u List.mem_cons_self)
  current := fun hall => hcurrent (hall u List.mem_cons_self)
  client := by
    intro henabled hready
    rcases hclient henabled hready with ⟨url, hproxied, hset⟩
    exact ⟨url, hproxied, fun hall => hset (hall u List.mem_cons_self)⟩

section Alone

variable (h : Ordered m (t :: others))
  (halone : forall u, u ∈ others -> u.holds = false)

include h halone

theorem Ordered.bindings_alone (ht : t.rebinding = false) :
    forall id route, m.routes.route id = some route ->
      route.url ∈ m.proxies := by
  apply h.bindings
  intro u hu
  rcases List.mem_cons.mp hu with hfirst | hrest
  · rw [hfirst]
    exact ht
  · exact (ProxyTask.idle_of_not_holds (halone u hrest)).rebinding

theorem Ordered.current_alone (ht : t.relisting = false) :
    forall url, m.current = some url -> url ∈ m.proxies := by
  apply h.current
  intro u hu
  rcases List.mem_cons.mp hu with hfirst | hrest
  · rw [hfirst]
    exact ht
  · exact (ProxyTask.idle_of_not_holds (halone u hrest)).relisting

theorem Ordered.client_alone (ht : t.stored = none) (henabled : m.enabled = true)
    (hready : m.ready = true) :
    exists url, m.client = .proxied url ∧ m.current = some url := by
  rcases h.client henabled hready with ⟨url, hclient, hcurrent⟩
  refine ⟨url, hclient, hcurrent fun u hu => ?_⟩
  rcases List.mem_cons.mp hu with hfirst | hrest
  · rw [hfirst]
    exact ht
  · exact (ProxyTask.idle_of_not_holds (halone u hrest)).stored

end Alone

/-- A section keeps the bindings listed, as long as the list stays. -/
theorem bindings_section (hroutes : m.RoutesStep cfg t x)
    (hlisted : forall url, url ∈ t.listed -> url ∈ m.proxies)
    (h : forall id route, m.routes.route id = some route ->
      route.url ∈ m.proxies) :
    forall id route, x.manager.routes.route id = some route ->
      route.url ∈ m.proxies := by
  have herase : forall {r : AccountRoutes} {id' : String},
      (forall id, r.route id = if id = id' then none else m.routes.route id) ->
      forall id route, r.route id = some route -> route.url ∈ m.proxies := by
    intro r id' hr id route hroute
    rw [hr] at hroute
    split at hroute
    · cases hroute
    · exact h id route hroute
  have hmodify : forall {id' : String} {f : AccountProxy -> AccountProxy},
      (forall route, (f route).url = route.url) ->
      forall id route, (m.routes.modify id' f).route id = some route ->
        route.url ∈ m.proxies := by
    intro id' f hf id route hroute
    rw [AccountRoutes.route_modify] at hroute
    split at hroute
    · rcases Option.map_eq_some_iff.mp hroute with ⟨old, hold, heq⟩
      rw [← heq, hf]
      exact h id' old hold
    · exact h id route hroute
  intro id route hroute
  cases hroutes with
  | quiet hquiet =>
      rw [hquiet.routes] at hroute
      exact h id route hroute
  | locked _ =>
      exact h id route hroute
  | assigned ht =>
      dsimp only at hroute
      rw [AccountRoutes.route_assign] at hroute
      split at hroute
      · cases hroute
        apply hlisted
        rw [ht]
        exact List.mem_cons_self
      · exact h id route hroute
  | unbound _ hquiet =>
      rw [hquiet.routes] at hroute
      exact herase (AccountRoutes.route_unbind _ _) id route hroute
  | refused _ hquiet =>
      rw [hquiet.routes] at hroute
      exact herase (fun id => AccountRoutes.route_refuse _ _ id _) id route hroute
  | verified _ hquiet =>
      rw [hquiet.routes] at hroute
      exact hmodify (f := fun r => { r with verified := true })
        (fun _ => rfl) id route hroute
  | failed _ hquiet =>
      rw [hquiet.routes] at hroute
      exact h id route hroute
  | retained ht hquiet =>
      rw [hquiet.routes, AccountRoutes.route_retain,
        Option.filter_eq_some_iff] at hroute
      exact h id route hroute.left
  | loaded ht _ =>
      apply hlisted
      rw [ht]
      exact (AccountRoutes.route_load hroute).left
  | dropped _ _ =>
      exact herase (fun id => AccountRoutes.route_rotate _ _ id _) id route hroute
  | forgotten _ hquiet =>
      rw [hquiet.routes] at hroute
      exact herase (AccountRoutes.route_forget _ _) id route hroute
  | counted _ _ =>
      exact hmodify (f := fun r => { r with failures := r.failures + 1 })
        (fun _ => rfl) id route hroute
  | succeeded _ _ =>
      exact hmodify (f := fun r => { r with failures := 0 })
        (fun _ => rfl) id route hroute

/-- A section that leaves the shared client alone keeps the order. -/
theorem ordered_plain (h : Ordered m (t :: others))
    (hfree : free = true -> forall u, u ∈ others -> u.holds = false)
    (hwriting : writing = true <-> exists w, w ∈ t :: others ∧ w.writes = true)
    (hroutes : m.RoutesStep cfg t x) (hstored : t.stored = none)
    (hrebinding : t.rebinding = false) (hx : m.Plain cfg free writing t x) :
    Ordered x.manager (x.task :: others) := by
  have hfits := h.fits t List.mem_cons_self
  have hsame := hx.manager
  have hlead := hx.leads
  constructor
  · by_cases hholds : x.task.holds = true
    · have hzero : others.countP ProxyTask.holds = 0 :=
        List.countP_eq_zero.mpr fun u hu =>
          Bool.eq_false_iff.mp (h.alone hfree (hlead.holds hholds) u hu)
      rw [List.countP_cons_of_pos hholds, hzero]
    · rw [List.countP_cons_of_neg hholds]
      have hone := h.single
      rw [List.countP_cons] at hone
      omega
  · intro u hu
    rcases List.mem_cons.mp hu with hfirst | hrest
    · rw [hfirst]
      constructor
      · intro url hurl
        rw [hsame.proxies]
        rcases hlead.listed url hurl with hold | hlisted
        · exact hfits.listed url hold
        · exact hlisted
      · exact hlead.probed
      · intro url hurl
        rw [hlead.stored] at hurl
        cases hurl
      · intro g hg
        rw [hsame.generation]
        rcases hlead.picked g hg with hnow | hthen
        · exact Nat.le_of_eq hnow.left
        · exact hfits.known g hthen.left
      · intro g hg heq url hurl
        rw [hsame.generation] at heq
        rw [hsame.proxies]
        rcases hlead.picked g hg with hnow | hthen
        · rw [hnow.right] at hurl
          cases hurl
        · rcases hthen.right with hold | hlisted
          · exact hfits.picked g hthen.left heq url (hold url hurl)
          · exact hlisted.left url hurl
      · intro hanswers henabled
        rw [hsame.enabled] at henabled
        rw [hsame.client]
        exact h.answerable.ready henabled (hlead.answers hanswers)
    · have hold := h.fits u (List.mem_cons_of_mem _ hrest)
      constructor
      · rw [hsame.proxies]
        exact hold.listed
      · intro id hid
        have hholds : t.holds = false := by
          cases ht : t.holds with
          | false => rfl
          | true =>
              have hidle := ProxyTask.idle_of_not_holds
                (h.alone hfree (Or.inl ht) u hrest)
              rw [hidle.probed] at hid
              cases hid
        exact hroutes.route_ne_none hholds (hold.probed id hid)
      · rw [hsame.client]
        exact hold.stored
      · rw [hsame.generation]
        exact hold.known
      · rw [hsame.generation, hsame.proxies]
        exact hold.picked
      · rw [hsame.enabled, hsame.client]
        exact hold.answers
  · intro w hw hwrites u hu g hg heq
    rw [hsame.generation] at heq
    rcases List.mem_cons.mp hw with hfirst | hwRest
    · rw [hfirst, hlead.writes] at hwrites
      cases hwrites
    · have hw' := List.mem_cons_of_mem t hwRest
      rcases List.mem_cons.mp hu with hfirst | hrest
      · rw [hfirst] at hg ⊢
        rcases hlead.picked g hg with hnow | hthen
        · exact hnow.right
        · rcases hthen.right with hold | hlisted
          · have hnone := h.pending w hw' hwrites t List.mem_cons_self g
              hthen.left heq
            apply List.eq_nil_iff_forall_not_mem.mpr
            intro url hurl
            have hmem := hold url hurl
            rw [hnone] at hmem
            cases hmem
          · exact absurd ⟨hwriting.mpr ⟨w, hw', hwrites⟩, heq⟩ hlisted.right
      · exact h.pending w hw' hwrites u (List.mem_cons_of_mem _ hrest) g hg heq
  · intro hall
    rw [hsame.proxies]
    apply bindings_section hroutes hfits.listed
    apply h.bindings
    intro u hu
    rcases List.mem_cons.mp hu with hfirst | hrest
    · rw [hfirst]
      exact hrebinding
    · exact hall u (List.mem_cons_of_mem _ hrest)
  · intro hall
    rw [hsame.proxies, hsame.current]
    apply h.current
    intro u hu
    rcases List.mem_cons.mp hu with hfirst | hrest
    · rw [hfirst]
      exact ProxyTask.relisting_of_not_rebinding hrebinding
    · exact hall u (List.mem_cons_of_mem _ hrest)
  · intro henabled hready
    rw [hsame.enabled] at henabled
    rcases h.client henabled (hsame.ready henabled hready) with
      ⟨url, hclient, hcurrent⟩
    rw [hsame.client, hsame.current]
    refine ⟨url, hclient, fun hall => hcurrent fun u hu => ?_⟩
    rcases List.mem_cons.mp hu with hfirst | hrest
    · rw [hfirst]
      exact hstored
    · exact hall u (List.mem_cons_of_mem _ hrest)

/-- Counting the configuration makes all earlier choices stale. -/
theorem ordered_counts {enabled : Bool} {list : List String}
    {rebalances : Bool} (h : Ordered m (.comparing enabled list :: others)) :
    Ordered { m with generation := m.generation + 1 }
      (.replacing enabled list rebalances :: others) := by
  have halone := ProxyTask.not_holds_of_single h.single rfl
  have hknown : forall v, v ∈ others -> forall g, v.generation = some g ->
      g < m.generation + 1 := by
    intro v hv g hg
    have hle := (h.fits v (List.mem_cons_of_mem _ hv)).known g hg
    omega
  apply ordered_of_alone halone
  · constructor
    · intro url hurl
      cases hurl
    · intro id hid
      cases hid
    · intro url hurl
      cases hurl
    · intro g hg
      cases hg
    · intro g hg
      cases hg
    · intro hanswers
      cases hanswers
  · intro v hv
    apply fits_of_idle (halone v hv)
    · exact fun g hg => Nat.le_of_lt (hknown v hv g hg)
    · intro g hg heq
      exact absurd heq (Nat.ne_of_lt (hknown v hv g hg))
    · exact (h.fits v (List.mem_cons_of_mem _ hv)).answers
  · intro _ v hv g hg heq
    rcases List.mem_cons.mp hv with hfirst | hrest
    · rw [hfirst] at hg
      cases hg
    · exact absurd heq (Nat.ne_of_lt (hknown v hrest g hg))
  · exact fun _ => h.bindings_alone halone rfl
  · exact fun _ => h.current_alone halone rfl
  · intro henabled hready
    rcases h.client_alone halone rfl henabled hready with
      ⟨url, hclient, hcurrent⟩
    exact ⟨url, hclient, fun _ => hcurrent⟩

/-- The new list is written: nobody has chosen from it yet. -/
theorem ordered_writes {enabled : Bool} {list : List String}
    {rebalances : Bool}
    (h : Ordered m (.replacing enabled list rebalances :: others)) :
    Ordered { m with proxies := list }
      (.switching enabled list rebalances :: others) := by
  have halone := ProxyTask.not_holds_of_single h.single rfl
  apply ordered_of_alone halone
  · constructor
    · exact fun _ hurl => hurl
    · intro id hid
      cases hid
    · intro url hurl
      cases hurl
    · intro g hg
      cases hg
    · intro g hg
      cases hg
    · intro hanswers
      cases hanswers
  · intro v hv
    have hmem := List.mem_cons_of_mem (.replacing enabled list rebalances) hv
    apply fits_of_idle (halone v hv)
    · exact (h.fits v hmem).known
    · intro g hg heq url hurl
      rw [h.pending _ List.mem_cons_self rfl v hmem g hg heq] at hurl
      cases hurl
    · exact (h.fits v hmem).answers
  · intro hwrites
    cases hwrites
  · intro hrebinding
    cases hrebinding
  · intro hrelisting
    cases hrelisting
  · intro henabled hready
    rcases h.client_alone halone rfl henabled hready with
      ⟨url, hclient, hcurrent⟩
    exact ⟨url, hclient, fun _ => hcurrent⟩

/-- The direct client replaces the shared one; nobody is about to return it. -/
theorem ordered_switches {enabled : Bool} {list : List String}
    {rebalances : Bool}
    (h : Ordered m (.switching enabled list rebalances :: others))
    (hwaits : enabled = true -> forall u, u ∈ others -> u.answers = false) :
    Ordered
      { m with
        current := none
        client := .direct
        enabled := enabled
        ready := !enabled
        fails := 0
        lastTry := 0 }
      (.retaining list rebalances :: others) := by
  have halone := ProxyTask.not_holds_of_single h.single rfl
  apply ordered_of_alone halone
  · constructor
    · exact (h.fits _ List.mem_cons_self).listed
    · intro id hid
      cases hid
    · intro url hurl
      cases hurl
    · intro g hg
      cases hg
    · intro g hg
      cases hg
    · intro hanswers
      cases hanswers
  · intro v hv
    have hfits := h.fits v (List.mem_cons_of_mem _ hv)
    apply fits_of_idle (halone v hv)
    · exact hfits.known
    · exact hfits.picked
    · intro hanswers henabled
      rw [hwaits henabled v hv] at hanswers
      cases hanswers
  · intro hwrites
    cases hwrites
  · intro hrebinding
    cases hrebinding
  · intro _ url hurl
    cases hurl
  · intro henabled hready
    dsimp only at henabled hready
    rw [henabled] at hready
    cases hready

theorem ordered_retains {list : List String} {rebalances : Bool}
    (h : Ordered m (.retaining list rebalances :: others)) :
    Ordered { m with routes := m.routes.retain list }
      (.clearing list rebalances (m.routes.removed list) :: others) := by
  have halone := ProxyTask.not_holds_of_single h.single rfl
  have hlisted := (h.fits _ List.mem_cons_self).listed
  apply ordered_of_alone halone
  · constructor
    · exact hlisted
    · intro id hid
      cases hid
    · intro url hurl
      cases hurl
    · intro g hg
      cases hg
    · intro g hg
      cases hg
    · intro hanswers
      cases hanswers
  · intro v hv
    have hfits := h.fits v (List.mem_cons_of_mem _ hv)
    exact fits_of_idle (halone v hv) hfits.known hfits.picked hfits.answers
  · intro hwrites
    cases hwrites
  · intro _ id route hroute
    rw [AccountRoutes.route_retain, Option.filter_eq_some_iff] at hroute
    exact hlisted _ (of_decide_eq_true hroute.right)
  · exact fun _ => h.current_alone halone rfl
  · intro henabled hready
    rcases h.client_alone halone rfl henabled hready with
      ⟨url, hclient, hcurrent⟩
    exact ⟨url, hclient, fun _ => hcurrent⟩

/-- A switch under the current generation puts a listed proxy into the shared
client. -/
theorem ordered_stores {url : String} {who : Resolver}
    (h : Ordered m (.swapping m.generation url who :: others))
    (halone : forall u, u ∈ others -> u.holds = false) :
    Ordered { m with client := .proxied url } (.storing url who :: others) := by
  have hlisted : url ∈ m.proxies :=
    (h.fits _ List.mem_cons_self).picked _ rfl rfl url List.mem_cons_self
  apply ordered_of_alone halone
  · constructor
    · intro url' hurl
      rw [List.mem_singleton.mp hurl]
      exact hlisted
    · intro id hid
      cases hid
    · intro url' hurl
      cases hurl
      rfl
    · intro g hg
      cases hg
    · intro g hg
      cases hg
    · intro hanswers
      cases hanswers
  · intro v hv
    have hfits := h.fits v (List.mem_cons_of_mem _ hv)
    apply fits_of_idle (halone v hv)
    · exact hfits.known
    · exact hfits.picked
    · intro _ _ hdirect
      cases hdirect
  · intro hwrites
    cases hwrites
  · exact fun _ => h.bindings_alone halone rfl
  · exact fun _ => h.current_alone halone rfl
  · intro _ _
    refine ⟨url, rfl, fun hstored => ?_⟩
    cases hstored

theorem ordered_settles {url : String} {who : Resolver}
    (h : Ordered m (.storing url who :: others)) :
    Ordered { m with current := some url, ready := true, fails := 0 }
      (.resolved true who :: others) := by
  have halone := ProxyTask.not_holds_of_single h.single rfl
  have hfirst := h.fits _ List.mem_cons_self
  have hclient : m.client = .proxied url := hfirst.stored url rfl
  apply ordered_of_alone halone
  · apply fits_of_idle rfl
    · intro g hg
      cases hg
    · intro g hg
      cases hg
    · intro _ _ hdirect
      dsimp only at hdirect
      rw [hclient] at hdirect
      cases hdirect
  · intro v hv
    have hfits := h.fits v (List.mem_cons_of_mem _ hv)
    exact fits_of_idle (halone v hv) hfits.known hfits.picked hfits.answers
  · intro hwrites
    cases hwrites
  · exact fun _ => h.bindings_alone halone rfl
  · intro _ url' hurl
    cases hurl
    exact hfirst.listed url List.mem_cons_self
  · intro _ _
    exact ⟨url, hclient, fun _ => rfl⟩

theorem ordered_section (h : Ordered m (t :: others))
    (hfree : free = true -> forall u, u ∈ others -> u.holds = false)
    (hwriting : writing = true <-> exists w, w ∈ t :: others ∧ w.writes = true)
    (hwaits : t.enables = true -> forall u, u ∈ others -> u.answers = false)
    (hroutes : m.RoutesStep cfg t x) (hx : SwitchStep cfg m free writing t x) :
    Ordered x.manager (x.task :: others) := by
  cases hx with
  | plain hstored hrebinding hplain =>
      exact ordered_plain h hfree hwriting hroutes hstored hrebinding hplain
  | counts ht =>
      rw [ht] at h
      exact ordered_counts h
  | writes ht =>
      rw [ht] at h
      exact ordered_writes h
  | switches ht =>
      rw [ht] at h hwaits
      exact ordered_switches h hwaits
  | retains ht =>
      rw [ht] at h
      exact ordered_retains h
  | stores ht hfreeTrue =>
      rw [ht] at h
      exact ordered_stores h (hfree hfreeTrue)
  | settles ht =>
      rw [ht] at h
      exact ordered_settles h

theorem clean_section (h : Ordered m (t :: others))
    (hx : SwitchStep cfg m free writing t x) :
    forall e, e ∈ x.events -> e.Clean cfg := by
  cases hx with
  | plain _ _ hplain =>
      exact hplain.clean h.answerable
  | counts _ | writes _ | switches _ | retains _ | stores _ _ | settles _ =>
      intro e he
      cases he

end Section

/-!
## Whole runs
-/

section Runs

variable {cfg : ProxyConfig} {s s' : ProxyWorld} {a : ProxyAction} {x : Section}

theorem switchStep_of_section (hx : s.sectionOf cfg a = some x) :
    exists free, (free = true -> s.lockFree = true) ∧
      SwitchStep cfg s.manager free s.writing (s.stands a) x := by
  cases a with
  | call c now =>
      cases hx
      exact ⟨false, (fun h => by cases h), .plain rfl rfl (plain_begin now c)⟩
  | go i o =>
      cases hi : s.tasks[i]? with
      | none =>
          rw [sectionOf, hi] at hx
          cases hx
      | some t =>
          rw [sectionOf, hi] at hx
          rw [stands, hi, Option.getD_some]
          exact ⟨s.lockFree, fun h => h, switchStep_of_advance hx⟩

theorem writing_iff :
    s.writing = true <-> exists w, w ∈ s.tasks ∧ w.writes = true :=
  List.any_eq_true

/-- What every action keeps. -/
structure Shielded (cfg : ProxyConfig) (s : ProxyWorld) : Prop where
  ordered : Ordered s.manager s.tasks
  clean : forall e, e ∈ s.log -> e.Clean cfg

theorem shielded_start (cfg : ProxyConfig) (enabled : Bool)
    (proxies : List String) : Shielded cfg (.start enabled proxies) where
  ordered := ordered_new enabled proxies
  clean := by
    intro e he
    cases he

theorem shielded_step (h : Shielded cfg s) (hwaits : WaitsForAnswer s a)
    (hstep : s.step cfg a = some s') : Shielded cfg s' := by
  rcases step_eq_some hstep with ⟨x, hx, heq⟩
  rcases exists_others hx with ⟨others, hsub, htasks, hmoved⟩
  rcases switchStep_of_section hx with ⟨free, hfree, hswitch⟩
  have hordered : Ordered s.manager (s.stands a :: others) := by
    rcases htasks with ⟨hdone, hall⟩ | hperm
    · rw [hdone, hall]
      exact h.ordered.cons_done
    · exact h.ordered.perm hperm
  have hwriting : s.writing = true <->
      exists w, w ∈ s.stands a :: others ∧ w.writes = true := by
    rw [writing_iff]
    rcases htasks with ⟨hdone, hall⟩ | hperm
    · rw [hdone, hall]
      constructor
      · intro ⟨w, hw, hwrites⟩
        exact ⟨w, List.mem_cons_of_mem _ hw, hwrites⟩
      · intro ⟨w, hw, hwrites⟩
        rcases List.mem_cons.mp hw with hfirst | hrest
        · rw [hfirst] at hwrites
          cases hwrites
        · exact ⟨w, hrest, hwrites⟩
    · constructor
      · intro ⟨w, hw, hwrites⟩
        exact ⟨w, hperm.mem_iff.mp hw, hwrites⟩
      · intro ⟨w, hw, hwrites⟩
        exact ⟨w, hperm.mem_iff.mpr hw, hwrites⟩
  have hnext : Ordered x.manager (x.task :: others) :=
    ordered_section hordered
      (fun hf u hu => holds_of_lockFree (hfree hf) u (hsub u hu)) hwriting
      (fun henables u hu => hwaits henables u (hsub u hu))
      (routesStep_of_section hx) hswitch
  rw [heq]
  constructor
  · exact hnext.perm hmoved.symm
  · intro e he
    rcases List.mem_append.mp he with hold | hnew
    · exact h.clean e hold
    · exact clean_section hordered hswitch e hnew

theorem proxyOnly_of_shielded (hfallback : cfg.fallbackToDirect = false)
    (h : Shielded cfg s) : ProxyOnly s where
  answered := by
    intro he
    have hdirect := h.clean _ he rfl rfl
    rw [hfallback] at hdirect
    cases hdirect
  unwraps := fun he => h.clean _ he
  listed := fun hfree => h.ordered.listed (holds_of_lockFree hfree)

end Runs

end ProxyWorld

open ProxyWorld

/-- Without the fallback nothing leaks as long as no configuration that enables
proxies replaces the shared client between a resolve and its answer. -/
theorem neverLeaks_of_waits (cfg : ProxyConfig) (enabled : Bool)
    (proxies : List String) (actions : List ProxyAction) (s' : ProxyWorld)
    (hfallback : cfg.fallbackToDirect = false)
    (hwaits : (proxySystem cfg).Along WaitsForAnswer (.start enabled proxies)
      actions)
    (hrun : (proxySystem cfg).run (.start enabled proxies) actions = some s') :
    s'.ProxyOnly := by
  apply proxyOnly_of_shielded hfallback
  refine System.run_invariant_along ?_ (shielded_start cfg enabled proxies)
    hwaits hrun
  exact fun s a s' hs hwait hstep => shielded_step hs hwait hstep

/-!
## Two runs
-/

/-- Proxies that Tidal accepts, and no way around them. -/
def proxiesOnly : ProxyConfig where
  fallbackToDirect := false
  urlError := fun _ => none
  builds := fun _ => true
  fingerprint := fun url => url
  hash := fun _ => 0

def answering (order : List String) : Outside where
  now := 100
  order := order
  health := fun _ => .ok
  shared := fun _ => none
  rows := none

/-- A request resolves a proxy, up to the point where it reads the shared
client. -/
def resolvesProxy (url : String) : List ProxyAction :=
  .call .workingClient 100 :: List.replicate 4 (.go 0 (answering [url]))

/-- The request is answered, and then the list is replaced. -/
def answersFirst : List ProxyAction :=
  resolvesProxy "p" ++
    [ProxyAction.go 0 (answering []), .call (.configure true ["q"]) 100] ++
    List.replicate 4 (ProxyAction.go 1 (answering []))

theorem neverLeaks_of_waits_answered :
    exists s', (proxySystem proxiesOnly).run (.start true ["p"]) answersFirst =
        some s' ∧ s'.ProxyOnly := by
  refine ⟨_, rfl, ?_⟩
  exact neverLeaks_of_waits proxiesOnly true ["p"] answersFirst _ rfl
    (by decide) rfl

/-- The list is replaced after a request has resolved a proxy, and the request
gets the direct client. -/
theorem not_neverLeaks : ¬ NeverLeaks := by
  intro h
  have hrun := h proxiesOnly true ["p"]
    (resolvesProxy "p" ++ [ProxyAction.call (.configure true ["q"]) 100] ++
      List.replicate 4 (ProxyAction.go 1 (answering [])) ++ [ProxyAction.go 0 (answering [])])
    _ rfl rfl
  exact hrun.answered (by decide)

end HifiApi
