import HifiApi.Proxies.Passes

/-!
# One proxy for an account across the fleet

Instances with the same entries agree on the proxy of an account through Redis.
What Redis holds never changes once it is there: who writes it unconditionally
writes what it has read.  A pass that starts after the publication reads it and
leaves the account at the published proxy.
-/

namespace HifiApi

open ProxyManager

/-- Instances, and what Redis holds for their accounts. -/
structure ProxyFleet (ι : Type) where
  instances : ι -> ProxyWorld
  shared : String -> Option String

/-- A pass starts at an instance, or goes on there. -/
inductive PassAction (ι : Type) where
  | start (i : ι)
  | go (i : ι) (k : Nat) (o : Outside)

namespace PassAction

variable {ι : Type}

def place : PassAction ι -> ι
  | start i => i
  | go i _ _ => i

/-- The action at the instance; what it reads from Redis is there now. -/
def here (shared : String -> Option String) : PassAction ι -> ProxyAction
  | start _ => .call .syncSharedAssignments 0
  | go _ k o => .go k { o with shared := shared }

end PassAction

namespace ProxyFleet

variable {ι : Type} [DecidableEq ι]

def step (cfg : ProxyConfig) (s : ProxyFleet ι) (a : PassAction ι) :
    Option (ProxyFleet ι) :=
  let w := s.instances a.place
  (w.sectionOf cfg (a.here s.shared)).map fun x =>
    ⟨Function.update s.instances a.place
        ⟨x.manager, w.moved x.task (a.here s.shared), w.log ++ x.events⟩,
      x.events.foldl ProxyEvent.onShared s.shared⟩

/-- The proxy that an account is bound to at an instance. -/
def bound (s : ProxyFleet ι) (i : ι) (id : String) : Option String :=
  ((s.instances i).manager.routes.route id).map AccountProxy.url

/-- Every instance has started and finished another pass. -/
def PassedAgain (s s' : ProxyFleet ι) : Prop :=
  forall i, exists k, (s.instances i).tasks.length ≤ k ∧
    (s'.instances i).tasks[k]? = some .done

end ProxyFleet

/-- The passes of a fleet as a step system. -/
def passSystem (ι : Type) [DecidableEq ι] (cfg : ProxyConfig) :
    System (ProxyFleet ι) (PassAction ι) :=
  ⟨ProxyFleet.step cfg⟩

/-- A fleet before its first pass. -/
structure ProxyFleet.Ready {ι : Type} (cfg : ProxyConfig)
    (entries : List String) (s : ProxyFleet ι) : Prop where
  managers : forall i, (s.instances i).manager.Follows cfg entries
  tasks : forall i, (s.instances i).tasks = []

/-!
## Steps of the fleet
-/

namespace ProxyWorld

/-- An instance between its passes and within them. -/
structure InSync (cfg : ProxyConfig) (entries : List String)
    (shared : String -> Option String) (w : ProxyWorld) : Prop where
  manager : w.manager.Follows cfg entries
  single : w.tasks.countP ProxyTask.holds ≤ 1
  tasks : forall t, t ∈ w.tasks -> InPass cfg entries shared w.manager t

section Sync

variable {ι : Type} {cfg : ProxyConfig} {entries : List String}
  {shared shared' : String -> Option String} {w : ProxyWorld}
  {a : PassAction ι} {x : Section}

theorem InSync.of_gains (h : InSync cfg entries shared w)
    (hgains : forall id fp, shared id = some fp -> shared' id = some fp) :
    InSync cfg entries shared' w where
  manager := h.manager
  single := h.single
  tasks := fun t ht => (h.tasks t ht).of_gains hgains

/-- A section of a pass, or the start of one. -/
theorem InSync.passStep_of_section (h : InSync cfg entries shared w)
    (hx : w.sectionOf cfg (a.here shared) = some x) :
    InPass cfg entries shared w.manager (w.stands (a.here shared)) ∧
      PassStep cfg entries shared w.manager (w.stands (a.here shared)) x ∧
      (x.task.holds = true ->
        (w.stands (a.here shared)).holds = true ∨ w.lockFree = true) := by
  cases a with
  | start i =>
      have hbegin : w.manager.begin cfg 0 .syncSharedAssignments =
          ⟨w.manager, .syncing, []⟩ := by
        simp only [begin, h.manager.enabled, if_pos]
      have hdone := inPass_done cfg entries shared w.manager
      cases hx
      rw [hbegin]
      refine ⟨hdone, .silent ?_, fun hholds => by cases hholds⟩
      exact ⟨trivial, hdone.nodup, hdone.current, hdone.heard, hdone.adopts,
        hdone.tells⟩
  | go i k o =>
      cases hk : w.tasks[k]? with
      | none =>
          rw [PassAction.here, sectionOf, hk] at hx
          cases hx
      | some t =>
          rw [PassAction.here, sectionOf, hk] at hx
          rw [PassAction.here, stands, hk, Option.getD_some]
          have hpass := h.tasks t (List.mem_of_getElem? hk)
          exact ⟨hpass, passStep_of_advance h.manager hpass hx,
            holds_of_pass hpass.syncs hx⟩

theorem InSync.inSync_step (h : InSync cfg entries shared w)
    (hx : w.sectionOf cfg (a.here shared) = some x) :
    InSync cfg entries (x.events.foldl ProxyEvent.onShared shared)
      ⟨x.manager, w.moved x.task (a.here shared), w.log ++ x.events⟩ := by
  rcases h.passStep_of_section hx with ⟨hpass, hstep, hholds⟩
  rcases exists_others hx with ⟨others, hsub, htasks, hmoved⟩
  have hsingle : (w.stands (a.here shared) :: others).countP ProxyTask.holds ≤
      1 := by
    rcases htasks with ⟨hdone, hall⟩ | hperm
    · rw [hdone, hall]
      exact h.single
    · rw [← hperm.countP_eq]
      exact h.single
  constructor
  · exact hstep.follows h.manager hpass
  · dsimp only
    rw [hmoved.countP_eq, List.countP_cons]
    rw [List.countP_cons] at hsingle
    split
    · rename_i hheld
      have hzero : others.countP ProxyTask.holds = 0 := by
        apply List.countP_eq_zero.mpr
        intro u hu
        apply Bool.eq_false_iff.mp
        rcases hholds hheld with ht | hfree
        · exact ProxyTask.not_holds_of_single
            (by rwa [List.countP_cons]) ht u hu
        · exact holds_of_lockFree hfree u (hsub u hu)
      omega
    · omega
  · intro u hu
    rcases List.mem_cons.mp (hmoved.mem_iff.mp hu) with hfirst | hrest
    · rw [hfirst]
      exact hstep.inPass hpass
    · have hold := h.tasks u (hsub u hrest)
      have hgains : forall id fp, shared id = some fp ->
          x.events.foldl ProxyEvent.onShared shared id = some fp :=
        fun _ _ hshared => hstep.gains hpass hshared
      cases hstep with
      | silent _ | told _ | published _ =>
          exact hold.of_gains hgains
      | adopted ht =>
          apply hold.of_not_holds
          exact ProxyTask.not_holds_of_single hsingle (by rw [ht]; rfl) u hrest

end Sync

end ProxyWorld

namespace ProxyFleet

section Fleet

variable {ι : Type} {cfg : ProxyConfig} {entries : List String}
  {s s' published : ProxyFleet ι} {a : PassAction ι} {id p : String}

/-- Every instance is between its passes or within them. -/
def InSync (cfg : ProxyConfig) (entries : List String) (s : ProxyFleet ι) :
    Prop :=
  forall i, (s.instances i).InSync cfg entries s.shared

theorem inSync_of_ready (h : s.Ready cfg entries) : s.InSync cfg entries := by
  intro i
  constructor
  · exact h.managers i
  · rw [h.tasks i]
    exact Nat.zero_le _
  · intro t ht
    rw [h.tasks i] at ht
    cases ht

/-- After the publication: every pass that has started since then is on the way
to the published proxy. -/
structure Closing (cfg : ProxyConfig) (entries : List String) (id p : String)
    (published s : ProxyFleet ι) : Prop where
  inSync : s.InSync cfg entries
  shared : s.shared id = some (cfg.fingerprint p)
  bound : forall i, (s.instances i).manager.routes.route id ≠ none
  passes : forall i k t, (published.instances i).tasks.length ≤ k ->
    (s.instances i).tasks[k]? = some t ->
    Reaches cfg id p (s.instances i).manager t

/-- Every instance is bound to the published proxy, and Redis holds it. -/
structure Settled (cfg : ProxyConfig) (entries : List String) (id p : String)
    (s : ProxyFleet ι) : Prop where
  inSync : s.InSync cfg entries
  shared : s.shared id = some (cfg.fingerprint p)
  bound : forall i, s.bound i id = some p

theorem settled_of_closing (h : Closing cfg entries id p published s)
    (hagain : published.PassedAgain s) : Settled cfg entries id p s where
  inSync := h.inSync
  shared := h.shared
  bound := by
    intro i
    rcases hagain i with ⟨k, hk, hdone⟩
    exact reaches_done (h.passes i k .done hk hdone)

/-- The passes of an instance after a section there. -/
theorem passes_of_section {w : ProxyWorld} {shared : String -> Option String}
    {x : Section} {n : Nat} (hsync : w.InSync cfg entries shared)
    (hinj : forall p, p ∈ entries -> forall q, q ∈ entries ->
      cfg.fingerprint p = cfg.fingerprint q -> p = q)
    (hp : p ∈ entries) (hbuilds : cfg.builds p = true)
    (hshared : shared id = some (cfg.fingerprint p))
    (hid : w.manager.routes.route id ≠ none)
    (hpasses : forall k t, n ≤ k -> w.tasks[k]? = some t ->
      Reaches cfg id p w.manager t)
    (hx : w.sectionOf cfg (a.here shared) = some x) :
    forall k t, n ≤ k -> (w.moved x.task (a.here shared))[k]? = some t ->
      Reaches cfg id p x.manager t := by
  have hkept : forall {t : ProxyTask}, Reaches cfg id p w.manager t ->
      Reaches cfg id p x.manager t := by
    intro t ht
    rcases hsync.passStep_of_section hx with ⟨hpass, hstep, -⟩
    apply ht.of_bound
    intro hbound
    rw [hstep.route_eq hpass hinj hp hshared hbound]
    exact hbound
  intro k t hk ht
  cases a with
  | start i =>
      have hbegin : w.manager.begin cfg 0 .syncSharedAssignments =
          ⟨w.manager, .syncing, []⟩ := by
        simp only [begin, hsync.manager.enabled, if_pos]
      rw [PassAction.here, ProxyWorld.sectionOf, hbegin] at hx
      cases hx
      rw [PassAction.here, ProxyWorld.moved] at ht
      rcases Nat.lt_or_ge k w.tasks.length with hlt | hge
      · rw [List.getElem?_append_left hlt] at ht
        exact hpasses k t hk ht
      · rw [List.getElem?_append_right hge] at ht
        rw [List.mem_singleton.mp (List.mem_of_getElem? ht)]
        exact .early rfl
  | go i j o =>
      rw [PassAction.here, ProxyWorld.moved, List.getElem?_set] at ht
      split at ht
      · rename_i heq
        rw [← heq] at hk
        split at ht
        · rename_i hlt
          have hj : w.tasks[j]? = some w.tasks[j] :=
            List.getElem?_eq_getElem hlt
          cases ht
          rw [PassAction.here, ProxyWorld.sectionOf, hj] at hx
          exact reaches_of_advance hsync.manager
            (hsync.tasks _ (List.getElem_mem hlt)) hinj hp hbuilds hshared hid
            (hpasses j _ hk hj) hx
        · cases ht
      · exact hkept (hpasses k t hk ht)

variable [DecidableEq ι]

/-- A step is a section at one instance. -/
theorem step_eq_some (h : s.step cfg a = some s') :
    exists x, (s.instances a.place).sectionOf cfg (a.here s.shared) = some x ∧
      s'.shared = x.events.foldl ProxyEvent.onShared s.shared ∧
      s'.instances a.place =
        ⟨x.manager, (s.instances a.place).moved x.task (a.here s.shared),
          (s.instances a.place).log ++ x.events⟩ ∧
      forall i, i ≠ a.place -> s'.instances i = s.instances i := by
  rcases Option.map_eq_some_iff.mp h with ⟨x, hx, heq⟩
  refine ⟨x, hx, ?_, ?_, ?_⟩
  · rw [← heq]
  · rw [← heq]
    exact Function.update_self _ _ _
  · intro i hi
    rw [← heq]
    exact Function.update_of_ne hi _ _

theorem gains_of_step (h : s.InSync cfg entries) (hstep : s.step cfg a = some s')
    {id fp : String} (hshared : s.shared id = some fp) :
    s'.shared id = some fp := by
  rcases step_eq_some hstep with ⟨x, hx, hnext, _, _⟩
  rcases (h a.place).passStep_of_section hx with ⟨hpass, hpassStep, _⟩
  rw [hnext]
  exact hpassStep.gains hpass hshared

theorem inSync_of_step (h : s.InSync cfg entries)
    (hstep : s.step cfg a = some s') : s'.InSync cfg entries := by
  rcases step_eq_some hstep with ⟨x, hx, hshared, hhere, hthere⟩
  intro i
  by_cases hi : i = a.place
  · rw [hi, hhere, hshared]
    exact (h a.place).inSync_step hx
  · rw [hthere i hi]
    exact (h i).of_gains fun _ _ hfp => gains_of_step h hstep hfp

/-- No step takes a binding away. -/
theorem bound_of_step (h : s.InSync cfg entries)
    (hstep : s.step cfg a = some s')
    (hbound : forall i, (s.instances i).manager.routes.route id ≠ none) (i : ι) :
    (s'.instances i).manager.routes.route id ≠ none := by
  rcases step_eq_some hstep with ⟨x, hx, -, hhere, hthere⟩
  rcases (h a.place).passStep_of_section hx with ⟨-, hpassStep, -⟩
  by_cases hi : i = a.place
  · rw [hi, hhere]
    exact hpassStep.route_ne_none (hbound a.place)
  · rw [hthere i hi]
    exact hbound i

/-- What is published is a binding of the publisher. -/
theorem published_of_step (h : s.InSync cfg entries)
    (hstep : s.step cfg a = some s') {id v : String} (hnone : s.shared id = none)
    (hsome : s'.shared id = some v) :
    exists p, s.bound a.place id = some p ∧ p ∈ entries ∧
      cfg.builds p = true ∧ cfg.fingerprint p = v := by
  rcases step_eq_some hstep with ⟨x, hx, hshared, -, -⟩
  rcases (h a.place).passStep_of_section hx with ⟨hpass, hpassStep, -⟩
  rw [hshared] at hsome
  cases hpassStep with
  | silent _ | adopted _ =>
      rw [show List.foldl _ _ _ = s.shared from rfl, hnone] at hsome
      cases hsome
  | told ht =>
      rename_i id' url rest
      have htold : s.shared id' = some (cfg.fingerprint url) :=
        hpass.tells id' url (by rw [ht]; rfl)
      change Function.update s.shared id' (some (cfg.fingerprint url)) id =
        some v at hsome
      rw [← htold, Function.update_eq_self, hnone] at hsome
      cases hsome
  | published ht =>
      rename_i id' url rest
      change Function.update s.shared id' _ id = some v at hsome
      by_cases heq : id = id'
      · rw [← heq] at ht
        rw [← heq, Function.update_self, hnone] at hsome
        have hcurrent := hpass.current id url (by
          rw [ht]
          exact List.mem_cons_self)
        rcases Option.map_eq_some_iff.mp hcurrent with ⟨route, hroute, hurl⟩
        have hlisted := (h a.place).manager.bindings id route hroute
        rw [hurl] at hlisted
        exact ⟨url, hcurrent, hlisted.left, hlisted.right,
          Option.some.inj hsome⟩
      · rw [Function.update_of_ne heq, hnone] at hsome
        cases hsome

theorem closing_step
    (hinj : forall p, p ∈ entries -> forall q, q ∈ entries ->
      cfg.fingerprint p = cfg.fingerprint q -> p = q)
    (hp : p ∈ entries) (hbuilds : cfg.builds p = true)
    (h : Closing cfg entries id p published s)
    (hstep : s.step cfg a = some s') :
    Closing cfg entries id p published s' := by
  rcases step_eq_some hstep with ⟨x, hx, -, hhere, hthere⟩
  constructor
  · exact inSync_of_step h.inSync hstep
  · exact gains_of_step h.inSync hstep h.shared
  · exact bound_of_step h.inSync hstep h.bound
  · intro i
    by_cases hi : i = a.place
    · rw [hi, hhere]
      exact passes_of_section (h.inSync a.place) hinj hp hbuilds h.shared
        (h.bound a.place) (h.passes a.place) hx
    · rw [hthere i hi]
      exact h.passes i

theorem route_of_settled
    (hinj : forall p, p ∈ entries -> forall q, q ∈ entries ->
      cfg.fingerprint p = cfg.fingerprint q -> p = q)
    (hp : p ∈ entries) (h : Settled cfg entries id p s)
    (hstep : s.step cfg a = some s') (i : ι) :
    (s'.instances i).manager.routes.route id =
      (s.instances i).manager.routes.route id := by
  rcases step_eq_some hstep with ⟨x, hx, -, hhere, hthere⟩
  rcases (h.inSync a.place).passStep_of_section hx with ⟨hpass, hpassStep, -⟩
  by_cases hi : i = a.place
  · rw [hi, hhere]
    exact hpassStep.route_eq hpass hinj hp h.shared (h.bound a.place)
  · rw [hthere i hi]

theorem settled_step
    (hinj : forall p, p ∈ entries -> forall q, q ∈ entries ->
      cfg.fingerprint p = cfg.fingerprint q -> p = q)
    (hp : p ∈ entries) (h : Settled cfg entries id p s)
    (hstep : s.step cfg a = some s') : Settled cfg entries id p s' where
  inSync := inSync_of_step h.inSync hstep
  shared := gains_of_step h.inSync hstep h.shared
  bound := by
    intro i
    rw [bound, route_of_settled hinj hp h hstep i]
    exact h.bound i

end Fleet

end ProxyFleet

open ProxyFleet

/-- Two entries with fingerprints of their own. -/
def sharedProxies : ProxyConfig where
  fallbackToDirect := false
  urlError := fun _ => none
  builds := fun _ => true
  fingerprint := fun url => url
  hash := fun _ => 0

/-- An instance with a binding of the account. -/
def boundInstance (url : String) : ProxyWorld where
  manager :=
    { ProxyManager.new true ["p", "q"] with
      routes := ⟨AList.singleton "a" ⟨url, 0, true⟩, fun _ => none,
        fun _ => none⟩ }
  tasks := []
  log := []

/-- Two instances that have bound the account to different proxies. -/
def twoInstances : ProxyFleet Bool where
  instances := fun i => boundInstance (if i then "p" else "q")
  shared := fun _ => none

def passing : Outside where
  now := 0
  order := []
  health := fun _ => .dead
  shared := fun _ => none
  rows := none

/-- A pass from its start, with a number of sections. -/
def passAt (i : Bool) (k n : Nat) : List (PassAction Bool) :=
  .start i :: List.replicate n (.go i k passing)

theorem ready_twoInstances : twoInstances.Ready sharedProxies ["p", "q"] where
  managers := by
    intro i
    constructor
    · rfl
    · rfl
    · exact fun _ => rfl
    · intro id route hroute
      have hmem := List.mem_singleton.mp (AList.mem_lookup_iff.mp hroute)
      cases hmem
      cases i with
      | true => exact ⟨List.mem_cons_self, rfl⟩
      | false => exact ⟨List.mem_cons_of_mem _ List.mem_cons_self, rfl⟩
  tasks := fun _ => rfl

/-- The first instance publishes its proxy, and both pass again. -/
theorem twoInstances_pass :
    exists before published later,
      (passSystem Bool sharedProxies).run twoInstances (passAt true 0 5) =
        some before ∧
      (passSystem Bool sharedProxies).step before (.go true 0 passing) =
        some published ∧
      before.shared "a" = none ∧ published.shared "a" = some "p" ∧
      (passSystem Bool sharedProxies).run published
        (passAt true 1 5 ++ passAt false 0 7) = some later ∧
      published.PassedAgain later := by
  refine ⟨_, _, _, rfl, rfl, rfl, rfl, rfl, ?_⟩
  intro i
  cases i with
  | true => exact ⟨1, Nat.le_refl _, rfl⟩
  | false => exact ⟨0, Nat.le_refl _, rfl⟩

end HifiApi
