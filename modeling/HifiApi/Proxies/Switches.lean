import HifiApi.Proxies.Moves

/-!
# What a section does to the shared client

Configurations and switches change the list, the current proxy and the shared
client in a few sections; all others leave them alone, and carry on with proxies
that are listed.
-/

namespace HifiApi

/-- The proxies that what follows will assign. -/
def AfterAssign.listed : AfterAssign -> List String
  | .answer _ => []
  | .balance _ targets => targets
  | .sync entries _ => entries

namespace ProxyTask

/-- The proxies that a task carries under the lock of the switches. -/
def listed : ProxyTask -> List String
  | switching _ list _ | retaining list _ | clearing list _ _
  | weighing list => list
  | testingSpares _ spares => spares
  | electing _ _ target targets => target :: targets
  | assigning _ url _ after => url :: after.listed
  | sharing _ _ after => after.listed
  | installing entries _ | matching _ _ entries | syncLocal entries
  | syncRead entries _ | reconciling entries _ | publishing _ _ entries _
  | offering _ _ entries _ => entries
  | probing _ _ entries url => url :: entries
  | asking _ _ entries _ candidates fallback _ =>
      entries ++ candidates ++ fallback.toList
  | testing _ _ candidates fallback _ => candidates ++ fallback.toList
  | storing url _ => [url]
  | _ => []

/-- The account whose binding is being probed. -/
def probed : ProxyTask -> Option String
  | probing _ id _ _ => some id
  | _ => none

/-- The proxy whose client has just been stored. -/
def stored : ProxyTask -> Option String
  | storing url _ => some url
  | _ => none

/-- The generation of the list that a task chooses from. -/
def generation : ProxyTask -> Option Nat
  | picking g _ _ | testingPicked g _ _ | swapping g _ _ | rotationList g
  | rotationNext g _ | authFailed g => some g
  | _ => none

/-- The proxies that a task has chosen under its generation. -/
def picked : ProxyTask -> List String
  | testingPicked _ choices _ => choices
  | swapping _ url _ => [url]
  | rotationNext _ list => list
  | _ => []

/-- The resolve has succeeded, and the shared client is about to be
returned. -/
def answers : ProxyTask -> Bool
  | resolved true .client => true
  | _ => false

/-- The new list is written, and bindings may still be of the old one. -/
def rebinding : ProxyTask -> Bool
  | switching _ _ _ | retaining _ _ => true
  | _ => false

/-- The new list is written, and the current proxy may still be of the old
one. -/
def relisting : ProxyTask -> Bool
  | switching _ _ _ => true
  | _ => false

/-- A task that carries no proxies. -/
structure Bare (t : ProxyTask) : Prop where
  listed : t.listed = []
  probed : t.probed = none
  stored : t.stored = none
  generation : t.generation = none
  answers : t.answers = false
  rebinding : t.rebinding = false
  writes : t.writes = false

/-- Without the lock of the switches a task carries nothing that rests on
it. -/
structure Idle (t : ProxyTask) : Prop where
  listed : t.listed = []
  probed : t.probed = none
  stored : t.stored = none
  rebinding : t.rebinding = false
  relisting : t.relisting = false
  writes : t.writes = false

theorem idle_of_not_holds {t : ProxyTask} (h : t.holds = false) : t.Idle := by
  cases t with
  | comparing _ _ | replacing _ _ _ | switching _ _ _ | retaining _ _
  | clearing _ _ _ | weighing _ | testingSpares _ _ | electing _ _ _ _
  | assigning _ _ _ _ | sharing _ _ _ | reading | installing _ _
  | listing _ _ | matching _ _ _ | probing _ _ _ _ | asking _ _ _ _ _ _ _
  | testing _ _ _ _ _ | failing _ _ | storing _ _ | authReading
  | dropping _ _ | erasing _ | unsharing _ | syncEntries | syncLocal _
  | syncRead _ _ | reconciling _ _ | publishing _ _ _ _
  | offering _ _ _ _ =>
      cases h
  | _ =>
      constructor <;> rfl

theorem relisting_of_not_rebinding {t : ProxyTask}
    (h : t.rebinding = false) : t.relisting = false := by
  cases t with
  | switching _ _ _ => cases h
  | _ => rfl

end ProxyTask

/-- The direct client is returned at most where the fallback is allowed, and
nothing panics. -/
def ProxyEvent.Clean (cfg : ProxyConfig) : ProxyEvent -> Prop
  | answered client enabled =>
      enabled = true -> client = .direct -> cfg.fallbackToDirect = true
  | panicked => False
  | _ => True

namespace ProxyManager

/-- List, current proxy, shared client and mode are the same; readiness is at
most lost. -/
structure SameSwitch (m m' : ProxyManager) : Prop where
  proxies : m'.proxies = m.proxies
  generation : m'.generation = m.generation
  client : m'.client = m.client
  current : m'.current = m.current
  enabled : m'.enabled = m.enabled
  ready : m.enabled = true -> m'.ready = true -> m.ready = true

/-- A task goes on with proxies it has carried or that are listed. -/
structure Leads (m m' : ProxyManager) (free writing : Bool)
    (t u : ProxyTask) : Prop where
  listed : forall url, url ∈ u.listed -> url ∈ t.listed ∨ url ∈ m.proxies
  probed : forall id, u.probed = some id -> m'.routes.route id ≠ none
  stored : u.stored = none
  picked : forall g, u.generation = some g ->
    (g = m.generation ∧ u.picked = []) ∨
    (t.generation = some g ∧
      ((forall url, url ∈ u.picked -> url ∈ t.picked) ∨
      ((forall url, url ∈ u.picked -> url ∈ m.proxies) ∧
        ¬ (writing = true ∧ g = m.generation))))
  answers : u.answers = true -> m.ready = true
  rebinding : u.rebinding = false
  writes : u.writes = false
  holds : u.holds = true -> t.holds = true ∨ free = true

/-- What the answers of a task rest on. -/
structure Answerable (m : ProxyManager) (t : ProxyTask) : Prop where
  ready : m.enabled = true -> m.ready = true -> m.client ≠ .direct
  answers : t.answers = true -> m.enabled = true -> m.client ≠ .direct
  probed : forall id, t.probed = some id -> m.routes.route id ≠ none

/-- A section that leaves the shared client alone. -/
structure Plain (cfg : ProxyConfig) (m : ProxyManager) (free writing : Bool)
    (t : ProxyTask) (x : Section) : Prop where
  manager : m.SameSwitch x.manager
  leads : m.Leads x.manager free writing t x.task
  clean : m.Answerable t -> forall e, e ∈ x.events -> e.Clean cfg

section Plain

variable {cfg : ProxyConfig} {m m' : ProxyManager} {free writing : Bool}
  {t u : ProxyTask}

theorem SameSwitch.refl (m : ProxyManager) : m.SameSwitch m :=
  ⟨rfl, rfl, rfl, rfl, rfl, fun _ h => h⟩

theorem sameSwitch_of_routes (m : ProxyManager) (r : AccountRoutes) :
    m.SameSwitch { m with routes := r } :=
  ⟨rfl, rfl, rfl, rfl, rfl, fun _ h => h⟩

theorem leads_of_bare (hu : u.Bare)
    (hholds : u.holds = true -> t.holds = true ∨ free = true) :
    m.Leads m' free writing t u where
  listed := by
    intro url h
    rw [hu.listed] at h
    cases h
  probed := by
    intro id h
    rw [hu.probed] at h
    cases h
  stored := hu.stored
  picked := by
    intro g h
    rw [hu.generation] at h
    cases h
  answers := by
    intro h
    rw [hu.answers] at h
    cases h
  rebinding := hu.rebinding
  writes := hu.writes
  holds := hholds

/-- A task that carries listed proxies and nothing else. -/
theorem leads_of_listed
    (hlisted : forall url, url ∈ u.listed -> url ∈ t.listed ∨ url ∈ m.proxies)
    (hprobed : u.probed = none) (hstored : u.stored = none)
    (hgeneration : u.generation = none) (hanswers : u.answers = false)
    (hrebinding : u.rebinding = false) (hwrites : u.writes = false)
    (hholds : t.holds = true) : m.Leads m' free writing t u where
  listed := hlisted
  probed := by
    intro id h
    rw [hprobed] at h
    cases h
  stored := hstored
  picked := by
    intro g h
    rw [hgeneration] at h
    cases h
  answers := by
    intro h
    rw [hanswers] at h
    cases h
  rebinding := hrebinding
  writes := hwrites
  holds := fun _ => Or.inl hholds

/-- A task that chooses under a generation, and carries nothing else. -/
theorem leads_of_picked {g : Nat} (hgeneration : u.generation = some g)
    (hpicked : (g = m.generation ∧ u.picked = []) ∨
      (t.generation = some g ∧
        ((forall url, url ∈ u.picked -> url ∈ t.picked) ∨
        ((forall url, url ∈ u.picked -> url ∈ m.proxies) ∧
          ¬ (writing = true ∧ g = m.generation)))))
    (hlisted : u.listed = []) (hprobed : u.probed = none)
    (hstored : u.stored = none) (hanswers : u.answers = false)
    (hrebinding : u.rebinding = false) (hwrites : u.writes = false)
    (hholds : u.holds = false) : m.Leads m' free writing t u where
  listed := by
    intro url h
    rw [hlisted] at h
    cases h
  probed := by
    intro id h
    rw [hprobed] at h
    cases h
  stored := hstored
  picked := by
    intro g' h
    rw [hgeneration] at h
    cases h
    exact hpicked
  answers := by
    intro h
    rw [hanswers] at h
    cases h
  rebinding := hrebinding
  writes := hwrites
  holds := by
    intro h
    rw [hholds] at h
    cases h

theorem plain_of_silent (hm : m.SameSwitch m')
    (hu : m.Leads m' free writing t u) :
    m.Plain cfg free writing t ⟨m', u, []⟩ where
  manager := hm
  leads := hu
  clean := by
    intro _ e he
    cases he

theorem plain_of_event (hm : m.SameSwitch m')
    (hu : m.Leads m' free writing t u) {e : ProxyEvent}
    (he : m.Answerable t -> e.Clean cfg) :
    m.Plain cfg free writing t ⟨m', u, [e]⟩ where
  manager := hm
  leads := hu
  clean := by
    intro hm e' he'
    rw [List.mem_singleton.mp he']
    exact he hm

theorem Plain.cons {x : Section} (h : m.Plain cfg free writing t x)
    {e : ProxyEvent} (he : e.Clean cfg) :
    m.Plain cfg free writing t ⟨x.manager, x.task, e :: x.events⟩ where
  manager := h.manager
  leads := h.leads
  clean := by
    intro hm e' he'
    rcases List.mem_cons.mp he' with hfirst | hrest
    · rw [hfirst]
      exact he
    · exact h.clean hm e' hrest

theorem bare_done : ProxyTask.done.Bare := by
  constructor <;> rfl

theorem leads_done : m.Leads m' free writing t .done :=
  leads_of_bare bare_done fun h => by cases h

theorem plain_answer (hm : m.SameSwitch m') {client : Egress}
    (h : m.Answerable t -> m.enabled = true -> client ≠ .direct) :
    m.Plain cfg free writing t (m'.answer client) := by
  refine plain_of_event hm leads_done fun hanswerable => ?_
  intro henabled hdirect
  rw [hm.enabled] at henabled
  exact absurd hdirect (h hanswerable henabled)

theorem plain_proxied (hm : m.SameSwitch m') (url : String) :
    m.Plain cfg free writing t (m'.answer (.proxied url)) :=
  plain_answer hm fun _ _ h => by cases h

theorem plain_off (hm : m.SameSwitch m') (hoff : m.enabled = false) :
    m.Plain cfg free writing t (m'.answer .direct) := by
  refine plain_answer hm fun _ henabled => ?_
  rw [hoff] at henabled
  cases henabled

theorem plain_unavailable (hm : m.SameSwitch m') :
    m.Plain cfg free writing t (m'.unavailable cfg) := by
  unfold unavailable
  refine plain_of_event hm leads_done fun _ => ?_
  split
  · rename_i hfallback
    exact fun _ _ => hfallback
  · trivial

theorem plain_answerFor (hm : m.SameSwitch m') (user : RouteUser)
    (id url : String) :
    m.Plain cfg free writing t (m'.answerFor user id (.proxied url)) := by
  cases user with
  | api =>
      exact plain_proxied hm url
  | auth =>
      refine plain_of_silent hm (leads_of_bare ?_ ?_)
      · constructor <;> rfl
      · exact fun h => by cases h

theorem plain_offFor (hm : m.SameSwitch m') (hoff : m.enabled = false)
    (user : RouteUser) (id : String) :
    m.Plain cfg free writing t (m'.answerFor user id .direct) := by
  cases user with
  | api =>
      exact plain_off hm hoff
  | auth =>
      refine plain_of_silent hm (leads_of_bare ?_ ?_)
      · constructor <;> rfl
      · exact fun h => by cases h

theorem mem_orderedCandidates {id : String} {entries : List String}
    {assignments : Assignments} {avoid : Option String} {url : String}
    (h : url ∈ orderedCandidates cfg id entries assignments avoid) :
    url ∈ entries := by
  unfold orderedCandidates at h
  rcases List.mem_map.mp h with ⟨⟨index, e⟩, he, heq⟩
  rw [List.mem_insertionSort] at he
  rcases List.mem_map.mp he with ⟨⟨e', index'⟩, hmem, hswap⟩
  cases hswap
  rw [← heq]
  exact List.fst_mem_of_mem_zipIdx hmem

theorem plain_seek (hm : m.SameSwitch m') (user : RouteUser) (id : String)
    {entries : List String} {fallback : Option String} (now : Int)
    (hentries : forall url, url ∈ entries ->
      url ∈ t.listed ∨ url ∈ m.proxies)
    (hfallback : forall url, fallback = some url ->
      url ∈ t.listed ∨ url ∈ m.proxies) (ht : t.holds = true) :
    m.Plain cfg free writing t (m'.seek cfg user id entries fallback now) := by
  unfold seek
  split
  · exact plain_unavailable hm
  · refine plain_of_silent hm (leads_of_listed ?_ rfl rfl rfl rfl rfl rfl ht)
    intro url hurl
    rcases List.mem_append.mp hurl with hleft | hright
    · rcases List.mem_append.mp hleft with hentry | hcandidate
      · exact hentries url hentry
      · exact hentries url (mem_orderedCandidates hcandidate)
    · exact hfallback url (Option.mem_toList.mp hright)

theorem plain_balance (hm : m.SameSwitch m') (loads : Loads)
    {targets : List String}
    (htargets : forall url, url ∈ targets -> url ∈ t.listed ∨ url ∈ m.proxies)
    (ht : t.holds = true) :
    m.Plain cfg free writing t (m'.balance loads targets) := by
  cases targets with
  | nil =>
      rw [balance]
      exact plain_of_silent hm leads_done
  | cons target targets =>
      simp only [balance]
      split
      · exact plain_of_silent hm leads_done
      · exact plain_of_silent hm
          (leads_of_listed htargets rfl rfl rfl rfl rfl rfl ht)

theorem plain_sync (hm : m.SameSwitch m') {entries : List String}
    (rest : List (String × String × Option String))
    (hentries : forall url, url ∈ entries -> url ∈ t.listed ∨ url ∈ m.proxies)
    (ht : t.holds = true) :
    m.Plain cfg free writing t (m'.sync entries rest) := by
  cases rest with
  | nil =>
      rw [sync]
      exact plain_of_silent hm leads_done
  | cons next rest =>
      rw [sync]
      exact plain_of_silent hm
        (leads_of_listed hentries rfl rfl rfl rfl rfl rfl ht)

theorem plain_resume (hm : m.SameSwitch m') (id url : String)
    {after : AfterAssign}
    (hafter : forall url, url ∈ after.listed ->
      url ∈ t.listed ∨ url ∈ m.proxies) (ht : t.holds = true) :
    m.Plain cfg free writing t (m'.resume id url after) := by
  cases after with
  | answer user =>
      exact plain_answerFor hm user id url
  | balance loads targets =>
      exact plain_balance hm loads hafter ht
  | sync entries rest =>
      exact plain_sync hm rest hafter ht

theorem plain_beginResolve (now : Int) (who : Resolver) :
    m.Plain cfg free writing t (m.beginResolve now who) := by
  unfold beginResolve
  split
  · rename_i hready
    refine plain_of_silent (.refl m) ?_
    exact
      { listed := fun url h => by cases h
        probed := fun id h => by cases h
        stored := rfl
        picked := fun g h => by cases h
        answers := fun _ => hready
        rebinding := rfl
        writes := rfl
        holds := fun h => by cases h }
  · split
    · refine plain_of_silent (.refl m) (leads_of_bare ?_ ?_)
      · constructor <;> rfl
      · exact fun h => by cases h
    · refine plain_of_silent ⟨rfl, rfl, rfl, rfl, rfl, fun _ h => h⟩ ?_
      exact leads_of_picked rfl (Or.inl ⟨rfl, rfl⟩) rfl rfl rfl rfl rfl rfl rfl

theorem clientNow_ne_direct (henabled : m.enabled = true)
    (hclient : m.client ≠ .direct) : m.clientNow ≠ .direct := by
  rw [clientNow, if_pos henabled]
  exact hclient

theorem plain_beginClient (now : Int) :
    m.Plain cfg free writing t (m.beginClient now) := by
  unfold beginClient
  split
  · rename_i hoff
    exact plain_off (.refl m) (Bool.eq_false_iff.mpr hoff)
  · split
    · rename_i hready
      refine plain_answer (.refl m) fun hanswerable henabled => ?_
      exact clientNow_ne_direct henabled (hanswerable.ready henabled hready)
    · exact plain_beginResolve now .client

theorem plain_beginAuthClient (now : Int) :
    m.Plain cfg free writing t (m.beginAuthClient now) := by
  unfold beginAuthClient
  split
  · refine plain_of_silent (.refl m) (leads_of_bare ?_ ?_)
    · constructor <;> rfl
    · exact fun h => by cases h
  · exact plain_beginResolve now .authClient

theorem plain_endRotation (g : Nat) (fails : Bool) :
    m.Plain cfg free writing t (m.endRotation g fails) := by
  refine plain_of_silent ⟨rfl, rfl, rfl, rfl, rfl, fun _ h => ?_⟩ leads_done
  rw [Bool.and_eq_true] at h
  exact h.left

theorem plain_resumeResolve (ok : Bool) (now : Int) (who : Resolver)
    (ht : t = .resolved ok who) :
    m.Plain cfg free writing t (m.resumeResolve cfg ok now who) := by
  cases who with
  | client =>
      simp only [resumeResolve]
      split
      · rename_i hok
        refine plain_answer (.refl m) fun hanswerable henabled => ?_
        refine clientNow_ne_direct henabled (hanswerable.answers ?_ henabled)
        rw [ht, hok]
        rfl
      · exact plain_unavailable (.refl m)
  | authClient =>
      simp only [resumeResolve]
      split
      · refine plain_of_silent (.refl m) (leads_of_bare ?_ ?_)
        · constructor <;> rfl
        · exact fun h => by cases h
      · exact plain_of_event (.refl m) leads_done fun _ => trivial
  | initial =>
      rw [resumeResolve]
      exact plain_of_silent (.refl m) leads_done
  | replacement =>
      simp only [resumeResolve]
      split
      · exact plain_beginAuthClient now
      · exact plain_unavailable (.refl m)
  | rotation g =>
      simp only [resumeResolve]
      split
      · refine plain_of_silent (.refl m) (leads_of_bare ?_ ?_)
        · constructor <;> rfl
        · exact fun h => by cases h
      · exact plain_of_silent ⟨rfl, rfl, rfl, rfl, rfl, fun _ h => h⟩ leads_done

/-- A task that carries nothing and does not hold the lock. -/
theorem plain_of_bare (hm : m.SameSwitch m') (hu : u.Bare)
    (hholds : u.holds = true -> t.holds = true ∨ free = true) :
    m.Plain cfg free writing t ⟨m', u, []⟩ :=
  plain_of_silent hm (leads_of_bare hu hholds)

theorem plain_begin (now : Int) (c : ProxyCall) :
    m.Plain cfg false writing .done (m.begin cfg now c) := by
  have hbare : forall {u : ProxyTask}, u.Bare -> u.holds = false ->
      m.Plain cfg false writing .done ⟨m, u, []⟩ := by
    intro u hu hholds
    refine plain_of_bare (.refl m) hu fun h => ?_
    rw [hholds] at h
    cases h
  cases c with
  | configure enabled proxies =>
      simp only [begin]
      split
      · exact plain_of_event (.refl m) leads_done fun _ => trivial
      · exact hbare (by constructor <;> rfl) rfl
  | workingClient =>
      exact plain_beginClient now
  | workingClientFor id =>
      simp only [begin]
      split
      · exact hbare (by constructor <;> rfl) rfl
      · rename_i hoff
        exact plain_off (.refl m) (Bool.eq_false_iff.mpr hoff)
  | workingAuthClient =>
      exact plain_beginAuthClient now
  | replaceAuthClient =>
      simp only [begin]
      split
      · refine plain_of_silent (.refl m) ?_
        exact leads_of_picked rfl (Or.inl ⟨rfl, rfl⟩) rfl rfl rfl rfl rfl rfl rfl
      · rename_i hoff
        exact plain_off (.refl m) (Bool.eq_false_iff.mpr hoff)
  | tryResolve =>
      exact plain_beginResolve now _
  | spawnInitialResolve =>
      simp only [begin]
      split
      · exact hbare (by constructor <;> rfl) rfl
      · rename_i hoff
        refine plain_of_silent ⟨rfl, rfl, rfl, rfl, rfl, fun henabled _ => ?_⟩
          leads_done
        exact absurd henabled hoff
  | rotate =>
      simp only [begin]
      split
      · exact hbare bare_done rfl
      · refine plain_of_bare ⟨rfl, rfl, rfl, rfl, rfl, fun _ h => h⟩ ?_ ?_
        · constructor <;> rfl
        · exact fun h => by cases h
  | workingAuthClientFor id | syncSharedAssignments | noteFailureFor id =>
      simp only [begin]
      split
      · exact hbare (by constructor <;> rfl) rfl
      · exact hbare (by constructor <;> rfl) rfl
  | rotateAccount id | forgetAccount id | loadAssignments
  | noteSuccessFor id =>
      rw [begin]
      exact hbare (by constructor <;> rfl) rfl

end Plain

/-- What a section does to list, current proxy and shared client. -/
inductive SwitchStep (cfg : ProxyConfig) (m : ProxyManager)
    (free writing : Bool) (t : ProxyTask) : Section -> Prop
  | plain {x : Section} (hstored : t.stored = none)
      (hrebinding : t.rebinding = false) (h : m.Plain cfg free writing t x) :
      SwitchStep cfg m free writing t x
  | counts {enabled : Bool} {list : List String} {rebalances : Bool}
      (ht : t = .comparing enabled list) :
      SwitchStep cfg m free writing t
        ⟨{ m with generation := m.generation + 1 },
          .replacing enabled list rebalances, []⟩
  | writes {enabled : Bool} {list : List String} {rebalances : Bool}
      (ht : t = .replacing enabled list rebalances) :
      SwitchStep cfg m free writing t
        ⟨{ m with proxies := list }, .switching enabled list rebalances, []⟩
  | switches {enabled : Bool} {list : List String} {rebalances : Bool}
      (ht : t = .switching enabled list rebalances) :
      SwitchStep cfg m free writing t
        ⟨{ m with
            current := none
            client := .direct
            enabled := enabled
            ready := !enabled
            fails := 0
            lastTry := 0 },
          .retaining list rebalances, []⟩
  | retains {list : List String} {rebalances : Bool}
      (ht : t = .retaining list rebalances) :
      SwitchStep cfg m free writing t
        ⟨{ m with routes := m.routes.retain list },
          .clearing list rebalances (m.routes.removed list), []⟩
  | stores {url : String} {who : Resolver}
      (ht : t = .swapping m.generation url who) (hfree : free = true) :
      SwitchStep cfg m free writing t
        ⟨{ m with client := .proxied url }, .storing url who, []⟩
  | settles {url : String} {who : Resolver} (ht : t = .storing url who) :
      SwitchStep cfg m free writing t
        ⟨{ m with current := some url, ready := true, fails := 0 },
          .resolved true who, []⟩

section Advance

variable {cfg : ProxyConfig} {m : ProxyManager} {free writing : Bool}
  {o : Outside} {t : ProxyTask} {x : Section}

theorem mem_of_firstAccepted {url : String}
    {tested : List (String × ProxyHealth)} {fallback rest : Option String}
    (h : firstAccepted cfg fallback tested = (some url, rest)) :
    url ∈ tested.map Prod.fst := by
  induction tested generalizing fallback with
  | nil =>
      cases h
  | cons first tested ih =>
      rcases first with ⟨url', health⟩
      rw [List.map_cons]
      cases health with
      | ok =>
          rw [firstAccepted] at h
          split at h
          · cases h
            exact List.mem_cons_self
          · exact List.mem_cons_of_mem _ (ih h)
      | blocked =>
          exact List.mem_cons_of_mem _ (ih h)
      | dead =>
          exact List.mem_cons_of_mem _ (ih h)

theorem fallback_of_firstAccepted {url : String}
    {tested : List (String × ProxyHealth)} {fallback found : Option String}
    (h : firstAccepted cfg fallback tested = (found, some url)) :
    fallback = some url ∨ url ∈ tested.map Prod.fst := by
  induction tested generalizing fallback with
  | nil =>
      cases h
      exact Or.inl rfl
  | cons first tested ih =>
      rcases first with ⟨url', health⟩
      rw [List.map_cons]
      cases health with
      | ok =>
          rw [firstAccepted] at h
          split at h
          · cases h
            exact Or.inl rfl
          · exact (ih h).imp_right (List.mem_cons_of_mem _)
      | blocked =>
          rcases ih h with hfirst | hrest
          · cases fallback with
            | some held =>
                exact Or.inl hfirst
            | none =>
                cases hfirst
                exact Or.inr List.mem_cons_self
          · exact Or.inr (List.mem_cons_of_mem _ hrest)
      | dead =>
          exact (ih h).imp_right (List.mem_cons_of_mem _)

theorem map_tested (candidates : List String) (health : String -> ProxyHealth) :
    (candidates.map fun url => (url, health url)).map Prod.fst = candidates := by
  rw [List.map_map]
  exact List.map_id _

theorem mem_of_sharedFirst {shared avoid : Option String}
    {candidates : List String} {url : String}
    (h : url ∈ sharedFirst shared avoid candidates) :
    url ∈ candidates ∨ shared = some url := by
  unfold sharedFirst at h
  split at h
  · exact Or.inl h
  · split at h
    · exact Or.inl h
    · rcases List.mem_cons.mp h with hfirst | hrest
      · rw [hfirst]
        exact Or.inr rfl
      · exact Or.inl (List.mem_of_mem_filter hrest)

theorem mem_of_sharedProxyFor {shared : Option String}
    {entries : List String} {url : String}
    (h : sharedProxyFor cfg shared entries = some url) : url ∈ entries := by
  rcases Option.bind_eq_some_iff.mp h with ⟨fp, _, hfind⟩
  exact List.mem_of_find?_eq_some hfind

theorem mem_of_workingProxy {tested : List (String × ProxyHealth)}
    {url : String} (h : workingProxy tested = some url) :
    url ∈ tested.map Prod.fst := by
  unfold workingProxy at h
  rcases Option.map_eq_some_iff.mp h with ⟨found, hfound, heq⟩
  rw [← heq]
  rcases Option.or_eq_some_iff.mp hfound with hok | hblocked
  · exact List.mem_map_of_mem (List.mem_of_find?_eq_some hok)
  · exact List.mem_map_of_mem (List.mem_of_find?_eq_some hblocked.right)

/-- A section that ends at a task without proxies. -/
theorem plain_bare {m' : ProxyManager} {u : ProxyTask} (hm : m.SameSwitch m')
    (hstored : t.stored = none) (hrebinding : t.rebinding = false)
    (hu : u.Bare) (hholds : u.holds = true -> t.holds = true ∨ free = true) :
    SwitchStep cfg m free writing t ⟨m', u, []⟩ :=
  .plain hstored hrebinding (plain_of_bare hm hu hholds)

/-- A section under the lock of the switches that ends at a task with listed
proxies. -/
theorem plain_listed {u : ProxyTask} (hstored : t.stored = none)
    (hrebinding : t.rebinding = false) (ht : t.holds = true)
    (hlisted : forall url, url ∈ u.listed -> url ∈ t.listed ∨ url ∈ m.proxies)
    (hu : u.probed = none ∧ u.stored = none ∧ u.generation = none ∧
      u.answers = false ∧ u.rebinding = false ∧ u.writes = false) :
    SwitchStep cfg m free writing t ⟨m, u, []⟩ := by
  rcases hu with ⟨hprobed, hstored', hgeneration, hanswers, hrebinding', hwrites⟩
  refine .plain hstored hrebinding (plain_of_silent (.refl m) ?_)
  exact leads_of_listed hlisted hprobed hstored' hgeneration hanswers hrebinding'
    hwrites ht

/-- A section that takes the lock of the switches. -/
theorem plain_locked {u : ProxyTask} (hstored : t.stored = none)
    (hrebinding : t.rebinding = false) (hfree : free = true) (hu : u.Bare) :
    SwitchStep cfg m free writing t ⟨m, u, []⟩ :=
  plain_bare (.refl m) hstored hrebinding hu fun _ => Or.inr hfree

/-- A section that ends its task and changes nothing. -/
theorem plain_quit (hstored : t.stored = none) (hrebinding : t.rebinding = false) :
    SwitchStep cfg m free writing t ⟨m, .done, []⟩ :=
  .plain hstored hrebinding (plain_of_silent (.refl m) leads_done)

/-- What every section does, one case for each task. -/
theorem switchStep_of_advance
    (h : m.advance cfg free writing o t = some x) :
    SwitchStep cfg m free writing t x := by
  have hsame : forall {r : AccountRoutes}, m.SameSwitch { m with routes := r } :=
    fun {r} => sameSwitch_of_routes m r
  cases t with
  | done =>
      cases h
  | configure enabled list =>
      simp only [advance] at h
      split at h
      · rename_i hfree
        cases h
        exact plain_locked rfl rfl hfree (by constructor <;> rfl)
      · cases h
  | comparing enabled list =>
      cases h
      exact .counts rfl
  | replacing enabled list rebalances =>
      cases h
      exact .writes rfl
  | switching enabled list rebalances =>
      cases h
      exact .switches rfl
  | retaining list rebalances =>
      cases h
      exact .retains rfl
  | clearing list rebalances removed =>
      cases removed with
      | nil =>
          cases h
          split
          · exact plain_listed rfl rfl rfl (fun url hurl => Or.inl hurl)
              ⟨rfl, rfl, rfl, rfl, rfl, rfl⟩
          · exact plain_quit rfl rfl
      | cons id rest =>
          cases h
          refine .plain rfl rfl (plain_of_event (.refl m) ?_ fun _ => trivial)
          exact leads_of_listed (fun url hurl => Or.inl hurl) rfl rfl rfl rfl rfl
            rfl rfl
  | weighing list =>
      simp only [advance] at h
      split at h
      · cases h
        exact plain_listed rfl rfl rfl
          (fun url hurl => Or.inl (List.mem_of_mem_filter hurl))
          ⟨rfl, rfl, rfl, rfl, rfl, rfl⟩
      · cases h
        exact plain_quit rfl rfl
  | testingSpares loads spares =>
      cases h
      refine .plain rfl rfl (plain_balance (.refl m) loads ?_ rfl)
      exact fun url hurl => Or.inl (List.mem_of_mem_filter hurl)
  | electing loads source target targets =>
      have hrest : m.Plain cfg free writing
          (.electing loads source target targets) (m.balance loads targets) :=
        plain_balance (.refl m) loads
          (fun url hurl => Or.inl (List.mem_cons_of_mem _ hurl)) rfl
      simp only [advance] at h
      split at h
      · cases h
        exact .plain rfl rfl hrest
      · split at h
        · cases h
          exact plain_listed rfl rfl rfl (fun url hurl => Or.inl hurl)
            ⟨rfl, rfl, rfl, rfl, rfl, rfl⟩
        · cases h
          exact .plain rfl rfl hrest
  | assigning id url verified after =>
      cases h
      refine .plain rfl rfl (plain_of_event hsame ?_ fun _ => trivial)
      exact leads_of_listed
        (fun url' hurl => Or.inl (List.mem_cons_of_mem _ hurl)) rfl rfl rfl rfl rfl
        rfl rfl
  | sharing id url after =>
      cases h
      refine .plain rfl rfl (Plain.cons ?_ trivial)
      exact plain_resume (.refl m) id url (fun url' hurl => Or.inl hurl) rfl
  | loading =>
      simp only [advance] at h
      split at h
      · rename_i hfree
        cases h
        exact plain_locked rfl rfl hfree (by constructor <;> rfl)
      · cases h
  | reading =>
      simp only [advance] at h
      split at h
      · cases h
        exact plain_quit rfl rfl
      · cases h
        exact plain_listed rfl rfl rfl (fun url hurl => Or.inr hurl)
          ⟨rfl, rfl, rfl, rfl, rfl, rfl⟩
  | installing entries rows =>
      cases h
      refine .plain rfl rfl (plain_of_event hsame ?_ fun _ => trivial)
      split
      · exact leads_of_listed (fun url hurl => Or.inl hurl) rfl rfl rfl rfl rfl
          rfl rfl
      · exact leads_done
  | wanting user id =>
      simp only [advance] at h
      split at h
      · cases h
        exact .plain rfl rfl (plain_answerFor (.refl m) user id _)
      · cases h
        exact plain_bare (.refl m) rfl rfl (by constructor <;> rfl)
          fun h => by cases h
  | queueing user id =>
      simp only [advance] at h
      split at h
      · rename_i hfree
        split at h
        · cases h
          exact plain_locked rfl rfl hfree (by constructor <;> rfl)
        · rename_i hoff
          cases h
          exact .plain rfl rfl
            (plain_offFor (.refl m) (Bool.eq_false_iff.mpr hoff) user id)
      · cases h
  | listing user id =>
      cases h
      exact plain_listed rfl rfl rfl (fun url hurl => Or.inr hurl)
        ⟨rfl, rfl, rfl, rfl, rfl, rfl⟩
  | matching user id entries =>
      simp only [advance] at h
      split at h
      · cases h
        exact .plain rfl rfl (plain_seek (.refl m) user id _
          (fun url hurl => Or.inl hurl) (fun url h => by cases h) rfl)
      · rename_i route hroute
        split at h
        · rename_i hentry
          split at h
          · cases h
            exact .plain rfl rfl (plain_answerFor (.refl m) user id _)
          · cases h
            refine .plain rfl rfl (plain_of_silent (.refl m) ?_)
            exact
              { listed := by
                  intro url hurl
                  rcases List.mem_cons.mp hurl with hfirst | hrest
                  · rw [hfirst]
                    exact Or.inl hentry
                  · exact Or.inl hrest
                probed := by
                  intro id' hid
                  cases hid
                  rw [hroute]
                  exact Option.some_ne_none _
                stored := rfl
                picked := fun g h => by cases h
                answers := fun h => by cases h
                rebinding := rfl
                writes := rfl
                holds := fun _ => Or.inl rfl }
        · cases h
          exact .plain rfl rfl (plain_seek hsame user id _
            (fun url hurl => Or.inl hurl) (fun url h => by cases h) rfl)
  | probing user id entries url =>
      simp only [advance] at h
      split at h
      · split at h
        · rename_i hnone
          cases h
          refine .plain rfl rfl
            (plain_of_event (.refl m) leads_done fun hanswerable => ?_)
          exact hanswerable.probed id rfl hnone
        · cases h
          exact .plain rfl rfl (plain_answerFor hsame user id _)
      · cases h
        refine .plain rfl rfl (plain_seek hsame user id _
          (fun url' hurl => Or.inl (List.mem_cons_of_mem _ hurl)) ?_ rfl)
        intro url' hurl
        split at hurl
        · cases hurl
          exact Or.inl List.mem_cons_self
        · cases hurl
  | asking user id entries avoid candidates fallback now =>
      cases h
      refine plain_listed rfl rfl rfl ?_ ⟨rfl, rfl, rfl, rfl, rfl, rfl⟩
      intro url hurl
      left
      rcases List.mem_append.mp hurl with hcandidate | hfallback
      · rcases mem_of_sharedFirst hcandidate with hold | hshared
        · exact List.mem_append_left _ (List.mem_append_right _ hold)
        · exact List.mem_append_left _
            (List.mem_append_left _ (mem_of_sharedProxyFor hshared))
      · exact List.mem_append_right _ hfallback
  | testing user id candidates fallback now =>
      have hfailing : SwitchStep cfg m free writing
          (.testing user id candidates fallback now)
          ⟨m, .failing id now, []⟩ :=
        plain_bare (.refl m) rfl rfl (by constructor <;> rfl) fun _ => Or.inl rfl
      have hassigning : forall url, url ∈ candidates ∨ fallback = some url ->
          SwitchStep cfg m free writing
            (.testing user id candidates fallback now)
            ⟨m, .assigning id url true (.answer user), []⟩ := by
        intro url hurl
        refine plain_listed rfl rfl rfl ?_ ⟨rfl, rfl, rfl, rfl, rfl, rfl⟩
        intro url' hurl'
        rw [List.mem_singleton.mp hurl']
        rcases hurl with hcandidate | hfallback
        · exact Or.inl (List.mem_append_left _ hcandidate)
        · exact Or.inl (List.mem_append_right _ (Option.mem_toList.mpr hfallback))
      simp only [advance] at h
      split at h
      · split at h
        · split at h
          · cases h
            exact hassigning _ (Or.inr rfl)
          · cases h
            exact hfailing
        · cases h
          exact hfailing
      · rename_i first rest
        split at h
        · rename_i url fallback' hfound
          cases h
          have hmem := mem_of_firstAccepted hfound
          rw [map_tested] at hmem
          exact hassigning url (Or.inl (List.mem_of_mem_take hmem))
        · rename_i fallback' hfound
          cases h
          refine plain_listed rfl rfl rfl ?_ ⟨rfl, rfl, rfl, rfl, rfl, rfl⟩
          intro url hurl
          left
          rcases List.mem_append.mp hurl with hcandidate | hfallback
          · exact List.mem_append_left _ (List.mem_of_mem_drop hcandidate)
          · rw [Option.mem_toList] at hfallback
            cases hfallback
            rcases fallback_of_firstAccepted hfound with hold | hnew
            · exact List.mem_append_right _ (Option.mem_toList.mpr hold)
            · rw [map_tested] at hnew
              exact List.mem_append_left _ (List.mem_of_mem_take hnew)
  | failing id now =>
      cases h
      exact .plain rfl rfl (plain_unavailable hsame)
  | authorized id =>
      simp only [advance] at h
      split at h
      · cases h
        exact plain_bare (.refl m) rfl rfl (by constructor <;> rfl)
          fun h => by cases h
      · rename_i hoff
        cases h
        exact .plain rfl rfl (plain_off (.refl m) (Bool.eq_false_iff.mpr hoff))
  | routing id =>
      simp only [advance] at h
      split at h
      · cases h
        exact .plain rfl rfl (plain_proxied (.refl m) _)
      · cases h
        exact .plain rfl rfl (plain_unavailable (.refl m))
  | picking g avoid who =>
      simp only [advance] at h
      split at h
      · cases h
      · rename_i hnot
        simp only [not_or, not_not] at hnot
        cases h
        refine .plain rfl rfl (plain_of_silent (.refl m) ?_)
        refine leads_of_picked rfl (Or.inr ⟨rfl, Or.inr ⟨?_, hnot.left⟩⟩) rfl rfl
          rfl rfl rfl rfl rfl
        intro url hurl
        exact hnot.right.mem_iff.mp
          (List.mem_of_mem_filter (List.mem_of_mem_take hurl))
  | testingPicked g choices who =>
      simp only [advance] at h
      split at h
      · rename_i url hurl
        cases h
        refine .plain rfl rfl (plain_of_silent (.refl m) ?_)
        refine leads_of_picked rfl (Or.inr ⟨rfl, Or.inl ?_⟩) rfl rfl rfl rfl rfl
          rfl rfl
        intro url' hurl'
        rw [List.mem_singleton.mp hurl']
        have hmem := mem_of_workingProxy hurl
        rwa [map_tested] at hmem
      · cases h
        exact plain_bare (.refl m) rfl rfl (by constructor <;> rfl)
          fun h => by cases h
  | swapping g url who =>
      have hfailed : (ProxyTask.resolved false who).Bare := by
        constructor <;> rfl
      simp only [advance] at h
      split at h
      · rename_i hfree
        split at h
        · cases h
          exact plain_bare (.refl m) rfl rfl hfailed fun h => by cases h
        · rename_i hgeneration
          simp only [not_or, not_not] at hgeneration
          split at h
          · cases h
            refine .stores ?_ hfree
            rw [hgeneration.right]
          · cases h
            refine plain_bare ⟨rfl, rfl, rfl, rfl, rfl, fun _ h => ?_⟩ rfl rfl
              hfailed fun h => by cases h
            cases h
      · cases h
  | storing url who =>
      cases h
      exact .settles rfl
  | resolved ok who =>
      cases h
      exact .plain rfl rfl (plain_resumeResolve ok _ who rfl)
  | starting =>
      cases h
      exact .plain rfl rfl (plain_beginResolve _ _)
  | authQueued =>
      simp only [advance] at h
      split at h
      · rename_i hfree
        split at h
        · cases h
          exact plain_locked rfl rfl hfree (by constructor <;> rfl)
        · rename_i hoff
          cases h
          exact .plain rfl rfl
            (plain_off (.refl m) (Bool.eq_false_iff.mpr hoff))
      · cases h
  | authReading =>
      simp only [advance] at h
      split at h
      · split at h
        · cases h
          exact .plain rfl rfl (plain_proxied (.refl m) _)
        · cases h
          exact .plain rfl rfl
            (plain_of_event (.refl m) leads_done fun _ => trivial)
      · cases h
        exact .plain rfl rfl (plain_unavailable (.refl m))
  | authFailed g =>
      cases h
      refine .plain rfl rfl
        (plain_of_silent ⟨rfl, rfl, rfl, rfl, rfl, fun _ h => by cases h⟩ ?_)
      exact leads_of_picked rfl (Or.inr ⟨rfl, Or.inl fun _ h => h⟩) rfl rfl rfl
        rfl rfl rfl rfl
  | rotation =>
      cases h
      refine .plain rfl rfl (plain_of_silent (.refl m) ?_)
      exact leads_of_picked rfl (Or.inl ⟨rfl, rfl⟩) rfl rfl rfl rfl rfl rfl rfl
  | rotationList g =>
      simp only [advance] at h
      split at h
      · cases h
      · rename_i hnot
        split at h
        · cases h
          exact .plain rfl rfl (plain_endRotation _ _)
        · cases h
          refine .plain rfl rfl (plain_of_silent (.refl m) ?_)
          exact leads_of_picked rfl
            (Or.inr ⟨rfl, Or.inr ⟨fun _ h => h, hnot⟩⟩) rfl rfl rfl rfl rfl rfl rfl
  | rotationNext g list =>
      simp only [advance] at h
      split at h
      · rename_i url hnext
        cases h
        refine .plain rfl rfl (plain_of_silent (.refl m) ?_)
        refine leads_of_picked rfl (Or.inr ⟨rfl, Or.inl ?_⟩) rfl rfl rfl rfl rfl
          rfl rfl
        intro url' hurl'
        rw [List.mem_singleton.mp hurl']
        exact List.mem_of_getElem? hnext
      · cases h
        exact .plain rfl rfl (plain_endRotation _ _)
  | rotationCheck g =>
      simp only [advance] at h
      split at h
      · cases h
        exact plain_bare (.refl m) rfl rfl (by constructor <;> rfl)
          fun h => by cases h
      · cases h
        exact .plain rfl rfl (plain_endRotation _ _)
  | rotationProbe g url =>
      cases h
      exact .plain rfl rfl (plain_endRotation _ _)
  | leaving id who =>
      simp only [advance] at h
      split at h
      · rename_i hfree
        cases h
        exact plain_locked rfl rfl hfree (by constructor <;> rfl)
      · cases h
  | dropping id who =>
      simp only [advance] at h
      split at h
      · cases h
        exact plain_quit rfl rfl
      · cases h
        refine .plain rfl rfl (plain_of_event hsame ?_ fun _ => trivial)
        exact leads_of_bare (by constructor <;> rfl) fun _ => Or.inl rfl
  | forgetting id =>
      simp only [advance] at h
      split at h
      · rename_i hfree
        cases h
        exact plain_locked rfl rfl hfree (by constructor <;> rfl)
      · cases h
  | erasing id =>
      cases h
      exact plain_bare hsame rfl rfl (by constructor <;> rfl) fun _ => Or.inl rfl
  | unsharing id =>
      cases h
      exact .plain rfl rfl
        (plain_of_event (.refl m) leads_done fun _ => trivial)
  | counting id =>
      simp only [advance] at h
      split at h
      · cases h
        exact plain_quit rfl rfl
      · cases h
        refine .plain rfl rfl (plain_of_event hsame ?_ fun _ => trivial)
        split
        · exact leads_of_bare (by constructor <;> rfl) fun h => by cases h
        · exact leads_done
  | succeeding id =>
      simp only [advance] at h
      split at h
      · cases h
        exact plain_quit rfl rfl
      · cases h
        exact .plain rfl rfl (plain_of_event hsame leads_done fun _ => trivial)
  | syncing =>
      simp only [advance] at h
      split at h
      · rename_i hfree
        cases h
        exact plain_locked rfl rfl hfree (by constructor <;> rfl)
      · cases h
  | syncEntries =>
      cases h
      exact plain_listed rfl rfl rfl (fun url hurl => Or.inr hurl)
        ⟨rfl, rfl, rfl, rfl, rfl, rfl⟩
  | syncLocal entries =>
      simp only [advance] at h
      split at h
      · cases h
        exact plain_quit rfl rfl
      · cases h
        exact plain_listed rfl rfl rfl (fun url hurl => Or.inl hurl)
          ⟨rfl, rfl, rfl, rfl, rfl, rfl⟩
  | syncRead entries bindings =>
      cases h
      exact .plain rfl rfl
        (plain_sync (.refl m) _ (fun url hurl => Or.inl hurl) rfl)
  | reconciling entries bindings =>
      cases bindings with
      | nil =>
          cases h
          exact plain_quit rfl rfl
      | cons next rest =>
          have hrest : m.Plain cfg free writing
              (.reconciling entries (next :: rest)) (m.sync entries rest) :=
            plain_sync (.refl m) rest (fun url hurl => Or.inl hurl) rfl
          simp only [advance] at h
          split at h
          · cases h
            exact .plain rfl rfl hrest
          · cases h
            exact plain_listed rfl rfl rfl (fun url hurl => Or.inl hurl)
              ⟨rfl, rfl, rfl, rfl, rfl, rfl⟩
          · cases h
            exact plain_listed rfl rfl rfl (fun url hurl => Or.inl hurl)
              ⟨rfl, rfl, rfl, rfl, rfl, rfl⟩
          · rename_i target hadopt
            split at h
            · cases h
              refine plain_listed rfl rfl rfl ?_ ⟨rfl, rfl, rfl, rfl, rfl, rfl⟩
              intro url hurl
              rcases List.mem_cons.mp hurl with hfirst | hentry
              · rw [hfirst]
                exact Or.inl (reconcileBinding_adopt hadopt).left
              · exact Or.inl hentry
            · cases h
              exact .plain rfl rfl hrest
  | publishing id url entries rest =>
      cases h
      refine .plain rfl rfl (Plain.cons ?_ trivial)
      exact plain_sync (.refl m) rest (fun url' hurl => Or.inl hurl) rfl
  | offering id url entries rest =>
      cases h
      refine .plain rfl rfl (Plain.cons ?_ trivial)
      exact plain_sync (.refl m) rest (fun url' hurl => Or.inl hurl) rfl

end Advance

end ProxyManager

end HifiApi
