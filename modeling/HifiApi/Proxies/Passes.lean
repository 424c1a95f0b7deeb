import HifiApi.Proxies.Moves

/-!
# A pass over the shared bindings

A pass reads what Redis holds for the accounts of its instance, publishes a
binding where there is nothing, and follows the fleet where there is another
one.  What it carries stays true to its end: nobody else changes the bindings of
the instance meanwhile, and Redis only gains.
-/

namespace HifiApi

open ProxyManager

/-- What an event does to the fingerprints in Redis. -/
def ProxyEvent.onShared (shared : String -> Option String) :
    ProxyEvent -> String -> Option String
  | published id fp =>
      -- `SET NX`
      Function.update shared id ((shared id).or (some fp))
  | .shared id fp => Function.update shared id (some fp)
  | unshared id => Function.update shared id none
  | _ => shared

/-- Proxies are enabled with these entries, every binding is one of them, and
nothing is avoided. -/
structure ProxyManager.Follows (cfg : ProxyConfig) (entries : List String)
    (m : ProxyManager) : Prop where
  enabled : m.enabled = true
  proxies : m.proxies = entries
  avoided : forall id, m.routes.avoided id = none
  bindings : forall id route, m.routes.route id = some route ->
    route.url ∈ entries ∧ cfg.builds route.url = true

/-!
## What a pass knows
-/

namespace ProxyTask

/-- The tasks of passes. -/
def Syncs (entries : List String) : ProxyTask -> Prop
  | done | syncing | syncEntries => True
  | syncLocal e | syncRead e _ | reconciling e _ | publishing _ _ e _
  | assigning _ _ false (.sync e _) | sharing _ _ (.sync e _) => e = entries
  | _ => False

/-- What a pass has read and not yet settled. -/
def rest : ProxyTask -> List (String × String × Option String)
  | reconciling _ rest | publishing _ _ _ rest
  | assigning _ _ _ (.sync _ rest) | sharing _ _ (.sync _ rest) => rest
  | _ => []

/-- The bindings that a pass has not yet settled. -/
def unsettled : ProxyTask -> List (String × String)
  | syncRead _ bindings => bindings
  | publishing id url _ rest => (id, url) :: rest.map fun b => (b.1, b.2.1)
  | t => t.rest.map fun b => (b.1, b.2.1)

/-- A pass that has not yet looked its bindings up. -/
def early : ProxyTask -> Bool
  | syncing | syncEntries | syncLocal _ => true
  | _ => false

/-- The binding that a pass is about to make. -/
def adopts : ProxyTask -> Option (String × String)
  | assigning id url _ (.sync _ _) => some (id, url)
  | _ => none

/-- The binding that a pass is about to tell Redis. -/
def tells : ProxyTask -> Option (String × String)
  | sharing id url (.sync _ _) => some (id, url)
  | _ => none

end ProxyTask

namespace ProxyManager

/-- What a pass carries is so: its unsettled bindings are the current ones, and
what it has read from Redis is still there. -/
structure InPass (cfg : ProxyConfig) (entries : List String)
    (shared : String -> Option String) (m : ProxyManager) (t : ProxyTask) :
    Prop where
  syncs : t.Syncs entries
  nodup : (t.unsettled.map Prod.fst).Nodup
  current : forall id url, (id, url) ∈ t.unsettled ->
    (m.routes.route id).map AccountProxy.url = some url
  heard : forall id url fp, (id, url, some fp) ∈ t.rest -> shared id = some fp
  adopts : forall id url, t.adopts = some (id, url) ->
    shared id = some (cfg.fingerprint url) ∧ url ∈ entries ∧
      cfg.builds url = true ∧ id ∉ t.unsettled.map Prod.fst ∧
      (m.routes.route id).map AccountProxy.url ≠ some url
  tells : forall id url, t.tells = some (id, url) ->
    shared id = some (cfg.fingerprint url)

/-- What a section of a pass does. -/
inductive PassStep (cfg : ProxyConfig) (entries : List String)
    (shared : String -> Option String) (m : ProxyManager) (t : ProxyTask) :
    Section -> Prop
  | silent {u : ProxyTask} (hu : InPass cfg entries shared m u) :
      PassStep cfg entries shared m t ⟨m, u, []⟩
  | adopted {id url : String} {rest : List (String × String × Option String)}
      (ht : t = .assigning id url false (.sync entries rest)) :
      PassStep cfg entries shared m t
        ⟨{ m with routes := m.routes.assign id url false },
          .sharing id url (.sync entries rest),
          [.bound id url .fleet (m.routes.avoided id)]⟩
  | told {id url : String} {rest : List (String × String × Option String)}
      (ht : t = .sharing id url (.sync entries rest)) :
      PassStep cfg entries shared m t
        ⟨m, (m.sync entries rest).task, [.shared id (cfg.fingerprint url)]⟩
  | published {id url : String}
      {rest : List (String × String × Option String)}
      (ht : t = .publishing id url entries rest) :
      PassStep cfg entries shared m t
        ⟨m, (m.sync entries rest).task, [.published id (cfg.fingerprint url)]⟩

section Pass

variable {cfg : ProxyConfig} {entries : List String}
  {shared shared' : String -> Option String} {m m' : ProxyManager}
  {free writing : Bool} {o : Outside} {t u : ProxyTask} {x : Section}

theorem inPass_done (cfg : ProxyConfig) (entries : List String)
    (shared : String -> Option String) (m : ProxyManager) :
    InPass cfg entries shared m .done where
  syncs := trivial
  nodup := List.nodup_nil
  current := by
    intro id url h
    cases h
  heard := by
    intro id url fp h
    cases h
  adopts := by
    intro id url h
    cases h
  tells := by
    intro id url h
    cases h

/-- A pass without the lock of the switches carries nothing. -/
theorem InPass.of_not_holds (h : InPass cfg entries shared m t)
    (ht : t.holds = false) : InPass cfg entries shared' m' t := by
  cases t with
  | done =>
      exact inPass_done cfg entries shared' m'
  | syncing =>
      have hdone := inPass_done cfg entries shared' m'
      exact ⟨trivial, hdone.nodup, hdone.current, hdone.heard, hdone.adopts,
        hdone.tells⟩
  | syncEntries | syncLocal _ | syncRead _ _ | reconciling _ _
  | publishing _ _ _ _ | assigning _ _ _ _ | sharing _ _ _ =>
      cases ht
  | _ =>
      exact h.syncs.elim

/-- What was read from Redis stays true while Redis only gains. -/
theorem InPass.of_gains (h : InPass cfg entries shared m t)
    (hgains : forall id fp, shared id = some fp -> shared' id = some fp) :
    InPass cfg entries shared' m t where
  syncs := h.syncs
  nodup := h.nodup
  current := h.current
  heard := fun id url fp hmem => hgains id fp (h.heard id url fp hmem)
  adopts := by
    intro id url hid
    rcases h.adopts id url hid with ⟨hshared, hrest⟩
    exact ⟨hgains id _ hshared, hrest⟩
  tells := fun id url hid => hgains id _ (h.tells id url hid)

/-- A pass that goes on to its next account. -/
theorem inPass_sync {rest : List (String × String × Option String)}
    (hnodup : ((rest.map fun b => (b.1, b.2.1)).map Prod.fst).Nodup)
    (hcurrent : forall id url, (id, url) ∈ rest.map (fun b => (b.1, b.2.1)) ->
      (m.routes.route id).map AccountProxy.url = some url)
    (hheard : forall id url fp, (id, url, some fp) ∈ rest ->
      shared id = some fp) :
    InPass cfg entries shared m (m.sync entries rest).task := by
  cases rest with
  | nil =>
      exact inPass_done cfg entries shared m
  | cons next rest =>
      constructor
      · rfl
      · exact hnodup
      · exact hcurrent
      · exact hheard
      · intro id url h
        cases h
      · intro id url h
        cases h

theorem sync_manager (m : ProxyManager) (entries : List String)
    (rest : List (String × String × Option String)) :
    m.sync entries rest = ⟨m, (m.sync entries rest).task, []⟩ := by
  cases rest with
  | nil => rfl
  | cons next rest => rfl

/-- The bindings that a pass looks up are the current ones, each of them
once. -/
theorem inPass_syncRead (m : ProxyManager) :
    InPass cfg entries shared m
      (.syncRead entries
        (m.routes.assignments.entries.map fun e => (e.1, e.2.url))) := by
  constructor
  · rfl
  · show ((m.routes.assignments.entries.map fun e => (e.1, e.2.url)).map
      Prod.fst).Nodup
    rw [List.map_map]
    exact m.routes.assignments.nodupKeys
  · intro id' url' h
    rcases List.mem_map.mp h with ⟨⟨id, route⟩, hmem, heq⟩
    cases heq
    have hroute : m.routes.route id = some route :=
      AList.mem_lookup_iff.mpr hmem
    rw [hroute]
    rfl
  · intro id url fp h
    cases h
  · intro id url h
    cases h
  · intro id url h
    cases h

/-- What a pass reads from Redis is there. -/
theorem inPass_reconciling {bindings : List (String × String)}
    (h : InPass cfg entries shared m (.syncRead entries bindings)) :
    InPass cfg entries shared m
      (m.sync entries (bindings.map fun b => (b.1, b.2, shared b.1))).task := by
  have hmap : (bindings.map fun b => (b.1, b.2, shared b.1)).map
      (fun b => (b.1, b.2.1)) = bindings := by
    rw [List.map_map]
    exact List.map_id _
  apply inPass_sync
  · rw [hmap]
    exact h.nodup
  · rw [hmap]
    exact h.current
  · intro id url fp hmem
    rcases List.mem_map.mp hmem with ⟨b, _, heq⟩
    simp only [Prod.mk.injEq] at heq
    rw [← heq.left]
    exact heq.right.right

theorem passStep_of_advance (hm : m.Follows cfg entries)
    (h : InPass cfg entries shared m t)
    (hx : m.advance cfg free writing { o with shared := shared } t = some x) :
    PassStep cfg entries shared m t x := by
  have hsilent : forall {u : ProxyTask}, u.Syncs entries -> u.unsettled = [] ->
      u.rest = [] -> u.adopts = none -> u.tells = none ->
      InPass cfg entries shared m u := by
    intro u hsyncs hunsettled hrest hadopts htells
    constructor
    · exact hsyncs
    · rw [hunsettled]
      exact List.nodup_nil
    · intro id url hmem
      rw [hunsettled] at hmem
      cases hmem
    · intro id url fp hmem
      rw [hrest] at hmem
      cases hmem
    · intro id url hsome
      rw [hadopts] at hsome
      cases hsome
    · intro id url hsome
      rw [htells] at hsome
      cases hsome
  have hsyncs := h.syncs
  cases t with
  | done =>
      cases hx
  | syncing =>
      simp only [advance] at hx
      split at hx
      · cases hx
        exact .silent (hsilent trivial rfl rfl rfl rfl)
      · cases hx
  | syncEntries =>
      cases hx
      exact .silent (hsilent hm.proxies rfl rfl rfl rfl)
  | syncLocal e =>
      cases hsyncs
      simp only [advance] at hx
      split at hx
      · cases hx
        exact .silent (inPass_done cfg entries shared m)
      · cases hx
        exact .silent (inPass_syncRead m)
  | syncRead e bindings =>
      cases hsyncs
      cases hx
      rw [sync_manager]
      exact .silent (inPass_reconciling h)
  | reconciling e rest =>
      cases hsyncs
      cases rest with
      | nil =>
          cases hx
          exact .silent (inPass_done cfg entries shared m)
      | cons next rest =>
          rcases next with ⟨id, url, held⟩
          have hnodup := h.nodup
          have hrest : InPass cfg entries shared m (m.sync entries rest).task :=
            inPass_sync (List.nodup_cons.mp hnodup).right
              (fun id url hmem => h.current id url (List.mem_cons_of_mem _ hmem))
              (fun id url fp hmem =>
                h.heard id url fp (List.mem_cons_of_mem _ hmem))
          simp only [advance] at hx
          split at hx
          · cases hx
            rw [sync_manager]
            exact .silent hrest
          · cases hx
            refine .silent ⟨rfl, hnodup, h.current, ?_, ?_, ?_⟩
            · intro id' url' fp hmem
              exact h.heard id' url' fp (List.mem_cons_of_mem _ hmem)
            · intro id' url' hsome
              cases hsome
            · intro id' url' hsome
              cases hsome
          · rename_i hoffer
            rw [hm.avoided] at hoffer
            exact absurd hoffer reconcileBinding_ne_offer
          · rename_i target hadopt
            split at hx
            · rename_i hbuilds
              cases hx
              rcases reconcileBinding_adopt hadopt with ⟨htarget, hheld⟩
              refine .silent ⟨rfl, (List.nodup_cons.mp hnodup).right, ?_, ?_, ?_,
                ?_⟩
              · exact fun id' url' hmem =>
                  h.current id' url' (List.mem_cons_of_mem _ hmem)
              · exact fun id' url' fp hmem =>
                  h.heard id' url' fp (List.mem_cons_of_mem _ hmem)
              · intro id' url' hsome
                cases hsome
                refine ⟨?_, htarget, hbuilds, (List.nodup_cons.mp hnodup).left,
                  ?_⟩
                · apply h.heard id url
                  rw [hheld]
                  exact List.mem_cons_self
                · rw [h.current id url List.mem_cons_self]
                  intro heq
                  cases heq
                  exact reconcileBinding_adopt_ne hadopt rfl
              · intro id' url' hsome
                cases hsome
            · cases hx
              rw [sync_manager]
              exact .silent hrest
  | publishing id url e rest =>
      cases hsyncs
      simp only [advance] at hx
      cases hx
      rw [sync_manager]
      exact .published rfl
  | assigning id url verified after =>
      cases after with
      | sync e rest =>
          cases verified with
          | false =>
              cases hsyncs
              cases hx
              exact .adopted rfl
          | true =>
              exact hsyncs.elim
      | answer user | balance loads targets =>
          cases verified <;> exact hsyncs.elim
  | sharing id url after =>
      cases after with
      | sync e rest =>
          cases hsyncs
          simp only [advance, resume] at hx
          cases hx
          rw [sync_manager]
          exact .told rfl
      | answer user | balance loads targets =>
          exact hsyncs.elim
  | _ =>
      exact hsyncs.elim

/-- Only a pass that finds the lock free takes it. -/
theorem holds_of_pass (h : t.Syncs entries)
    (hx : m.advance cfg free writing o t = some x) :
    x.task.holds = true -> t.holds = true ∨ free = true := by
  intro _
  cases t with
  | done =>
      cases hx
  | syncing =>
      simp only [advance] at hx
      split at hx
      · rename_i hfree
        exact Or.inr hfree
      · cases hx
  | syncEntries | syncLocal _ | syncRead _ _ | reconciling _ _
  | publishing _ _ _ _ | assigning _ _ _ _ | sharing _ _ _ =>
      exact Or.inl rfl
  | _ =>
      exact h.elim

/-- Redis only gains: what is written over an earlier value is that value. -/
theorem PassStep.gains (hx : PassStep cfg entries shared m t x)
    (h : InPass cfg entries shared m t) {id fp : String}
    (hshared : shared id = some fp) :
    x.events.foldl ProxyEvent.onShared shared id = some fp := by
  cases hx with
  | silent _ | adopted _ =>
      exact hshared
  | told ht =>
      rename_i id' url rest
      have htold : shared id' = some (cfg.fingerprint url) :=
        h.tells id' url (by rw [ht]; rfl)
      show Function.update shared id' (some (cfg.fingerprint url)) id = some fp
      rw [← htold, Function.update_eq_self]
      exact hshared
  | published ht =>
      rename_i id' url rest
      show Function.update shared id' _ id = some fp
      by_cases heq : id = id'
      · rw [← heq, Function.update_self, hshared]
        rfl
      · rw [Function.update_of_ne heq]
        exact hshared

theorem PassStep.follows (hx : PassStep cfg entries shared m t x)
    (hm : m.Follows cfg entries) (h : InPass cfg entries shared m t) :
    x.manager.Follows cfg entries := by
  cases hx with
  | silent _ | told _ | published _ =>
      exact hm
  | adopted ht =>
      rename_i id url rest
      rcases h.adopts id url (by rw [ht]; rfl) with ⟨_, hurl, hbuilds, _⟩
      constructor
      · exact hm.enabled
      · exact hm.proxies
      · intro id'
        show Function.update m.routes.avoided id none id' = none
        by_cases heq : id' = id
        · rw [heq, Function.update_self]
        · rw [Function.update_of_ne heq]
          exact hm.avoided id'
      · intro id' route hroute
        rw [AccountRoutes.route_assign] at hroute
        split at hroute
        · cases hroute
          exact ⟨hurl, hbuilds⟩
        · exact hm.bindings id' route hroute

theorem PassStep.inPass (hx : PassStep cfg entries shared m t x)
    (h : InPass cfg entries shared m t) :
    InPass cfg entries (x.events.foldl ProxyEvent.onShared shared) x.manager
      x.task := by
  have hgains : forall id fp, shared id = some fp ->
      x.events.foldl ProxyEvent.onShared shared id = some fp :=
    fun _ _ hshared => hx.gains h hshared
  cases hx with
  | silent hu =>
      exact hu
  | adopted ht =>
      rename_i id url rest
      rw [ht] at h
      rcases h.adopts id url rfl with ⟨hshared, _, _, hother, _⟩
      constructor
      · rfl
      · exact h.nodup
      · intro id' url' hmem
        rw [AccountRoutes.route_assign, if_neg]
        · exact h.current id' url' hmem
        · intro heq
          rw [← heq] at hother
          exact hother (List.mem_map_of_mem hmem)
      · exact h.heard
      · intro id' url' hsome
        cases hsome
      · intro id' url' hsome
        cases hsome
        exact hshared
  | told ht =>
      rw [ht] at h
      exact (inPass_sync h.nodup h.current h.heard).of_gains hgains
  | published ht =>
      rw [ht] at h
      refine (inPass_sync (List.nodup_cons.mp h.nodup).right ?_
        h.heard).of_gains hgains
      exact fun id' url' hmem =>
        h.current id' url' (List.mem_cons_of_mem _ hmem)

/-- A binding to the proxy that Redis holds is not touched. -/
theorem PassStep.route_eq (hx : PassStep cfg entries shared m t x)
    (h : InPass cfg entries shared m t)
    (hinj : forall p, p ∈ entries -> forall q, q ∈ entries ->
      cfg.fingerprint p = cfg.fingerprint q -> p = q)
    {id p : String} (hp : p ∈ entries)
    (hshared : shared id = some (cfg.fingerprint p))
    (hbound : (m.routes.route id).map AccountProxy.url = some p) :
    x.manager.routes.route id = m.routes.route id := by
  cases hx with
  | silent _ | told _ | published _ =>
      rfl
  | adopted ht =>
      rename_i id' url rest
      rcases h.adopts id' url (by rw [ht]; rfl) with
        ⟨hshared', hurl, _, _, hother⟩
      rw [AccountRoutes.route_assign, if_neg]
      intro heq
      rw [← heq, hshared] at hshared'
      have hurlEq := hinj p hp url hurl (Option.some.inj hshared')
      rw [← heq, ← hurlEq] at hother
      exact hother hbound

/-- No pass takes a binding away. -/
theorem PassStep.route_ne_none (hx : PassStep cfg entries shared m t x)
    {id : String} (hid : m.routes.route id ≠ none) :
    x.manager.routes.route id ≠ none := by
  cases hx with
  | silent _ | told _ | published _ =>
      exact hid
  | adopted ht =>
      rw [AccountRoutes.route_assign]
      split
      · exact Option.some_ne_none _
      · exact hid

/-!
## On the way to the published proxy
-/

/-- A pass will leave the account at the proxy: it has not yet read Redis, or
has found the proxy there, or has bound the account to it. -/
inductive Reaches (cfg : ProxyConfig) (id p : String) (m : ProxyManager)
    (t : ProxyTask) : Prop
  | early (h : t.early = true)
  | reads {e : List String} {bindings : List (String × String)} {url : String}
      (ht : t = .syncRead e bindings) (h : (id, url) ∈ bindings)
  | hears {url : String} (h : (id, url, some (cfg.fingerprint p)) ∈ t.rest)
  | adopts (h : t.adopts = some (id, p))
  | bound (h : (m.routes.route id).map AccountProxy.url = some p)

section Reaches

variable {id p : String}

theorem Reaches.of_bound (h : Reaches cfg id p m t)
    (hbound : (m.routes.route id).map AccountProxy.url = some p ->
      (m'.routes.route id).map AccountProxy.url = some p) :
    Reaches cfg id p m' t := by
  cases h with
  | early h => exact .early h
  | reads ht h => exact .reads ht h
  | hears h => exact .hears h
  | adopts h => exact .adopts h
  | bound h => exact .bound (hbound h)

theorem reaches_sync {url : String}
    {rest : List (String × String × Option String)}
    (h : (id, url, some (cfg.fingerprint p)) ∈ rest) :
    Reaches cfg id p m (m.sync entries rest).task := by
  cases rest with
  | nil =>
      cases h
  | cons next rest =>
      exact .hears h

theorem reaches_done (h : Reaches cfg id p m .done) :
    (m.routes.route id).map AccountProxy.url = some p := by
  cases h with
  | early h => cases h
  | reads ht h => cases ht
  | hears h => cases h
  | adopts h => cases h
  | bound h => exact h

/-- The bindings of a pass are those of the instance. -/
theorem mem_bindings {route : AccountProxy}
    (h : m.routes.route id = some route) :
    (id, route.url) ∈
      m.routes.assignments.entries.map fun e => (e.1, e.2.url) :=
  List.mem_map.mpr ⟨⟨id, route⟩, AList.mem_lookup_iff.mp h, rfl⟩

/-- A pass that has read the published proxy for the account follows it. -/
theorem reaches_reconciling {url : String}
    {rest : List (String × String × Option String)}
    (hm : m.Follows cfg entries)
    (h : InPass cfg entries shared m (.reconciling entries rest))
    (hinj : forall p, p ∈ entries -> forall q, q ∈ entries ->
      cfg.fingerprint p = cfg.fingerprint q -> p = q)
    (hp : p ∈ entries) (hbuilds : cfg.builds p = true)
    (hmem : (id, url, some (cfg.fingerprint p)) ∈ rest)
    (hx : m.advance cfg free writing o (.reconciling entries rest) = some x) :
    Reaches cfg id p x.manager x.task := by
  cases rest with
  | nil =>
      cases hmem
  | cons next rest =>
      rcases next with ⟨id', url', held⟩
      rcases List.mem_cons.mp hmem with hfirst | hlater
      · cases hfirst
        have hcurrent := h.current id url List.mem_cons_self
        rcases Option.map_eq_some_iff.mp hcurrent with ⟨route, hroute, hurl⟩
        have hlisted := (hm.bindings id route hroute).left
        rw [hurl] at hlisted
        have hreconcile := reconcileBinding_some hinj hlisted hp
        simp only [advance, hm.avoided, hreconcile] at hx
        by_cases heq : p = url
        · simp only [if_pos heq] at hx
          cases hx
          apply Reaches.bound
          rw [sync_manager, heq]
          exact hcurrent
        · simp only [if_neg heq, if_pos hbuilds] at hx
          cases hx
          exact .adopts rfl
      · simp only [advance] at hx
        split at hx
        · cases hx
          rw [sync_manager]
          exact reaches_sync hlater
        · cases hx
          exact .hears hlater
        · rename_i hoffer
          rw [hm.avoided] at hoffer
          exact absurd hoffer reconcileBinding_ne_offer
        · split at hx
          · cases hx
            exact .hears hlater
          · cases hx
            rw [sync_manager]
            exact reaches_sync hlater

theorem reaches_of_advance (hm : m.Follows cfg entries)
    (h : InPass cfg entries shared m t)
    (hinj : forall p, p ∈ entries -> forall q, q ∈ entries ->
      cfg.fingerprint p = cfg.fingerprint q -> p = q)
    (hp : p ∈ entries) (hbuilds : cfg.builds p = true)
    (hshared : shared id = some (cfg.fingerprint p))
    (hid : m.routes.route id ≠ none) (hr : Reaches cfg id p m t)
    (hx : m.advance cfg free writing { o with shared := shared } t = some x) :
    Reaches cfg id p x.manager x.task := by
  have hsyncs := h.syncs
  cases hr with
  | early hearly =>
      cases t with
      | syncing =>
          simp only [advance] at hx
          split at hx
          · cases hx
            exact .early rfl
          · cases hx
      | syncEntries =>
          cases hx
          exact .early rfl
      | syncLocal e =>
          rcases Option.ne_none_iff_exists'.mp hid with ⟨route, hroute⟩
          have hmem := mem_bindings hroute
          simp only [advance] at hx
          split at hx
          · rename_i hnil
            rw [hnil] at hmem
            cases hmem
          · cases hx
            exact .reads rfl hmem
      | _ =>
          cases hearly
  | reads ht hmem =>
      rename_i e bindings url
      cases ht
      cases hx
      have hheard : (id, url, some (cfg.fingerprint p)) ∈
          bindings.map fun b => (b.1, b.2, shared b.1) := by
        rw [← hshared]
        exact List.mem_map_of_mem hmem
      rw [sync_manager]
      exact reaches_sync hheard
  | hears hmem =>
      cases t with
      | reconciling e rest =>
          cases hsyncs
          exact reaches_reconciling hm h hinj hp hbuilds hmem hx
      | publishing id' url' e rest =>
          simp only [advance] at hx
          cases hx
          rw [sync_manager]
          exact reaches_sync hmem
      | assigning id' url' verified after =>
          cases after with
          | sync e rest =>
              cases hx
              exact .hears hmem
          | _ =>
              cases hmem
      | sharing id' url' after =>
          cases after with
          | sync e rest =>
              simp only [advance, resume] at hx
              cases hx
              rw [sync_manager]
              exact reaches_sync hmem
          | _ =>
              cases hmem
      | _ =>
          cases hmem
  | adopts hadopts =>
      cases t with
      | assigning id' url' verified after =>
          cases after with
          | sync e rest =>
              cases hadopts
              cases hx
              apply Reaches.bound
              rw [AccountRoutes.route_assign, if_pos rfl]
              rfl
          | _ =>
              cases hadopts
      | _ =>
          cases hadopts
  | bound hbound =>
      apply Reaches.bound
      rw [(passStep_of_advance hm h hx).route_eq h hinj hp hshared hbound]
      exact hbound

end Reaches

end Pass

end ProxyManager

end HifiApi
