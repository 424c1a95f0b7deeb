import HifiApi.Proxies.Failures

/-!
# Back to a proxy that failed

A pass offers the account's own proxy when the fleet uses the one this instance
avoids.  An assignment takes the mark of the avoided proxy away, so a bound
account avoids none: the pass follows the fleet back whenever it reads the proxy
that the account has left.
-/

namespace HifiApi

namespace ProxyEvent

/-- What an event leaves of an account's flight: the proxy that
{lit}`rotate_account` took it off, and the one {lit}`working_client_for` has
bound it to instead. -/
def flight (id : String) (f : Option (String × Option String)) :
    ProxyEvent -> Option (String × Option String)
  | dropped id' route _ => if id' = id then some (route.url, none) else f
  | bound id' url how avoided =>
      if id' = id then
        match f with
        | some (left, none) =>
            if how = .request ∧ avoided = some left ∧ url ≠ left then
              some (left, some url)
            else none
        | _ => none
      else f
  | restored => none
  | _ => f

end ProxyEvent

/-- What a pass compares next: a binding with what Redis holds for it. -/
structure SharedRead where
  id : String
  url : String
  shared : Option String
  entries : List String

namespace ProxyTask

def compares : ProxyTask -> Option SharedRead
  | reconciling entries ((id, url, shared) :: _) => some ⟨id, url, shared, entries⟩
  | _ => none

def offers : ProxyTask -> Option (String × String)
  | offering id url _ _ => some (id, url)
  | _ => none

def binds : ProxyTask -> Option (String × String)
  | assigning id url _ _ => some (id, url)
  | _ => none

end ProxyTask

namespace ProxyWorld

variable (cfg : ProxyConfig)

/-- The proxy an account has left and the one it now works with. -/
def fled (s : ProxyWorld) (id : String) : Option (String × String) :=
  match s.log.foldl (ProxyEvent.flight id) none with
  | some (left, some url) =>
      if (s.manager.routes.route id).map AccountProxy.url = some url then
        some (left, url)
      else none
  | _ => none

/-- A pass does not bind an account to the proxy it has left; when the fleet
uses that proxy, the pass offers the account's own. -/
def NotFollowedBack (s : ProxyWorld) (a : ProxyAction) : Prop :=
  forall x, x ∈ s.sectionOf cfg a -> forall r, r ∈ (s.stands a).compares ->
    forall f, f ∈ s.fled r.id ->
      (f.1 ∈ r.entries -> r.shared = some (cfg.fingerprint f.1) ->
        x.task.offers = some (r.id, f.2)) ∧
      x.task.binds ≠ some (r.id, f.1)

instance (s : ProxyWorld) (a : ProxyAction) :
    Decidable (NotFollowedBack cfg s a) :=
  inferInstanceAs (Decidable (forall x, x ∈ s.sectionOf cfg a -> forall r,
    r ∈ (s.stands a).compares -> forall f, f ∈ s.fled r.id ->
      (f.1 ∈ r.entries -> r.shared = some (cfg.fingerprint f.1) ->
        x.task.offers = some (r.id, f.2)) ∧
      x.task.binds ≠ some (r.id, f.1)))

/-- No pass reads, for an account, an entry that the account has left. -/
def NotReadBack (s : ProxyWorld) (a : ProxyAction) : Prop :=
  forall r, r ∈ (s.stands a).compares -> forall f, f ∈ s.fled r.id ->
    f.1 ∈ r.entries -> r.shared ≠ some (cfg.fingerprint f.1)

end ProxyWorld

/-- An instance does not follow the fleet back onto a proxy that failed. -/
def NeverFollowedBack : Prop :=
  forall cfg enabled proxies actions,
    (proxySystem cfg).Along (ProxyWorld.NotFollowedBack cfg)
      (.start enabled proxies) actions

namespace AccountRoutes

/-- A bound account avoids no proxy. -/
def Unmarked (r : AccountRoutes) : Prop :=
  forall id route, r.route id = some route -> r.avoided id = none

variable {r : AccountRoutes}

theorem Unmarked.erase (h : r.Unmarked) {r' : AccountRoutes} {id : String}
    (hroute : forall id', r'.route id' = if id' = id then none else r.route id')
    (havoided : forall id', id' ≠ id -> r'.avoided id' = r.avoided id') :
    r'.Unmarked := by
  intro id' route hid'
  rw [hroute] at hid'
  split at hid'
  · cases hid'
  · rename_i hne
    rw [havoided id' hne]
    exact h id' route hid'

theorem Unmarked.assign (h : r.Unmarked) (id url : String) (verified : Bool) :
    (r.assign id url verified).Unmarked := by
  intro id' route hroute
  rw [route_assign] at hroute
  show Function.update r.avoided id none id' = none
  by_cases hid : id' = id
  · rw [hid, Function.update_self]
  · rw [if_neg hid] at hroute
    rw [Function.update_of_ne hid]
    exact h id' route hroute

theorem modify_avoided (r : AccountRoutes) (id : String)
    (f : AccountProxy -> AccountProxy) :
    (r.modify id f).avoided = r.avoided := by
  unfold modify
  split <;> rfl

theorem Unmarked.modify (h : r.Unmarked) (id : String)
    (f : AccountProxy -> AccountProxy) : (r.modify id f).Unmarked := by
  intro id' route hroute
  rw [modify_avoided]
  rw [route_modify] at hroute
  split at hroute
  · rename_i hid
    rcases Option.map_eq_some_iff.mp hroute with ⟨old, hold, _⟩
    rw [hid]
    exact h id old hold
  · exact h id' route hroute

theorem Unmarked.retain (h : r.Unmarked) (active : List String) :
    (r.retain active).Unmarked := by
  intro id route hroute
  rw [route_retain, Option.filter_eq_some_iff] at hroute
  show (r.avoided id).filter _ = none
  rw [h id route hroute.left]
  rfl

end AccountRoutes

namespace ProxyManager

theorem sync_offers (m : ProxyManager) (entries : List String)
    (rest : List (String × String × Option String)) :
    (m.sync entries rest).task.offers = none := by
  cases rest <;> rfl

theorem sync_binds (m : ProxyManager) (entries : List String)
    (rest : List (String × String × Option String)) :
    (m.sync entries rest).task.binds = none := by
  cases rest <;> rfl

end ProxyManager

namespace ProxyWorld

open AccountRoutes (Unmarked)

section Steps

variable {cfg} {s s' : ProxyWorld} {a : ProxyAction} {x : Section}

theorem unmarked_section (hs : s.manager.routes.Unmarked)
    (hx : s.sectionOf cfg a = some x) : x.manager.routes.Unmarked := by
  cases routesStep_of_section hx with
  | quiet h =>
      rw [h.routes]
      exact hs
  | locked _ =>
      exact hs
  | assigned _ =>
      exact hs.assign _ _ _
  | unbound _ h =>
      rw [h.routes]
      exact hs.erase (AccountRoutes.route_unbind _ _) fun _ _ => rfl
  | refused _ h =>
      rw [h.routes]
      exact hs.erase (fun id' => AccountRoutes.route_refuse _ _ id' _)
        fun _ hne => Function.update_of_ne hne _ _
  | verified _ h =>
      rw [h.routes]
      exact hs.modify _ _
  | failed _ h =>
      rw [h.routes]
      exact hs
  | retained _ h =>
      rw [h.routes]
      exact hs.retain _
  | loaded _ _ =>
      exact fun _ _ _ => rfl
  | dropped _ _ =>
      exact hs.erase (fun id' => AccountRoutes.route_rotate _ _ id' _)
        fun _ hne => Function.update_of_ne hne _ _
  | forgotten _ h =>
      rw [h.routes]
      exact hs.erase (AccountRoutes.route_forget _ _)
        fun _ hne => Function.update_of_ne hne _ _
  | counted _ _ =>
      exact hs.modify _ _
  | succeeded _ _ =>
      exact hs.modify _ _

/-- The account that has fled is bound. -/
theorem bound_of_fled {id : String} {f : String × String}
    (h : f ∈ s.fled id) :
    exists route, s.manager.routes.route id = some route := by
  have hsome : s.fled id = some f := h
  unfold fled at hsome
  split at hsome
  · split at hsome
    · rename_i hurl
      rcases Option.map_eq_some_iff.mp hurl with ⟨route, hroute, _⟩
      exact ⟨route, hroute⟩
    · cases hsome
  · cases hsome

/-- The pass stands at the comparison of a binding. -/
theorem compares_eq_some {r : SharedRead} (h : r ∈ (s.stands a).compares) :
    exists i o rest, a = .go i o ∧
      s.tasks[i]? =
        some (.reconciling r.entries ((r.id, r.url, r.shared) :: rest)) := by
  cases a with
  | call c now =>
      cases h
  | go i o =>
      rw [stands] at h
      cases hi : s.tasks[i]? with
      | none =>
          rw [hi] at h
          cases h
      | some t =>
          rw [hi, Option.getD_some] at h
          cases t with
          | reconciling entries rest =>
              cases rest with
              | nil =>
                  cases h
              | cons next rest =>
                  cases h
                  exact ⟨i, o, rest, rfl, hi⟩
          | _ =>
              cases h

theorem notFollowedBack_iff (hs : s.manager.routes.Unmarked) :
    s.NotFollowedBack cfg a <-> s.NotReadBack cfg a := by
  constructor
  · intro h r hr f hf hentry hshared
    rcases compares_eq_some hr with ⟨i, o, rest, rfl, hi⟩
    rcases bound_of_fled hf with ⟨route, hroute⟩
    have hx : exists x, s.sectionOf cfg (.go i o) = some x ∧
        x.task.offers = none := by
      rw [sectionOf, hi]
      simp only [ProxyManager.advance, hs r.id route hroute]
      split
      · exact ⟨_, rfl, ProxyManager.sync_offers _ _ _⟩
      · exact ⟨_, rfl, rfl⟩
      · rename_i hoffer
        exact absurd hoffer ProxyManager.reconcileBinding_ne_offer
      · split
        · exact ⟨_, rfl, rfl⟩
        · exact ⟨_, rfl, ProxyManager.sync_offers _ _ _⟩
    rcases hx with ⟨x, hx, hnone⟩
    have hoffers := (h x hx r hr f hf).left hentry hshared
    rw [hnone] at hoffers
    cases hoffers
  · intro h x hx r hr f hf
    constructor
    · intro hentry hshared
      exact absurd hshared (h r hr f hf hentry)
    · intro hbinds
      rcases compares_eq_some hr with ⟨i, o, rest, rfl, hi⟩
      have hsection : s.sectionOf cfg (.go i o) = some x := hx
      rw [sectionOf, hi] at hsection
      simp only [ProxyManager.advance] at hsection
      split at hsection
      · cases hsection
        rw [ProxyManager.sync_binds] at hbinds
        cases hbinds
      · cases hsection
        cases hbinds
      · cases hsection
        cases hbinds
      · rename_i target hadopt
        rcases ProxyManager.reconcileBinding_adopt hadopt with ⟨hentry, hshared⟩
        split at hsection
        · cases hsection
          cases hbinds
          exact h r hr f hf hentry hshared
        · cases hsection
          rw [ProxyManager.sync_binds] at hbinds
          cases hbinds

end Steps

end ProxyWorld

open ProxyWorld

/-- An instance follows the fleet back exactly in the runs where a pass reads,
for an account, an entry that the account has left. -/
theorem neverFollowedBack_iff (cfg : ProxyConfig) (enabled : Bool)
    (proxies : List String) (actions : List ProxyAction) :
    (proxySystem cfg).Along (NotFollowedBack cfg) (.start enabled proxies)
        actions <->
      (proxySystem cfg).Along (NotReadBack cfg) (.start enabled proxies)
        actions := by
  refine System.along_iff_of_invariant
    (I := fun s => s.manager.routes.Unmarked) ?_ ?_ ?_
  · intro s a s' hs _ h
    rcases step_eq_some h with ⟨x, hx, heq⟩
    rw [heq]
    exact unmarked_section hs hx
  · intro s a hs
    exact notFollowedBack_iff hs
  · intro id route hroute
    cases hroute

/-- The proxy Redis still holds for the account, as the pass reads it. -/
def fleetUses (fingerprint : String) : Outside :=
  { accepted with shared := fun _ => some fingerprint }

/-- The account leaves its proxy for the other one; the fleet still uses the
first. -/
theorem not_neverFollowedBack : ¬ NeverFollowedBack := by
  intro h
  have hrun := h twoProxies true ["p", "q"]
    (threeFailures ++ [ProxyAction.go 3 accepted] ++ getsProxy 4 ++
      ProxyAction.call .syncSharedAssignments 100 ::
        List.replicate 5 (.go 5 (fleetUses "p")))
  revert hrun
  decide

end HifiApi
