import HifiApi.Accounts.State
import HifiApi.Base.AppError
import Mathlib.Data.List.AList
import Mathlib.Data.List.Sort
import Mathlib.Data.String.Basic

/-!
# Accounts and their proxies

The bindings of accounts to proxies, what is decided from them, and how they
change.  What the code asks of other libraries is a parameter: whether a client
can be built for a URL, the fingerprint of a URL, and the hash of an account.
-/

namespace HifiApi

/-- Where the requests of a client leave from. -/
inductive Egress where
  | direct
  | proxied (url : String)
  deriving DecidableEq

inductive ProxyHealth where
  | ok
  | blocked
  | dead
  deriving DecidableEq

structure ProxyConfig where
  fallbackToDirect : Bool
  /-- What is wrong with a URL. -/
  urlError : String -> Option String
  builds : String -> Bool
  fingerprint : String -> String
  hash : String -> Nat

/-- A binding; its client leaves through its URL. -/
structure AccountProxy where
  url : String
  failures : Nat
  verified : Bool
  deriving DecidableEq

def AccountProxy.client (r : AccountProxy) : Egress := .proxied r.url

abbrev Assignments := AList fun _ : String => AccountProxy

structure AccountRoutes where
  assignments : Assignments
  avoided : String -> Option String
  lastFailed : String -> Option Int

namespace ProxyManager

/-- {lit}`normalize_proxies`: trimmed, valid and each of them once. -/
def normalizeProxies (cfg : ProxyConfig) (proxies : List String)
    (enabled : Bool) : Except AppError (List String) := do
  let normalized ← proxies.foldlM (fun normalized raw =>
    let url := String.ofList (AccountState.trim raw.toList)
    if url = "" then .ok normalized
    else
      match cfg.urlError url with
      | some e => .error (.badRequest s!"Invalid proxy URL: {e}")
      | none =>
          .ok (if url ∈ normalized then normalized else normalized ++ [url])) []
  if enabled ∧ normalized = [] then
    .error (.badRequest
      "Добавьте хотя бы один адрес прокси перед включением")
  else .ok normalized

inductive SharedBinding where
  | publish
  | keep
  | adopt (target : String)
  | offer
  deriving DecidableEq

def reconcileBinding (cfg : ProxyConfig) (url : String)
    (shared : Option String) (entries : List String)
    (avoided : Option String) : SharedBinding :=
  match shared with
  | none => .publish
  | some fp =>
      if fp = cfg.fingerprint url then .keep
      else
        match entries.find? fun e => cfg.fingerprint e = fp with
        | none => .keep
        | some target =>
            if avoided = some target then .offer else .adopt target

section Reconcile

variable {cfg : ProxyConfig} {url : String} {shared avoided : Option String}
  {entries : List String}

theorem reconcileBinding_ne_offer :
    reconcileBinding cfg url shared entries none ≠ .offer := by
  unfold reconcileBinding
  intro h
  split at h
  · cases h
  · split at h
    · cases h
    · split at h
      · cases h
      · split at h
        · rename_i hnone
          cases hnone
        · cases h

theorem reconcileBinding_adopt {target : String}
    (h : reconcileBinding cfg url shared entries avoided = .adopt target) :
    target ∈ entries ∧ shared = some (cfg.fingerprint target) := by
  unfold reconcileBinding at h
  split at h
  · cases h
  · split at h
    · cases h
    · split at h
      · cases h
      · rename_i found hfind
        split at h
        · cases h
        · cases h
          have hfp := List.find?_some hfind
          rw [of_decide_eq_true hfp]
          exact ⟨List.mem_of_find?_eq_some hfind, rfl⟩

/-- Only another proxy is adopted. -/
theorem reconcileBinding_adopt_ne {target : String}
    (h : reconcileBinding cfg url shared entries avoided = .adopt target) :
    target ≠ url := by
  intro heq
  have hshared := (reconcileBinding_adopt h).right
  rw [heq] at hshared
  rw [hshared, reconcileBinding, if_pos rfl] at h
  cases h

/-- Where every instance has the shared proxy, a binding to another one is
given up for it. -/
theorem reconcileBinding_some {target : String}
    (hinj : forall p, p ∈ entries -> forall q, q ∈ entries ->
      cfg.fingerprint p = cfg.fingerprint q -> p = q)
    (hurl : url ∈ entries) (htarget : target ∈ entries) :
    reconcileBinding cfg url (some (cfg.fingerprint target)) entries none =
      if target = url then .keep else .adopt target := by
  simp only [reconcileBinding]
  by_cases heq : target = url
  · rw [if_pos heq, heq, if_pos rfl]
  · have hfp : cfg.fingerprint target ≠ cfg.fingerprint url :=
      fun h => heq (hinj target htarget url hurl h)
    rw [if_neg heq, if_neg hfp]
    cases hfind : entries.find? fun e =>
        decide (cfg.fingerprint e = cfg.fingerprint target) with
    | none =>
        have hnone := List.find?_eq_none.mp hfind target htarget
        simp at hnone
    | some found =>
        have hfp' := List.find?_some hfind
        have hfound : found = target :=
          hinj found (List.mem_of_find?_eq_some hfind) target htarget
            (of_decide_eq_true hfp')
        rw [hfound]
        simp

end Reconcile

/-- The proxy another instance has bound to the account, if it is an entry. -/
def sharedProxyFor (cfg : ProxyConfig) (shared : Option String)
    (entries : List String) : Option String :=
  shared.bind fun fp => entries.find? fun e => cfg.fingerprint e = fp

/-- The place of an entry in the choice for an account: an avoided one comes
last, then the bound accounts count, then the distance from the account's own
start. -/
def candidateRank (cfg : ProxyConfig) (id : String) (entries : List String)
    (assignments : Assignments) (avoid : Option String)
    (candidate : Nat × String) : Nat × Nat × Nat :=
  let offset := cfg.hash id
  (if some candidate.2 = avoid ∧ 1 < entries.length then 1 else 0,
    assignments.entries.countP fun e => e.2.url = candidate.2,
    (candidate.1 + entries.length - offset % entries.length) % entries.length)

def rankLe (a b : Nat × Nat × Nat) : Bool :=
  a.1 < b.1 || (a.1 == b.1 &&
    (a.2.1 < b.2.1 || (a.2.1 == b.2.1 && a.2.2 ≤ b.2.2)))

/-- {lit}`ordered_candidates`. -/
def orderedCandidates (cfg : ProxyConfig) (id : String)
    (entries : List String) (assignments : Assignments)
    (avoid : Option String) : List String :=
  let rank := candidateRank cfg id entries assignments avoid
  ((entries.zipIdx.map Prod.swap).insertionSort
    fun a b => rankLe (rank a) (rank b) = true).map Prod.snd

/-- The proxy of the fleet is tried first, unless it is the avoided one. -/
def sharedFirst (shared avoid : Option String) (candidates : List String) :
    List String :=
  match shared with
  | none => candidates
  | some url =>
      if avoid = some url then candidates
      else url :: candidates.filter fun c => c ≠ url

/-- The first tested proxy that is accepted and usable, and the refused one
that is left as a fallback. -/
def firstAccepted (cfg : ProxyConfig) :
    Option String -> List (String × ProxyHealth) ->
      Option String × Option String
  | fallback, [] => (none, fallback)
  | fallback, (url, .ok) :: rest =>
      if cfg.builds url then (some url, fallback)
      else firstAccepted cfg fallback rest
  | fallback, (url, .blocked) :: rest =>
      firstAccepted cfg (fallback.or (some url)) rest
  | fallback, (_, .dead) :: rest => firstAccepted cfg fallback rest

/-- {lit}`get_working_proxy`: the first accepted of the tested proxies, else
the first refused one. -/
def workingProxy (tested : List (String × ProxyHealth)) : Option String :=
  ((tested.find? fun t => t.2 = .ok).or
    (tested.find? fun t => t.2 = .blocked)).map Prod.fst

/-!
## Rebalancing
-/

abbrev Loads := AList fun _ : String => Nat

def Loads.count (loads : Loads) (url : String) : Nat :=
  (loads.lookup url).getD 0

def countLoads (assignments : Assignments) : Loads :=
  assignments.entries.foldl
    (fun loads e => loads.insert e.2.url (Loads.count loads e.2.url + 1)) ∅

/-- Of the proxies with two accounts or more the one with most of them. -/
def heaviest (loads : Loads) : Option String :=
  let heavier (best : Option (String × Nat)) (e : Sigma fun _ : String => Nat) :=
    match best with
    | none => if 1 < e.2 then some (e.1, e.2) else none
    | some b =>
        if 1 < e.2 ∧ (b.2 < e.2 ∨ (b.2 = e.2 ∧ b.1 < e.1)) then
          some (e.1, e.2)
        else some b
  (loads.entries.foldl heavier none).map Prod.fst

/-- The last of the accounts that are bound to a proxy. -/
def lastAccountOn (assignments : Assignments) (url : String) :
    Option String :=
  ((assignments.entries.filter fun e => e.2.url = url).map Sigma.fst).max?

def moveLoad (loads : Loads) (source target : String) : Loads :=
  (loads.insert source (Loads.count loads source - 1)).insert target 1

end ProxyManager

namespace AccountRoutes

variable {r : AccountRoutes} {id : String}

def route (r : AccountRoutes) (id : String) : Option AccountProxy :=
  r.assignments.lookup id

/-- The update of {lit}`assign`. -/
def assign (r : AccountRoutes) (id url : String) (verified : Bool) :
    AccountRoutes where
  assignments := r.assignments.insert id ⟨url, 0, verified⟩
  avoided := Function.update r.avoided id none
  lastFailed := Function.update r.lastFailed id none

/-- The binding is taken away, and nothing is noted. -/
def unbind (r : AccountRoutes) (id : String) : AccountRoutes :=
  { r with assignments := r.assignments.erase id }

/-- The update of {lit}`rotate_account`, when there is a binding. -/
def rotate (r : AccountRoutes) (id url : String) : AccountRoutes where
  assignments := r.assignments.erase id
  avoided := Function.update r.avoided id (some url)
  lastFailed := Function.update r.lastFailed id none

/-- The binding has failed its probe. -/
def refuse (r : AccountRoutes) (id url : String) : AccountRoutes :=
  { r with
    assignments := r.assignments.erase id
    avoided := Function.update r.avoided id (some url) }

def forget (r : AccountRoutes) (id : String) : AccountRoutes where
  assignments := r.assignments.erase id
  avoided := Function.update r.avoided id none
  lastFailed := Function.update r.lastFailed id none

/-- Change the binding of an account, if there is one. -/
def modify (r : AccountRoutes) (id : String)
    (f : AccountProxy -> AccountProxy) : AccountRoutes :=
  match r.route id with
  | none => r
  | some route => { r with assignments := r.assignments.insert id (f route) }

def noteSuccess (r : AccountRoutes) (id : String) : AccountRoutes :=
  r.modify id fun route => { route with failures := 0 }

def noteFailure (r : AccountRoutes) (id : String) : AccountRoutes :=
  r.modify id fun route => { route with failures := route.failures + 1 }

def verify (r : AccountRoutes) (id : String) : AccountRoutes :=
  r.modify id fun route => { route with verified := true }

def fail (r : AccountRoutes) (id : String) (now : Int) : AccountRoutes :=
  { r with lastFailed := Function.update r.lastFailed id (some now) }

/-- The bindings whose URL stays in the list. -/
def keepListed (assignments : Assignments) (active : List String) :
    Assignments where
  entries := assignments.entries.filter fun e => e.2.url ∈ active
  nodupKeys := assignments.nodupKeys.sublist List.filter_sublist

/-- The update of {lit}`configure`. -/
def retain (r : AccountRoutes) (active : List String) : AccountRoutes where
  assignments := keepListed r.assignments active
  avoided := fun id => (r.avoided id).filter fun url => url ∈ active
  lastFailed := fun _ => none

/-- The accounts that {lit}`configure` leaves without a proxy. -/
def removed (r : AccountRoutes) (active : List String) : List String :=
  (r.assignments.entries.filter fun e => e.2.url ∉ active).map Sigma.fst

/-- The update of {lit}`load_assignments`. -/
def load (cfg : ProxyConfig) (entries : List String)
    (rows : List (String × String)) : AccountRoutes where
  assignments :=
    (rows.filter fun row => row.2 ∈ entries ∧ cfg.builds row.2 = true).foldl
      (fun assignments row => assignments.insert row.1 ⟨row.2, 0, false⟩) ∅
  avoided := fun _ => none
  lastFailed := fun _ => none

/-!
## The binding of an account
-/

@[simp] theorem route_assign (r : AccountRoutes) (id id' url : String)
    (verified : Bool) :
    (r.assign id url verified).route id' =
      if id' = id then some ⟨url, 0, verified⟩ else r.route id' := by
  unfold route assign
  by_cases h : id' = id
  · rw [if_pos h, h, AList.lookup_insert]
  · rw [if_neg h, AList.lookup_insert_ne h]

theorem lookup_erase_eq (a : Assignments) (id id' : String) :
    (a.erase id).lookup id' = if id' = id then none else a.lookup id' := by
  by_cases h : id' = id
  · rw [if_pos h, h, AList.lookup_erase]
  · rw [if_neg h, AList.lookup_erase_ne h]

@[simp] theorem route_unbind (r : AccountRoutes) (id id' : String) :
    (r.unbind id).route id' = if id' = id then none else r.route id' :=
  lookup_erase_eq _ _ _

@[simp] theorem route_rotate (r : AccountRoutes) (id id' url : String) :
    (r.rotate id url).route id' = if id' = id then none else r.route id' :=
  lookup_erase_eq _ _ _

@[simp] theorem route_refuse (r : AccountRoutes) (id id' url : String) :
    (r.refuse id url).route id' = if id' = id then none else r.route id' :=
  lookup_erase_eq _ _ _

@[simp] theorem route_forget (r : AccountRoutes) (id id' : String) :
    (r.forget id).route id' = if id' = id then none else r.route id' :=
  lookup_erase_eq _ _ _

@[simp] theorem route_modify (r : AccountRoutes) (id id' : String)
    (f : AccountProxy -> AccountProxy) :
    (r.modify id f).route id' =
      if id' = id then (r.route id).map f else r.route id' := by
  unfold modify
  cases hroute : r.route id with
  | none =>
      by_cases h : id' = id
      · rw [if_pos h, h, hroute]
        rfl
      · rw [if_neg h]
  | some held =>
      by_cases h : id' = id
      · rw [if_pos h, h]
        exact AList.lookup_insert _
      · rw [if_neg h]
        exact AList.lookup_insert_ne h

@[simp] theorem route_fail (r : AccountRoutes) (id id' : String) (now : Int) :
    (r.fail id now).route id' = r.route id' := rfl

theorem route_retain (r : AccountRoutes) (active : List String)
    (id : String) :
    (r.retain active).route id =
      (r.route id).filter fun route => route.url ∈ active := by
  apply Option.ext
  intro route
  rw [Option.filter_eq_some_iff]
  show route ∈ (keepListed r.assignments active).lookup id <-> _
  rw [AList.mem_lookup_iff, keepListed, List.mem_filter]
  constructor
  · intro h
    exact ⟨AList.mem_lookup_iff.mpr h.left, h.right⟩
  · intro h
    exact ⟨AList.mem_lookup_iff.mp h.left, h.right⟩

theorem route_load {cfg : ProxyConfig} {entries : List String}
    {rows : List (String × String)} {id : String} {route : AccountProxy}
    (h : (load cfg entries rows).route id = some route) :
    route.url ∈ entries ∧ route.failures = 0 := by
  have hfold : forall (rows : List (String × String)) (start : Assignments),
      (forall row, row ∈ rows -> row.2 ∈ entries) ->
      (forall id route, start.lookup id = some route ->
        route.url ∈ entries ∧ route.failures = 0) ->
      forall id route,
        (rows.foldl (fun assignments row =>
          assignments.insert row.1 ⟨row.2, 0, false⟩) start).lookup id =
            some route ->
        route.url ∈ entries ∧ route.failures = 0 := by
    intro rows
    induction rows with
    | nil =>
        intro start _ hstart
        exact hstart
    | cons row rest ih =>
        intro start hrows hstart
        apply ih _ fun row hrow => hrows row (List.mem_cons_of_mem _ hrow)
        intro id route hroute
        by_cases hid : id = row.1
        · rw [hid, AList.lookup_insert] at hroute
          cases hroute
          exact ⟨hrows row List.mem_cons_self, rfl⟩
        · rw [AList.lookup_insert_ne hid] at hroute
          exact hstart id route hroute
  apply hfold _ ∅ _ _ id route h
  · intro row hrow
    exact (of_decide_eq_true (List.mem_filter.mp hrow).right).left
  · intro id route hnone
    cases hnone

end AccountRoutes

end HifiApi
