import HifiApi.Base.Text
import HifiApi.Proxies.Manager
import HifiApi.Proxies.Spread
import Mathlib.Algebra.BigOperators.Group.List.Lemmas

/-!
# Rebalancing

Spare proxies that answer their probe take accounts over from proxies that carry
more than one.  The loop counts in a table of its own, where a proxy that it has
just moved an account to carries one account; this is true of the bindings too as
long as no spare is listed twice.  Hash maps are iterated in any order, and the
probe of every list position has its own result.
-/

namespace HifiApi

namespace ProxyManager

/-- {lit}`load_proxies_from_file`, on what the file holds. -/
def loadProxiesFromFile (content : Option String) : List String :=
  match content with
  | none => []
  | some text =>
      (((Text.lines text.toList).map AccountState.trim).filter (· ≠ [])).map
        String.ofList

/-- The orders in which the hash maps are iterated, round by round. -/
structure IterationOrder where
  loads : Nat -> Loads -> Loads
  routes : Nat -> Assignments -> Assignments
  loads_perm : forall i l, (loads i l).entries.Perm l.entries
  routes_perm : forall i a, (routes i a).entries.Perm a.entries

/-- One order for all rounds. -/
def IterationOrder.plain : IterationOrder where
  loads _ l := l
  routes _ a := a
  loads_perm _ _ := .refl _
  routes_perm _ _ := .refl _

@[simp] theorem IterationOrder.plain_loads (i : Nat) (l : Loads) :
    IterationOrder.plain.loads i l = l := rfl

@[simp] theorem IterationOrder.plain_routes (i : Nat) (a : Assignments) :
    IterationOrder.plain.routes i a = a := rfl

structure Move where
  id : String
  source : String
  target : String
  deriving DecidableEq

/-- The bindings after a rebalancing, and the moves that led there. -/
structure Rebalanced where
  routes : AccountRoutes
  moves : List Move

/-- The loop of {lit}`rebalance_assignments_locked` over the tested spares; without
a result when an {lit}`unwrap` fails. -/
def rebalanceLoop (cfg : ProxyConfig) (order : IterationOrder) :
    List (String × ProxyHealth) -> AccountRoutes -> Loads -> Option Rebalanced
  | [], routes, _ => some ⟨routes, []⟩
  | (target, health) :: rest, routes, loads =>
      if health ≠ .ok then rebalanceLoop cfg order rest routes loads
      else
        match heaviest (order.loads rest.length loads) with
        | none => some ⟨routes, []⟩
        | some source =>
            match lastAccountOn (order.routes rest.length routes.assignments) source with
            | none => rebalanceLoop cfg order rest routes loads
            | some id =>
                if cfg.builds target then
                  match loads.lookup source with
                  | none => none
                  | some _ =>
                      (rebalanceLoop cfg order rest (routes.assign id target true)
                        (moveLoad loads source target)).map fun r =>
                          { r with moves := ⟨id, source, target⟩ :: r.moves }
                else rebalanceLoop cfg order rest routes loads

def rebalanceAssignmentsLocked (cfg : ProxyConfig) (order : IterationOrder)
    (entries : List String) (checks : Nat -> ProxyHealth) (routes : AccountRoutes) :
    Option Rebalanced :=
  let loads := countLoads (order.routes entries.length routes.assignments)
  if loads.entries.any fun e => decide (1 < e.2) then
    let free := entries.filter fun url => url ∉ loads.keys
    rebalanceLoop cfg order (free.zipIdx.map fun spare => (spare.1, checks spare.2))
      routes loads
  else some ⟨routes, []⟩

/-!
## What a rebalancing is for
-/

/-- Spares of the list that have answered their probes, in the order of the list. -/
def okSpares (entries : List String) (checks : Nat -> ProxyHealth)
    (assignments : Assignments) : List String :=
  ((entries.filter fun url => boundTo assignments url = 0).zipIdx.filter fun spare =>
    checks spare.2 = .ok).map Prod.fst

/-- Accounts are moved one after the other, each from a proxy with two accounts or
more to a spare that has answered its probe. -/
inductive Moved (spares : List String) : Assignments -> List Move -> Assignments -> Prop where
  | done {assignments : Assignments} : Moved spares assignments [] assignments
  | move {assignments after : Assignments} {id source target : String}
      {route : AccountProxy} {rest : List Move}
      (hbound : assignments.lookup id = some route) (hsource : route.url = source)
      (htwo : 2 ≤ boundTo assignments source) (htarget : target ∈ spares)
      (h : Moved spares (assignments.insert id ⟨target, 0, true⟩) rest after) :
      Moved spares assignments (⟨id, source, target⟩ :: rest) after

/-- As few accounts as possible are moved, and in the end no proxy carries two
accounts or every spare carries one. -/
structure MovesLittle (cfg : ProxyConfig) (order : IterationOrder)
    (entries : List String) (checks : Nat -> ProxyHealth) (routes : AccountRoutes)
    (r : Rebalanced) : Prop where
  result : rebalanceAssignmentsLocked cfg order entries checks routes = some r
  moved : Moved (okSpares entries checks routes.assignments) routes.assignments r.moves
    r.routes.assignments
  once : (r.moves.map Move.target).Nodup
  inUse : forall url, boundTo routes.assignments url ≠ 0 ->
    boundTo r.routes.assignments url ≠ 0
  others : forall id, id ∉ r.moves.map Move.id -> r.routes.route id = routes.route id
  settled : (forall url, boundTo r.routes.assignments url ≤ 1) ∨
    forall url, url ∈ okSpares entries checks routes.assignments ->
      boundTo r.routes.assignments url = 1

/-- The proxies in use. -/
def usedProxies (assignments : Assignments) : List String :=
  (assignments.entries.map fun e => e.2.url).dedup

/-- The accounts that share their proxy with another one that stays. -/
def surplus (assignments : Assignments) : Nat :=
  assignments.entries.length - (usedProxies assignments).length

/-!
## The tables
-/

theorem boundTo_perm {a b : Assignments} (h : a.entries.Perm b.entries) (url : String) :
    boundTo a url = boundTo b url :=
  h.countP_eq _

/-- One account has another proxy. -/
theorem boundTo_rebind {a : Assignments} {id : String} {old : AccountProxy}
    (h : a.lookup id = some old) (route : AccountProxy) (url : String) :
    boundTo (a.insert id route) url + (if old.url = url then 1 else 0) =
      boundTo a url + if route.url = url then 1 else 0 := by
  have hmem : id ∈ a.entries.keys := by
    apply AList.mem_keys.mp
    exact AList.lookup_isSome.mp (by rw [h]; rfl)
  rcases List.exists_of_kerase hmem with ⟨held, before, after, hnot, heq, herase⟩
  have hheld : held = old := by
    have hentry : (⟨id, held⟩ : Sigma fun _ : String => AccountProxy) ∈ a.entries := by
      rw [heq]
      exact List.mem_append_right _ List.mem_cons_self
    have hlookup := AList.mem_lookup_iff.mpr hentry
    rw [Option.mem_def, h] at hlookup
    exact (Option.some.inj hlookup).symm
  unfold boundTo
  rw [AList.entries_insert, herase, heq, hheld]
  simp only [List.countP_cons, List.countP_append, decide_eq_true_eq]
  omega

/-- Every round of counting adds one account to one proxy. -/
theorem lookup_countLoads (a : Assignments) (url : String) :
    (countLoads a).lookup url = if boundTo a url = 0 then none else some (boundTo a url) := by
  have hfold : forall (entries : List (Sigma fun _ : String => AccountProxy)) (loads : Loads)
      (known : Nat), loads.lookup url = (if known = 0 then none else some known) ->
      (entries.foldl (fun loads e =>
        loads.insert e.2.url (Loads.count loads e.2.url + 1)) loads).lookup url =
        if known + (entries.countP fun e => e.2.url = url) = 0 then none
        else some (known + entries.countP fun e => e.2.url = url) := by
    intro entries
    induction entries with
    | nil =>
        intro loads known hknown
        exact hknown
    | cons e rest ih =>
        intro loads known hknown
        rw [List.foldl_cons, List.countP_cons]
        by_cases hurl : e.2.url = url
        · have hcount : Loads.count loads e.2.url = known := by
            rw [Loads.count, hurl, hknown]
            split
            · rename_i hzero
              rw [hzero]
              rfl
            · rfl
          have hnext := ih (loads.insert e.2.url (Loads.count loads e.2.url + 1))
            (known + 1) (by rw [hcount, hurl, AList.lookup_insert, if_neg (by omega)])
          rw [hnext, decide_eq_true hurl, if_neg (by omega), if_pos rfl,
            if_neg (by omega)]
          congr 1
          omega
        · have hnext := ih (loads.insert e.2.url (Loads.count loads e.2.url + 1)) known
            (by rw [AList.lookup_insert_ne (Ne.symm hurl), hknown])
          rw [hnext, decide_eq_false hurl, if_neg Bool.false_ne_true, Nat.add_zero]
  have hspec := hfold a.entries ∅ 0 (by rw [AList.lookup_empty]; rfl)
  rw [Nat.zero_add] at hspec
  exact hspec

theorem lookup_moveLoad (loads : Loads) (source target url : String) :
    (moveLoad loads source target).lookup url =
      if url = target then some 1
      else if url = source then some (Loads.count loads source - 1)
      else loads.lookup url := by
  unfold moveLoad
  by_cases htarget : url = target
  · rw [if_pos htarget, htarget, AList.lookup_insert]
  · rw [if_neg htarget, AList.lookup_insert_ne htarget]
    by_cases hsource : url = source
    · rw [if_pos hsource, hsource, AList.lookup_insert]
    · rw [if_neg hsource, AList.lookup_insert_ne hsource]

/-!
## The choices
-/

/-- A choice among entries that are kept for one reason. -/
theorem foldl_choice {α β : Type} (choose : Option β -> α -> Option β) (kept : α -> Prop)
    (gives : α -> β)
    (hchoose : forall best a, choose best a = best ∧ (kept a -> best ≠ none) ∨
      kept a ∧ choose best a = some (gives a))
    (entries : List α) (start : Option β) :
    (forall b, entries.foldl choose start = some b ->
      start = some b ∨ exists a, a ∈ entries ∧ kept a ∧ gives a = b) ∧
    (entries.foldl choose start = none -> start = none ∧
      forall a, a ∈ entries -> ¬ kept a) := by
  induction entries generalizing start with
  | nil =>
      exact ⟨fun b hb => Or.inl hb, fun hnone => ⟨hnone, fun a ha => absurd ha List.not_mem_nil⟩⟩
  | cons a rest ih =>
      rw [List.foldl_cons]
      rcases hchoose start a with ⟨hsame, hbest⟩ | ⟨hkept, hnew⟩
      · rw [hsame]
        constructor
        · intro b hb
          rcases (ih start).left b hb with hstart | ⟨other, hother, hrest⟩
          · exact Or.inl hstart
          · exact Or.inr ⟨other, List.mem_cons_of_mem _ hother, hrest⟩
        · intro hnone
          have hrest := (ih start).right hnone
          refine ⟨hrest.left, fun other hother => ?_⟩
          rcases List.mem_cons.mp hother with heq | hin
          · rw [heq]
            exact fun hkept => hbest hkept hrest.left
          · exact hrest.right other hin
      · rw [hnew]
        constructor
        · intro b hb
          rcases (ih _).left b hb with hstart | ⟨other, hother, hrest⟩
          · exact Or.inr ⟨a, List.mem_cons_self, hkept, Option.some.inj hstart⟩
          · exact Or.inr ⟨other, List.mem_cons_of_mem _ hother, hrest⟩
        · intro hnone
          exact absurd ((ih _).right hnone).left (Option.some_ne_none _)

/-- The choice between the best proxy so far and the next one. -/
def heavier (best : Option (String × Nat)) (e : Sigma fun _ : String => Nat) :
    Option (String × Nat) :=
  match best with
  | none => if 1 < e.2 then some (e.1, e.2) else none
  | some b =>
      if 1 < e.2 ∧ (b.2 < e.2 ∨ (b.2 = e.2 ∧ b.1 < e.1)) then some (e.1, e.2)
      else some b

theorem heaviest_eq (loads : Loads) :
    heaviest loads = (loads.entries.foldl heavier none).map Prod.fst := rfl

theorem heavier_spec (best : Option (String × Nat)) (e : Sigma fun _ : String => Nat) :
    heavier best e = best ∧ (1 < e.2 -> best ≠ none) ∨
      1 < e.2 ∧ heavier best e = some (e.1, e.2) := by
  cases best with
  | none =>
      by_cases hmany : 1 < e.2
      · exact Or.inr ⟨hmany, if_pos hmany⟩
      · exact Or.inl ⟨if_neg hmany, fun h => absurd h hmany⟩
  | some b =>
      by_cases hmore : 1 < e.2 ∧ (b.2 < e.2 ∨ (b.2 = e.2 ∧ b.1 < e.1))
      · exact Or.inr ⟨hmore.left, if_pos hmore⟩
      · exact Or.inl ⟨if_neg hmore, fun _ => Option.some_ne_none _⟩

theorem heaviest_spec (loads : Loads) :
    (forall source, heaviest loads = some source ->
      exists count, loads.lookup source = some count ∧ 2 ≤ count) ∧
    (heaviest loads = none -> forall url, Loads.count loads url ≤ 1) := by
  have hfold := foldl_choice heavier (fun e => 1 < e.2) (fun e => (e.1, e.2)) heavier_spec
    loads.entries none
  rw [heaviest_eq]
  constructor
  · intro source h
    rcases Option.map_eq_some_iff.mp h with ⟨b, hb, hsource⟩
    rcases hfold.left b hb with hnone | ⟨e, he, hmany, heq⟩
    · cases hnone
    · rw [← hsource, ← heq]
      exact ⟨e.2, AList.mem_lookup_iff.mpr he, hmany⟩
  · intro h url
    have hnone := (hfold.right (Option.map_eq_none_iff.mp h)).right
    unfold Loads.count
    cases hlookup : loads.lookup url with
    | none => exact Nat.zero_le 1
    | some count =>
        have hmem := AList.mem_lookup_iff.mp (Option.mem_def.mpr hlookup)
        exact Nat.le_of_not_lt (hnone _ hmem)

theorem lastAccountOn_spec (a : Assignments) (url : String) :
    (forall id, lastAccountOn a url = some id ->
      exists route, a.lookup id = some route ∧ route.url = url) ∧
    (lastAccountOn a url = none -> boundTo a url = 0) := by
  unfold lastAccountOn
  constructor
  · intro id h
    rcases List.mem_map.mp (List.max?_mem h) with ⟨e, he, hid⟩
    have hfound := List.mem_filter.mp he
    rw [← hid]
    exact ⟨e.2, AList.mem_lookup_iff.mpr hfound.left, of_decide_eq_true hfound.right⟩
  · intro h
    rw [List.max?_eq_none_iff, List.map_eq_nil_iff, List.filter_eq_nil_iff] at h
    exact List.countP_eq_zero.mpr h

theorem count_perm {a b : Loads} (h : a.entries.Perm b.entries) (url : String) :
    Loads.count a url = Loads.count b url := by
  unfold Loads.count
  rw [AList.perm_lookup h]

theorem count_moveLoad (loads : Loads) (source target url : String) :
    Loads.count (moveLoad loads source target) url =
      if url = target then 1
      else if url = source then Loads.count loads source - 1
      else Loads.count loads url := by
  rw [Loads.count, lookup_moveLoad]
  split
  · rfl
  · split
    · rfl
    · rfl

/-!
## The run of the loop
-/

/-- The targets of the loop that have answered their probes. -/
def okTargets (spares : List (String × ProxyHealth)) : List String :=
  (spares.filter fun spare => spare.2 = .ok).map Prod.fst

/-- The table and the bindings agree on every proxy that no account has been moved
to; to the table the others carry one account. -/
structure Tracks (used hit : List String) (a : Assignments) (loads : Loads) : Prop where
  agrees : forall url, url ∉ hit -> Loads.count loads url = boundTo a url
  fresh : forall url, url ∈ hit -> Loads.count loads url = 1
  bound : forall url, url ∈ hit -> boundTo a url = hit.count url
  spare : forall url, url ∈ hit -> url ∉ used
  inUse : forall url, url ∈ used -> boundTo a url ≠ 0
  unused : forall url, url ∉ used -> url ∉ hit -> boundTo a url = 0

/-- The accounts that a table has in excess of one a proxy. -/
def excess (used : List String) (loads : Loads) : Nat :=
  (used.map fun url => Loads.count loads url - 1).sum

section Round

variable {used hit : List String} {a : Assignments} {loads : Loads}
  {source target id : String} {held : AccountProxy}

theorem Tracks.source_spec (h : Tracks used hit a loads)
    (hsource : 2 ≤ Loads.count loads source) :
    source ∉ hit ∧ source ∈ used ∧ boundTo a source = Loads.count loads source := by
  have hhit : source ∉ hit := by
    intro hin
    have hone := h.fresh source hin
    omega
  have hbound := h.agrees source hhit
  refine ⟨hhit, ?_, hbound.symm⟩
  by_contra hunused
  have hzero := h.unused source hunused hhit
  omega

/-- A proxy that is chosen in the table is overloaded, and an account is found on it:
this is why {lit}`unwrap` does not fail. -/
theorem Tracks.choice (order : IterationOrder) (h : Tracks used hit a loads) (n : Nat)
    (hchoice : heaviest (order.loads n loads) = some source) :
    exists count id held, loads.lookup source = some count ∧
      2 ≤ Loads.count loads source ∧
      lastAccountOn (order.routes n a) source = some id ∧
      a.lookup id = some held ∧ held.url = source := by
  rcases (heaviest_spec (order.loads n loads)).left source hchoice with
    ⟨count, hlookup, hmany⟩
  rw [AList.perm_lookup (order.loads_perm n loads)] at hlookup
  have hsource : 2 ≤ Loads.count loads source := by
    rw [Loads.count, hlookup]
    exact hmany
  have hspec := h.source_spec hsource
  have haccount := lastAccountOn_spec (order.routes n a) source
  cases hlast : lastAccountOn (order.routes n a) source with
  | none =>
      have hzero := haccount.right hlast
      rw [boundTo_perm (order.routes_perm n a)] at hzero
      omega
  | some id =>
      rcases haccount.left id hlast with ⟨held, hheld, hurl⟩
      rw [AList.perm_lookup (order.routes_perm n a)] at hheld
      exact ⟨count, id, held, hlookup, hsource, rfl, hheld, hurl⟩

/-- One account is moved, in the bindings and in the table. -/
theorem Tracks.move (h : Tracks used hit a loads)
    (hsource : 2 ≤ Loads.count loads source) (htarget : target ∉ used)
    (hheld : a.lookup id = some held) (hurl : held.url = source) :
    Tracks used (target :: hit) (a.insert id ⟨target, 0, true⟩)
      (moveLoad loads source target) := by
  have hspec := h.source_spec hsource
  have hne : target ≠ source := fun heq => htarget (heq ▸ hspec.right.left)
  have hbound : forall url, boundTo (a.insert id ⟨target, 0, true⟩) url +
      (if source = url then 1 else 0) = boundTo a url + if target = url then 1 else 0 := by
    intro url
    have hrebind := boundTo_rebind hheld ⟨target, 0, true⟩ url
    rw [hurl] at hrebind
    exact hrebind
  refine ⟨?_, ?_, ?_, ?_, ?_, ?_⟩
  · intro url hnot
    have hout : url ≠ target ∧ url ∉ hit :=
      ⟨List.ne_of_not_mem_cons hnot, List.not_mem_of_not_mem_cons hnot⟩
    have hmoved := hbound url
    have hold := h.agrees url hout.right
    rw [if_neg (Ne.symm hout.left)] at hmoved
    rw [count_moveLoad, if_neg hout.left]
    by_cases hurl : url = source
    · rw [hurl, if_pos rfl] at hmoved
      rw [hurl, if_pos rfl]
      omega
    · rw [if_neg (Ne.symm hurl)] at hmoved
      rw [if_neg hurl]
      omega
  · intro url hin
    rw [count_moveLoad]
    rcases List.mem_cons.mp hin with heq | hhit
    · rw [if_pos heq]
    · rw [if_neg fun heq : url = source => hspec.left (heq ▸ hhit), h.fresh url hhit]
      split
      · rfl
      · rfl
  · intro url hin
    have hmoved := hbound url
    rw [List.count_cons]
    by_cases heq : target = url
    · rw [if_pos heq, if_neg fun hsrc : source = url => hne (heq.trans hsrc.symm)] at hmoved
      have hold : boundTo a url = hit.count url := by
        by_cases hhit : url ∈ hit
        · exact h.bound url hhit
        · rw [List.count_eq_zero.mpr hhit]
          exact h.unused url (heq ▸ htarget) hhit
      rw [beq_iff_eq.mpr heq, if_pos rfl]
      omega
    · have hhit : url ∈ hit :=
        (List.mem_cons.mp hin).resolve_left (Ne.symm heq)
      have hold := h.bound url hhit
      rw [if_neg heq, if_neg fun hsrc : source = url => hspec.left (hsrc ▸ hhit)] at hmoved
      rw [beq_eq_false_iff_ne.mpr heq, if_neg Bool.false_ne_true]
      omega
  · intro url hin
    rcases List.mem_cons.mp hin with heq | hhit
    · rw [heq]
      exact htarget
    · exact h.spare url hhit
  · intro url hused
    have hmoved := hbound url
    have hold := h.inUse url hused
    by_cases hsrc : source = url
    · have hmany := hspec.right.right
      rw [hsrc] at hmany hsource
      rw [if_pos hsrc] at hmoved
      omega
    · rw [if_neg hsrc] at hmoved
      omega
  · intro url hunused hnot
    have hout : url ≠ target ∧ url ∉ hit :=
      ⟨List.ne_of_not_mem_cons hnot, List.not_mem_of_not_mem_cons hnot⟩
    have hmoved := hbound url
    have hold := h.unused url hunused hout.right
    rw [if_neg (Ne.symm hout.left)] at hmoved
    omega

/-- With every move one account less is in excess. -/
theorem excess_moveLoad (hused : used.Nodup) (hin : source ∈ used) (htarget : target ∉ used)
    (hsource : 2 ≤ Loads.count loads source) :
    excess used (moveLoad loads source target) + 1 = excess used loads := by
  have hperm := List.perm_cons_erase hin
  have hrest : forall url, url ∈ used.erase source ->
      Loads.count (moveLoad loads source target) url - 1 = Loads.count loads url - 1 := by
    intro url hurl
    have hspec := (List.Nodup.mem_erase_iff hused).mp hurl
    have hne : url ≠ target := fun heq => htarget (heq ▸ hspec.right)
    rw [count_moveLoad, if_neg hne, if_neg hspec.left]
  have hne : source ≠ target := fun heq => htarget (heq ▸ hin)
  have hone : Loads.count (moveLoad loads source target) source =
      Loads.count loads source - 1 := by
    rw [count_moveLoad, if_neg hne, if_pos rfl]
  unfold excess
  rw [(hperm.map _).sum_eq, (hperm.map _).sum_eq, List.map_cons, List.map_cons,
    List.sum_cons, List.sum_cons, List.map_congr_left hrest, hone]
  omega

/-- Nothing is in excess once no proxy is overloaded. -/
theorem excess_eq_zero (used : List String) (h : forall url, Loads.count loads url ≤ 1) :
    excess used loads = 0 := by
  unfold excess
  rw [List.sum_eq_zero]
  intro n hn
  rcases List.mem_map.mp hn with ⟨url, -, hurl⟩
  have hone := h url
  omega

theorem le_one_of_excess (h : excess used loads = 0) {url : String} (hurl : url ∈ used) :
    Loads.count loads url ≤ 1 := by
  have hzero := List.sum_eq_zero_iff_forall_eq_nat.mp h _ (List.mem_map_of_mem hurl)
  omega

end Round

theorem okTargets_cons (spare : String × ProxyHealth) (rest : List (String × ProxyHealth)) :
    okTargets (spare :: rest) =
      if spare.2 = .ok then spare.1 :: okTargets rest else okTargets rest := by
  unfold okTargets
  by_cases hhealth : spare.2 = .ok
  · rw [if_pos hhealth, List.filter_cons_of_pos (by rw [hhealth]; rfl), List.map_cons]
  · rw [if_neg hhealth, List.filter_cons, if_neg fun h => hhealth (of_decide_eq_true h)]

section Run

variable {cfg : ProxyConfig} (order : IterationOrder) {used : List String}

/-- The loop moves one account a target, as long as any is in excess. -/
theorem rebalanceLoop_spec (hused : used.Nodup) (tested : List String)
    (spares : List (String × ProxyHealth)) (routes : AccountRoutes) (loads : Loads)
    (hit : List String) (htracks : Tracks used hit routes.assignments loads)
    (hspares : forall spare, spare ∈ spares -> spare.1 ∉ used ∧ cfg.builds spare.1 = true)
    (htested : forall url, url ∈ okTargets spares -> url ∈ tested) :
    exists r after, rebalanceLoop cfg order spares routes loads = some r ∧
      r.moves.map Move.target = (okTargets spares).take (excess used loads) ∧
      Moved tested routes.assignments r.moves r.routes.assignments ∧
      Tracks used ((r.moves.map Move.target).reverse ++ hit) r.routes.assignments after ∧
      excess used after + r.moves.length = excess used loads ∧
      forall id, id ∉ r.moves.map Move.id -> r.routes.route id = routes.route id := by
  induction spares generalizing routes loads hit with
  | nil =>
      refine ⟨⟨routes, []⟩, loads, rfl, ?_, .done, htracks, rfl, fun id _ => rfl⟩
      exact List.take_nil.symm
  | cons spare rest ih =>
      rcases spare with ⟨target, health⟩
      have hrest := fun spare hin => hspares spare (List.mem_cons_of_mem _ hin)
      have hunused : target ∉ used := (hspares _ List.mem_cons_self).left
      have hbuilds : cfg.builds target = true := (hspares _ List.mem_cons_self).right
      rw [rebalanceLoop]
      by_cases hhealth : health = .ok
      · have htargets : okTargets ((target, health) :: rest) = target :: okTargets rest := by
          rw [okTargets_cons, if_pos hhealth]
        rw [if_neg fun hnot => hnot hhealth]
        rw [htargets] at htested ⊢
        cases hchoice : heaviest (order.loads rest.length loads) with
        | none =>
            have hone : forall url, Loads.count loads url ≤ 1 := by
              intro url
              rw [← count_perm (order.loads_perm rest.length loads)]
              exact (heaviest_spec (order.loads rest.length loads)).right hchoice url
            refine ⟨⟨routes, []⟩, loads, rfl, ?_, .done, htracks, rfl, fun id _ => rfl⟩
            rw [excess_eq_zero used hone]
            rfl
        | some source =>
            rcases htracks.choice order rest.length hchoice with
              ⟨count, id, held, hlookup, hsource, hlast, hheld, hurl⟩
            have hspec := htracks.source_spec hsource
            have hmoved := htracks.move hsource hunused hheld hurl
            have hexcess := excess_moveLoad hused hspec.right.left hunused hsource
            rcases ih (routes.assign id target true) (moveLoad loads source target)
                (target :: hit) hmoved hrest
                (fun url hin => htested url (List.mem_cons_of_mem _ hin)) with
              ⟨r, after, hr, htaken, hmoves, hafter, hsum, hothers⟩
            refine ⟨{ r with moves := ⟨id, source, target⟩ :: r.moves }, after,
              ?_, ?_, ?_, ?_, ?_, ?_⟩
            · simp only [hlast, hbuilds, hlookup, hr, Option.map_some, if_true]
            · rw [← hexcess, List.take_succ_cons, List.map_cons, htaken]
            · exact .move hheld hurl (by omega) (htested target List.mem_cons_self) hmoves
            · rw [List.map_cons, List.reverse_cons, List.append_assoc]
              exact hafter
            · rw [List.length_cons]
              omega
            · intro other hnot
              have hne : other ≠ id := List.ne_of_not_mem_cons hnot
              rw [hothers other (List.not_mem_of_not_mem_cons hnot),
                AccountRoutes.route_assign, if_neg hne]
      · have htargets : okTargets ((target, health) :: rest) = okTargets rest := by
          rw [okTargets_cons, if_neg hhealth]
        rw [if_pos hhealth, htargets]
        rw [htargets] at htested
        exact ih routes loads hit htracks hrest htested

/-- In the end every target carries one account or nothing is in excess, when no
target is taken twice. -/
theorem Tracks.settled {targets hit : List String} {a : Assignments} {loads : Loads}
    {n moved : Nat} (h : Tracks used hit a loads)
    (hhit : hit = (targets.take n).reverse) (hnodup : (targets.take n).Nodup)
    (hmoved : (targets.take n).length = moved) (hexcess : excess used loads + moved = n) :
    (forall url, boundTo a url ≤ 1) ∨ forall url, url ∈ targets -> boundTo a url = 1 := by
  have hone : forall url, url ∈ hit -> boundTo a url = 1 := by
    intro url hin
    rw [h.bound url hin, hhit]
    rw [hhit] at hin
    exact List.count_eq_one_of_mem (List.nodup_reverse.mpr hnodup) hin
  by_cases hlength : targets.length ≤ n
  · right
    intro url hin
    apply hone
    rw [hhit, List.take_of_length_le hlength]
    exact List.mem_reverse.mpr hin
  · left
    rw [List.length_take, Nat.min_eq_left (by omega)] at hmoved
    have hzero : excess used loads = 0 := by omega
    intro url
    by_cases hin : url ∈ hit
    · rw [hone url hin]
    · by_cases hurl : url ∈ used
      · rw [← h.agrees url hin]
        exact le_one_of_excess hzero hurl
      · rw [h.unused url hurl hin]
        exact Nat.zero_le 1

end Run

/-!
## What a rebalancing does
-/

section Rebalanced

variable (order : IterationOrder) (entries : List String) (checks : Nat -> ProxyHealth)
  (routes : AccountRoutes)

theorem count_countLoads (a : Assignments) (url : String) :
    Loads.count (countLoads a) url = boundTo a url := by
  rw [Loads.count, lookup_countLoads]
  split
  · rename_i hzero
    rw [hzero]
    rfl
  · rfl

theorem boundTo_eq_count (a : Assignments) (url : String) :
    boundTo a url = (a.entries.map fun e => e.2.url).count url := by
  rw [List.count, List.countP_map]
  exact List.countP_congr fun e _ => by simp

theorem mem_usedProxies (a : Assignments) (url : String) :
    url ∈ usedProxies a <-> boundTo a url ≠ 0 := by
  rw [usedProxies, List.mem_dedup, boundTo_eq_count, ne_eq, List.count_eq_zero, not_not]

/-- What is in excess at first is what the accounts exceed the proxies in use by. -/
theorem excess_eq_surplus {a : Assignments} {loads : Loads}
    (h : forall url, Loads.count loads url = boundTo a url) :
    excess (usedProxies a) loads = surplus a := by
  have hsum : (usedProxies a |>.map fun url => boundTo a url).sum = a.entries.length := by
    have hcounts := List.sum_map_count_dedup_eq_length (a.entries.map fun e => e.2.url)
    rw [List.length_map] at hcounts
    rw [← hcounts]
    congr 1
    exact List.map_congr_left fun url _ => boundTo_eq_count a url
  have hsplit : forall used : List String, (forall url, url ∈ used -> boundTo a url ≠ 0) ->
      excess used loads + used.length = (used.map fun url => boundTo a url).sum := by
    intro used
    induction used with
    | nil =>
        intro _
        rfl
    | cons url rest ih =>
        intro hin
        have hurl := hin url List.mem_cons_self
        have hrest := ih fun other hother => hin other (List.mem_cons_of_mem _ hother)
        unfold excess at hrest ⊢
        rw [List.map_cons, List.sum_cons, List.length_cons, List.map_cons, List.sum_cons,
          h]
        omega
  have htotal := hsplit (usedProxies a) fun url => (mem_usedProxies a url).mp
  unfold surplus
  omega

theorem mem_keys_countLoads (a : Assignments) (url : String) :
    url ∈ (countLoads a).keys <-> boundTo a url ≠ 0 := by
  rw [← AList.mem_keys, ← AList.lookup_isSome, lookup_countLoads]
  split
  · rename_i hzero
    exact ⟨fun h => absurd h (by simp), fun h => absurd hzero h⟩
  · rename_i hsome
    exact ⟨fun _ => hsome, fun _ => rfl⟩

theorem boundTo_le_one_of_any {a b : Assignments} (hperm : b.entries.Perm a.entries)
    (h : ¬ ((countLoads b).entries.any fun e => decide (1 < e.2)) = true) (url : String) :
    boundTo a url ≤ 1 := by
  by_contra hmany
  apply h
  rw [List.any_eq_true]
  have hlookup := lookup_countLoads b url
  rw [boundTo_perm hperm, if_neg (by omega)] at hlookup
  exact ⟨⟨url, boundTo a url⟩, AList.mem_lookup_iff.mp hlookup,
    decide_eq_true (Nat.lt_of_not_le hmany)⟩

theorem surplus_eq_zero {a : Assignments} (h : forall url, boundTo a url ≤ 1) :
    surplus a = 0 := by
  rw [← excess_eq_surplus (count_countLoads a)]
  apply excess_eq_zero
  intro url
  rw [count_countLoads]
  exact h url

/-- The spares of the loop are the entries that no account is bound to. -/
theorem okTargets_spares (a : Assignments) :
    okTargets (((entries.filter fun url => url ∉ (countLoads
      (order.routes entries.length a)).keys).zipIdx.map fun spare =>
        (spare.1, checks spare.2))) = okSpares entries checks a := by
  have hfree : (entries.filter fun url => url ∉ (countLoads
      (order.routes entries.length a)).keys) =
      entries.filter fun url => boundTo a url = 0 := by
    apply List.filter_congr
    intro url _
    rw [decide_eq_decide, mem_keys_countLoads, boundTo_perm (order.routes_perm _ _), not_not]
  unfold okTargets okSpares
  rw [hfree, List.filter_map, List.map_map]
  rfl

/-- One account is moved to every spare that is needed; and where none of them is
listed twice, the accounts are spread as far as they can be. -/
theorem rebalanceAssignmentsLocked_spec {cfg : ProxyConfig}
    (hbuilds : forall url, url ∈ entries -> cfg.builds url = true) :
    exists r, rebalanceAssignmentsLocked cfg order entries checks routes = some r ∧
      r.moves.map Move.target =
        (okSpares entries checks routes.assignments).take (surplus routes.assignments) ∧
      (((okSpares entries checks routes.assignments).take
          (surplus routes.assignments)).Nodup ->
        MovesLittle cfg order entries checks routes r) := by
  unfold rebalanceAssignmentsLocked
  dsimp only
  by_cases hany : ((countLoads (order.routes entries.length
      routes.assignments)).entries.any fun e => decide (1 < e.2)) = true
  · rw [if_pos hany]
    have hcount : forall url, Loads.count (countLoads (order.routes entries.length
        routes.assignments)) url = boundTo routes.assignments url := by
      intro url
      rw [count_countLoads]
      exact boundTo_perm (order.routes_perm _ _) url
    have htracks : Tracks (usedProxies routes.assignments) [] routes.assignments
        (countLoads (order.routes entries.length routes.assignments)) :=
      { agrees := fun url _ => hcount url
        fresh := fun url h => absurd h List.not_mem_nil
        bound := fun url h => absurd h List.not_mem_nil
        spare := fun url h => absurd h List.not_mem_nil
        inUse := fun url h => (mem_usedProxies _ url).mp h
        unused := fun url h _ => by
          by_contra hbound
          exact h ((mem_usedProxies _ url).mpr hbound) }
    have hspares := okTargets_spares order entries checks routes.assignments
    have hused : (usedProxies routes.assignments).Nodup := List.nodup_dedup _
    rcases rebalanceLoop_spec order hused (okSpares entries checks
        routes.assignments) _ routes _ [] htracks
        (by
          intro spare hspare
          rcases List.mem_map.mp hspare with ⟨place, hplace, rfl⟩
          have hfree := List.mem_filter.mp (List.fst_mem_of_mem_zipIdx hplace)
          refine ⟨fun hused => ?_, hbuilds _ hfree.left⟩
          have hnot := of_decide_eq_true hfree.right
          rw [mem_keys_countLoads, boundTo_perm (order.routes_perm _ _)] at hnot
          exact hnot ((mem_usedProxies _ _).mp hused))
        (fun url hurl => hspares ▸ hurl) with
      ⟨r, after, hr, htaken, hmoved, hafter, hsum, hothers⟩
    rw [hspares, excess_eq_surplus hcount] at htaken
    rw [excess_eq_surplus hcount] at hsum
    rw [htaken, List.append_nil] at hafter
    refine ⟨r, hr, htaken, fun hnodup => ?_⟩
    have hlength := congrArg List.length htaken
    rw [List.length_map] at hlength
    refine ⟨?_, hmoved, htaken ▸ hnodup, ?_, hothers, ?_⟩
    · rw [rebalanceAssignmentsLocked, if_pos hany]
      exact hr
    · intro url hurl
      exact hafter.inUse url ((mem_usedProxies _ url).mpr hurl)
    · exact hafter.settled rfl hnodup hlength.symm hsum
  · rw [if_neg hany]
    have hone := boundTo_le_one_of_any (order.routes_perm entries.length _) hany
    have hnone := surplus_eq_zero hone
    refine ⟨⟨routes, []⟩, rfl, ?_, fun _ => ?_⟩
    · rw [hnone]
      rfl
    · refine ⟨?_, .done, List.nodup_nil, fun _ h => h, fun _ _ => rfl, Or.inl hone⟩
      rw [rebalanceAssignmentsLocked, if_neg hany]

/-- A rebalancing moves as little as possible if and only if no URL is listed twice
among the spares that are needed. -/
theorem movesLittle_iff {cfg : ProxyConfig}
    (hbuilds : forall url, url ∈ entries -> cfg.builds url = true) :
    (exists r, MovesLittle cfg order entries checks routes r) <->
      ((okSpares entries checks routes.assignments).take
        (surplus routes.assignments)).Nodup := by
  rcases rebalanceAssignmentsLocked_spec order entries checks routes hbuilds with
    ⟨r, hr, htaken, hlittle⟩
  constructor
  · intro h
    rcases h with ⟨other, hother⟩
    have hsame : r = other := Option.some.inj (hr.symm.trans hother.result)
    rw [← htaken, hsame]
    exact hother.once
  · intro h
    exact ⟨r, hlittle h⟩

end Rebalanced

def buildsAll : ProxyConfig :=
  ⟨false, fun _ => none, fun _ => true, id, fun _ => 0⟩

/-- Three accounts leave through one proxy. -/
def threeOnA : AccountRoutes where
  assignments := (((∅ : Assignments).insert "1" ⟨"http://a:1", 0, true⟩).insert "2"
    ⟨"http://a:1", 0, true⟩).insert "3" ⟨"http://a:1", 0, true⟩
  avoided := fun _ => none
  lastFailed := fun _ => none

theorem movesLittle_iff_three :
    (exists r, MovesLittle buildsAll .plain ["http://a:1", "http://b:1", "http://c:1"]
      (fun _ => .ok) threeOnA r) <->
      ((okSpares ["http://a:1", "http://b:1", "http://c:1"] (fun _ => .ok)
        threeOnA.assignments).take (surplus threeOnA.assignments)).Nodup :=
  movesLittle_iff _ _ _ _ fun _ _ => rfl

/-- A file lists a spare twice, and two accounts are moved onto it. -/
theorem not_movesLittle_listedTwice :
    ¬ exists r, MovesLittle buildsAll .plain
      (loadProxiesFromFile (some "http://a:1\nhttp://b:1\nhttp://b:1\n"))
      (fun _ => .ok) threeOnA r := by
  have hfile : loadProxiesFromFile (some "http://a:1\nhttp://b:1\nhttp://b:1\n") =
      ["http://a:1", "http://b:1", "http://b:1"] := by decide
  have hbuilds : forall url, url ∈ ["http://a:1", "http://b:1", "http://b:1"] ->
      buildsAll.builds url = true := fun _ _ => rfl
  intro h
  rcases h with ⟨other, hother⟩
  rw [hfile] at hother
  rcases rebalanceAssignmentsLocked_spec .plain _ (fun _ => .ok) threeOnA hbuilds with
    ⟨r, hr, htaken, -⟩
  have hsame : r = other := Option.some.inj (hr.symm.trans hother.result)
  have hnodup := hother.once
  rw [← hsame, htaken] at hnodup
  exact absurd hnodup (by decide)

/-!
## A configured list
-/

/-- What every step of a fallible fold keeps holds in the end. -/
theorem foldlM_keeps {α ε σ : Type} {step : σ -> α -> Except ε σ} (keeps : σ -> Prop)
    (hstep : forall s a s', keeps s -> step s a = .ok s' -> keeps s') (entries : List α)
    {start last : σ} (hstart : keeps start) (h : entries.foldlM step start = .ok last) :
    keeps last := by
  induction entries generalizing start with
  | nil =>
      cases h
      exact hstart
  | cons a rest ih =>
      rw [List.foldlM_cons] at h
      cases hnext : step start a with
      | error e =>
          rw [hnext] at h
          cases h
      | ok next =>
          rw [hnext] at h
          exact ih (hstep start a next hstart hnext) h

theorem normalizeProxies_nodup {cfg : ProxyConfig} {proxies : List String}
    {enabled : Bool} {list : List String}
    (h : normalizeProxies cfg proxies enabled = .ok list) : list.Nodup := by
  unfold normalizeProxies at h
  dsimp only at h
  generalize hfold : proxies.foldlM (m := Except AppError) _ [] = folded at h
  cases folded with
  | error e => cases h
  | ok normalized =>
      have hnormalized : normalized.Nodup := by
        refine foldlM_keeps List.Nodup ?_ proxies List.nodup_nil hfold
        intro held raw next hheld hnext
        split at hnext
        · cases hnext
          exact hheld
        · split at hnext
          · cases hnext
          · cases hnext
            split
            · exact hheld
            · rename_i hnot
              exact List.nodup_append_comm.mp (List.nodup_cons.mpr ⟨hnot, hheld⟩)
      simp only [bind, Except.bind] at h
      split at h
      · cases h
      · cases h
        exact hnormalized

/-- A configured list is rebalanced as it should be. -/
theorem movesLittle_of_configured {cfg : ProxyConfig} (order : IterationOrder)
    (checks : Nat -> ProxyHealth) (routes : AccountRoutes) {proxies list : List String}
    {enabled : Bool} (hlist : normalizeProxies cfg proxies enabled = .ok list)
    (hbuilds : forall url, url ∈ list -> cfg.builds url = true) :
    exists r, MovesLittle cfg order list checks routes r := by
  rcases rebalanceAssignmentsLocked_spec order list checks routes hbuilds with
    ⟨r, -, -, hlittle⟩
  refine ⟨r, hlittle (List.Nodup.sublist (List.take_sublist _ _) ?_)⟩
  have hfree : (list.filter fun url => boundTo routes.assignments url = 0).Nodup :=
    (normalizeProxies_nodup hlist).filter _
  rw [← List.zipIdx_map_fst 0 (list.filter _)] at hfree
  exact hfree.sublist (List.filter_sublist.map Prod.fst)

/-!
## The sections of a rebalancing
-/

/-- A task comes to its end, and no other one takes a step meanwhile. -/
inductive Finishes (cfg : ProxyConfig) (o : Outside) :
    ProxyManager -> ProxyTask -> ProxyManager -> Prop where
  | done {m : ProxyManager} : Finishes cfg o m .done m
  | next {m last : ProxyManager} {task : ProxyTask} {x : Section} (free writing : Bool)
      (h : m.advance cfg free writing o task = some x)
      (hrest : Finishes cfg o x.manager x.task last) : Finishes cfg o m task last

section Sections

variable {cfg : ProxyConfig} {o : Outside}

/-- The sections of a task that is not interrupted are the rounds of the loop. -/
theorem finishes_balance (spares : List (String × ProxyHealth)) (m : ProxyManager)
    (loads : Loads) {r : Rebalanced}
    (h : rebalanceLoop cfg .plain spares m.routes loads = some r) :
    Finishes cfg o (m.balance loads (okTargets spares)).manager
      (m.balance loads (okTargets spares)).task { m with routes := r.routes } := by
  induction spares generalizing m loads r with
  | nil =>
      cases h
      exact .done
  | cons spare rest ih =>
      rcases spare with ⟨target, health⟩
      rw [rebalanceLoop] at h
      rw [okTargets_cons]
      by_cases hhealth : health = .ok
      · rw [if_neg fun hnot => hnot hhealth] at h
        rw [if_pos hhealth, balance]
        dsimp only [IterationOrder.plain_loads, IterationOrder.plain_routes] at h
        cases hchoice : heaviest loads with
        | none =>
            rw [hchoice] at h
            cases h
            exact .done
        | some source =>
            simp only [hchoice] at h
            cases hlast : lastAccountOn m.routes.assignments source with
            | none =>
                simp only [hlast] at h
                refine .next true true ?_ (ih m loads h)
                rw [advance, hlast]
            | some id =>
                simp only [hlast] at h
                by_cases hbuilds : cfg.builds target = true
                · rw [if_pos hbuilds] at h
                  cases hlookup : loads.lookup source with
                  | none =>
                      simp only [hlookup] at h
                      cases h
                  | some count =>
                      simp only [hlookup] at h
                      rcases Option.map_eq_some_iff.mp h with ⟨last, hlast', hr⟩
                      rw [← hr]
                      have hrest := ih { m with routes := m.routes.assign id target true }
                        (moveLoad loads source target) hlast'
                      have hshared : Finishes cfg o
                          { m with routes := m.routes.assign id target true }
                          (.sharing id target (.balance (moveLoad loads source target)
                            (okTargets rest))) { m with routes := last.routes } :=
                        .next true true rfl hrest
                      have hassigned : Finishes cfg o m (.assigning id target true
                          (.balance (moveLoad loads source target) (okTargets rest)))
                          { m with routes := last.routes } :=
                        .next true true rfl hshared
                      have helected : m.advance cfg true true o
                          (.electing loads source target (okTargets rest)) =
                            some ⟨m, .assigning id target true
                              (.balance (moveLoad loads source target) (okTargets rest)),
                              []⟩ := by
                        rw [advance, hlast]
                        exact if_pos hbuilds
                      exact .next true true helected hassigned
                · rw [if_neg hbuilds] at h
                  refine .next true true ?_ (ih m loads h)
                  rw [advance, hlast]
                  exact if_neg hbuilds
      · rw [if_pos hhealth] at h
        rw [if_neg hhealth]
        exact ih m loads h

theorem okTargets_eq_filter {free : List String} {checks : Nat -> ProxyHealth}
    {health : String -> ProxyHealth}
    (h : forall spare, spare ∈ free.zipIdx -> checks spare.2 = health spare.1) :
    okTargets (free.zipIdx.map fun spare => (spare.1, checks spare.2)) =
      free.filter fun url => health url = .ok := by
  have hchecks : (free.zipIdx.map fun spare => (spare.1, checks spare.2)) =
      (free.zipIdx.map Prod.fst).map fun url => (url, health url) := by
    rw [List.map_map]
    apply List.map_congr_left
    intro spare hspare
    rw [h spare hspare]
    rfl
  rw [hchecks, List.zipIdx_map_fst, okTargets, List.filter_map, List.map_map]
  exact List.map_id _

/-- A rebalancing that is not interrupted, when a probe depends on the URL only. -/
theorem finishes_weighing {m : ProxyManager} {entries : List String}
    {checks : Nat -> ProxyHealth} {r : Rebalanced}
    (hchecks : forall spare, spare ∈ (entries.filter fun url =>
      url ∉ (countLoads m.routes.assignments).keys).zipIdx ->
        checks spare.2 = o.health spare.1)
    (h : rebalanceAssignmentsLocked cfg .plain entries checks m.routes = some r) :
    Finishes cfg o m (.weighing entries) { m with routes := r.routes } := by
  unfold rebalanceAssignmentsLocked at h
  dsimp only [IterationOrder.plain_routes] at h
  by_cases hany : ((countLoads m.routes.assignments).entries.any
      fun e => decide (1 < e.2)) = true
  · rw [if_pos hany] at h
    have hrest := finishes_balance (o := o) _ m _ h
    rw [okTargets_eq_filter hchecks] at hrest
    have hprobed : Finishes cfg o m (.testingSpares (countLoads m.routes.assignments)
        (entries.filter fun url => url ∉ (countLoads m.routes.assignments).keys))
        { m with routes := r.routes } := .next true true rfl hrest
    exact .next true true (if_pos hany) hprobed
  · rw [if_neg hany] at h
    cases h
    exact .next true true (if_neg hany) .done

end Sections

end ProxyManager

end HifiApi
