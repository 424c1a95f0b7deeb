import HifiApi.Proxies.Routes
import Mathlib.Data.List.Induction
import Mathlib.Tactic.Common

/-!
# The spread of accounts over proxies

A new account gets the proxy that comes first among the candidates, one with the
fewest accounts.  Proxies that carry equally many accounts, up to one, still do so
afterwards, whatever the hashes of the accounts are.
-/

namespace HifiApi

namespace ProxyManager

/-- The number of accounts that are bound to a proxy. -/
def boundTo (assignments : Assignments) (url : String) : Nat :=
  assignments.entries.countP fun e => e.2.url = url

/-- The numbers of accounts of any two entries differ by at most one. -/
def Even (entries : List String) (assignments : Assignments) : Prop :=
  forall url, url ∈ entries -> forall other, other ∈ entries ->
    boundTo assignments url ≤ boundTo assignments other + 1

/-- A new account is bound to the first of its candidates. -/
def bindNew (cfg : ProxyConfig) (entries : List String) (assignments : Assignments)
    (id : String) : Assignments :=
  match (orderedCandidates cfg id entries assignments none).head? with
  | some url => assignments.insert id ⟨url, 0, true⟩
  | none => assignments

/-- Accounts that come one after the other. -/
def bindAll (cfg : ProxyConfig) (entries ids : List String) : Assignments :=
  ids.foldl (bindNew cfg entries) ∅

/-!
## The order of the candidates
-/

theorem rankLe_iff {a b : Nat × Nat × Nat} :
    rankLe a b = true <->
      a.1 < b.1 ∨ a.1 = b.1 ∧ (a.2.1 < b.2.1 ∨ a.2.1 = b.2.1 ∧ a.2.2 ≤ b.2.2) := by
  simp only [rankLe, Bool.or_eq_true, Bool.and_eq_true, decide_eq_true_eq, beq_iff_eq]

theorem rankLe_total (a b : Nat × Nat × Nat) :
    rankLe a b = true ∨ rankLe b a = true := by
  rw [rankLe_iff, rankLe_iff]
  omega

theorem rankLe_trans {a b c : Nat × Nat × Nat} (hab : rankLe a b = true)
    (hbc : rankLe b c = true) : rankLe a c = true := by
  rw [rankLe_iff] at hab hbc ⊢
  omega

section Candidates

variable (cfg : ProxyConfig) (id : String) (entries : List String)
  (assignments : Assignments) (avoid : Option String)

/-- The candidates are the entries. -/
theorem perm_orderedCandidates :
    (orderedCandidates cfg id entries assignments avoid).Perm entries := by
  unfold orderedCandidates
  dsimp only
  have hsorted := List.perm_insertionSort
    (fun a b => rankLe (candidateRank cfg id entries assignments avoid a)
      (candidateRank cfg id entries assignments avoid b) = true)
    (entries.zipIdx.map Prod.swap)
  have hperm := hsorted.map Prod.snd
  rw [List.map_map] at hperm
  have hentries : entries.zipIdx.map (Prod.snd ∘ Prod.swap) = entries :=
    List.zipIdx_map_fst 0 entries
  rw [hentries] at hperm
  exact hperm

/-- Candidates come in the order of their ranks, in which the avoided one is last
and one with fewer accounts is before one with more. -/
theorem pairwise_orderedCandidates :
    (orderedCandidates cfg id entries assignments avoid).Pairwise fun a b =>
      (some b ≠ avoid -> some a = avoid -> entries.length ≤ 1) ∧
        (avoid = none -> boundTo assignments a ≤ boundTo assignments b) := by
  unfold orderedCandidates
  dsimp only
  have htotal : Std.Total fun a b =>
      rankLe (candidateRank cfg id entries assignments avoid a)
        (candidateRank cfg id entries assignments avoid b) = true :=
    ⟨fun a b => rankLe_total _ _⟩
  have htrans : IsTrans (Nat × String) fun a b =>
      rankLe (candidateRank cfg id entries assignments avoid a)
        (candidateRank cfg id entries assignments avoid b) = true :=
    ⟨fun _ _ _ => rankLe_trans⟩
  have hsorted := List.pairwise_insertionSort
    (fun a b => rankLe (candidateRank cfg id entries assignments avoid a)
      (candidateRank cfg id entries assignments avoid b) = true)
    (entries.zipIdx.map Prod.swap)
  rw [List.pairwise_map]
  refine hsorted.imp ?_
  intro a b hle
  simp only [rankLe_iff, candidateRank] at hle
  constructor
  · intro hb ha
    by_contra hmany
    rw [if_pos ⟨ha, by omega⟩, if_neg fun h => hb h.left] at hle
    omega
  · intro hnone
    rw [if_neg fun h => Option.some_ne_none _ (h.left.trans hnone),
      if_neg fun h => Option.some_ne_none _ (h.left.trans hnone)] at hle
    unfold boundTo
    omega

theorem exists_first (h : entries ≠ []) :
    exists first, (orderedCandidates cfg id entries assignments avoid).head? =
      some first ∧ first ∈ entries := by
  have hperm := perm_orderedCandidates cfg id entries assignments avoid
  cases hlist : orderedCandidates cfg id entries assignments avoid with
  | nil =>
      rw [hlist] at hperm
      exact absurd hperm.symm.eq_nil h
  | cons first rest =>
      rw [hlist] at hperm
      exact ⟨first, rfl, hperm.mem_iff.mp List.mem_cons_self⟩

variable {cfg id entries assignments}

/-- The first candidate carries the fewest accounts, when none is avoided. -/
theorem boundTo_first_le {first : String}
    (h : (orderedCandidates cfg id entries assignments none).head? = some first)
    {url : String} (hurl : url ∈ entries) :
    boundTo assignments first ≤ boundTo assignments url := by
  rcases List.head?_eq_some_iff.mp h with ⟨rest, heq⟩
  have hmem := (perm_orderedCandidates cfg id entries assignments none).mem_iff.mpr hurl
  have hpairs := pairwise_orderedCandidates cfg id entries assignments none
  rw [heq] at hmem hpairs
  rcases List.mem_cons.mp hmem with hsame | hlater
  · rw [hsame]
  · exact ((List.pairwise_cons.mp hpairs).left url hlater).right rfl

/-- An avoided proxy is behind all others. -/
theorem avoided_last
    (htwo : exists url, url ∈ entries ∧ exists other, other ∈ entries ∧ url ≠ other) :
    (orderedCandidates cfg id entries assignments avoid).Pairwise fun a b =>
      some a = avoid -> some b = avoid := by
  have hlength : 1 < entries.length := by
    rcases htwo with ⟨url, hurl, other, hother, hne⟩
    by_contra hshort
    have hsame : url = other := by
      rcases List.getElem_of_mem hurl with ⟨i, hi, hget⟩
      rcases List.getElem_of_mem hother with ⟨j, hj, hget'⟩
      have hij : i = j := by omega
      subst hij
      exact hget.symm.trans hget'
    exact hne hsame
  refine (pairwise_orderedCandidates cfg id entries assignments avoid).imp ?_
  intro a b hpair ha
  by_contra hb
  have hshort := hpair.left hb ha
  omega

end Candidates

/-!
## New accounts
-/

section Binding

variable {cfg : ProxyConfig} {entries : List String} {assignments : Assignments}

theorem boundTo_insert {id : String} (h : id ∉ assignments) (route : AccountProxy)
    (url : String) :
    boundTo (assignments.insert id route) url =
      boundTo assignments url + if route.url = url then 1 else 0 := by
  unfold boundTo
  rw [AList.entries_insert_of_notMem h, List.countP_cons]
  simp only [decide_eq_true_eq]

/-- Binding a new account to the first candidate keeps the spread even. -/
theorem even_insert {id first : String} (heven : Even entries assignments)
    (hnew : id ∉ assignments)
    (hfirst : (orderedCandidates cfg id entries assignments none).head? = some first)
    (failures : Nat) (verified : Bool) :
    Even entries (assignments.insert id ⟨first, failures, verified⟩) := by
  intro url hurl other hother
  have hle := heven url hurl other hother
  have hleast := boundTo_first_le hfirst hother
  rw [boundTo_insert hnew, boundTo_insert hnew]
  dsimp only
  by_cases hsame : first = url
  · rw [if_pos hsame, ← hsame]
    omega
  · rw [if_neg hsame]
    omega

/-- New accounts that have been bound: evenly, and to entries. -/
structure Spread (entries ids : List String) (assignments : Assignments) : Prop where
  even : Even entries assignments
  bound : forall id, id ∈ assignments <-> id ∈ ids
  listed : forall url, boundTo assignments url ≠ 0 -> url ∈ entries

theorem spread_empty (entries : List String) : Spread entries [] ∅ where
  even := fun _ _ _ _ => Nat.zero_le _
  bound := fun id =>
    ⟨fun h => absurd h (AList.notMem_empty id), fun h => absurd h List.not_mem_nil⟩
  listed := fun _ h => absurd rfl h

/-- A new account gets an entry. -/
theorem Spread.bindNew (hne : entries ≠ []) {ids : List String} {id : String}
    (h : Spread entries ids assignments) (hnew : id ∉ ids) :
    Spread entries (ids ++ [id]) (bindNew cfg entries assignments id) := by
  rw [← h.bound] at hnew
  rcases exists_first cfg id entries assignments none hne with ⟨first, hfirst, hmem⟩
  have hbind : ProxyManager.bindNew cfg entries assignments id =
      assignments.insert id ⟨first, 0, true⟩ := by
    unfold ProxyManager.bindNew
    rw [hfirst]
  rw [hbind]
  constructor
  · exact even_insert h.even hnew hfirst 0 true
  · intro id'
    rw [AList.mem_insert, h.bound, List.mem_append, List.mem_singleton, or_comm]
  · intro url hurl
    rw [boundTo_insert hnew] at hurl
    by_cases hsame : first = url
    · rw [← hsame]
      exact hmem
    · rw [if_neg hsame] at hurl
      exact h.listed url hurl

theorem bindAll_append (cfg : ProxyConfig) (entries ids : List String) (id : String) :
    bindAll cfg entries (ids ++ [id]) =
      bindNew cfg entries (bindAll cfg entries ids) id := by
  unfold bindAll
  rw [List.foldl_append]
  rfl

theorem spread_bindAll (cfg : ProxyConfig) (hne : entries ≠ []) {ids : List String}
    (hids : ids.Nodup) : Spread entries ids (bindAll cfg entries ids) := by
  induction ids using List.reverseRecOn with
  | nil =>
      exact spread_empty entries
  | append_singleton ids id ih =>
      rcases List.nodup_append.mp hids with ⟨hbefore, _, hdisjoint⟩
      have hnew : id ∉ ids :=
        fun h => hdisjoint id h id (List.mem_singleton_self id) rfl
      rw [bindAll_append]
      exact (ih hbefore).bindNew hne hnew

/-- While an entry is unused, no two accounts have one proxy. -/
theorem Spread.distinct {ids : List String} (h : Spread entries ids assignments)
    {unused : String} (hmem : unused ∈ entries) (hunused : boundTo assignments unused = 0) :
    (assignments.entries.map fun e => e.2.url).Nodup := by
  rw [List.nodup_iff_count_le_one]
  intro url
  have hcount : (assignments.entries.map fun e => e.2.url).count url =
      boundTo assignments url := by
    rw [List.count, List.countP_map]
    apply List.countP_congr
    intro e _
    simp
  rw [hcount]
  by_cases hurl : boundTo assignments url = 0
  · omega
  · have hle := h.even url (h.listed url hurl) unused hmem
    omega

end Binding

/-- The first candidate keeps accounts evenly spread, new accounts get distinct
proxies while there is an unused one, the candidates are the entries, and an
avoided one is behind all others. -/
theorem orderedCandidates_spread (cfg : ProxyConfig) {entries : List String}
    (hne : entries ≠ []) :
    (forall assignments id, Even entries assignments -> id ∉ assignments ->
      exists first, (orderedCandidates cfg id entries assignments none).head? =
          some first ∧
        forall failures verified,
          Even entries (assignments.insert id ⟨first, failures, verified⟩)) ∧
    (forall ids, ids.Nodup ->
      (exists unused, unused ∈ entries ∧ boundTo (bindAll cfg entries ids) unused = 0) ->
      ((bindAll cfg entries ids).entries.map fun e => e.2.url).Nodup ∧
        forall id, exists first,
          (orderedCandidates cfg id entries (bindAll cfg entries ids) none).head? =
              some first ∧
            boundTo (bindAll cfg entries ids) first = 0) ∧
    forall id assignments avoid,
      (orderedCandidates cfg id entries assignments avoid).Perm entries ∧
        ((exists url, url ∈ entries ∧
            exists other, other ∈ entries ∧ url ≠ other) ->
          (orderedCandidates cfg id entries assignments avoid).Pairwise fun a b =>
            some a = avoid -> some b = avoid) := by
  refine ⟨?_, ?_, ?_⟩
  · intro assignments id heven hnew
    rcases exists_first cfg id entries assignments none hne with ⟨first, hfirst, _⟩
    exact ⟨first, hfirst, even_insert heven hnew hfirst⟩
  · rintro ids hids ⟨unused, hmem, hunused⟩
    refine ⟨(spread_bindAll cfg hne hids).distinct hmem hunused, ?_⟩
    intro id
    rcases exists_first cfg id entries (bindAll cfg entries ids) none hne with
      ⟨first, hfirst, _⟩
    have hle := boundTo_first_le hfirst hmem
    exact ⟨first, hfirst, by omega⟩
  · intro id assignments avoid
    exact ⟨perm_orderedCandidates cfg id entries assignments avoid, avoided_last avoid⟩

/-- Two proxies, and one account that has been bound. -/
theorem orderedCandidates_spread_two :
    ((bindAll ⟨false, fun _ => none, fun _ => true, id, fun _ => 5⟩
      ["http://one:1", "http://two:2"] ["a"]).entries.map fun e => e.2.url).Nodup := by
  have hspread := orderedCandidates_spread
    ⟨false, fun _ => none, fun _ => true, id, fun _ => 5⟩
    (List.cons_ne_nil "http://one:1" ["http://two:2"])
  exact (hspread.right.left ["a"] (by decide) ⟨"http://one:1", by decide, by decide⟩).left

end ProxyManager

end HifiApi
