import HifiApi.Accounts.Shared
import HifiApi.Fleet.Restore

/-!
# What one merge leaves behind

A merge with nobody else at work: no account is lost, the readable records of
the index are in memory and in the table, the newer of two records is held, and
a second merge finds nothing to do.  What the merge does not reach is Redis
itself: the push at its end runs only when the index lists something, and only
for accounts the index does not list.
-/

namespace HifiApi

/-- A record in Redis is that of an account: the published form of it, or one
that is read back as it. -/
def RemoteAccount.Publishes (v : Value) (r : AccountState) : Prop :=
  v = accountToJson r ∨ shared v = r.shared

/-- A record taken over, restored or published is not newer than what is held,
and what cannot be restored now cannot be restored later. -/
structure Collection.Settles (C : Collection) : Prop where
  adopted : forall r v r', C.adopt r v = some r' -> C.adopt r' v = none
  restored : forall now id v r, C.restore now id v = some r ->
    C.adopt r v = none
  published : forall r, C.adopt r (C.toPayload r) = none
  unreadable : forall now now' id v, C.restore now id v = none ->
    C.restore now' id v = none

namespace Roster

variable {C : Collection}

section

variable {clock clock' : String -> I64} {m : Roster C} {s : Shelf C}
  {id : String}

/-!
## What is published
-/

theorem mem_unindexed {entries : List (String × Option C.Payload)} {r : C.Rec} :
    r ∈ (m.unindexed entries).map m.memory.cells <->
      m.lookup (C.idOf r) = some r ∧ C.idOf r ∉ entries.map Prod.fst := by
  unfold unindexed lookup
  rw [List.mem_map, Arena.lookup_eq_some]
  constructor
  · intro h
    rcases h with ⟨p, hp, hcell⟩
    rcases List.mem_filter.mp hp with ⟨hroster, hmissing⟩
    rw [hcell] at hmissing
    exact ⟨⟨p, hroster, by rw [hcell], hcell⟩, of_decide_eq_true hmissing⟩
  · intro h
    rcases h with ⟨⟨p, hp, _, hcell⟩, hmissing⟩
    refine ⟨p, List.mem_filter.mpr ⟨hp, decide_eq_true ?_⟩, hcell⟩
    rw [hcell]
    exact hmissing

theorem nodup_unindexed (m : Roster C)
    (entries : List (String × Option C.Payload)) :
    (((m.unindexed entries).map m.memory.cells).map C.idOf).Nodup := by
  have hdistinct := m.memory.distinct
  unfold unindexed
  rw [List.map_map]
  exact hdistinct.sublist (List.filter_sublist.map _)

/-- The second half of a merge, over the roster of the first. -/
theorem mergeFromRedis_shelf (hne : s.index ≠ []) :
    (m.mergeFromRedis clock s).2 =
      (((m.mergeFromRedis clock s).1.unindexed (s.mget s.index)).map
        (m.mergeFromRedis clock s).1.memory.cells).foldl Shelf.push s := by
  unfold mergeFromRedis
  rw [if_neg hne]

theorem mem_index_mergeFromRedis (hne : s.index ≠ []) :
    id ∈ (m.mergeFromRedis clock s).2.index <->
      id ∈ s.index ∨ id ∈ (m.mergeFromRedis clock s).1.memory.keys := by
  rw [mergeFromRedis_shelf hne, Shelf.mem_pushAll_index]
  constructor
  · intro h
    rcases h with h | h
    · exact Or.inl h
    · rcases List.mem_map.mp h with ⟨r, hr, hid⟩
      rw [mem_unindexed, hid] at hr
      exact Or.inr (mem_keys_iff_lookup.mpr ⟨r, hr.left⟩)
  · intro h
    by_cases hindexed : id ∈ s.index
    · exact Or.inl hindexed
    · rcases h with h | h
      · exact Or.inl h
      · rcases mem_keys_iff_lookup.mp h with ⟨r, hr⟩
        have hid : C.idOf r = id := idOf_lookup hr
        refine Or.inr (List.mem_map.mpr ⟨r, mem_unindexed.mpr ?_, hid⟩)
        rw [hid, Shelf.map_fst_mget]
        exact ⟨hr, hindexed⟩

theorem record_mergeFromRedis_of_mem (h : id ∈ s.index) :
    (m.mergeFromRedis clock s).2.record id = s.record id := by
  rw [mergeFromRedis_shelf (List.ne_nil_of_mem h)]
  apply Shelf.pushAll_record_of_not_mem
  intro hmem
  rcases List.mem_map.mp hmem with ⟨r, hr, hid⟩
  rw [mem_unindexed, hid, Shelf.map_fst_mget] at hr
  exact hr.right h

/-- An account the index does not list is published. -/
theorem record_mergeFromRedis_of_not_mem (hne : s.index ≠ [])
    (h : id ∉ s.index) {r : C.Rec} (hr : m.lookup id = some r) :
    (m.mergeFromRedis clock s).2.record id = some (C.toPayload r) := by
  have hid : C.idOf r = id := idOf_lookup hr
  have hheld : (m.mergeFromRedis clock s).1.lookup id = some r := by
    rw [lookup_mergeFromRedis_of_not_mem h, hr]
  rw [mergeFromRedis_shelf hne, ← hid]
  apply Shelf.pushAll_record (nodup_unindexed _ _)
  rw [mem_unindexed, hid, Shelf.map_fst_mget]
  exact ⟨hheld, h⟩

/-!
## No account is lost
-/

theorem mem_keys_mergeFromRedis (h : id ∈ m.memory.keys) :
    id ∈ (m.mergeFromRedis clock s).1.memory.keys := by
  unfold mergeFromRedis
  split
  · exact h
  · exact mem_keys_mergeAll.mpr (Or.inl h)

/-!
## A second merge
-/

/-- An entry that neither beats a record nor restores one is skipped. -/
theorem mergeOne_eq_self {entry : String × Option C.Payload}
    (hadopt : forall v r, entry.2 = some v -> m.lookup entry.1 = some r ->
      C.adopt r v = none)
    (hrestore : forall v, entry.2 = some v -> m.lookup entry.1 = none ->
      C.restore (clock entry.1) entry.1 v = none) :
    m.mergeOne clock entry = m := by
  rcases m.mergeOne_cases clock entry with
    hsame | ⟨v, p, r, hv, hfind, htaken, _⟩ | ⟨v, r, hv, hrestored, hkey, _⟩
  · exact hsame
  · have hnone := hadopt v _ hv (Arena.lookup_of_find? hfind)
    rw [htaken] at hnone
    cases hnone
  · rw [C.restore_idOf hrestored] at hkey
    have hnone := hrestore v hv (lookup_eq_none.mpr hkey)
    rw [hrestored] at hnone
    cases hnone

theorem mergeAll_eq_self {entries : List (String × Option C.Payload)}
    (h : forall entry, entry ∈ entries -> m.mergeOne clock entry = m) :
    m.mergeAll clock entries = m := by
  induction entries with
  | nil =>
      rfl
  | cons entry rest ih =>
      rw [mergeAll_cons, h entry (by simp)]
      apply ih
      intro entry' hentry'
      exact h entry' (by simp [hentry'])

theorem mergeFromRedis_eq_self
    (hadopt : forall id v r, id ∈ s.index -> s.record id = some v ->
      m.lookup id = some r -> C.adopt r v = none)
    (hrestore : forall id v, id ∈ s.index -> s.record id = some v ->
      m.lookup id = none -> C.restore (clock id) id v = none)
    (hindexed : s.index ≠ [] -> forall id, id ∈ m.memory.keys -> id ∈ s.index) :
    m.mergeFromRedis clock s = (m, s) := by
  unfold mergeFromRedis
  split
  · rfl
  · rename_i hne
    have hmerged : m.mergeAll clock (s.mget s.index) = m := by
      apply mergeAll_eq_self
      intro entry hentry
      rcases entry with ⟨id, payload⟩
      rcases Shelf.mem_mget.mp hentry with ⟨hid, hrecord⟩
      apply mergeOne_eq_self
      · intro v r hv hr
        exact hadopt id v r hid (hrecord.trans hv) hr
      · intro v hv hr
        exact hrestore id v hid (hrecord.trans hv) hr
    have hnothing : (m.unindexed (s.mget s.index)).map m.memory.cells = [] := by
      apply List.eq_nil_iff_forall_not_mem.mpr
      intro r hr
      rw [mem_unindexed, Shelf.map_fst_mget] at hr
      exact hr.right (hindexed hne _ (mem_keys_iff_lookup.mpr ⟨r, hr.left⟩))
    dsimp only
    rw [hmerged, hnothing]
    rfl

/-- A merge leaves nothing for a second one to do. -/
theorem mergeFromRedis_twice (hC : C.Settles) (clock clock' : String -> I64)
    (m : Roster C) (s : Shelf C) :
    (m.mergeFromRedis clock s).1.mergeFromRedis clock'
        (m.mergeFromRedis clock s).2 =
      m.mergeFromRedis clock s := by
  by_cases hne : s.index = []
  · have hsame : m.mergeFromRedis clock s = (m, s) := by
      unfold mergeFromRedis
      rw [if_pos hne]
    rw [hsame]
    unfold mergeFromRedis
    rw [if_pos hne]
  · apply mergeFromRedis_eq_self
    · intro id v r _ hv hr
      by_cases hid : id ∈ s.index
      · rw [record_mergeFromRedis_of_mem hid] at hv
        rw [lookup_mergeFromRedis_of_mem hid, hv] at hr
        cases hold : m.lookup id with
        | none =>
            rw [hold] at hr
            exact hC.restored _ _ _ _ hr
        | some old =>
            rw [hold] at hr
            cases hadopt : C.adopt old v with
            | none =>
                have heq : old = r := by simpa [mergedRecord, hadopt] using hr
                rw [← heq]
                exact hadopt
            | some r' =>
                have heq : r' = r := by simpa [mergedRecord, hadopt] using hr
                rw [← heq]
                exact hC.adopted _ _ _ hadopt
      · rw [lookup_mergeFromRedis_of_not_mem hid] at hr
        rw [record_mergeFromRedis_of_not_mem hne hid hr] at hv
        cases hv
        exact hC.published r
    · intro id v hid hv hr
      rcases (mem_index_mergeFromRedis hne).mp hid with hindexed | hkey
      · rw [record_mergeFromRedis_of_mem hindexed] at hv
        rw [lookup_mergeFromRedis_of_mem hindexed, hv] at hr
        cases hold : m.lookup id with
        | none =>
            rw [hold] at hr
            exact hC.unreadable _ _ _ _ hr
        | some old =>
            rw [hold] at hr
            cases hr
      · exact absurd hkey (lookup_eq_none.mp hr)
    · intro _ id hkey
      exact (mem_index_mergeFromRedis hne).mpr (Or.inr hkey)

end

/-!
## The merge of accounts
-/

open RemoteAccount

/-- A merge of the accounts went as announced. -/
structure United (clock clock' : String -> I64) (m m' : Roster accounts)
    (s s' : Shelf accounts) : Prop where
  kept : forall id, id ∈ m.memory.keys -> id ∈ m'.memory.keys
  restored : forall id v, id ∈ s.index -> s.record id = some (some v) ->
    id ∈ m'.memory.keys ∧ (m'.table.lookup id).isSome = true
  newest : forall id r, m.lookup id = some r ->
    exists r', m'.lookup id = some r' ∧ r.updatedAt ≤ r'.updatedAt ∧
      forall v, id ∈ s.index -> s.record id = some (some v) ->
        if r.updatedAt < updatedAt v then r'.shared = shared v else r' = r
  published : forall id r', m'.lookup id = some r' ->
    id ∈ s'.index ∧ exists v, s'.record id = some (some v) ∧ Publishes v r'
  settled : m'.mergeFromRedis clock' s' = (m', s')

/-- The index lists an account unless there is none here; each account here
that it lists has, under its id, its own record or a newer one, and a row. -/
structure Comparable (m : Roster accounts) (s : Shelf accounts) : Prop where
  listed : s.index = [] -> m.memory.keys = []
  readable : forall id r, id ∈ s.index -> m.lookup id = some r ->
    exists v, s.record id = some (some v) ∧
      (r.updatedAt < updatedAt v ∨ Publishes v r)
  stored : forall id, id ∈ s.index -> id ∈ m.memory.keys ->
    (m.table.lookup id).isSome = true

theorem accounts_settles : accounts.Settles where
  adopted := by
    intro r text r' h
    rcases Option.bind_eq_some_iff.mp h with ⟨v, htext, hv⟩
    show text.bind (RemoteAccount.adopt r') = none
    rw [htext, Option.bind_some, adopt_eq_none]
    have hshared : r'.updatedAt = updatedAt v :=
      congrArg AccountState.Shared.updatedAt (adopt_spec hv).right.right
    exact le_of_eq hshared.symm
  restored := by
    intro now id text r h
    rcases Option.map_eq_some_iff.mp h with ⟨v, htext, hv⟩
    show text.bind (RemoteAccount.adopt r) = none
    rw [htext, Option.bind_some, adopt_eq_none, ← hv]
    exact le_refl _
  published := by
    intro r
    show RemoteAccount.adopt r (accountToJson r) = none
    rw [adopt_eq_none, updatedAt_accountToJson]
  unreadable := by
    intro now now' id text h
    show text.map (RemoteAccount.restore now' id) = none
    have htext : text = none := Option.map_eq_none_iff.mp h
    rw [htext]
    rfl

section

variable {clock clock' : String -> I64} {m : Roster accounts}
  {s : Shelf accounts} {id : String}

/-- The newer of the two records of an id known on both sides is held. -/
theorem lookup_newest {r : AccountState} (hr : m.lookup id = some r) :
    exists r', (m.mergeFromRedis clock s).1.lookup id = some r' ∧
      r.updatedAt ≤ r'.updatedAt ∧
      forall v, id ∈ s.index -> s.record id = some (some v) ->
        if r.updatedAt < updatedAt v then r'.shared = shared v else r' = r := by
  by_cases hid : id ∈ s.index
  · rw [lookup_mergeFromRedis_of_mem hid, hr]
    cases hrecord : s.record id with
    | none =>
        refine ⟨r, rfl, le_refl _, ?_⟩
        intro v _ hv
        cases hv
    | some text =>
        cases text with
        | none =>
            refine ⟨r, rfl, le_refl _, ?_⟩
            intro v _ hv
            cases hv
        | some w =>
            cases hadopt : RemoteAccount.adopt r w with
            | none =>
                refine ⟨r, by simp [mergedRecord, hadopt], le_refl _, ?_⟩
                intro v _ hv
                cases hv
                rw [if_neg (not_lt_of_ge (adopt_eq_none.mp hadopt))]
            | some r' =>
                have hspec := adopt_spec hadopt
                have hstamp : r'.updatedAt = updatedAt w :=
                  congrArg AccountState.Shared.updatedAt hspec.right.right
                refine ⟨r', by simp [mergedRecord, hadopt], ?_, ?_⟩
                · rw [hstamp]
                  exact le_of_lt hspec.left
                · intro v _ hv
                  cases hv
                  rw [if_pos hspec.left]
                  exact hspec.right.right
  · refine ⟨r, (lookup_mergeFromRedis_of_not_mem hid).trans hr, le_refl _, ?_⟩
    intro v hindexed
    exact absurd hindexed hid

/-- A readable record of the index is in memory after the merge. -/
theorem held_of_readable {v : Value} (hid : id ∈ s.index)
    (hv : s.record id = some (some v)) :
    id ∈ (m.mergeFromRedis clock s).1.memory.keys := by
  rw [mem_keys_iff_lookup, lookup_mergeFromRedis_of_mem hid, hv]
  cases m.lookup id with
  | none => exact ⟨_, rfl⟩
  | some r => exact ⟨_, rfl⟩

/-!
## Rows
-/

theorem row_mergeOne_isSome {entry : String × Option (Option Value)}
    (h : (m.table.lookup id).isSome = true) :
    ((m.mergeOne clock entry).table.lookup id).isSome = true := by
  rcases m.mergeOne_cases clock entry with
    hsame | ⟨v, p, r, _, _, _, heq⟩ | ⟨v, r, _, hrestore, _, heq⟩
  · rw [hsame]
    exact h
  · rw [heq]
    dsimp only
    rw [Table.lookup_update]
    split <;> simp [h]
  · rw [heq]
    dsimp only
    unfold Table.insertUnless
    split
    · exact h
    · unfold Table.lookup at h ⊢
      rw [List.find?_append]
      simp [h]

/-- An unknown id gets a row, unless it has one. -/
theorem row_mergeOne_of_unknown (hunknown : m.lookup id = none) (v : Value) :
    ((m.mergeOne clock (id, some (some v))).table.lookup id).isSome = true := by
  rcases m.mergeOne_cases clock (id, some (some v)) with
    hsame | ⟨_, p, _, _, hfind, _, _⟩ | ⟨_, r, _, hrestore, _, heq⟩
  · have hadded := lookup_mergeOne clock m (id, some (some v)) id
    rw [hsame, if_pos rfl, hunknown] at hadded
    cases hadded
  · have hknown : m.lookup id = some (m.memory.cells p) :=
      Arena.lookup_of_find? hfind
    rw [hknown] at hunknown
    cases hunknown
  · have hr : (AccountRow.ofAccount r).id = id := accounts.restore_idOf hrestore
    rw [heq]
    show ((m.table.insertUnless accounts.conflicts accounts.conflicts_of_rowId
      (AccountRow.ofAccount r)).lookup id).isSome = true
    unfold Table.insertUnless Table.lookup
    rw [List.find?_isSome]
    split
    · rename_i hconflict
      rcases List.any_eq_true.mp hconflict with ⟨w, hw, hsameId⟩
      have hid : (AccountRow.ofAccount r).id = w.id := of_decide_eq_true hsameId
      exact ⟨w, hw, decide_eq_true (hid.symm.trans hr)⟩
    · exact ⟨AccountRow.ofAccount r, by simp, decide_eq_true hr⟩

/-- Every readable entry has its row, once those that are known have theirs. -/
theorem row_mergeAll_isSome {entries : List (String × Option (Option Value))}
    (hdistinct : (entries.map Prod.fst).Nodup) {v : Value}
    (hentry : (id, some (some v)) ∈ entries)
    (hstored : id ∈ m.memory.keys -> (m.table.lookup id).isSome = true) :
    ((m.mergeAll clock entries).table.lookup id).isSome = true := by
  induction entries generalizing m with
  | nil =>
      cases hentry
  | cons entry rest ih =>
      rw [List.map_cons, List.nodup_cons] at hdistinct
      rw [mergeAll_cons]
      rcases List.mem_cons.mp hentry with heq | hrest
      · rw [← heq] at hdistinct ⊢
        rw [row_mergeAll_of_not_mem hdistinct.left]
        by_cases hknown : id ∈ m.memory.keys
        · exact row_mergeOne_isSome (hstored hknown)
        · exact row_mergeOne_of_unknown (lookup_eq_none.mpr hknown) v
      · have hne : id ≠ entry.1 := by
          intro heq
          apply hdistinct.left
          rw [← heq]
          exact List.mem_map.mpr ⟨_, hrest, rfl⟩
        apply ih hdistinct.right hrest
        intro hkey
        rw [mem_keys_iff_lookup, lookup_mergeOne, if_neg hne,
          ← mem_keys_iff_lookup] at hkey
        exact row_mergeOne_isSome (hstored hkey)

theorem row_of_readable {v : Value} (hid : id ∈ s.index)
    (hv : s.record id = some (some v))
    (hstored : id ∈ m.memory.keys -> (m.table.lookup id).isSome = true) :
    ((m.mergeFromRedis clock s).1.table.lookup id).isSome = true := by
  have hdistinct : ((s.mget s.index).map Prod.fst).Nodup :=
    (congrArg List.Nodup (Shelf.map_fst_mget s s.index)).mpr s.once
  unfold mergeFromRedis
  rw [if_neg (List.ne_nil_of_mem hid)]
  exact row_mergeAll_isSome hdistinct (Shelf.mem_mget.mpr ⟨hid, hv⟩) hstored

/-- A known id has a row after the merge only if it had one before. -/
theorem row_of_merged {r : AccountState} (hr : m.lookup id = some r)
    (hid : id ∈ s.index)
    (h : ((m.mergeFromRedis clock s).1.table.lookup id).isSome = true) :
    (m.table.lookup id).isSome = true := by
  rw [row_mergeFromRedis_of_mem hid hr] at h
  unfold mergedRow at h
  split at h
  · exact h
  · rw [Option.isSome_map] at h
    exact h

/-!
## Redis after the merge
-/

theorem published_of_comparable (h : Comparable m s) {r' : AccountState}
    (hr' : (m.mergeFromRedis clock s).1.lookup id = some r') :
    id ∈ (m.mergeFromRedis clock s).2.index ∧
      exists v, (m.mergeFromRedis clock s).2.record id = some (some v) ∧
        Publishes v r' := by
  by_cases hid : id ∈ s.index
  · have hne : s.index ≠ [] := List.ne_nil_of_mem hid
    constructor
    · exact (mem_index_mergeFromRedis hne).mpr (Or.inl hid)
    · rw [record_mergeFromRedis_of_mem hid]
      rw [lookup_mergeFromRedis_of_mem hid] at hr'
      cases hr : m.lookup id with
      | none =>
          rw [hr] at hr'
          rcases hrecord : s.record id with _ | text
          · rw [hrecord] at hr'
            cases hr'
          · rw [hrecord] at hr'
            rcases Option.map_eq_some_iff.mp hr' with ⟨v, htext, hv⟩
            refine ⟨v, by rw [htext], Or.inr ?_⟩
            rw [← hv]
            rfl
      | some r =>
          rcases h.readable id r hid hr with ⟨v, hv, hcompared⟩
          refine ⟨v, hv, ?_⟩
          rw [hr, hv] at hr'
          cases hadopt : RemoteAccount.adopt r v with
          | none =>
              have heq : r = r' := by simpa [mergedRecord, hadopt] using hr'
              rw [← heq]
              rcases hcompared with hnewer | hpublishes
              · exact absurd hnewer (not_lt_of_ge (adopt_eq_none.mp hadopt))
              · exact hpublishes
          | some taken =>
              have heq : taken = r' := by
                simpa [mergedRecord, hadopt] using hr'
              rw [← heq]
              exact Or.inr (adopt_spec hadopt).right.right.symm
  · rw [lookup_mergeFromRedis_of_not_mem hid] at hr'
    have hne : s.index ≠ [] := by
      intro hnil
      have hkey : id ∈ m.memory.keys := mem_keys_iff_lookup.mpr ⟨r', hr'⟩
      rw [h.listed hnil] at hkey
      cases hkey
    constructor
    · apply (mem_index_mergeFromRedis hne).mpr
      apply Or.inr
      rw [mem_keys_iff_lookup, lookup_mergeFromRedis_of_not_mem hid]
      exact ⟨r', hr'⟩
    · exact ⟨accountToJson r', record_mergeFromRedis_of_not_mem hne hid hr',
        Or.inl rfl⟩

theorem comparable_of_united
    (h : United clock clock' m (m.mergeFromRedis clock s).1 s
      (m.mergeFromRedis clock s).2) : Comparable m s where
  listed := by
    intro hnil
    apply List.eq_nil_iff_forall_not_mem.mpr
    intro id hkey
    rcases mem_keys_iff_lookup.mp hkey with ⟨r, hr⟩
    have hsame : m.mergeFromRedis clock s = (m, s) := by
      unfold mergeFromRedis
      rw [if_pos hnil]
    have hindexed := h.published id r (by rw [hsame]; exact hr)
    rw [hsame, hnil] at hindexed
    cases hindexed.left
  readable := by
    intro id r hid hr
    rcases h.newest id r hr with ⟨r', hr', _, hnewest⟩
    rcases (h.published id r' hr').right with ⟨v, hv, hpublishes⟩
    rw [record_mergeFromRedis_of_mem hid] at hv
    refine ⟨v, hv, ?_⟩
    have hheld := hnewest v hid hv
    split at hheld
    · rename_i hnewer
      exact Or.inl hnewer
    · rw [hheld] at hpublishes
      exact Or.inr hpublishes
  stored := by
    intro id hid hkey
    rcases mem_keys_iff_lookup.mp hkey with ⟨r, hr⟩
    rcases h.newest id r hr with ⟨r', hr', _, _⟩
    rcases (h.published id r' hr').right with ⟨v, hv, _⟩
    rw [record_mergeFromRedis_of_mem hid] at hv
    exact row_of_merged hr hid (h.restored id v hid hv).right

/-- A merge is a union that settles in one pass exactly when nothing here is
left out of the comparison with Redis. -/
theorem united_iff_comparable (clock clock' : String -> I64)
    (m : Roster accounts) (s : Shelf accounts) :
    United clock clock' m (m.mergeFromRedis clock s).1 s
        (m.mergeFromRedis clock s).2 <->
      Comparable m s := by
  constructor
  · exact comparable_of_united
  · intro h
    constructor
    · intro id hkey
      exact mem_keys_mergeFromRedis hkey
    · intro id v hid hv
      exact ⟨held_of_readable hid hv, row_of_readable hid hv (h.stored id hid)⟩
    · intro id r hr
      exact lookup_newest hr
    · intro id r' hr'
      exact published_of_comparable h hr'
    · exact mergeFromRedis_twice accounts_settles clock clock' m s

/-- The index of an empty Redis lists nothing, so the one account is not
pushed. -/
theorem not_united_emptyRedis :
    ¬ forall (clock clock' : String -> I64) (m : Roster accounts)
        (s : Shelf accounts),
      United clock clock' m (m.mergeFromRedis clock s).1 s
        (m.mergeFromRedis clock s).2 := by
  intro h
  have hunited := h (fun _ => 0) (fun _ => 0) (Roster.reload ⟨Arena.empty, oneRow⟩)
    ⟨[], List.nodup_nil, fun _ => none⟩
  have hkeys := (comparable_of_united hunited).listed rfl
  exact absurd hkeys (by decide)

end

end Roster

end HifiApi
