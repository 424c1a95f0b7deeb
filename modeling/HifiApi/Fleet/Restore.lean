import HifiApi.Fleet.Protocol

/-!
# Restoring a backup

A restore replaces the rows of the table, loads them, merges with Redis, and
then publishes the roster and drops every other id from the index.  The merge
comes before the publication, so what Redis holds has its say first: the
restored rows survive exactly when nothing in Redis is restored or taken over
with other content.
-/

namespace HifiApi

variable {C : Collection}

namespace Shelf

/-- Publish one record. -/
def push (s : Shelf C) (r : C.Rec) : Shelf C :=
  (s.set (C.idOf r) (C.toPayload r)).sadd (C.idOf r)

theorem push_record (s : Shelf C) (r : C.Rec) (id : String) :
    (s.push r).record id =
      if id = C.idOf r then some (C.toPayload r) else s.record id := by
  unfold push
  rw [sadd_record, set_record]

theorem mem_push_index {s : Shelf C} {r : C.Rec} {id : String} :
    id ∈ (s.push r).index <-> id ∈ s.index ∨ id = C.idOf r := by
  unfold push
  rw [mem_sadd_index, set_index]

theorem mem_pushAll_index {s : Shelf C} {rs : List C.Rec} {id : String} :
    id ∈ (rs.foldl push s).index <-> id ∈ s.index ∨ id ∈ rs.map C.idOf := by
  induction rs generalizing s with
  | nil =>
      simp
  | cons r rest ih =>
      rw [List.foldl_cons, ih, mem_push_index, List.map_cons, List.mem_cons,
        or_assoc]

theorem pushAll_record_of_not_mem {s : Shelf C} {rs : List C.Rec} {id : String}
    (h : id ∉ rs.map C.idOf) : (rs.foldl push s).record id = s.record id := by
  induction rs generalizing s with
  | nil =>
      rfl
  | cons r rest ih =>
      rw [List.map_cons, List.mem_cons, not_or] at h
      rw [List.foldl_cons, ih h.right, push_record, if_neg h.left]

theorem pushAll_record {s : Shelf C} {rs : List C.Rec}
    (hdistinct : (rs.map C.idOf).Nodup) {r : C.Rec} (hr : r ∈ rs) :
    (rs.foldl push s).record (C.idOf r) = some (C.toPayload r) := by
  induction rs generalizing s with
  | nil =>
      cases hr
  | cons r' rest ih =>
      rw [List.map_cons, List.nodup_cons] at hdistinct
      rcases List.mem_cons.mp hr with heq | hrest
      · subst heq
        rw [List.foldl_cons, pushAll_record_of_not_mem hdistinct.left,
          push_record, if_pos rfl]
      · rw [List.foldl_cons]
        exact ih hdistinct.right hrest

theorem mem_sremAll_index {s : Shelf C} {ids : List String} {id : String} :
    id ∈ (ids.foldl srem s).index <-> id ∈ s.index ∧ id ∉ ids := by
  induction ids generalizing s with
  | nil =>
      simp
  | cons k rest ih =>
      rw [List.foldl_cons, ih, mem_srem_index, List.mem_cons, not_or, and_assoc]

theorem sremAll_record (s : Shelf C) (ids : List String) :
    (ids.foldl srem s).record = s.record := by
  induction ids generalizing s with
  | nil =>
      rfl
  | cons k rest ih =>
      rw [List.foldl_cons, ih, srem_record]

theorem delAll_index (s : Shelf C) (ids : List String) :
    (ids.foldl del s).index = s.index := by
  induction ids generalizing s with
  | nil =>
      rfl
  | cons k rest ih =>
      rw [List.foldl_cons, ih, del_index]

theorem delAll_record_of_not_mem {s : Shelf C} {ids : List String}
    {id : String} (h : id ∉ ids) :
    (ids.foldl del s).record id = s.record id := by
  induction ids generalizing s with
  | nil =>
      rfl
  | cons k rest ih =>
      rw [List.mem_cons, not_or] at h
      rw [List.foldl_cons, ih h.right, del_record, if_neg h.left]

end Shelf

namespace Roster

/-- A whole merge with no other task running. -/
def mergeFromRedis (clock : String -> I64) (m : Roster C) (s : Shelf C) :
    Roster C × Shelf C :=
  if s.index = [] then (m, s)
  else
    let entries := s.mget s.index
    let merged := m.mergeAll clock entries
    (merged,
      ((merged.unindexed entries).map merged.memory.cells).foldl Shelf.push s)

/-- {lit}`publish_all_to_redis`: publish the roster, then drop other ids. -/
def publishAll (m : Roster C) (s : Shelf C) : Shelf C :=
  let pushed := m.memory.records.foldl Shelf.push s
  let orphans := pushed.index.filter fun id => decide (id ∉ m.memory.keys)
  orphans.foldl Shelf.del (orphans.foldl Shelf.srem pushed)

/-- {lit}`reload_from_db`: drop the roster, load the rows, and merge. -/
def reloadFromDb (clock : String -> I64) (m : Roster C) (s : Shelf C) :
    Roster C × Shelf C :=
  m.reload.mergeFromRedis clock s

/-- The roster and Redis after a restore over a live roster. -/
def restoreBackup (clock : String -> I64) (live : Roster C)
    (backup : Table C.Row C.rowId) (s : Shelf C) : Roster C × Shelf C :=
  let reloaded := reloadFromDb clock { live with table := backup } s
  (reloaded.1, reloaded.1.publishAll reloaded.2)

/-!
## Loading and publishing
-/

theorem lookup_reload (m : Roster C) (id : String) :
    m.reload.lookup id = (m.table.lookup id).map C.loadRow := by
  apply Option.ext
  intro r
  unfold lookup reload
  rw [Arena.lookup_ofRecords, Option.map_eq_some_iff, List.mem_map]
  constructor
  · intro h
    rcases h with ⟨⟨w, hw, hwr⟩, hid⟩
    refine ⟨w, Table.lookup_eq_some.mpr ⟨Table.mem_ordered.mp hw, ?_⟩, hwr⟩
    rw [← C.loadRow_idOf, hwr]
    exact hid
  · intro h
    rcases h with ⟨w, hw, hwr⟩
    have hrow := Table.lookup_eq_some.mp hw
    refine ⟨⟨w, Table.mem_ordered.mpr hrow.left, hwr⟩, ?_⟩
    rw [← hwr, C.loadRow_idOf]
    exact hrow.right

theorem row_reload (m : Roster C) (id : String) :
    m.reload.table.lookup id = (m.table.lookup id).map C.repairRow :=
  Table.lookup_mapRows _ C.repairRow_rowId _

theorem map_idOf_records (m : Roster C) :
    m.memory.records.map C.idOf = m.memory.keys := by
  simp [Arena.records, Arena.keys, Function.comp_def]

/-- After the publication the index holds the roster, whatever it held. -/
theorem mem_publishAll_index {m : Roster C} {s : Shelf C} {id : String} :
    id ∈ (m.publishAll s).index <-> id ∈ m.memory.keys := by
  unfold publishAll
  dsimp only
  rw [Shelf.delAll_index, Shelf.mem_sremAll_index, Shelf.mem_pushAll_index,
    map_idOf_records, List.mem_filter, Shelf.mem_pushAll_index,
    map_idOf_records]
  simp only [decide_not, Bool.not_eq_true', decide_eq_false_iff_not]
  tauto

theorem publishAll_record {m : Roster C} {s : Shelf C} {id : String}
    {r : C.Rec} (hr : m.lookup id = some r) :
    (m.publishAll s).record id = some (C.toPayload r) := by
  have hid : C.idOf r = id := idOf_lookup hr
  have hmem : r ∈ m.memory.records := by
    rcases Arena.lookup_eq_some.mp hr with ⟨p, hp, _, hcell⟩
    exact List.mem_map.mpr ⟨p, hp, hcell⟩
  have hkey : id ∈ m.memory.keys := mem_keys_iff_lookup.mpr ⟨r, hr⟩
  unfold publishAll
  dsimp only
  rw [Shelf.delAll_record_of_not_mem, Shelf.sremAll_record]
  · rw [← hid]
    refine Shelf.pushAll_record ?_ hmem
    rw [map_idOf_records]
    exact m.memory.distinct
  · intro h
    have hmissing := (List.mem_filter.mp h).right
    simp only [decide_not, Bool.not_eq_true', decide_eq_false_iff_not]
      at hmissing
    exact hmissing hkey

/-!
## The records after a merge
-/

section Merge

variable {clock : String -> I64} {m : Roster C} {s : Shelf C} {id : String}

theorem lookup_mergeFromRedis_of_mem (h : id ∈ s.index) :
    (m.mergeFromRedis clock s).1.lookup id =
      mergedRecord (clock id) id (m.lookup id) (s.record id) := by
  have hne : s.index ≠ [] := List.ne_nil_of_mem h
  unfold mergeFromRedis
  rw [if_neg hne]
  dsimp only
  rw [lookup_mergeAll (by rw [Shelf.map_fst_mget]; exact s.once)
    (Shelf.mem_mget.mpr ⟨h, rfl⟩)]

theorem lookup_mergeFromRedis_of_not_mem (h : id ∉ s.index) :
    (m.mergeFromRedis clock s).1.lookup id = m.lookup id := by
  unfold mergeFromRedis
  split
  · rfl
  · dsimp only
    rw [lookup_mergeAll_of_not_mem (by rw [Shelf.map_fst_mget]; exact h)]

theorem row_mergeFromRedis_of_mem (h : id ∈ s.index) {r : C.Rec}
    (hr : m.lookup id = some r) :
    (m.mergeFromRedis clock s).1.table.lookup id =
      mergedRow r (m.table.lookup id) (s.record id) := by
  have hne : s.index ≠ [] := List.ne_nil_of_mem h
  unfold mergeFromRedis
  rw [if_neg hne]
  dsimp only
  rw [row_mergeAll (by rw [Shelf.map_fst_mget]; exact s.once)
    (Shelf.mem_mget.mpr ⟨h, rfl⟩) hr]

theorem row_mergeFromRedis_of_not_mem (h : id ∉ s.index) :
    (m.mergeFromRedis clock s).1.table.lookup id = m.table.lookup id := by
  unfold mergeFromRedis
  split
  · rfl
  · dsimp only
    rw [row_mergeAll_of_not_mem (by rw [Shelf.map_fst_mget]; exact h)]

end Merge

/-!
## The records after a reload
-/

section Reload

variable {clock : String -> I64} {live : Roster C}
  {backup : Table C.Row C.rowId} {s : Shelf C}

/-- An id in the index is read over the row of the backup. -/
theorem lookup_reloadFromDb_of_mem {id : String} (h : id ∈ s.index) :
    (reloadFromDb clock { live with table := backup } s).1.lookup id =
      mergedRecord (clock id) id ((backup.lookup id).map C.loadRow)
        (s.record id) := by
  unfold reloadFromDb
  rw [lookup_mergeFromRedis_of_mem h, lookup_reload]

theorem lookup_reloadFromDb_of_not_mem {id : String} (h : id ∉ s.index) :
    (reloadFromDb clock { live with table := backup } s).1.lookup id =
      (backup.lookup id).map C.loadRow := by
  unfold reloadFromDb
  rw [lookup_mergeFromRedis_of_not_mem h, lookup_reload]

theorem row_reloadFromDb_of_mem {id : String} (h : id ∈ s.index) {b : C.Row}
    (hb : backup.lookup id = some b) :
    (reloadFromDb clock { live with table := backup } s).1.table.lookup id =
      mergedRow (C.loadRow b) (some (C.repairRow b)) (s.record id) := by
  have hlookup : ({ live with table := backup } : Roster C).reload.lookup id =
      some (C.loadRow b) := by
    rw [lookup_reload, hb]
    rfl
  unfold reloadFromDb
  rw [row_mergeFromRedis_of_mem h hlookup, row_reload, hb]
  rfl

theorem row_reloadFromDb_of_not_mem {id : String} (h : id ∉ s.index) :
    (reloadFromDb clock { live with table := backup } s).1.table.lookup id =
      (backup.lookup id).map C.repairRow := by
  unfold reloadFromDb
  rw [row_mergeFromRedis_of_not_mem h, row_reload]

end Reload

/-!
## When the backup survives
-/

section Content

variable {Content : Type} (ofRec : C.Rec -> Content) (ofRow : C.Row -> Content)

/-- Loading a row and taking over a record keep the content in step. -/
structure Tracks : Prop where
  loadRow : forall w, ofRec (C.loadRow w) = ofRow (C.repairRow w)
  adoptRow : forall r r' w, ofRec r' = ofRec r -> ofRow w = ofRec r ->
    ofRow (C.adoptRow r' w) = ofRec r'

/-- Memory, table and index hold the ids of the backup, and for each of them
the content of its row. -/
structure Restored (backup : Table C.Row C.rowId) (m : Roster C) (s : Shelf C) :
    Prop where
  memory : forall id, id ∈ m.memory.keys <-> (backup.lookup id).isSome = true
  table : forall id,
    (m.table.lookup id).isSome = true <-> (backup.lookup id).isSome = true
  index : forall id, id ∈ s.index <-> (backup.lookup id).isSome = true
  content : forall id b, backup.lookup id = some b ->
    exists r w, m.lookup id = some r ∧ m.table.lookup id = some w ∧
      s.record id = some (C.toPayload r) ∧ ofRec r = ofRow (C.repairRow b) ∧
      ofRow w = ofRow (C.repairRow b)

/-- No record that the index lists is restored under an unknown id, or taken
over with other content than the row loaded. -/
def Harmless (clock : String -> I64) (backup : Table C.Row C.rowId)
    (s : Shelf C) : Prop :=
  forall id v, id ∈ s.index -> s.record id = some v ->
    (backup.lookup id = none -> C.restore (clock id) id v = none) ∧
      forall b r, backup.lookup id = some b ->
        C.adopt (C.loadRow b) v = some r -> ofRec r = ofRec (C.loadRow b)

variable {ofRec : C.Rec -> Content} {ofRow : C.Row -> Content}
  {clock : String -> I64} {live : Roster C} {backup : Table C.Row C.rowId}
  {s : Shelf C}

theorem memory_of_harmless (h : Harmless ofRec clock backup s) (id : String) :
    id ∈ (reloadFromDb clock { live with table := backup } s).1.memory.keys <->
      (backup.lookup id).isSome = true := by
  rw [mem_keys_iff_lookup, ← Option.isSome_iff_exists]
  by_cases hid : id ∈ s.index
  · rw [lookup_reloadFromDb_of_mem hid]
    cases hb : backup.lookup id with
    | none =>
        cases hv : s.record id with
        | none =>
            simp [mergedRecord]
        | some v =>
            simp [mergedRecord, (h id v hid hv).left hb]
    | some b =>
        cases hv : s.record id with
        | none =>
            simp [mergedRecord]
        | some v =>
            simp [mergedRecord]
  · rw [lookup_reloadFromDb_of_not_mem hid]
    simp

/-- The ids in memory are those of the backup, and an id has no row. -/
structure Unlisted (backup : Table C.Row C.rowId) (id : String) (m : Roster C) :
    Prop where
  row : m.table.lookup id = none
  keys : forall k, k ∈ m.memory.keys <-> (backup.lookup k).isSome = true

theorem keys_mergeOne_of_find? {m : Roster C} {k : String} {p : Nat}
    (hfind : m.memory.find? k = some p) (v : Option C.Payload) (k' : String) :
    k' ∈ (m.mergeOne clock (k, v)).memory.keys <-> k' ∈ m.memory.keys := by
  rw [mem_keys_iff_lookup, mem_keys_iff_lookup, lookup_mergeOne]
  split
  · rename_i hk'
    subst hk'
    rw [show m.lookup k' = some (m.memory.cells p) from Arena.lookup_of_find? hfind]
    cases v <;> simp [mergedRecord]
  · exact Iff.rfl

/-- A merge step restores no id, so it lists none. -/
theorem Unlisted.mergeOne {m : Roster C} {id : String}
    (hm : Unlisted backup id m) (h : Harmless ofRec clock backup s) {k : String}
    (hk : k ∈ s.index) : Unlisted backup id (m.mergeOne clock (k, s.record k)) := by
  rcases m.mergeOne_cases clock (k, s.record k) with
    hsame | ⟨v, p, r, _, hfind, hadopt, heq⟩ | ⟨v, r, hv, hrestore, hkey, _⟩
  · rw [hsame]
    exact hm
  · constructor
    · rw [heq]
      dsimp only
      rw [Table.lookup_update]
      split <;> simp [hm.row]
    · intro k'
      exact (keys_mergeOne_of_find? hfind _ k').trans (hm.keys k')
  · have hunknown : backup.lookup k = none := by
      rw [C.restore_idOf hrestore, hm.keys k] at hkey
      simpa using hkey
    have hskip := (h k v hk hv).left hunknown
    rw [hrestore] at hskip
    cases hskip

theorem table_of_harmless (h : Harmless ofRec clock backup s) (id : String) :
    ((reloadFromDb clock { live with table := backup } s).1.table.lookup
      id).isSome = true <-> (backup.lookup id).isSome = true := by
  cases hb : backup.lookup id with
  | some b =>
      by_cases hid : id ∈ s.index
      · rw [row_reloadFromDb_of_mem hid hb]
        unfold mergedRow
        split <;> simp
      · rw [row_reloadFromDb_of_not_mem hid, hb]
        simp
  | none =>
      have hloaded : Unlisted backup id
          ({ live with table := backup } : Roster C).reload := by
        constructor
        · rw [row_reload, hb]
          rfl
        · intro k
          rw [mem_keys_iff_lookup, lookup_reload, ← Option.isSome_iff_exists]
          simp
      unfold reloadFromDb mergeFromRedis
      split
      · simp [hloaded.row]
      · have hmerged : Unlisted backup id
            (({ live with table := backup } : Roster C).reload.mergeAll clock
              (s.mget s.index)) := by
          apply mergeAll_induction (motive := Unlisted backup id) hloaded
          intro m entry hm hentry
          rcases List.mem_map.mp hentry with ⟨k, hk, hkentry⟩
          subst hkentry
          exact hm.mergeOne h hk
        dsimp only
        rw [hmerged.row]

theorem content_of_harmless (htracks : Tracks ofRec ofRow)
    (h : Harmless ofRec clock backup s) {id : String} {b : C.Row}
    (hb : backup.lookup id = some b) :
    exists r w,
      (reloadFromDb clock { live with table := backup } s).1.lookup id = some r ∧
      (reloadFromDb clock { live with table := backup } s).1.table.lookup id = some w ∧
      ofRec r = ofRow (C.repairRow b) ∧ ofRow w = ofRow (C.repairRow b) := by
  by_cases hid : id ∈ s.index
  · rw [lookup_reloadFromDb_of_mem hid, row_reloadFromDb_of_mem hid hb, hb]
    cases hv : s.record id with
    | none =>
        exact ⟨_, _, rfl, rfl, htracks.loadRow b, rfl⟩
    | some v =>
        cases hadopt : C.adopt (C.loadRow b) v with
        | none =>
            exact ⟨C.loadRow b, C.repairRow b, by simp [mergedRecord, hadopt],
              by simp [mergedRow, hadopt], htracks.loadRow b, rfl⟩
        | some r =>
            have hr := (h id v hid hv).right b r hb hadopt
            have hload := htracks.loadRow b
            refine ⟨r, C.adoptRow r (C.repairRow b),
              by simp [mergedRecord, hadopt], by simp [mergedRow, hadopt],
              hr.trans hload, ?_⟩
            rw [htracks.adoptRow (C.loadRow b) r _ hr hload.symm]
            exact hr.trans hload
  · rw [lookup_reloadFromDb_of_not_mem hid, row_reloadFromDb_of_not_mem hid, hb]
    exact ⟨_, _, rfl, rfl, htracks.loadRow b, rfl⟩

/-- The backup survives a restore exactly when Redis holds nothing that the
merge of the reload takes. -/
theorem restored_iff_harmless (htracks : Tracks ofRec ofRow) :
    Restored ofRec ofRow backup (restoreBackup clock live backup s).1
        (restoreBackup clock live backup s).2 <->
      Harmless ofRec clock backup s := by
  constructor
  · intro h id v hid hv
    constructor
    · intro hb
      have hmemory := (h.memory id).not
      simp only [hb, Option.isSome_none, Bool.false_eq_true, not_false_eq_true,
        iff_true] at hmemory
      have hnone :
          (reloadFromDb clock { live with table := backup } s).1.lookup id = none :=
        lookup_eq_none.mpr hmemory
      rw [lookup_reloadFromDb_of_mem hid, hb, hv] at hnone
      exact hnone
    · intro b r hb hadopt
      rcases h.content id b hb with ⟨r', w, hr', _, _, hcontent, _⟩
      have hlookup :
          (reloadFromDb clock { live with table := backup } s).1.lookup id = some r' :=
        hr'
      rw [lookup_reloadFromDb_of_mem hid, hb, hv] at hlookup
      have heq : r = r' := by simpa [mergedRecord, hadopt] using hlookup
      rw [heq, hcontent]
      exact (htracks.loadRow b).symm
  · intro h
    refine ⟨memory_of_harmless h, table_of_harmless h, ?_, ?_⟩
    · exact fun id => mem_publishAll_index.trans (memory_of_harmless h id)
    · intro id b hb
      rcases content_of_harmless htracks h hb with
        ⟨r, w, hr, hw, hcontent, hrow⟩
      exact ⟨r, w, hr, hw, publishAll_record hr, hcontent, hrow⟩

end Content

end Roster

end HifiApi
