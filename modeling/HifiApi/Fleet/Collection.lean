import HifiApi.Base.Numbers
import HifiApi.Lib.Arena
import HifiApi.Lib.Table

/-!
# Collections that instances share

Account records and API-key definitions are kept in the same way: a roster of
shared cells in memory, a table in SQLite, and in Redis one record per id next
to a set of ids.  A collection says what is kept and how a record is read,
changed and published; the roster operations of both managers are the functions
below at their own collection.
-/

namespace HifiApi

/-- What is kept, and how it is read, changed and published. -/
structure Collection where
  /-- Records in memory. -/
  Rec : Type
  /-- Texts of Redis records, as the instances read them. -/
  Payload : Type
  /-- Rows of the SQLite table. -/
  Row : Type
  /-- Local mutations of a known record. -/
  Edit : Type
  /-- What a new record is made of. -/
  Draft : Type
  /-- Cells that were never allocated. -/
  blank : Rec
  idOf : Rec -> String
  rowId : Row -> String
  toPayload : Rec -> Payload
  /-- The record after reading a payload for a known id, if it is taken over. -/
  adopt : Rec -> Payload -> Option Rec
  /-- A record taken over gets a cell of its own. -/
  adoptRebuilds : Bool
  /-- The record made of a payload for an unknown id. -/
  restore : I64 -> String -> Payload -> Option Rec
  /-- A local mutation, when its guard lets it through. -/
  edit : Edit -> I64 -> Rec -> Option Rec
  /-- The mutated record gets a cell of its own. -/
  editRebuilds : Edit -> Bool
  /-- The mutation reaches SQLite before it reaches memory. -/
  editSavesFirst : Edit -> Bool
  /-- Whether a statement that comes first finds the row it needs. -/
  editFindsRow : Edit -> Rec -> Option Row -> Bool
  /-- The columns written by a mutation from one record to another. -/
  editRow : Edit -> I64 -> Rec -> Rec -> Row -> Row
  /-- The columns written when a record is taken over. -/
  adoptRow : Rec -> Row -> Row
  newRow : I64 -> Rec -> Row
  /-- Rows whose insert the table refuses. -/
  conflicts : Row -> Row -> Bool
  rowCreatedAt : Row -> Int
  /-- Columns repaired while a row is loaded. -/
  repairRow : Row -> Row
  loadRow : Row -> Rec
  draft : Draft -> I64 -> Rec
  /-- A removal of an id that is not in the roster fails. -/
  removeNeedsRecord : Bool
  adopt_idOf : forall {r r' p}, adopt r p = some r' -> idOf r' = idOf r
  restore_idOf : forall {now id p r}, restore now id p = some r -> idOf r = id
  edit_idOf : forall {e now r r'}, edit e now r = some r' -> idOf r' = idOf r
  editRow_rowId : forall e now r r' w, rowId (editRow e now r r' w) = rowId w
  adoptRow_rowId : forall r w, rowId (adoptRow r w) = rowId w
  newRow_rowId : forall now r, rowId (newRow now r) = idOf r
  conflicts_of_rowId : forall w w', rowId w = rowId w' -> conflicts w w' = true
  repairRow_rowId : forall w, rowId (repairRow w) = rowId w
  loadRow_idOf : forall w, idOf (loadRow w) = rowId w

namespace Collection

instance (C : Collection) : Inhabited C.Rec := ⟨C.blank⟩

end Collection

/-- The part of Redis that holds one collection: a set of ids, and the record
stored for an id. -/
structure Shelf (C : Collection) where
  index : List String
  once : index.Nodup
  record : String -> Option C.Payload

namespace Shelf

variable {C : Collection}

def set (s : Shelf C) (id : String) (p : C.Payload) : Shelf C :=
  { s with record := Function.update s.record id (some p) }

def del (s : Shelf C) (id : String) : Shelf C :=
  { s with record := Function.update s.record id none }

def sadd (s : Shelf C) (id : String) : Shelf C :=
  if h : id ∈ s.index then s
  else
    { s with
      index := s.index ++ [id]
      once := by
        refine List.Nodup.append s.once (by simp) ?_
        intro k hk hkNew
        have hkey : k = id := by simpa using hkNew
        rw [hkey] at hk
        exact h hk }

def srem (s : Shelf C) (id : String) : Shelf C :=
  { s with
    index := s.index.filter fun k => decide (k ≠ id)
    once := s.once.sublist List.filter_sublist }

/-- {lit}`MGET` of the records of the given ids, next to their ids. -/
def mget (s : Shelf C) (ids : List String) :
    List (String × Option C.Payload) :=
  ids.map fun id => (id, s.record id)

@[simp] theorem map_fst_mget (s : Shelf C) (ids : List String) :
    (s.mget ids).map Prod.fst = ids := by
  simp [mget, Function.comp_def]

theorem mem_mget {s : Shelf C} {ids : List String} {id : String}
    {payload : Option C.Payload} :
    (id, payload) ∈ s.mget ids <-> id ∈ ids ∧ s.record id = payload := by
  simp only [mget, List.mem_map, Prod.mk.injEq]
  constructor
  · intro h
    rcases h with ⟨k, hk, hid, hrecord⟩
    rw [← hid]
    exact ⟨hk, hrecord⟩
  · intro h
    exact ⟨id, h.left, rfl, h.right⟩

@[simp] theorem set_index (s : Shelf C) (id : String) (p : C.Payload) :
    (s.set id p).index = s.index := rfl

@[simp] theorem del_index (s : Shelf C) (id : String) :
    (s.del id).index = s.index := rfl

@[simp] theorem sadd_record (s : Shelf C) (id : String) :
    (s.sadd id).record = s.record := by
  unfold sadd
  split <;> rfl

@[simp] theorem srem_record (s : Shelf C) (id : String) :
    (s.srem id).record = s.record := rfl

theorem set_record (s : Shelf C) (id : String) (p : C.Payload) (k : String) :
    (s.set id p).record k = if k = id then some p else s.record k := by
  simp [set, Function.update_apply]

theorem del_record (s : Shelf C) (id k : String) :
    (s.del id).record k = if k = id then none else s.record k := by
  simp [del, Function.update_apply]

theorem mem_sadd_index {s : Shelf C} {id k : String} :
    k ∈ (s.sadd id).index <-> k ∈ s.index ∨ k = id := by
  unfold sadd
  by_cases h : id ∈ s.index
  · rw [dif_pos h]
    constructor
    · intro hk
      exact Or.inl hk
    · intro hk
      rcases hk with hk | hk
      · exact hk
      · rw [hk]
        exact h
  · rw [dif_neg h]
    simp

theorem mem_srem_index {s : Shelf C} {id k : String} :
    k ∈ (s.srem id).index <-> k ∈ s.index ∧ k ≠ id := by
  simp [srem]

end Shelf

/-- The records of one instance: the roster in memory and the SQLite table. -/
structure Roster (C : Collection) where
  memory : Arena C.Rec C.idOf
  table : Table C.Row C.rowId

namespace Roster

variable {C : Collection}

/-- The record in memory for an id. -/
def lookup (m : Roster C) (id : String) : Option C.Rec :=
  m.memory.lookup id

/-!
## Merging
-/

/-- Read one indexed id: take over a newer record of a known id, restore the
record of an unknown one, and leave the rest. -/
def mergeOne (clock : String -> I64) (m : Roster C)
    (entry : String × Option C.Payload) : Roster C :=
  match entry.2 with
  | none => m
  | some payload =>
      match hfind : m.memory.find? entry.1 with
      | some p =>
          match hadopt : C.adopt (m.memory.cells p) payload with
          | none => m
          | some r =>
              { memory :=
                  if C.adoptRebuilds then m.memory.swap p r (C.adopt_idOf hadopt)
                  else m.memory.write p r (C.adopt_idOf hadopt)
                table := m.table.update entry.1 (C.adoptRow r) (C.adoptRow_rowId r) }
      | none =>
          match hrestore : C.restore (clock entry.1) entry.1 payload with
          | none => m
          | some r =>
              { memory := m.memory.insert r (by
                  rw [C.restore_idOf hrestore]
                  exact Arena.find?_eq_none.mp hfind)
                table := m.table.insertUnless C.conflicts C.conflicts_of_rowId
                  (C.newRow (clock entry.1) r) }

/-- The part of a merge that runs under the roster lock. -/
def mergeAll (clock : String -> I64) (m : Roster C)
    (entries : List (String × Option C.Payload)) : Roster C :=
  entries.foldl (mergeOne clock) m

/-- What one entry makes of the record in memory for its id. -/
def mergedRecord (now : I64) (id : String) (here : Option C.Rec)
    (payload : Option C.Payload) : Option C.Rec :=
  match payload, here with
  | none, _ => here
  | some v, some r => some ((C.adopt r v).getD r)
  | some v, none => C.restore now id v

theorem lookup_mergeOne (clock : String -> I64) (m : Roster C)
    (entry : String × Option C.Payload) (k : String) :
    (m.mergeOne clock entry).lookup k =
      if k = entry.1 then
        mergedRecord (clock entry.1) entry.1 (m.lookup k) entry.2
      else m.lookup k := by
  rcases entry with ⟨id, payload⟩
  unfold mergeOne lookup
  cases payload with
  | none =>
      simp [mergedRecord]
  | some v =>
      dsimp only
      split
      · rename_i p hfind
        have hp := Arena.find?_eq_some.mp hfind
        have hlookup := Arena.lookup_of_find? hfind
        split
        · rename_i hadopt
          by_cases hk : k = id
          · subst hk
            simp [mergedRecord, hlookup, hadopt]
          · simp [hk]
        · rename_i r hadopt
          have hr : C.idOf r = id := (C.adopt_idOf hadopt).trans hp.right
          have hnew : (if C.adoptRebuilds then
                m.memory.swap p r (C.adopt_idOf hadopt)
              else m.memory.write p r (C.adopt_idOf hadopt)).lookup k =
              if C.idOf r = k then some r else m.memory.lookup k := by
            split
            · exact Arena.lookup_swap _ hp.left k
            · exact Arena.lookup_write _ hp.left k
          dsimp only
          rw [hnew, hr]
          by_cases hk : k = id
          · subst hk
            simp [mergedRecord, hlookup, hadopt]
          · simp [hk, Ne.symm hk]
      · rename_i hfind
        have hnone : m.memory.lookup id = none := by
          simp [Arena.lookup, hfind]
        split
        · rename_i hrestore
          by_cases hk : k = id
          · subst hk
            simp [mergedRecord, hnone, hrestore]
          · simp [hk]
        · rename_i r hrestore
          have hr : C.idOf r = id := C.restore_idOf hrestore
          dsimp only
          rw [Arena.lookup_insert, hr]
          by_cases hk : k = id
          · subst hk
            simp [mergedRecord, hnone, hrestore]
          · simp [hk, Ne.symm hk]

end Roster

end HifiApi
