import HifiApi.Fleet.Collection

/-!
# What a merge makes of a roster

The section of a merge under the roster lock is a fold over the records read.
Its effect on one id depends on the entry of that id alone, so a property of
single records carries over to whole rosters, and ids are only ever added.
-/

namespace HifiApi
namespace Roster

variable {C : Collection}

@[simp] theorem mergeAll_nil (clock : String -> I64) (m : Roster C) :
    m.mergeAll clock [] = m := rfl

@[simp] theorem mergeAll_cons (clock : String -> I64) (m : Roster C)
    (entry : String × Option C.Payload)
    (rest : List (String × Option C.Payload)) :
    m.mergeAll clock (entry :: rest) =
      (m.mergeOne clock entry).mergeAll clock rest := rfl

theorem mem_keys_iff_lookup {m : Roster C} {id : String} :
    id ∈ m.memory.keys <-> exists r, m.lookup id = some r :=
  Arena.mem_keys_iff_lookup

theorem lookup_eq_none {m : Roster C} {id : String} :
    m.lookup id = none <-> id ∉ m.memory.keys :=
  Arena.lookup_eq_none

theorem idOf_lookup {m : Roster C} {id : String} {r : C.Rec}
    (h : m.lookup id = some r) : C.idOf r = id :=
  Arena.key_of_lookup h

/-!
## One record
-/

theorem lookup_mergeAll_of_not_mem {clock : String -> I64} {m : Roster C}
    {entries : List (String × Option C.Payload)} {id : String}
    (h : id ∉ entries.map Prod.fst) :
    (m.mergeAll clock entries).lookup id = m.lookup id := by
  induction entries generalizing m with
  | nil =>
      rfl
  | cons entry rest ih =>
      have hne : id ≠ entry.1 := by
        intro heq
        apply h
        simp [heq]
      have hrest : id ∉ rest.map Prod.fst := by
        intro hmem
        apply h
        simp only [List.map_cons, List.mem_cons]
        exact Or.inr hmem
      rw [mergeAll_cons, ih hrest, lookup_mergeOne, if_neg hne]

/-- The entry of an id decides what becomes of its record. -/
theorem lookup_mergeAll {clock : String -> I64} {m : Roster C}
    {entries : List (String × Option C.Payload)}
    (hdistinct : (entries.map Prod.fst).Nodup) {id : String}
    {payload : Option C.Payload} (hentry : (id, payload) ∈ entries) :
    (m.mergeAll clock entries).lookup id =
      mergedRecord (clock id) id (m.lookup id) payload := by
  induction entries generalizing m with
  | nil =>
      cases hentry
  | cons entry rest ih =>
      rw [List.map_cons, List.nodup_cons] at hdistinct
      rcases List.mem_cons.mp hentry with heq | hrest
      · subst heq
        rw [mergeAll_cons, lookup_mergeAll_of_not_mem hdistinct.left,
          lookup_mergeOne, if_pos rfl]
      · have hne : id ≠ entry.1 := by
          intro heq
          apply hdistinct.left
          rw [← heq]
          exact List.mem_map.mpr ⟨_, hrest, rfl⟩
        rw [mergeAll_cons, ih hdistinct.right hrest, lookup_mergeOne,
          if_neg hne]

/-- What every entry preserves, a merge preserves. -/
theorem mergeAll_induction {motive : Roster C -> Prop}
    {clock : String -> I64} {m : Roster C}
    {entries : List (String × Option C.Payload)} (hm : motive m)
    (hstep : forall m' entry, motive m' -> entry ∈ entries ->
      motive (m'.mergeOne clock entry)) :
    motive (m.mergeAll clock entries) := by
  induction entries generalizing m with
  | nil =>
      exact hm
  | cons entry rest ih =>
      rw [mergeAll_cons]
      refine ih (hstep m entry hm (by simp)) ?_
      intro m' entry' hm' hentry'
      exact hstep m' entry' hm' (by simp [hentry'])

/-- An entry is skipped, or it changes the record of a known id, or it adds
the record of an unknown one. -/
theorem mergeOne_cases (clock : String -> I64) (m : Roster C)
    (entry : String × Option C.Payload) :
    m.mergeOne clock entry = m ∨
    (exists v p r, entry.2 = some v ∧ m.memory.find? entry.1 = some p ∧
      exists hadopt : C.adopt (m.memory.cells p) v = some r,
        m.mergeOne clock entry =
          { memory :=
              if C.adoptRebuilds then m.memory.swap p r (C.adopt_idOf hadopt)
              else m.memory.write p r (C.adopt_idOf hadopt)
            table := m.table.update entry.1 (C.adoptRow r)
              (C.adoptRow_rowId r) }) ∨
    (exists v r, entry.2 = some v ∧
      C.restore (clock entry.1) entry.1 v = some r ∧
      exists hkey : C.idOf r ∉ m.memory.keys,
        m.mergeOne clock entry =
          { memory := m.memory.insert r hkey
            table := m.table.insertUnless C.conflicts C.conflicts_of_rowId
              (C.newRow (clock entry.1) r) }) := by
  rcases entry with ⟨id, payload⟩
  cases payload with
  | none =>
      exact Or.inl rfl
  | some v =>
      unfold mergeOne
      dsimp only
      split
      · rename_i p hfind
        split
        · exact Or.inl rfl
        · rename_i r hadopt
          exact Or.inr (Or.inl ⟨v, p, r, rfl, hfind, hadopt, rfl⟩)
      · rename_i hfind
        split
        · exact Or.inl rfl
        · rename_i r hrestore
          have hkey : C.idOf r ∉ m.memory.keys := by
            rw [C.restore_idOf hrestore]
            exact Arena.find?_eq_none.mp hfind
          exact Or.inr (Or.inr ⟨v, r, rfl, hrestore, hkey, rfl⟩)

/-!
## One row
-/

/-- The row of a known id after its payload has been read. -/
def mergedRow (here : C.Rec) (row : Option C.Row)
    (payload : Option C.Payload) : Option C.Row :=
  match payload.bind (C.adopt here) with
  | none => row
  | some r => row.map (C.adoptRow r)

theorem row_mergeOne_of_ne {clock : String -> I64} {m : Roster C}
    {entry : String × Option C.Payload} {id : String} (hne : id ≠ entry.1) :
    (m.mergeOne clock entry).table.lookup id = m.table.lookup id := by
  rcases m.mergeOne_cases clock entry with
    hsame | ⟨v, p, r, _, _, hadopt, heq⟩ | ⟨v, r, _, hrestore, hkey, heq⟩
  · rw [hsame]
  · rw [heq]
    dsimp only
    rw [Table.lookup_update, if_neg hne]
  · rw [heq]
    refine Table.lookup_insertUnless_of_ne _ C.conflicts_of_rowId ?_
    rw [C.newRow_rowId, C.restore_idOf hrestore]
    exact Ne.symm hne

theorem row_mergeOne {clock : String -> I64} {m : Roster C} {id : String}
    {payload : Option C.Payload} {r : C.Rec} (hr : m.lookup id = some r) :
    (m.mergeOne clock (id, payload)).table.lookup id =
      mergedRow r (m.table.lookup id) payload := by
  cases payload with
  | none =>
      rfl
  | some v =>
      rcases Option.map_eq_some_iff.mp hr with ⟨p, hfind, hcell⟩
      unfold mergeOne mergedRow
      rw [Option.bind_some]
      dsimp only
      split
      · rename_i q hq
        have hqp : q = p := Option.some.inj (hq.symm.trans hfind)
        subst hqp
        split
        · rename_i hadopt
          rw [hcell] at hadopt
          rw [hadopt]
        · rename_i r' hadopt
          rw [hcell] at hadopt
          rw [hadopt]
          dsimp only
          rw [Table.lookup_update, if_pos rfl]
      · rename_i hnone
        rw [hfind] at hnone
        cases hnone

theorem row_mergeAll_of_not_mem {clock : String -> I64} {m : Roster C}
    {entries : List (String × Option C.Payload)} {id : String}
    (h : id ∉ entries.map Prod.fst) :
    (m.mergeAll clock entries).table.lookup id = m.table.lookup id := by
  refine mergeAll_induction
    (motive := fun m' => m'.table.lookup id = m.table.lookup id) rfl ?_
  intro m' entry hm' hentry
  rw [← hm']
  apply row_mergeOne_of_ne
  intro heq
  apply h
  rw [heq]
  exact List.mem_map.mpr ⟨entry, hentry, rfl⟩

theorem row_mergeAll {clock : String -> I64} {m : Roster C}
    {entries : List (String × Option C.Payload)}
    (hdistinct : (entries.map Prod.fst).Nodup) {id : String}
    {payload : Option C.Payload} (hentry : (id, payload) ∈ entries)
    {r : C.Rec} (hr : m.lookup id = some r) :
    (m.mergeAll clock entries).table.lookup id =
      mergedRow r (m.table.lookup id) payload := by
  induction entries generalizing m with
  | nil =>
      cases hentry
  | cons entry rest ih =>
      rw [List.map_cons, List.nodup_cons] at hdistinct
      rcases List.mem_cons.mp hentry with heq | hrest
      · subst heq
        rw [mergeAll_cons, row_mergeAll_of_not_mem hdistinct.left,
          row_mergeOne hr]
      · have hne : id ≠ entry.1 := by
          intro heq
          apply hdistinct.left
          rw [← heq]
          exact List.mem_map.mpr ⟨_, hrest, rfl⟩
        have hr' : (m.mergeOne clock entry).lookup id = some r := by
          rw [lookup_mergeOne, if_neg hne]
          exact hr
        rw [mergeAll_cons, ih hdistinct.right hrest hr',
          row_mergeOne_of_ne hne]

/-!
## All ids
-/

/-- A merge only adds ids, and it adds those it restores. -/
theorem mem_keys_mergeAll {clock : String -> I64} {m : Roster C}
    {entries : List (String × Option C.Payload)} {id : String} :
    id ∈ (m.mergeAll clock entries).memory.keys <->
      id ∈ m.memory.keys ∨
        exists v, (id, some v) ∈ entries ∧
          (C.restore (clock id) id v).isSome = true := by
  induction entries generalizing m with
  | nil =>
      simp
  | cons entry rest ih =>
      have hone : id ∈ (m.mergeOne clock entry).memory.keys <->
          id ∈ m.memory.keys ∨ exists v, (id, some v) = entry ∧
            (C.restore (clock id) id v).isSome = true := by
        rcases entry with ⟨id', payload⟩
        rw [mem_keys_iff_lookup, mem_keys_iff_lookup, lookup_mergeOne]
        by_cases hid : id = id'
        · subst hid
          rw [if_pos rfl]
          cases payload with
          | none =>
              simp [mergedRecord]
          | some v =>
              cases m.lookup id with
              | none =>
                  simp [mergedRecord, Option.isSome_iff_exists]
              | some r =>
                  simp [mergedRecord]
        · simp [hid]
      rw [mergeAll_cons, ih, hone]
      constructor
      · intro h
        rcases h with (h | ⟨v, hv, hr⟩) | ⟨v, hv, hr⟩
        · exact Or.inl h
        · exact Or.inr ⟨v, by simp [hv], hr⟩
        · exact Or.inr ⟨v, by simp [hv], hr⟩
      · intro h
        rcases h with h | ⟨v, hv, hr⟩
        · exact Or.inl (Or.inl h)
        · rcases List.mem_cons.mp hv with hhead | htail
          · exact Or.inl (Or.inr ⟨v, hhead, hr⟩)
          · exact Or.inr ⟨v, htail, hr⟩

/-!
## All cells
-/

/-- Cells are never freed, and each keeps the id it was made with. -/
structure Extends (m m' : Roster C) : Prop where
  fresh_le : m.memory.fresh ≤ m'.memory.fresh
  idOf_cells : forall p, p < m.memory.fresh ->
    C.idOf (m'.memory.cells p) = C.idOf (m.memory.cells p)

theorem Extends.refl (m : Roster C) : m.Extends m :=
  ⟨Nat.le_refl _, fun _ _ => rfl⟩

theorem Extends.trans {m m' m'' : Roster C} (h : m.Extends m')
    (h' : m'.Extends m'') : m.Extends m'' where
  fresh_le := Nat.le_trans h.fresh_le h'.fresh_le
  idOf_cells := fun p hp =>
    (h'.idOf_cells p (Nat.lt_of_lt_of_le hp h.fresh_le)).trans
      (h.idOf_cells p hp)

theorem extends_write {m m' : Roster C} {p : Nat} {r : C.Rec}
    (hkey : C.idOf r = C.idOf (m.memory.cells p))
    (h : m'.memory = m.memory.write p r hkey) : m.Extends m' where
  fresh_le := by
    rw [h]
    exact Nat.le_refl _
  idOf_cells := by
    intro q _
    rw [h]
    by_cases hq : q = p
    · subst hq
      simp [Arena.write, hkey]
    · simp [Arena.write, Function.update_of_ne hq]

theorem extends_swap {m m' : Roster C} {p : Nat} {r : C.Rec}
    (hkey : C.idOf r = C.idOf (m.memory.cells p))
    (h : m'.memory = m.memory.swap p r hkey) : m.Extends m' where
  fresh_le := by
    rw [h]
    exact Nat.le_succ _
  idOf_cells := by
    intro q hq
    rw [h]
    have hne : q ≠ m.memory.fresh := Nat.ne_of_lt hq
    simp [Arena.swap, Function.update_of_ne hne]

theorem extends_insert {m m' : Roster C} {r : C.Rec}
    (hkey : C.idOf r ∉ m.memory.keys)
    (h : m'.memory = m.memory.insert r hkey) : m.Extends m' where
  fresh_le := by
    rw [h]
    exact Nat.le_succ _
  idOf_cells := by
    intro q hq
    rw [h]
    have hne : q ≠ m.memory.fresh := Nat.ne_of_lt hq
    simp [Arena.insert, Function.update_of_ne hne]

theorem extends_mergeOne (clock : String -> I64) (m : Roster C)
    (entry : String × Option C.Payload) :
    m.Extends (m.mergeOne clock entry) := by
  rcases m.mergeOne_cases clock entry with
    hsame | ⟨v, p, r, _, _, hadopt, heq⟩ | ⟨v, r, _, _, hkey, heq⟩
  · rw [hsame]
    exact Extends.refl m
  · rw [heq]
    by_cases hrebuilds : C.adoptRebuilds = true
    · exact extends_swap (C.adopt_idOf hadopt) (by simp [hrebuilds])
    · exact extends_write (C.adopt_idOf hadopt) (by simp [hrebuilds])
  · rw [heq]
    exact extends_insert hkey rfl

theorem extends_mergeAll (clock : String -> I64) (m : Roster C)
    (entries : List (String × Option C.Payload)) :
    m.Extends (m.mergeAll clock entries) :=
  mergeAll_induction (motive := m.Extends) (Extends.refl m)
    fun m' entry hm' _ => hm'.trans (extends_mergeOne clock m' entry)

/-- A merge that gives the records it takes over cells of their own leaves
every cell as it was. -/
theorem cells_mergeAll (hrebuilds : C.adoptRebuilds = true)
    {clock : String -> I64} {m : Roster C}
    {entries : List (String × Option C.Payload)} {p : Nat}
    (hp : p < m.memory.fresh) :
    (m.mergeAll clock entries).memory.cells p = m.memory.cells p := by
  have hall : m.Extends (m.mergeAll clock entries) ∧
      (m.mergeAll clock entries).memory.cells p = m.memory.cells p := by
    refine mergeAll_induction
      (motive := fun m' =>
        m.Extends m' ∧ m'.memory.cells p = m.memory.cells p)
      ⟨Extends.refl m, rfl⟩ ?_
    intro m' entry hm' _
    have hp' : p ≠ m'.memory.fresh :=
      Nat.ne_of_lt (Nat.lt_of_lt_of_le hp hm'.left.fresh_le)
    refine ⟨hm'.left.trans (extends_mergeOne clock m' entry), ?_⟩
    rw [← hm'.right]
    rcases m'.mergeOne_cases clock entry with
      hsame | ⟨v, q, r, _, _, hadopt, heq⟩ | ⟨v, r, _, _, hkey, heq⟩
    · rw [hsame]
    · rw [heq]
      simp [hrebuilds, Arena.swap, Function.update_of_ne hp']
    · rw [heq]
      simp [Arena.insert, Function.update_of_ne hp']
  exact hall.right

end Roster
end HifiApi
