import HifiApi.Fleet.Merging
import HifiApi.Lib.System

/-!
# Instances that share one Redis

Every instance runs its tasks concurrently; a task gives up control at each
await point, so a step of the fleet is what one task does between two of them.
The steps ignore the roster lock, apart from the section of a merge that runs
under it: they allow every interleaving the lock allows, and more.
-/

namespace HifiApi

/-- What a task does when it is resumed. -/
inductive Task (C : Collection) where
  /-- A mutation is in memory; its update goes to SQLite. -/
  | saving (e : C.Edit) (now : I64) (before after : C.Rec) (cell : Nat)
  /-- A new record is in SQLite; it goes to memory. -/
  | joining (r : C.Rec)
  /-- Cells are published one after the other. -/
  | publishing (cells : List Nat)
  /-- A {lit}`SET` is sent, with the cells that follow. -/
  | setting (id : String) (payload : C.Payload) (cells : List Nat)
  /-- An {lit}`SADD` is sent, with the cells that follow. -/
  | adding (id : String) (cells : List Nat)
  /-- A merge has the answer of {lit}`SMEMBERS`. -/
  | indexed (ids : List String)
  /-- A merge has the answer of {lit}`MGET`. -/
  | fetched (entries : List (String × Option C.Payload))
  /-- A removal has left memory; its {lit}`DELETE` goes to SQLite. -/
  | deletingRow (id : String)
  | deletingRecord (id : String)
  | leavingIndex (id : String)

/-- One instance: its records and its tasks. -/
structure Instance (C : Collection) where
  roster : Roster C
  tasks : Nat -> Option (Task C)

/-- Instances that share one Redis. -/
structure Fleet (Host : Type) (C : Collection) where
  hosts : Host -> Instance C
  shelf : Shelf C

/-- What a resumed task leaves behind, and how it goes on. -/
structure Outcome (C : Collection) where
  roster : Roster C
  shelf : Shelf C
  task : Option (Task C)

/-- The steps of a fleet. -/
inductive Action (Host : Type) (C : Collection) where
  | edit (h : Host) (k : Nat) (id : String) (e : C.Edit) (now : I64)
  | create (h : Host) (k : Nat) (d : C.Draft) (now : I64)
  | remove (h : Host) (k : Nat) (id : String)
  | merge (h : Host) (k : Nat)
  | advance (h : Host) (k : Nat) (clock : String -> I64)
  /-- Redis does not answer the write a task has sent. -/
  | lose (h : Host) (k : Nat)
  | restart (h : Host)

section Operations

variable {C : Collection}

/-- The task that publishes the remaining cells, when there are any. -/
def Task.publishRest (cells : List Nat) : Option (Task C) :=
  if cells = [] then none else some (.publishing cells)

namespace Roster

/-- The cells whose ids were not in the index a merge has read. -/
def unindexed (m : Roster C) (entries : List (String × Option C.Payload)) :
    List Nat :=
  m.memory.roster.filter fun p =>
    decide (C.idOf (m.memory.cells p) ∉ entries.map Prod.fst)

/-- Put the mutated record into the roster; returns its cell. -/
def putEdited (m : Roster C) (rebuilds : Bool) (p : Nat) (r : C.Rec)
    (h : C.idOf r = C.idOf (m.memory.cells p)) :
    Arena C.Rec C.idOf × Nat :=
  if rebuilds then (m.memory.swap p r h, m.memory.fresh)
  else (m.memory.write p r h, p)

/-- Start a mutation of a known record.  A failed guard, an unknown id and a
statement that finds no row all answer without a change. -/
def startEdit (m : Roster C) (id : String) (e : C.Edit) (now : I64) :
    Roster C × Option (Task C) :=
  match m.memory.find? id with
  | none => (m, none)
  | some p =>
      match hedit : C.edit e now (m.memory.cells p) with
      | none => (m, none)
      | some r =>
          let old := m.memory.cells p
          let put := m.putEdited (C.editRebuilds e) p r (C.edit_idOf hedit)
          if C.editSavesFirst e then
            if C.editFindsRow e old (m.table.lookup id) then
              ({ memory := put.1
                 table := m.table.update id (C.editRow e now old r)
                   (C.editRow_rowId e now old r) },
                some (.publishing [put.2]))
            else (m, none)
          else
            ({ m with memory := put.1 }, some (.saving e now old r put.2))

/-- Start a removal. -/
def startRemove (m : Roster C) (id : String) : Roster C × Option (Task C) :=
  if C.removeNeedsRecord = true ∧ id ∉ m.memory.keys then (m, none)
  else ({ m with memory := m.memory.retain id }, some (.deletingRow id))

/-- Insert the row of a new record; its id is a fresh UUID. -/
def startCreate (m : Roster C) (d : C.Draft) (now : I64) :
    Option (Roster C × Option (Task C)) :=
  let r := C.draft d now
  if C.idOf r ∈ m.memory.keys ∨ (m.table.lookup (C.idOf r)).isSome then none
  else
    some
      ({ m with
          table := m.table.insertUnless C.conflicts C.conflicts_of_rowId
            (C.newRow now r) },
        some (.joining r))

theorem nodup_loaded (t : Table C.Row C.rowId) :
    (((t.ordered C.rowCreatedAt).map C.loadRow).map C.idOf).Nodup := by
  have hids : ((t.ordered C.rowCreatedAt).map C.loadRow).map C.idOf =
      (t.ordered C.rowCreatedAt).map C.rowId := by
    rw [List.map_map]
    exact List.map_congr_left fun w _ => C.loadRow_idOf w
  rw [hids]
  exact ((t.ordered_perm C.rowCreatedAt).map C.rowId).nodup_iff.mpr t.distinct

/-- The roster after the process has restarted and loaded its rows. -/
def reload (m : Roster C) : Roster C where
  memory := Arena.ofRecords ((m.table.ordered C.rowCreatedAt).map C.loadRow)
    (nodup_loaded m.table)
  table := m.table.mapRows C.repairRow C.repairRow_rowId

end Roster

/-- Resume a task. -/
def Task.advance (clock : String -> I64) (m : Roster C) (s : Shelf C) :
    Task C -> Option (Outcome C)
  | saving e now before after cell =>
      some
        { roster :=
            { m with
              table := m.table.update (C.idOf after) (C.editRow e now before after)
                (C.editRow_rowId e now before after) }
          shelf := s
          task := some (.publishing [cell]) }
  | joining r =>
      if h : C.idOf r ∈ m.memory.keys then none
      else
        some
          { roster := { m with memory := m.memory.insert r h }
            shelf := s
            task := some (.publishing [m.memory.fresh]) }
  | publishing [] => some ⟨m, s, none⟩
  | publishing (p :: cells) =>
      let r := m.memory.cells p
      some ⟨m, s, some (.setting (C.idOf r) (C.toPayload r) cells)⟩
  | setting id payload cells => some ⟨m, s.set id payload, some (.adding id cells)⟩
  | adding id cells => some ⟨m, s.sadd id, publishRest cells⟩
  | indexed ids => some ⟨m, s, some (.fetched (s.mget ids))⟩
  | fetched entries =>
      let merged := m.mergeAll clock entries
      some ⟨merged, s, publishRest (merged.unindexed entries)⟩
  | deletingRow id =>
      some
        { roster := { m with table := m.table.delete id }
          shelf := s
          task := some (.deletingRecord id) }
  | deletingRecord id => some ⟨m, s.del id, some (.leavingIndex id)⟩
  | leavingIndex id => some ⟨m, s.srem id, none⟩

theorem Task.publishRest_eq_some {cells : List Nat} {t : Task C} :
    publishRest cells = some t <-> cells ≠ [] ∧ t = .publishing cells := by
  unfold publishRest
  by_cases h : cells = []
  · simp [h]
  · simp [h, eq_comm]

/-- A write of a push that Redis did not take. -/
def Task.lose : Task C -> Option (Option (Task C))
  | setting id _ cells => some (some (.adding id cells))
  | adding _ cells => some (publishRest cells)
  | _ => none

/-- The task a merge starts with; an empty index ends it. -/
def Shelf.startMerge (s : Shelf C) : Option (Task C) :=
  if s.index = [] then none else some (.indexed s.index)

end Operations

namespace Fleet

variable {Host : Type} {C : Collection} [DecidableEq Host]

/-- The fleet after a task of one instance has stopped at an await point. -/
def put (s : Fleet Host C) (h : Host) (k : Nat) (m : Roster C) (shelf : Shelf C)
    (task : Option (Task C)) : Fleet Host C where
  hosts := Function.update s.hosts h
    ⟨m, Function.update (s.hosts h).tasks k task⟩
  shelf := shelf

/-- Start an operation as a task of its own, when the task's name is free. -/
def start (s : Fleet Host C) (h : Host) (k : Nat)
    (op : Option (Roster C × Option (Task C))) : Option (Fleet Host C) :=
  match (s.hosts h).tasks k, op with
  | none, some started => some (s.put h k started.1 s.shelf started.2)
  | _, _ => none

def step (s : Fleet Host C) : Action Host C -> Option (Fleet Host C)
  | .edit h k id e now =>
      s.start h k (some ((s.hosts h).roster.startEdit id e now))
  | .create h k d now => s.start h k ((s.hosts h).roster.startCreate d now)
  | .remove h k id => s.start h k (some ((s.hosts h).roster.startRemove id))
  | .merge h k => s.start h k (some ((s.hosts h).roster, s.shelf.startMerge))
  | .advance h k clock =>
      match (s.hosts h).tasks k with
      | none => none
      | some t =>
          match t.advance clock (s.hosts h).roster s.shelf with
          | none => none
          | some o => some (s.put h k o.roster o.shelf o.task)
  | .lose h k =>
      match (s.hosts h).tasks k with
      | none => none
      | some t =>
          match t.lose with
          | none => none
          | some task => some (s.put h k (s.hosts h).roster s.shelf task)
  | .restart h =>
      some
        { s with
          hosts := Function.update s.hosts h
            ⟨(s.hosts h).roster.reload, fun _ => none⟩ }

end Fleet

/-- The fleet as a step system. -/
def fleetSystem (Host : Type) [DecidableEq Host] (C : Collection) :
    System (Fleet Host C) (Action Host C) :=
  ⟨Fleet.step⟩

namespace Fleet

variable {Host : Type} {C : Collection} [DecidableEq Host]

@[simp] theorem put_shelf (s : Fleet Host C) (h : Host) (k : Nat) (m : Roster C)
    (shelf : Shelf C) (task : Option (Task C)) :
    (s.put h k m shelf task).shelf = shelf := rfl

@[simp] theorem put_roster_same (s : Fleet Host C) (h : Host) (k : Nat)
    (m : Roster C) (shelf : Shelf C) (task : Option (Task C)) :
    ((s.put h k m shelf task).hosts h).roster = m := by
  simp [put]

theorem put_hosts_of_ne (s : Fleet Host C) {h h' : Host} (hne : h' ≠ h)
    (k : Nat) (m : Roster C) (shelf : Shelf C) (task : Option (Task C)) :
    (s.put h k m shelf task).hosts h' = s.hosts h' := by
  simp [put, hne]

@[simp] theorem put_tasks_same (s : Fleet Host C) (h : Host) (k : Nat)
    (m : Roster C) (shelf : Shelf C) (task : Option (Task C)) (k' : Nat) :
    ((s.put h k m shelf task).hosts h).tasks k' =
      if k' = k then task else (s.hosts h).tasks k' := by
  simp [put, Function.update_apply]

theorem put_roster (s : Fleet Host C) (h : Host) (k : Nat) (m : Roster C)
    (shelf : Shelf C) (task : Option (Task C)) (h' : Host) :
    ((s.put h k m shelf task).hosts h').roster =
      if h' = h then m else (s.hosts h').roster := by
  by_cases hh : h' = h
  · subst hh
    simp
  · simp [put_hosts_of_ne s hh, hh]

theorem put_tasks_of_ne (s : Fleet Host C) {h h' : Host} {k k' : Nat}
    (hne : h' = h -> k' ≠ k) (m : Roster C) (shelf : Shelf C)
    (task : Option (Task C)) :
    ((s.put h k m shelf task).hosts h').tasks k' = (s.hosts h').tasks k' := by
  by_cases hh : h' = h
  · subst hh
    rw [put_tasks_same, if_neg (hne rfl)]
  · rw [put_hosts_of_ne s hh]

/-- A task is the one just put down, or it was there before. -/
theorem task_put_cases {s : Fleet Host C} {h : Host} {k : Nat} {m : Roster C}
    {shelf : Shelf C} {task : Option (Task C)} {h' : Host} {k' : Nat}
    {t : Task C} (ht : ((s.put h k m shelf task).hosts h').tasks k' = some t) :
    (h' = h ∧ k' = k ∧ task = some t) ∨
      ((h' = h -> k' ≠ k) ∧ (s.hosts h').tasks k' = some t) := by
  by_cases hh : h' = h
  · subst hh
    rw [put_tasks_same] at ht
    by_cases hk : k' = k
    · rw [if_pos hk] at ht
      exact Or.inl ⟨rfl, hk, ht⟩
    · rw [if_neg hk] at ht
      exact Or.inr ⟨fun _ => hk, ht⟩
  · rw [put_hosts_of_ne s hh] at ht
    exact Or.inr ⟨fun heq => absurd heq hh, ht⟩

/-- An operation that changes nothing leaves the fleet as it was. -/
theorem put_self {s : Fleet Host C} {h : Host} {k : Nat}
    (hfree : (s.hosts h).tasks k = none) :
    s.put h k (s.hosts h).roster s.shelf none = s := by
  have htasks : Function.update (s.hosts h).tasks k none = (s.hosts h).tasks := by
    rw [← hfree]
    exact Function.update_eq_self k _
  unfold put
  rw [htasks]
  have hhosts : Function.update s.hosts h
      ⟨(s.hosts h).roster, (s.hosts h).tasks⟩ = s.hosts :=
    Function.update_eq_self h _
  rw [hhosts]

/-!
## What a step can do
-/

theorem start_eq_some {s s' : Fleet Host C} {h : Host} {k : Nat}
    {op : Option (Roster C × Option (Task C))} :
    s.start h k op = some s' <->
      exists started, (s.hosts h).tasks k = none ∧ op = some started ∧
        s' = s.put h k started.1 s.shelf started.2 := by
  unfold start
  cases htask : (s.hosts h).tasks k with
  | some t =>
      simp
  | none =>
      cases op with
      | none =>
          simp
      | some started =>
          simp [eq_comm]

theorem step_edit {s s' : Fleet Host C} {h : Host} {k : Nat} {id : String}
    {e : C.Edit} {now : I64} :
    s.step (.edit h k id e now) = some s' <->
      (s.hosts h).tasks k = none ∧
        s' = s.put h k ((s.hosts h).roster.startEdit id e now).1 s.shelf
          ((s.hosts h).roster.startEdit id e now).2 := by
  simp [step, start_eq_some]

theorem step_create {s s' : Fleet Host C} {h : Host} {k : Nat} {d : C.Draft}
    {now : I64} :
    s.step (.create h k d now) = some s' <->
      exists started, (s.hosts h).tasks k = none ∧
        (s.hosts h).roster.startCreate d now = some started ∧
        s' = s.put h k started.1 s.shelf started.2 := by
  simp [step, start_eq_some]

theorem step_remove {s s' : Fleet Host C} {h : Host} {k : Nat} {id : String} :
    s.step (.remove h k id) = some s' <->
      (s.hosts h).tasks k = none ∧
        s' = s.put h k ((s.hosts h).roster.startRemove id).1 s.shelf
          ((s.hosts h).roster.startRemove id).2 := by
  simp [step, start_eq_some]

theorem step_merge {s s' : Fleet Host C} {h : Host} {k : Nat} :
    s.step (.merge h k) = some s' <->
      (s.hosts h).tasks k = none ∧
        s' = s.put h k (s.hosts h).roster s.shelf s.shelf.startMerge := by
  simp [step, start_eq_some]

theorem step_advance {s s' : Fleet Host C} {h : Host} {k : Nat}
    {clock : String -> I64} :
    s.step (.advance h k clock) = some s' <->
      exists t o, (s.hosts h).tasks k = some t ∧
        t.advance clock (s.hosts h).roster s.shelf = some o ∧
        s' = s.put h k o.roster o.shelf o.task := by
  simp only [step]
  cases htask : (s.hosts h).tasks k with
  | none =>
      simp
  | some t =>
      cases hadvance : t.advance clock (s.hosts h).roster s.shelf with
      | none =>
          simp [hadvance]
      | some o =>
          simp [hadvance, eq_comm]

theorem step_lose {s s' : Fleet Host C} {h : Host} {k : Nat} :
    s.step (.lose h k) = some s' <->
      exists t task, (s.hosts h).tasks k = some t ∧ t.lose = some task ∧
        s' = s.put h k (s.hosts h).roster s.shelf task := by
  simp only [step]
  cases htask : (s.hosts h).tasks k with
  | none =>
      simp
  | some t =>
      cases hlose : t.lose with
      | none =>
          simp [hlose]
      | some task =>
          simp [hlose, eq_comm]

theorem step_restart {s s' : Fleet Host C} {h : Host} :
    s.step (.restart h) = some s' <->
      s' = { s with
        hosts := Function.update s.hosts h
          ⟨(s.hosts h).roster.reload, fun _ => none⟩ } := by
  simp [step, eq_comm]

end Fleet

/-!
## Cells keep their ids
-/

section Extends

variable {C : Collection}

theorem Roster.extends_startEdit (m : Roster C) (id : String) (e : C.Edit)
    (now : I64) : m.Extends (m.startEdit id e now).1 := by
  have hput : forall {p r} {h : C.idOf r = C.idOf (m.memory.cells p)}
      {m' : Roster C},
      m'.memory = (m.putEdited (C.editRebuilds e) p r h).1 -> m.Extends m' := by
    intro p r h m' hm'
    by_cases hrebuilds : C.editRebuilds e = true
    · exact Roster.extends_swap h
        (hm'.trans (by simp [putEdited, hrebuilds]))
    · exact Roster.extends_write h
        (hm'.trans (by simp [putEdited, hrebuilds]))
  unfold startEdit
  split
  · exact Roster.Extends.refl m
  · split
    · exact Roster.Extends.refl m
    · dsimp only
      split
      · split
        · exact hput rfl
        · exact Roster.Extends.refl m
      · exact hput rfl

theorem Roster.extends_startRemove (m : Roster C) (id : String) :
    m.Extends (m.startRemove id).1 := by
  unfold startRemove
  split
  · exact Roster.Extends.refl m
  · exact ⟨Nat.le_refl _, fun _ _ => rfl⟩

theorem Task.extends_advance {t : Task C} {clock : String -> I64}
    {m : Roster C} {s : Shelf C} {o : Outcome C}
    (h : t.advance clock m s = some o) : m.Extends o.roster := by
  cases t with
  | joining r =>
      simp only [advance] at h
      split at h
      · cases h
      · rename_i hkey
        cases h
        exact Roster.extends_insert hkey rfl
  | fetched entries =>
      cases h
      exact Roster.extends_mergeAll clock m entries
  | publishing cells =>
      cases cells <;> cases h <;> exact Roster.Extends.refl m
  | _ =>
      cases h
      exact ⟨Nat.le_refl _, fun _ _ => rfl⟩

end Extends

/-!
## What a mutation does
-/

section Edits

variable {C : Collection}

/-- A mutation that takes effect on a record of a roster: the record before and
after it, and the cell that holds the new one. -/
structure Roster.Edited (m m' : Roster C) (id : String) (e : C.Edit) (now : I64)
    (r r' : C.Rec) (cell : Nat) (t : Task C) : Prop where
  before : m.lookup id = some r
  edit : C.edit e now r = some r'
  after : forall k, m'.lookup k = if k = id then some r' else m.lookup k
  task : t = .saving e now r r' cell ∨ t = .publishing [cell]
  cell_lt : cell < m'.memory.fresh
  cell_eq : m'.memory.cells cell = r'
  cells : forall p, p < m.memory.fresh ->
    m'.memory.cells p = m.memory.cells p ∨
      (p = cell ∧ m.memory.cells p = r)

/-- A mutation changes nothing, or it takes effect and starts a task. -/
theorem Roster.startEdit_cases (m : Roster C) (id : String) (e : C.Edit)
    (now : I64) :
    m.startEdit id e now = (m, none) ∨
      exists r r' cell t, (m.startEdit id e now).2 = some t ∧
        m.Edited (m.startEdit id e now).1 id e now r r' cell t := by
  unfold startEdit
  split
  · exact Or.inl rfl
  · rename_i p hfind
    have hp := Arena.find?_eq_some.mp hfind
    have hbound := m.memory.bounded p hp.left
    split
    · exact Or.inl rfl
    · rename_i r hr
      have hid : C.idOf r = id := (C.edit_idOf hr).trans hp.right
      have hafter : forall rebuilds k,
          (m.putEdited rebuilds p r (C.edit_idOf hr)).1.lookup k =
            if k = id then some r else m.lookup k := by
        intro rebuilds k
        have hlookup : (m.putEdited rebuilds p r (C.edit_idOf hr)).1.lookup k =
            if C.idOf r = k then some r else m.memory.lookup k := by
          unfold putEdited
          split
          · exact Arena.lookup_swap (C.edit_idOf hr) hp.left k
          · exact Arena.lookup_write (C.edit_idOf hr) hp.left k
        rw [hlookup, hid]
        by_cases hk : k = id
        · simp [hk]
        · simp [hk, Ne.symm hk, lookup]
      have hcell : forall rebuilds,
          (m.putEdited rebuilds p r (C.edit_idOf hr)).2 <
              (m.putEdited rebuilds p r (C.edit_idOf hr)).1.fresh ∧
            (m.putEdited rebuilds p r (C.edit_idOf hr)).1.cells
              (m.putEdited rebuilds p r (C.edit_idOf hr)).2 = r ∧
            forall q, q < m.memory.fresh ->
              (m.putEdited rebuilds p r (C.edit_idOf hr)).1.cells q =
                  m.memory.cells q ∨
                (q = (m.putEdited rebuilds p r (C.edit_idOf hr)).2 ∧
                  m.memory.cells q = m.memory.cells p) := by
        intro rebuilds
        unfold putEdited
        split
        · refine ⟨Nat.lt_succ_self _, by simp [Arena.swap], ?_⟩
          intro q hq
          exact Or.inl (by simp [Arena.swap, Function.update_of_ne (Nat.ne_of_lt hq)])
        · refine ⟨hbound, by simp [Arena.write], ?_⟩
          intro q _
          by_cases hqp : q = p
          · exact Or.inr ⟨hqp, by rw [hqp]⟩
          · exact Or.inl (by simp [Arena.write, Function.update_of_ne hqp])
      dsimp only
      split
      · split
        · refine Or.inr ⟨m.memory.cells p, r, _, _, rfl,
            Arena.lookup_of_find? hfind, hr, ?_, Or.inr rfl, ?_, ?_, ?_⟩
          · exact hafter _
          · exact (hcell _).left
          · exact (hcell _).right.left
          · exact (hcell _).right.right
        · exact Or.inl rfl
      · refine Or.inr ⟨m.memory.cells p, r, _, _, rfl,
          Arena.lookup_of_find? hfind, hr, ?_, Or.inl rfl, ?_, ?_, ?_⟩
        · exact hafter _
        · exact (hcell _).left
        · exact (hcell _).right.left
        · exact (hcell _).right.right

end Edits

/-!
## What a merge has read
-/

section Reads

variable {C : Collection} {t : Task C} {clock : String -> I64} {m : Roster C}
  {s : Shelf C} {o : Outcome C}

/-- A list of records comes from a list of ids. -/
theorem Task.fetched_of_advance (h : t.advance clock m s = some o)
    {entries : List (String × Option C.Payload)}
    (htask : o.task = some (.fetched entries)) :
    exists ids, t = .indexed ids ∧ entries = s.mget ids := by
  cases t with
  | indexed ids =>
      cases h
      cases htask
      exact ⟨ids, rfl, rfl⟩
  | joining r =>
      simp only [advance] at h
      split at h
      · cases h
      · cases h
        cases htask
  | publishing cells =>
      cases cells <;> cases h <;> cases htask
  | adding id cells =>
      cases h
      cases (publishRest_eq_some.mp htask).right
  | fetched entries =>
      cases h
      cases (publishRest_eq_some.mp htask).right
  | _ =>
      cases h
      cases htask

/-- A list of ids is where a merge starts. -/
theorem Task.not_indexed_of_advance (h : t.advance clock m s = some o)
    (ids : List String) : o.task ≠ some (.indexed ids) := by
  intro htask
  cases t with
  | joining r =>
      simp only [advance] at h
      split at h
      · cases h
      · cases h
        cases htask
  | publishing cells =>
      cases cells <;> cases h <;> cases htask
  | adding id cells =>
      cases h
      cases (publishRest_eq_some.mp htask).right
  | fetched entries =>
      cases h
      cases (publishRest_eq_some.mp htask).right
  | _ =>
      cases h
      cases htask

end Reads

/-!
## Fleets that start together
-/

namespace Fleet

variable {Host : Type} {C : Collection}

/-- No task is running. -/
def Idle (s : Fleet Host C) : Prop :=
  forall h k, (s.hosts h).tasks k = none

/-- Every instance knows the ids of the index, and no others. -/
structure Common (s : Fleet Host C) : Prop where
  idle : s.Idle
  ids : forall h id, id ∈ (s.hosts h).roster.memory.keys <-> id ∈ s.shelf.index

/-- Instances that have loaded the same table, and a Redis with its records. -/
def loaded (Host : Type) {C : Collection} (t : Table C.Row C.rowId) :
    Fleet Host C :=
  let m : Roster C := Roster.reload ⟨Arena.empty, t⟩
  { hosts := fun _ => ⟨m, fun _ => none⟩
    shelf :=
      { index := m.memory.keys
        once := m.memory.distinct
        record := fun id => (m.lookup id).map C.toPayload } }

/-- Instances and a Redis that hold nothing. -/
def blank (Host : Type) (C : Collection) : Fleet Host C where
  hosts := fun _ => ⟨⟨Arena.empty, Table.empty⟩, fun _ => none⟩
  shelf := ⟨[], List.nodup_nil, fun _ => none⟩

theorem loaded_common (Host : Type) {C : Collection}
    (t : Table C.Row C.rowId) : (loaded Host t : Fleet Host C).Common where
  idle := fun _ _ => rfl
  ids := fun _ _ => Iff.rfl

end Fleet

end HifiApi
