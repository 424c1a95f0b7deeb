import HifiApi.Lib.SqlTables
import HifiApi.Lib.System
import Mathlib.Data.List.Nodup
import Mathlib.Logic.Function.Basic

/-!
# Migrations at start

Servers that share a database bring its schema up to date when they start: tables that
are missing are created, and columns that are missing, as of a listing of the columns
before, are added.  Any number of starts may be under way, and may break off, while
servers that are up write.  Starts show neither in what is read nor in what is written,
whoever is up finds every column, and a start that is left alone comes up.
-/

namespace HifiApi

variable {Table Name Cell : Type}

def Database (Table Name Cell : Type) : Type := Table -> Option (SqlTable Name Cell)

/-- The statements of a start. -/
inductive Statement (Table Name Cell : Type) where
  | createIfMissing (table : Table) (columns : List (SqlColumn Name Cell))
  | tableInfo (table : Table)
  | addIfMissing (table : Table) (c : SqlColumn Name Cell)

/-- A table as it is created, and the columns that older ones may lack. -/
structure Migration (Table Name Cell : Type) where
  table : Table
  columns : List (SqlColumn Name Cell)
  added : List (SqlColumn Name Cell)

def Migration.statements (m : Migration Table Name Cell) :
    List (Statement Table Name Cell) :=
  .createIfMissing m.table m.columns ::
    if m.added.isEmpty then []
    else .tableInfo m.table :: m.added.map (.addIfMissing m.table)

/-- The columns that a program wants of the table. -/
def Migration.wanted (m : Migration Table Name Cell) : List (SqlColumn Name Cell) :=
  m.columns ++ m.added

def startProgram (ms : List (Migration Table Name Cell)) : List (Statement Table Name Cell) :=
  ms.flatMap Migration.statements

/-- A server: its start keeps the columns that it saw of each table. -/
inductive Starter (Table Name Cell : Type) where
  | starting (rest : List (Statement Table Name Cell)) (seen : Table -> List Name)
  | up
  | failed
  | down

structure StartWorld (Table Name Cell : Type) where
  db : Database Table Name Cell
  servers : List (Starter Table Name Cell)

inductive StartAction (Table Name Cell : Type) where
  | launch
  | go (k : Nat)
  | kill (k : Nat)
  | write (k : Nat) (table : Table) (w : SqlWrite Name Cell)

/-- What is noted of statements that write: done, or an error. -/
inductive WriteMark (Table Name Cell : Type) where
  | wrote (table : Table) (w : SqlWrite Name Cell)
  | rejected (table : Table) (w : SqlWrite Name Cell)

namespace Database

/-- What is read of a table; of one that is missing, no rows. -/
def readings [DecidableEq Name] (defaults : Table -> Name -> Cell)
    (db : Database Table Name Cell) (table : Table) : List (Name -> Cell) :=
  match db table with
  | none => []
  | some t => t.readings (defaults table)

/-- The table has a column of this name. -/
def Has (db : Database Table Name Cell) (table : Table) (n : Name) : Prop :=
  exists t, db table = some t ∧ n ∈ t.names

/-- The database with this table under the name. -/
def put [DecidableEq Table] (db : Database Table Name Cell) (table : Table)
    (t : SqlTable Name Cell) : Database Table Name Cell :=
  fun table' => if table' = table then some t else db table'

/-- Every table is there, with all columns that the program wants. -/
def Complete (db : Database Table Name Cell) (ms : List (Migration Table Name Cell)) : Prop :=
  forall m, m ∈ ms -> db m.table ≠ none ∧
    forall c, c ∈ m.wanted -> db.Has m.table c.name

end Database

section Steps

variable [DecidableEq Table] [DecidableEq Name]

/-- A statement of a start; adding a column that is there is an error. -/
def Statement.execute (fold : Name -> Name) (db : Database Table Name Cell)
    (seen : Table -> List Name) :
    Statement Table Name Cell -> Option (Database Table Name Cell × (Table -> List Name))
  | createIfMissing table columns =>
      match db table with
      | some _ => some (db, seen)
      | none => some (db.put table (.create columns), seen)
  | tableInfo table =>
      some (db, Function.update seen table
        (match db table with
        | none => []
        | some t => t.names))
  | addIfMissing table c =>
      if c.name ∈ seen table then some (db, seen)
      else
        match db table with
        | none => none
        | some t =>
            (t.addColumn fold c).map fun t' => (db.put table t', seen)

/-- The statements in order, as long as there is no error. -/
def executeAll (fold : Name -> Name) :
    List (Statement Table Name Cell) -> Database Table Name Cell -> (Table -> List Name) ->
      Option (Database Table Name Cell × (Table -> List Name))
  | [], db, seen => some (db, seen)
  | s :: rest, db, seen =>
      match s.execute fold db seen with
      | none => none
      | some next => executeAll fold rest next.1 next.2

namespace StartWorld

variable (fold : Name -> Name) (defaults : Table -> Name -> Cell)
  (ms : List (Migration Table Name Cell))

def step (w : StartWorld Table Name Cell) :
    StartAction Table Name Cell -> Option (StartWorld Table Name Cell)
  | .launch =>
      some { w with servers := w.servers ++ [Starter.starting (startProgram ms) fun _ => []] }
  | .go k =>
      match w.servers[k]? with
      | some (.starting [] _) => some { w with servers := w.servers.set k .up }
      | some (.starting (s :: rest) seen) =>
          match s.execute fold w.db seen with
          | none => some { w with servers := w.servers.set k .failed }
          | some (db, seen) =>
              some { db := db, servers := w.servers.set k (.starting rest seen) }
      | _ => none
  | .kill k =>
      if k < w.servers.length then some { w with servers := w.servers.set k .down } else none
  | .write k table statement =>
      match w.servers[k]? with
      | some .up =>
          match (w.db table).bind fun t => t.write (defaults table) statement with
          | none => some w
          | some t => some { w with db := w.db.put table t }
      | _ => none

def marks (w : StartWorld Table Name Cell) :
    StartAction Table Name Cell -> List (WriteMark Table Name Cell)
  | .write _ table statement =>
      match (w.db table).bind fun t => t.write (defaults table) statement with
      | none => [.rejected table statement]
      | some _ => [.wrote table statement]
  | _ => []

def system : System (StartWorld Table Name Cell) (StartAction Table Name Cell) where
  step := step fold defaults ms

end StartWorld

end Steps

/-!
## What starts rely on
-/

/-- A program of migrations whose columns have one spelling and one default each. -/
structure Migratable (fold : Name -> Name) (defaults : Table -> Name -> Cell)
    (ms : List (Migration Table Name Cell)) : Prop where
  tables : (ms.map Migration.table).Nodup
  folded : forall m, m ∈ ms -> forall c, c ∈ m.wanted -> fold c.name = c.name
  defaults : forall m, m ∈ ms -> forall c, c ∈ m.wanted -> c.default = defaults m.table c.name
  distinct : forall m, m ∈ ms -> (m.added.map SqlColumn.name).Nodup

/-- A database that an older version may have left: its tables lack no column but such
that are added. -/
structure Legacy (fold : Name -> Name) (defaults : Table -> Name -> Cell)
    (ms : List (Migration Table Name Cell)) (db : Database Table Name Cell) : Prop where
  folded : forall table t, db table = some t -> forall n, n ∈ t.names -> fold n = n
  defaults : forall table t, db table = some t ->
    forall c, c ∈ t.columns -> c.default = defaults table c.name
  enough : forall m, m ∈ ms -> forall t, db m.table = some t ->
    forall c, c ∈ m.columns -> c.name ∈ t.names ∨ c.name ∈ m.added.map SqlColumn.name

theorem mem_startProgram_create {ms : List (Migration Table Name Cell)} {table : Table}
    {columns : List (SqlColumn Name Cell)}
    (h : .createIfMissing table columns ∈ startProgram ms) :
    exists m, m ∈ ms ∧ m.table = table ∧ m.columns = columns := by
  rcases List.mem_flatMap.mp h with ⟨m, hm, hst⟩
  unfold Migration.statements at hst
  rcases List.mem_cons.mp hst with heq | hrest
  · cases heq
    exact ⟨m, hm, rfl, rfl⟩
  · split at hrest
    · cases hrest
    · rcases List.mem_cons.mp hrest with heq | hadd
      · cases heq
      · rcases List.mem_map.mp hadd with ⟨c, _, heq⟩
        cases heq

theorem mem_startProgram_add {ms : List (Migration Table Name Cell)} {table : Table}
    {c : SqlColumn Name Cell} (h : .addIfMissing table c ∈ startProgram ms) :
    exists m, m ∈ ms ∧ m.table = table ∧ c ∈ m.added := by
  rcases List.mem_flatMap.mp h with ⟨m, hm, hst⟩
  unfold Migration.statements at hst
  rcases List.mem_cons.mp hst with heq | hrest
  · cases heq
  · split at hrest
    · cases hrest
    · rcases List.mem_cons.mp hrest with heq | hadd
      · cases heq
      · rcases List.mem_map.mp hadd with ⟨c', hc', heq⟩
        cases heq
        exact ⟨m, hm, rfl, hc'⟩

/-!
## One statement
-/

namespace Database

/-- No table and no column is lost. -/
def Grows (db db' : Database Table Name Cell) : Prop :=
  forall table t, db table = some t ->
    exists t', db' table = some t' ∧ forall n, n ∈ t.names -> n ∈ t'.names

variable {db db' : Database Table Name Cell}

theorem Grows.refl (db : Database Table Name Cell) : db.Grows db :=
  fun _ t ht => ⟨t, ht, fun _ hn => hn⟩

theorem Grows.has (h : db.Grows db') {table : Table} {n : Name} (hn : db.Has table n) :
    db'.Has table n := by
  rcases hn with ⟨t, ht, hmem⟩
  rcases h table t ht with ⟨t', ht', hall⟩
  exact ⟨t', ht', hall n hmem⟩

theorem Grows.ne_none (h : db.Grows db') {table : Table} (hne : db table ≠ none) :
    db' table ≠ none := by
  rcases Option.ne_none_iff_exists'.mp hne with ⟨t, ht⟩
  rcases h table t ht with ⟨t', ht', _⟩
  rw [ht']
  exact Option.some_ne_none t'

theorem readings_some [DecidableEq Name] {defaults : Table -> Name -> Cell} {table : Table}
    {t : SqlTable Name Cell} (h : db table = some t) :
    db.readings defaults table = t.readings (defaults table) := by
  rw [readings, h]

variable [DecidableEq Table]

theorem put_self (table : Table) (t : SqlTable Name Cell) : db.put table t table = some t :=
  if_pos rfl

theorem put_of_ne {table table' : Table} (h : table' ≠ table) (t : SqlTable Name Cell) :
    db.put table t table' = db table' :=
  if_neg h

theorem grows_put {table : Table} {t' : SqlTable Name Cell}
    (h : forall t, db table = some t -> forall n, n ∈ t.names -> n ∈ t'.names) :
    db.Grows (db.put table t') := by
  intro table' t ht
  by_cases heq : table' = table
  · subst heq
    exact ⟨t', put_self table' t', h t ht⟩
  · exact ⟨t, (put_of_ne heq t').trans ht, fun _ hn => hn⟩

variable [DecidableEq Name] {defaults : Table -> Name -> Cell}

theorem readings_put {table : Table} (t' : SqlTable Name Cell) (table' : Table) :
    (db.put table t').readings defaults table' =
      if table' = table then t'.readings (defaults table) else db.readings defaults table' := by
  split
  · rename_i heq
    rw [heq]
    exact readings_some (put_self table t')
  · rename_i hne
    unfold readings
    rw [put_of_ne hne]

end Database

/-- What a statement of the start has brought about. -/
def Statement.Holds (db : Database Table Name Cell) : Statement Table Name Cell -> Prop
  | createIfMissing table _ => db table ≠ none
  | tableInfo _ => True
  | addIfMissing table c => db.Has table c.name

theorem Statement.Holds.grows {db db' : Database Table Name Cell}
    {s : Statement Table Name Cell} (h : s.Holds db) (hgrows : db.Grows db') :
    s.Holds db' := by
  cases s with
  | createIfMissing table columns =>
      exact hgrows.ne_none h
  | tableInfo table =>
      trivial
  | addIfMissing table c =>
      exact hgrows.has h

/-- The columns that were seen are there. -/
def Knows (db : Database Table Name Cell) (seen : Table -> List Name) : Prop :=
  forall table n, n ∈ seen table -> db.Has table n

theorem Knows.grows {db db' : Database Table Name Cell} {seen : Table -> List Name}
    (h : Knows db seen) (hgrows : db.Grows db') : Knows db' seen :=
  fun table n hn => hgrows.has (h table n hn)

section Legacy

variable {fold : Name -> Name} {defaults : Table -> Name -> Cell}
  {ms : List (Migration Table Name Cell)} {db : Database Table Name Cell}

/-- A program all of whose statements hold finds what it wants. -/
theorem Legacy.complete (h : Legacy fold defaults ms db)
    (hholds : forall s, s ∈ startProgram ms -> s.Holds db) : db.Complete ms := by
  have hadded : forall m, m ∈ ms -> forall c, c ∈ m.added -> db.Has m.table c.name := by
    intro m hm c hc
    apply hholds (.addIfMissing m.table c)
    refine List.mem_flatMap.mpr ⟨m, hm, List.mem_cons_of_mem _ ?_⟩
    rw [if_neg fun hempty => List.ne_nil_of_mem hc (List.isEmpty_iff.mp hempty)]
    exact List.mem_cons_of_mem _ (List.mem_map_of_mem hc)
  intro m hm
  have htable := hholds (.createIfMissing m.table m.columns)
    (List.mem_flatMap.mpr ⟨m, hm, List.mem_cons_self⟩)
  refine ⟨htable, ?_⟩
  intro c hc
  rcases List.mem_append.mp hc with hcolumn | hadd
  · rcases Option.ne_none_iff_exists'.mp htable with ⟨t, ht⟩
    rcases h.enough m hm t ht c hcolumn with hname | hlater
    · exact ⟨t, ht, hname⟩
    · rcases List.mem_map.mp hlater with ⟨c', hc', heq⟩
      rw [<- heq]
      exact hadded m hm c' hc'
  · exact hadded m hm c hadd

variable [DecidableEq Table]

theorem Legacy.put (h : Legacy fold defaults ms db) {table : Table}
    {t : SqlTable Name Cell} (hfold : forall n, n ∈ t.names -> fold n = n)
    (hdefaults : forall c, c ∈ t.columns -> c.default = defaults table c.name)
    (henough : forall m, m ∈ ms -> m.table = table -> forall c, c ∈ m.columns ->
      c.name ∈ t.names ∨ c.name ∈ m.added.map SqlColumn.name) :
    Legacy fold defaults ms (db.put table t) := by
  constructor
  · intro table' t' ht'
    by_cases heq : table' = table
    · subst heq
      rw [Database.put_self] at ht'
      cases ht'
      exact hfold
    · rw [Database.put_of_ne heq] at ht'
      exact h.folded table' t' ht'
  · intro table' t' ht'
    by_cases heq : table' = table
    · subst heq
      rw [Database.put_self] at ht'
      cases ht'
      exact hdefaults
    · rw [Database.put_of_ne heq] at ht'
      exact h.defaults table' t' ht'
  · intro m hm t' ht'
    by_cases heq : m.table = table
    · rw [heq, Database.put_self] at ht'
      cases ht'
      exact henough m hm heq
    · rw [Database.put_of_ne heq] at ht'
      exact h.enough m hm t' ht'

variable [DecidableEq Name]

/-- What a statement of a start does, if it is no error. -/
structure Executes (fold : Name -> Name) (defaults : Table -> Name -> Cell)
    (ms : List (Migration Table Name Cell)) (s : Statement Table Name Cell)
    (db db' : Database Table Name Cell) (seen seen' : Table -> List Name) : Prop where
  legacy : Legacy fold defaults ms db'
  grows : db.Grows db'
  knows : Knows db seen -> Knows db' seen'
  holds : Knows db seen -> s.Holds db'
  unseen : forall table, db'.readings defaults table = db.readings defaults table

theorem executes_create (hsound : Migratable fold defaults ms)
    (hlegacy : Legacy fold defaults ms db) {m : Migration Table Name Cell} (hm : m ∈ ms)
    (hnone : db m.table = none) (seen : Table -> List Name) :
    Executes fold defaults ms (.createIfMissing m.table m.columns) db
      (db.put m.table (.create m.columns)) seen seen := by
  have hgrows : db.Grows (db.put m.table (.create m.columns)) := by
    apply Database.grows_put
    intro t ht
    rw [hnone] at ht
    cases ht
  refine ⟨?_, hgrows, fun hknows => hknows.grows hgrows, fun _ => ?_, ?_⟩
  · apply hlegacy.put
    · intro n hn
      rcases List.mem_map.mp hn with ⟨c, hc, rfl⟩
      exact hsound.folded m hm c (List.mem_append_left _ hc)
    · intro c hc
      exact hsound.defaults m hm c (List.mem_append_left _ hc)
    · intro m' hm' heq c hc
      have hsame := List.inj_on_of_nodup_map hsound.tables hm' hm heq
      rw [hsame] at hc
      exact Or.inl (List.mem_map_of_mem hc)
  · show db.put m.table _ m.table ≠ none
    rw [Database.put_self]
    exact Option.some_ne_none _
  · intro table
    rw [Database.readings_put]
    split
    · rename_i heq
      rw [heq, Database.readings, hnone]
      rfl
    · rfl

theorem executes_add (hsound : Migratable fold defaults ms)
    (hlegacy : Legacy fold defaults ms db) {m : Migration Table Name Cell} (hm : m ∈ ms)
    {c : SqlColumn Name Cell} (hc : c ∈ m.added) {t t' : SqlTable Name Cell}
    (ht : db m.table = some t) (hadd : t.addColumn fold c = some t')
    (seen : Table -> List Name) :
    Executes fold defaults ms (.addIfMissing m.table c) db (db.put m.table t') seen seen := by
  have hwanted : c ∈ m.wanted := List.mem_append_right _ hc
  have hfold := hsound.folded m hm c hwanted
  have hdefault := hsound.defaults m hm c hwanted
  have hnames := SqlTable.names_addColumn hadd
  have hgrows : db.Grows (db.put m.table t') := by
    apply Database.grows_put
    intro u hu n hn
    rw [ht] at hu
    cases hu
    rw [hnames]
    exact List.mem_append_left _ hn
  refine ⟨?_, hgrows, fun hknows => hknows.grows hgrows, fun _ => ?_, ?_⟩
  · apply hlegacy.put
    · exact SqlTable.folded_addColumn hadd (hlegacy.folded m.table t ht) hfold
    · exact SqlTable.defaults_addColumn hadd (hlegacy.defaults m.table t ht) hdefault
    · intro m' hm' heq c' hc'
      have ht' : db m'.table = some t := by
        rw [heq]
        exact ht
      rw [hnames]
      exact (hlegacy.enough m' hm' t ht' c' hc').imp_left (List.mem_append_left _)
  · refine ⟨t', Database.put_self m.table t', ?_⟩
    rw [hnames]
    exact List.mem_append_right _ List.mem_cons_self
  · intro table
    rw [Database.readings_put]
    split
    · rename_i heq
      rw [heq, Database.readings_some ht]
      exact SqlTable.readings_addColumn hadd hdefault
    · rfl

theorem executes_of_execute (hsound : Migratable fold defaults ms)
    (hlegacy : Legacy fold defaults ms db) {s : Statement Table Name Cell}
    (hs : s ∈ startProgram ms) {db' : Database Table Name Cell}
    {seen seen' : Table -> List Name} (h : s.execute fold db seen = some (db', seen')) :
    Executes fold defaults ms s db db' seen seen' := by
  cases s with
  | createIfMissing table columns =>
      rcases mem_startProgram_create hs with ⟨m, hm, rfl, rfl⟩
      simp only [Statement.execute] at h
      split at h
      · rename_i t ht
        cases h
        refine ⟨hlegacy, .refl db, fun hknows => hknows, fun _ => ?_, fun _ => rfl⟩
        show db m.table ≠ none
        rw [ht]
        exact Option.some_ne_none t
      · rename_i hnone
        cases h
        exact executes_create hsound hlegacy hm hnone seen
  | tableInfo table =>
      cases h
      refine ⟨hlegacy, .refl db, ?_, fun _ => trivial, fun _ => rfl⟩
      intro hknows table' n hn
      by_cases heq : table' = table
      · subst heq
        rw [Function.update_self] at hn
        split at hn
        · cases hn
        · rename_i t ht
          exact ⟨t, ht, hn⟩
      · rw [Function.update_of_ne heq] at hn
        exact hknows table' n hn
  | addIfMissing table c =>
      rcases mem_startProgram_add hs with ⟨m, hm, rfl, hc⟩
      simp only [Statement.execute] at h
      split at h
      · rename_i hseen
        cases h
        exact ⟨hlegacy, .refl db, fun hknows => hknows, fun hknows => hknows _ _ hseen,
          fun _ => rfl⟩
      · split at h
        · cases h
        · rename_i t ht
          rcases Option.map_eq_some_iff.mp h with ⟨t', hadd, heq⟩
          cases heq
          exact executes_add hsound hlegacy hm hc ht hadd seen

/-!
## Whole starts
-/

theorem executeAll_append (fold : Name -> Name) (first second : List (Statement Table Name Cell))
    (db : Database Table Name Cell) (seen : Table -> List Name) :
    executeAll fold (first ++ second) db seen =
      (executeAll fold first db seen).bind fun next => executeAll fold second next.1 next.2 := by
  induction first generalizing db seen with
  | nil =>
      rfl
  | cons s first ih =>
      simp only [List.cons_append, executeAll]
      cases s.execute fold db seen with
      | none =>
          rfl
      | some next =>
          exact ih next.1 next.2

/-- Columns that were listed as missing, or are new, are added one after the other. -/
theorem exists_adds {table : Table} {added : List (SqlColumn Name Cell)}
    (hdistinct : (added.map SqlColumn.name).Nodup)
    (hfolded : forall c, c ∈ added -> fold c.name = c.name)
    {seen : Table -> List Name} {t : SqlTable Name Cell} (ht : db table = some t)
    (hnames : forall n, n ∈ t.names -> fold n = n)
    (hseen : forall c, c ∈ added -> c.name ∈ seen table ∨ c.name ∉ t.names) :
    exists db', executeAll fold (added.map (.addIfMissing table)) db seen = some (db', seen) := by
  induction added generalizing db t with
  | nil =>
      exact ⟨db, rfl⟩
  | cons c added ih =>
      rw [List.map_cons, List.nodup_cons] at hdistinct
      have hrest : forall c', c' ∈ added -> fold c'.name = c'.name :=
        fun c' hc' => hfolded c' (List.mem_cons_of_mem c hc')
      by_cases hc : c.name ∈ seen table
      · have hskip : (Statement.addIfMissing table c).execute fold db seen = some (db, seen) :=
          if_pos hc
        rw [List.map_cons]
        simp only [executeAll, hskip]
        exact ih hdistinct.right hrest ht hnames fun c' hc' =>
          hseen c' (List.mem_cons_of_mem c hc')
      · have hnew := (hseen c List.mem_cons_self).resolve_left hc
        have hfold := hfolded c List.mem_cons_self
        rcases SqlTable.exists_addColumn hnames hfold hnew with ⟨t', hadd⟩
        have hstep : (Statement.addIfMissing table c).execute fold db seen =
            some (db.put table t', seen) := by
          simp only [Statement.execute, if_neg hc, ht, hadd]
          rfl
        rw [List.map_cons]
        simp only [executeAll, hstep]
        refine ih hdistinct.right hrest (Database.put_self table t') ?_ ?_
        · exact SqlTable.folded_addColumn hadd hnames hfold
        · intro c' hc'
          refine (hseen c' (List.mem_cons_of_mem c hc')).imp_right fun hold hmem => ?_
          rw [SqlTable.names_addColumn hadd] at hmem
          rcases List.mem_append.mp hmem with hold' | hlast
          · exact hold hold'
          · apply hdistinct.left
            rw [<- List.mem_singleton.mp hlast]
            exact List.mem_map_of_mem hc'

/-- The statements for one table, with nothing in between. -/
theorem exists_migrate (hsound : Migratable fold defaults ms) (hlegacy : Legacy fold defaults ms db)
    {m : Migration Table Name Cell} (hm : m ∈ ms) (seen : Table -> List Name) :
    exists next, executeAll fold m.statements db seen = some next := by
  have hcreate : .createIfMissing m.table m.columns ∈ startProgram ms :=
    List.mem_flatMap.mpr ⟨m, hm, List.mem_cons_self⟩
  have hfirst : exists db' t,
      (Statement.createIfMissing m.table m.columns).execute fold db seen = some (db', seen) ∧
        db' m.table = some t := by
    simp only [Statement.execute]
    split
    · rename_i t ht
      exact ⟨db, t, rfl, ht⟩
    · exact ⟨_, _, rfl, Database.put_self _ _⟩
  rcases hfirst with ⟨db', t, hfirst, ht⟩
  have hlegacy' := (executes_of_execute hsound hlegacy hcreate hfirst).legacy
  unfold Migration.statements
  simp only [executeAll, hfirst]
  split
  · exact ⟨_, rfl⟩
  · simp only [executeAll, Statement.execute, ht]
    have hadds : exists db'', executeAll fold (m.added.map (.addIfMissing m.table)) db'
        (Function.update seen m.table t.names) = some (db'', _) := exists_adds
      (hsound.distinct m hm) (fun c hc => hsound.folded m hm c (List.mem_append_right _ hc)) ht
      (hlegacy'.folded m.table t ht) (by
        intro c _
        rw [Function.update_self]
        exact Decidable.em _)
    rcases hadds with ⟨db'', hadds⟩
    exact ⟨_, hadds⟩

theorem legacy_of_executeAll (hsound : Migratable fold defaults ms)
    (hlegacy : Legacy fold defaults ms db) {statements : List (Statement Table Name Cell)}
    (hall : forall s, s ∈ statements -> s ∈ startProgram ms) {seen : Table -> List Name}
    {next : Database Table Name Cell × (Table -> List Name)}
    (h : executeAll fold statements db seen = some next) :
    Legacy fold defaults ms next.1 := by
  induction statements generalizing db seen with
  | nil =>
      rw [<- Option.some.inj h]
      exact hlegacy
  | cons s statements ih =>
      simp only [executeAll] at h
      split at h
      · cases h
      · rename_i mid hmid
        have hmidLegacy :=
          (executes_of_execute hsound hlegacy (hall s List.mem_cons_self) hmid).legacy
        exact ih hmidLegacy (fun s' hs' => hall s' (List.mem_cons_of_mem s hs')) h

/-- A start with nothing in between meets no error. -/
theorem exists_start (hsound : Migratable fold defaults ms) (hlegacy : Legacy fold defaults ms db)
    (seen : Table -> List Name) :
    exists next, executeAll fold (startProgram ms) db seen = some next := by
  suffices h : forall rest, (forall m, m ∈ rest -> m ∈ ms) ->
      forall db seen, Legacy fold defaults ms db ->
        exists next, executeAll fold (startProgram rest) db seen = some next from
    h ms (fun _ hm => hm) db seen hlegacy
  intro rest
  induction rest with
  | nil =>
      exact fun _ db seen _ => ⟨(db, seen), rfl⟩
  | cons m rest ih =>
      intro hrest db seen hlegacy
      have hm := hrest m List.mem_cons_self
      rcases exists_migrate hsound hlegacy hm seen with ⟨mid, hmid⟩
      have hmidLegacy := legacy_of_executeAll hsound hlegacy
        (fun s hs => List.mem_flatMap.mpr ⟨m, hm, hs⟩) hmid
      rcases ih (fun m' hm' => hrest m' (List.mem_cons_of_mem m hm')) mid.1 mid.2 hmidLegacy with
        ⟨next, hnext⟩
      refine ⟨next, ?_⟩
      rw [startProgram, List.flatMap_cons, executeAll_append, hmid]
      exact hnext

end Legacy

end HifiApi
