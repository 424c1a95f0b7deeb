import HifiApi.Base.Numbers
import Mathlib.Data.List.Basic

/-!
# Tables of a database, column by column

Rows with named columns, and the copy of tables from one database into another:
of each row only the listed columns are read, and an insert gives the columns
it does not name their defaults.  The database engine may refuse any statement.
-/

namespace HifiApi

/-- What a column holds. -/
inductive SqlValue where
  | null
  | integer (n : I64)
  | text (s : String)
  deriving DecidableEq

namespace SqlValue

def asInteger : SqlValue -> Option I64
  | integer n => some n
  | _ => none

def asText : SqlValue -> Option String
  | text s => some s
  | _ => none

/-- A value read as an optional integer; another type cannot be read. -/
def asNullableInteger : SqlValue -> Option (Option I64)
  | null => some none
  | integer n => some (some n)
  | text _ => none

def asNullableText : SqlValue -> Option (Option String)
  | null => some none
  | integer _ => none
  | text s => some (some s)

end SqlValue

/-- The types a copy reads and binds columns with. -/
inductive ColType where
  | text
  | nullableText
  | int
  | nullableInt
  deriving DecidableEq

/-- The value bound for a column, if it has the type. -/
def ColType.bound : ColType -> SqlValue -> Option SqlValue
  | text, v => v.asText.map .text
  | nullableText, v => v.asNullableText.map fun s => (s.map .text).getD .null
  | int, v => v.asInteger.map .integer
  | nullableInt, v => v.asNullableInteger.map fun n => (n.map .integer).getD .null

/-- What is bound is what was read. -/
theorem ColType.bound_eq_some {ty : ColType} {v v' : SqlValue}
    (h : ty.bound v = some v') : v' = v := by
  cases ty <;> cases v <;> cases h <;> rfl

/-- A row gives each column its value. -/
@[reducible] def SqlRow : Type := String -> SqlValue

/-- A column that a table declares, with the value of an insert that does not
name it. -/
structure Column where
  name : String
  default : SqlValue

/-- A table: its columns, its key, and the table whose rows it belongs to, next
to the column that names them. -/
structure TableDef where
  name : String
  columns : List Column
  key : String
  parent : Option (String × String)

namespace TableDef

def defaultOf (t : TableDef) (k : String) : SqlValue :=
  ((t.columns.find? fun c => c.name = k).map Column.default).getD .null

/-- The row of an insert that names some columns. -/
def newRow (t : TableDef) (named : List (String × SqlValue)) : SqlRow :=
  fun k => (named.lookup k).getD (t.defaultOf k)

/-- The row a copy of some columns makes of a row. -/
def copied (t : TableDef) (cols : List (String × ColType)) (row : SqlRow) :
    SqlRow :=
  t.newRow (cols.map fun c => (c.1, row c.1))

theorem copied_apply (t : TableDef) (cols : List (String × ColType))
    (row : SqlRow) (k : String) :
    t.copied cols row k =
      if k ∈ cols.map Prod.fst then row k else t.defaultOf k := by
  unfold copied newRow
  induction cols with
  | nil =>
      rfl
  | cons c rest ih =>
      rw [List.map_cons, List.lookup_cons, List.map_cons]
      by_cases hk : k = c.1
      · simp [hk]
      · have hbeq : (k == c.1) = false := beq_false_of_ne hk
        rw [hbeq]
        simp only [List.mem_cons, hk, false_or]
        exact ih

end TableDef

/-- The rows of each table. -/
@[reducible] def SqlRows : Type := String -> List SqlRow

/-- A database file as it is read: the columns of the tables it has, and their
rows. -/
structure SqlFile where
  tables : List (String × List String)
  rows : SqlRows

namespace SqlFile

def has (f : SqlFile) (table : String) : Bool :=
  (f.tables.map Prod.fst).contains table

/-- {lit}`PRAGMA table_info` -/
def columnsOf (f : SqlFile) (table : String) : List String :=
  (f.tables.lookup table).getD []

end SqlFile

/-- The file of a database with the given tables. -/
def SqlRows.file (schema : List TableDef) (rows : SqlRows) : SqlFile where
  tables := schema.map fun t => (t.name, t.columns.map Column.name)
  rows := rows

/-- A statement of a copy. -/
inductive SqlStatement where
  | tables
  | tableInfo (table : String)
  | select (table : String) (columns : List String)
  | deleteAll (table : String)
  | insert (table : String) (row : SqlRow)
  | begin
  | commit

/-- The engine: it may refuse a statement, and it says why a column cannot be
read. -/
structure SqlEngine where
  refuses : SqlRows -> SqlStatement -> Option String
  mismatch : Nat -> SqlValue -> String

/-- Why a copy ends early. -/
inductive CopyError where
  | unreadable (detail : String)
  | failed (detail : String)

namespace SqlEngine

variable (engine : SqlEngine)

/-- Run a statement for what it answers. -/
def check (db : SqlRows) (statement : SqlStatement)
    (wrap : String -> CopyError) : Except CopyError Unit :=
  match engine.refuses db statement with
  | some detail => .error (wrap detail)
  | none => .ok ()

/-- Delete the rows of a table, and with them the rows that belong to them. -/
def cleared (schema : List TableDef) (table : TableDef) (db : SqlRows) : SqlRows :=
  fun name =>
    if name = table.name then []
    else
      match (schema.find? fun t => t.name = name).bind TableDef.parent with
      | none => db name
      | some (parent, column) =>
          if parent = table.name then
            (db name).filter fun row =>
              decide (row column ∉ (db table.name).map fun p => p table.key)
          else db name

/-- {lit}`DELETE FROM` a whole table. -/
def deleteTable (schema : List TableDef) (table : TableDef) (db : SqlRows) :
    Except CopyError SqlRows := do
  engine.check db (.deleteAll table.name) .failed
  return cleared schema table db

def added (table : TableDef) (row : SqlRow) (db : SqlRows) : SqlRows :=
  fun name => if name = table.name then db name ++ [row] else db name

/-- The columns of a row, bound one after the other. -/
def bindRow (row : SqlRow) : List (String × ColType) -> Nat ->
    Except CopyError (List (String × SqlValue))
  | [], _ => .ok []
  | (k, ty) :: rest, i =>
      match ty.bound (row k) with
      | none => .error (.unreadable (engine.mismatch i (row k)))
      | some v => do
          let bound ← bindRow row rest (i + 1)
          return (k, v) :: bound

/-- Insert the rows of the file. -/
def insertAll (table : TableDef) (cols : List (String × ColType)) :
    List SqlRow -> SqlRows -> Except CopyError SqlRows
  | [], db => .ok db
  | row :: rest, db => do
      let bound ← engine.bindRow row cols 0
      let new := table.newRow bound
      engine.check db (.insert table.name new) .failed
      insertAll table cols rest (added table new db)

/-- Copy the listed columns of one table, as far as the file has them. -/
def copyTable (schema : List TableDef) (file : SqlFile) (table : TableDef)
    (cols : List (String × ColType)) (db : SqlRows) : Except CopyError SqlRows := do
  engine.check file.rows (.tableInfo table.name) .unreadable
  let used := cols.filter fun c => (file.columnsOf table.name).contains c.1
  if used = [] then
    return db
  engine.check file.rows (.select table.name (used.map Prod.fst)) .unreadable
  let emptied ← engine.deleteTable schema table db
  engine.insertAll table used (file.rows table.name) emptied

/-- Skip a table that the file does not have. -/
def copyPresent (schema : List TableDef) (file : SqlFile) (table : TableDef)
    (cols : List (String × ColType)) (db : SqlRows) : Except CopyError SqlRows :=
  if file.has table.name then engine.copyTable schema file table cols db
  else .ok db

/-- Copy the tables that the file has, in order. -/
def copyTables (schema : List TableDef) (file : SqlFile) :
    List (TableDef × List (String × ColType)) -> SqlRows ->
      Except CopyError SqlRows
  | [], db => .ok db
  | (table, cols) :: rest, db => do
      let copied ← engine.copyPresent schema file table cols db
      copyTables schema file rest copied

/-!
## What a copy leaves
-/

theorem bind_eq_ok {α β : Type} {x : Except CopyError α}
    {f : α -> Except CopyError β} {b : β} :
    x >>= f = .ok b <-> exists a, x = .ok a ∧ f a = .ok b := by
  cases x with
  | error e =>
      constructor
      · intro h
        cases h
      · intro h
        rcases h with ⟨a, ha, _⟩
        cases ha
  | ok a =>
      constructor
      · intro h
        exact ⟨a, rfl, h⟩
      · intro h
        rcases h with ⟨a', ha, hf⟩
        cases ha
        exact hf

variable {engine : SqlEngine} {schema : List TableDef} {file : SqlFile}
  {table : TableDef} {cols : List (String × ColType)} {db db' : SqlRows}
  {name : String}

/-- The columns read are bound as they are. -/
theorem bindRow_eq_ok {row : SqlRow} {i : Nat} {bound : List (String × SqlValue)}
    (h : engine.bindRow row cols i = .ok bound) :
    bound = cols.map fun c => (c.1, row c.1) := by
  induction cols generalizing i bound with
  | nil =>
      cases h
      rfl
  | cons c rest ih =>
      rcases c with ⟨k, ty⟩
      simp only [bindRow] at h
      split at h
      · cases h
      · rename_i v hv
        rcases bind_eq_ok.mp h with ⟨tail, htail, hbound⟩
        cases hbound
        rw [ih htail, ColType.bound_eq_some hv]
        rfl

/-- The rows of the file are appended, each as it is copied. -/
theorem insertAll_eq_ok {rows : List SqlRow}
    (h : engine.insertAll table cols rows db = .ok db') :
    db' name =
      if name = table.name then db name ++ rows.map (table.copied cols)
      else db name := by
  induction rows generalizing db with
  | nil =>
      cases h
      simp
  | cons row rest ih =>
      simp only [insertAll] at h
      rcases bind_eq_ok.mp h with ⟨bound, hbound, hinsert⟩
      rcases bind_eq_ok.mp hinsert with ⟨_, _, hrest⟩
      rw [ih hrest, bindRow_eq_ok hbound]
      unfold added
      split
      · rw [List.map_cons, List.append_assoc]
        rfl
      · rfl

theorem deleteTable_eq_ok (h : engine.deleteTable schema table db = .ok db') :
    db' = cleared schema table db := by
  rcases bind_eq_ok.mp h with ⟨_, _, hdone⟩
  cases hdone
  rfl

/-- The rows of a table do not belong to those of another. -/
def Apart (schema : List TableDef) (name parent : String) : Prop :=
  name ≠ parent ∧
    forall column, (schema.find? fun t => t.name = name).bind TableDef.parent ≠
      some (parent, column)

theorem cleared_of_apart (h : Apart schema name table.name) :
    cleared schema table db name = db name := by
  unfold cleared
  rw [if_neg h.left]
  split
  · rfl
  · rename_i parent column hparent
    rw [if_neg]
    intro heq
    apply h.right column
    rw [hparent, heq]

/-- A table whose columns are all in the file is replaced by the copies of its
rows. -/
theorem copyTable_eq_ok
    (h : engine.copyTable schema file table cols db = .ok db')
    (hne : cols ≠ [])
    (hall : forall c, c ∈ cols -> c.1 ∈ file.columnsOf table.name) :
    db' table.name = (file.rows table.name).map (table.copied cols) := by
  have hused : (cols.filter fun c => (file.columnsOf table.name).contains c.1) =
      cols := by
    rw [List.filter_eq_self]
    intro c hc
    exact List.contains_iff_mem.mpr (hall c hc)
  unfold copyTable at h
  simp only [hused, if_neg hne] at h
  rcases bind_eq_ok.mp h with ⟨_, _, hselect⟩
  rcases bind_eq_ok.mp hselect with ⟨_, _, hreplace⟩
  rcases bind_eq_ok.mp hreplace with ⟨emptied, hdelete, hinsert⟩
  rw [insertAll_eq_ok hinsert, if_pos rfl, deleteTable_eq_ok hdelete]
  unfold cleared
  rw [if_pos rfl, List.nil_append]

theorem copyTable_of_apart
    (h : engine.copyTable schema file table cols db = .ok db')
    (hapart : Apart schema name table.name) : db' name = db name := by
  unfold copyTable at h
  rcases bind_eq_ok.mp h with ⟨_, _, hused⟩
  dsimp only at hused
  split at hused
  · cases hused
    rfl
  · rcases bind_eq_ok.mp hused with ⟨_, _, hselect⟩
    rcases bind_eq_ok.mp hselect with ⟨emptied, hdelete, hrows⟩
    rw [insertAll_eq_ok hrows, if_neg hapart.left, deleteTable_eq_ok hdelete,
      cleared_of_apart hapart]

variable {copies : List (TableDef × List (String × ColType))}

theorem copyTables_of_apart
    (h : engine.copyTables schema file copies db = .ok db')
    (hapart : forall c, c ∈ copies -> Apart schema name c.1.name) :
    db' name = db name := by
  induction copies generalizing db with
  | nil =>
      cases h
      rfl
  | cons c rest ih =>
      rcases c with ⟨table, cols⟩
      simp only [copyTables] at h
      rcases bind_eq_ok.mp h with ⟨copied, hcopied, hrest⟩
      rw [ih hrest fun c hc => hapart c (List.mem_cons_of_mem _ hc)]
      unfold copyPresent at hcopied
      split at hcopied
      · exact copyTable_of_apart hcopied (hapart _ List.mem_cons_self)
      · cases hcopied
        rfl

/-- A table whose columns are all in the file ends up as the copy of its rows,
when no table copied after it takes rows away from it. -/
theorem copyTables_eq_ok
    (before : List (TableDef × List (String × ColType)))
    {after : List (TableDef × List (String × ColType))}
    (h : engine.copyTables schema file (before ++ (table, cols) :: after) db =
      .ok db')
    (hhas : file.has table.name = true) (hne : cols ≠ [])
    (hall : forall c, c ∈ cols -> c.1 ∈ file.columnsOf table.name)
    (hafter : forall c, c ∈ after -> Apart schema table.name c.1.name) :
    db' table.name = (file.rows table.name).map (table.copied cols) := by
  induction before generalizing db with
  | nil =>
      simp only [List.nil_append, copyTables] at h
      rcases bind_eq_ok.mp h with ⟨copied, hcopied, hrest⟩
      unfold copyPresent at hcopied
      rw [if_pos hhas] at hcopied
      rw [copyTables_of_apart hrest hafter]
      exact copyTable_eq_ok hcopied hne hall
  | cons c rest ih =>
      rcases c with ⟨table', cols'⟩
      simp only [List.cons_append, copyTables] at h
      rcases bind_eq_ok.mp h with ⟨_, _, hrest⟩
      exact ih hrest

end SqlEngine

end HifiApi
