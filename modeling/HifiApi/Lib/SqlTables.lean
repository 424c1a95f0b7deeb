import Mathlib.Data.List.Basic
import Mathlib.Tactic.Common

/-!
# Tables with named columns

Rows list the cells of their columns.  A column that is added to a table stands with
its default in the rows that are there.  What a program reads of a row is a function
from names to cells that gives the default where there is no such column; adding a
column does not change it, and the statements that write act on it as if all columns
were there.
-/

namespace HifiApi

variable {Name Cell : Type}

/-- A column, and what it holds where nothing is given. -/
structure SqlColumn (Name Cell : Type) where
  name : Name
  default : Cell

structure SqlTable (Name Cell : Type) where
  columns : List (SqlColumn Name Cell)
  rows : List (List (Name × Cell))
  fits : forall row, row ∈ rows -> row.map Prod.fst = columns.map SqlColumn.name

/-- The statements that write to a table, with the columns their conditions read. -/
inductive SqlWrite (Name Cell : Type) where
  | insert (cells : List (Name × Cell))
  | update (reads : List Name) (condition : List Cell -> Bool) (cells : List (Name × Cell))
  | delete (reads : List Name) (condition : List Cell -> Bool)

/-- The columns that a statement names. -/
def SqlWrite.names : SqlWrite Name Cell -> List Name
  | insert cells => cells.map Prod.fst
  | update reads _ cells => reads ++ cells.map Prod.fst
  | delete reads _ => reads

namespace SqlTable

def names (t : SqlTable Name Cell) : List Name :=
  t.columns.map SqlColumn.name

/-- {lit}`CREATE TABLE` -/
def create (columns : List (SqlColumn Name Cell)) : SqlTable Name Cell where
  columns := columns
  rows := []
  fits := fun _ hrow => absurd hrow List.not_mem_nil

variable [DecidableEq Name]

/-- {lit}`ALTER TABLE … ADD COLUMN`: an error if two names are then the same. -/
def addColumn (fold : Name -> Name) (t : SqlTable Name Cell) (c : SqlColumn Name Cell) :
    Option (SqlTable Name Cell) :=
  if fold c.name ∈ t.names.map fold then none
  else
    some
      { columns := t.columns ++ [c]
        rows := t.rows.map fun row => row ++ [(c.name, c.default)]
        fits := by
          intro row hrow
          rcases List.mem_map.mp hrow with ⟨old, hold, heq⟩
          rw [<- heq, List.map_append, List.map_append, t.fits old hold]
          rfl }

/-- A cell of a row, or what stands for it. -/
def read (defaults : Name -> Cell) (row : List (Name × Cell)) (n : Name) : Cell :=
  (row.lookup n).getD (defaults n)

/-- What a program reads of the rows. -/
def readings (defaults : Name -> Cell) (t : SqlTable Name Cell) : List (Name -> Cell) :=
  t.rows.map (read defaults)

/-- The row of an insert. -/
def filled (columns : List (SqlColumn Name Cell)) (cells : List (Name × Cell)) :
    List (Name × Cell) :=
  columns.map fun c => (c.name, (cells.lookup c.name).getD c.default)

def overwrite (cells row : List (Name × Cell)) : List (Name × Cell) :=
  row.map fun cell => (cell.1, (cells.lookup cell.1).getD cell.2)

/-- Whether the row of what is read meets the condition of a statement. -/
def meets (reads : List Name) (condition : List Cell -> Bool) (v : Name -> Cell) : Bool :=
  condition (reads.map v)

/-- A statement that writes: an error if it names a column that is not there. -/
def write (defaults : Name -> Cell) (t : SqlTable Name Cell) (w : SqlWrite Name Cell) :
    Option (SqlTable Name Cell) :=
  if forall n, n ∈ w.names -> n ∈ t.names then
    match w with
    | .insert cells =>
        some
          { columns := t.columns
            rows := t.rows ++ [filled t.columns cells]
            fits := by
              intro row hrow
              rcases List.mem_append.mp hrow with hold | hnew
              · exact t.fits row hold
              · rw [List.mem_singleton.mp hnew, filled, List.map_map]
                rfl }
    | .update reads condition cells =>
        some
          { columns := t.columns
            rows := t.rows.map fun row =>
              if meets reads condition (read defaults row) then overwrite cells row else row
            fits := by
              intro row hrow
              rcases List.mem_map.mp hrow with ⟨old, hold, heq⟩
              rw [<- t.fits old hold, <- heq]
              split
              · rw [overwrite, List.map_map]
                rfl
              · rfl }
    | .delete reads condition =>
        some
          { columns := t.columns
            rows := t.rows.filter fun row => !meets reads condition (read defaults row)
            fits := fun row hrow => t.fits row (List.mem_of_mem_filter hrow) }
  else
    none

/-!
## What is read
-/

section Readings

variable {defaults : Name -> Cell} {t t' : SqlTable Name Cell}

theorem addColumn_eq_some {fold : Name -> Name} {c : SqlColumn Name Cell}
    (h : t.addColumn fold c = some t') :
    t'.columns = t.columns ++ [c] ∧
      t'.rows = t.rows.map fun row => row ++ [(c.name, c.default)] := by
  unfold addColumn at h
  split at h
  · cases h
  · rw [<- Option.some.inj h]
    exact ⟨rfl, rfl⟩

section Added

variable {fold : Name -> Name} {c : SqlColumn Name Cell} (h : t.addColumn fold c = some t')
include h

theorem names_addColumn : t'.names = t.names ++ [c.name] := by
  rw [names, (addColumn_eq_some h).left, List.map_append]
  rfl

theorem folded_addColumn (hnames : forall n, n ∈ t.names -> fold n = n)
    (hc : fold c.name = c.name) (n : Name) (hn : n ∈ t'.names) : fold n = n := by
  rw [names_addColumn h] at hn
  rcases List.mem_append.mp hn with hold | hnew
  · exact hnames n hold
  · rw [List.mem_singleton.mp hnew]
    exact hc

theorem defaults_addColumn
    (hdefaults : forall c, c ∈ t.columns -> c.default = defaults c.name)
    (hc : c.default = defaults c.name) (c' : SqlColumn Name Cell) (hmem : c' ∈ t'.columns) :
    c'.default = defaults c'.name := by
  rw [(addColumn_eq_some h).left] at hmem
  rcases List.mem_append.mp hmem with hold | hnew
  · exact hdefaults c' hold
  · rw [List.mem_singleton.mp hnew]
    exact hc

end Added

/-- A column whose name is new, however it is written, can be added. -/
theorem exists_addColumn {fold : Name -> Name} {c : SqlColumn Name Cell}
    (hfold : forall n, n ∈ t.names -> fold n = n) (hc : fold c.name = c.name)
    (hnew : c.name ∉ t.names) : exists t', t.addColumn fold c = some t' := by
  have hclash : fold c.name ∉ t.names.map fold := by
    intro hmem
    rcases List.mem_map.mp hmem with ⟨n, hn, heq⟩
    rw [hfold n hn, hc] at heq
    rw [heq] at hn
    exact hnew hn
  exact ⟨_, if_neg hclash⟩

theorem read_append (row : List (Name × Cell)) {n : Name} {cell : Cell}
    (hdefault : cell = defaults n) :
    read defaults (row ++ [(n, cell)]) = read defaults row := by
  funext m
  unfold read
  rw [List.lookup_append]
  cases row.lookup m with
  | some found =>
      rfl
  | none =>
      rw [List.lookup_cons]
      split
      · rename_i heq
        rw [hdefault, eq_of_beq heq]
        rfl
      · rfl

/-- Adding a column does not change what is read. -/
theorem readings_addColumn {fold : Name -> Name} {c : SqlColumn Name Cell}
    (h : t.addColumn fold c = some t') (hdefault : c.default = defaults c.name) :
    t'.readings defaults = t.readings defaults := by
  unfold readings
  rw [(addColumn_eq_some h).right, List.map_map]
  apply List.map_congr_left
  intro row _
  exact read_append row hdefault

/-- A statement that writes, as it acts on what is read. -/
def applyReadings (defaults : Name -> Cell) (w : SqlWrite Name Cell)
    (vs : List (Name -> Cell)) : List (Name -> Cell) :=
  match w with
  | .insert cells => vs ++ [fun n => (cells.lookup n).getD (defaults n)]
  | .update reads condition cells =>
      vs.map fun v =>
        if meets reads condition v then fun n => (cells.lookup n).getD (v n) else v
  | .delete reads condition => vs.filter fun v => !meets reads condition v

theorem lookup_eq_none {row : List (Name × Cell)} {n : Name} :
    row.lookup n = none <-> n ∉ row.map Prod.fst := by
  rw [List.lookup_eq_none_iff]
  constructor
  · intro h hmem
    rcases List.mem_map.mp hmem with ⟨cell, hcell, heq⟩
    have hne := h cell hcell
    rw [heq, bne_self_eq_false] at hne
    cases hne
  · intro h cell hcell
    rw [bne_iff_ne]
    intro heq
    rw [heq] at h
    exact h (List.mem_map_of_mem hcell)

theorem lookup_map_cell (f : Name × Cell -> Cell) (row : List (Name × Cell)) (n : Name) :
    (row.map fun cell => (cell.1, f cell)).lookup n =
      (row.lookup n).map fun cell => f (n, cell) := by
  induction row with
  | nil =>
      rfl
  | cons cell row ih =>
      rw [List.map_cons, List.lookup_cons, List.lookup_cons]
      cases hn : n == cell.1 with
      | true =>
          rw [eq_of_beq hn]
          rfl
      | false =>
          exact ih

theorem read_overwrite {cells row : List (Name × Cell)}
    (hcells : forall n, n ∈ cells.map Prod.fst -> n ∈ row.map Prod.fst) :
    read defaults (overwrite cells row) =
      fun n => (cells.lookup n).getD (read defaults row n) := by
  funext n
  unfold read overwrite
  rw [lookup_map_cell]
  cases hrow : row.lookup n with
  | some cell =>
      rfl
  | none =>
      have hnone : cells.lookup n = none :=
        lookup_eq_none.mpr fun hmem => lookup_eq_none.mp hrow (hcells n hmem)
      rw [hnone]
      rfl

theorem lookup_filled {columns : List (SqlColumn Name Cell)} {cells : List (Name × Cell)}
    (hdefaults : forall c, c ∈ columns -> c.default = defaults c.name) (n : Name) :
    (filled columns cells).lookup n =
      if n ∈ columns.map SqlColumn.name then some ((cells.lookup n).getD (defaults n))
      else none := by
  induction columns with
  | nil =>
      rfl
  | cons c columns ih =>
      have hrest := ih fun c' hc' => hdefaults c' (List.mem_cons_of_mem c hc')
      unfold filled at hrest ⊢
      rw [List.map_cons, List.lookup_cons, hrest, List.map_cons]
      cases hn : n == c.name with
      | true =>
          rw [eq_of_beq hn, if_pos List.mem_cons_self, hdefaults c List.mem_cons_self]
      | false =>
          have hne : n ≠ c.name := beq_eq_false_iff_ne.mp hn
          simp only [List.mem_cons, hne, false_or]

theorem read_filled {columns : List (SqlColumn Name Cell)} {cells : List (Name × Cell)}
    (hcells : forall n, n ∈ cells.map Prod.fst -> n ∈ columns.map SqlColumn.name)
    (hdefaults : forall c, c ∈ columns -> c.default = defaults c.name) :
    read defaults (filled columns cells) = fun n => (cells.lookup n).getD (defaults n) := by
  funext n
  rw [read, lookup_filled hdefaults]
  split
  · rfl
  · rename_i hn
    rw [lookup_eq_none.mpr fun hmem => hn (hcells n hmem)]

/-- A statement acts on what is read as if all columns were there. -/
theorem readings_write {w : SqlWrite Name Cell} (h : t.write defaults w = some t')
    (hdefaults : forall c, c ∈ t.columns -> c.default = defaults c.name) :
    t'.columns = t.columns ∧
      t'.readings defaults = applyReadings defaults w (t.readings defaults) := by
  unfold write at h
  split at h
  · rename_i hnames
    cases w with
    | insert cells =>
        rw [<- Option.some.inj h]
        refine ⟨rfl, ?_⟩
        simp only [readings, applyReadings, List.map_append, List.map_cons, List.map_nil]
        rw [read_filled hnames hdefaults]
    | update reads condition cells =>
        rw [<- Option.some.inj h]
        refine ⟨rfl, ?_⟩
        simp only [readings, applyReadings, List.map_map]
        apply List.map_congr_left
        intro row hrow
        show read defaults (if meets reads condition (read defaults row) then
          overwrite cells row else row) = if meets reads condition (read defaults row) then _ else _
        split
        · apply read_overwrite
          intro n hn
          rw [t.fits row hrow]
          exact hnames n (List.mem_append_right _ hn)
        · rfl
    | delete reads condition =>
        rw [<- Option.some.inj h]
        refine ⟨rfl, ?_⟩
        simp only [readings, applyReadings, List.filter_map]
        rfl
  · cases h

theorem exists_write {w : SqlWrite Name Cell} (h : forall n, n ∈ w.names -> n ∈ t.names) :
    exists t', t.write defaults w = some t' := by
  unfold write
  rw [if_pos h]
  cases w with
  | _ =>
      exact ⟨_, rfl⟩

end Readings

end SqlTable

end HifiApi
