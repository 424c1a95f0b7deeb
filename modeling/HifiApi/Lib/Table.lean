import Mathlib.Data.List.Nodup
import Mathlib.Data.List.Sort
import Mathlib.Tactic.Common

/-!
# Tables with a primary key

Rows of a database table whose primary keys are distinct by construction, with
the statements a program sends: an update of the row of a key, an insert that
does nothing on a conflict, a delete, and a select ordered by a column.
-/

namespace HifiApi

/-- Rows with distinct primary keys. -/
structure Table (Row : Type) {Key : Type} (key : Row -> Key) where
  rows : List Row
  distinct : (rows.map key).Nodup

namespace Table

variable {Row Key : Type} {key : Row -> Key}

def empty : Table Row key := ⟨[], by simp⟩

section Statements

variable [DecidableEq Key]

/-- The row of a key. -/
def lookup (t : Table Row key) (k : Key) : Option Row :=
  t.rows.find? fun w => decide (key w = k)

/-- {lit}`UPDATE … WHERE id = k`; the columns written do not hold the key. -/
def update (t : Table Row key) (k : Key) (f : Row -> Row)
    (h : forall w, key (f w) = key w) : Table Row key where
  rows := t.rows.map fun w => if key w = k then f w else w
  distinct := by
    have hkeys : (t.rows.map fun w => if key w = k then f w else w).map key =
        t.rows.map key := by
      rw [List.map_map]
      apply List.map_congr_left
      intro w _
      by_cases hw : key w = k
      · simp [hw, h w]
      · simp [hw]
    rw [hkeys]
    exact t.distinct

/-- {lit}`INSERT`, skipped when a row conflicts with the new one. -/
def insertUnless (t : Table Row key) (conflicts : Row -> Row -> Bool)
    (h : forall w w', key w = key w' -> conflicts w w' = true) (w : Row) :
    Table Row key :=
  if hc : t.rows.any (conflicts w) = true then t
  else
    { rows := t.rows ++ [w]
      distinct := by
        rw [List.map_append]
        refine List.Nodup.append t.distinct (by simp) ?_
        intro k hk hkNew
        have hkey : k = key w := by simpa using hkNew
        rcases List.mem_map.mp hk with ⟨w', hw', hkw'⟩
        apply hc
        exact List.any_eq_true.mpr
          ⟨w', hw', h w w' (hkey.symm.trans hkw'.symm)⟩ }

/-- {lit}`DELETE … WHERE id = k`. -/
def delete (t : Table Row key) (k : Key) : Table Row key where
  rows := t.rows.filter fun w => decide (key w ≠ k)
  distinct := t.distinct.sublist (List.filter_sublist.map key)

/-- Put a row in the place of its key, or append it. -/
def put (t : Table Row key) (w : Row) : Table Row key :=
  if hk : key w ∈ t.rows.map key then
    { rows := t.rows.map fun v => if key v = key w then w else v
      distinct := by
        have hkeys : (t.rows.map fun v => if key v = key w then w else v).map
            key = t.rows.map key := by
          rw [List.map_map]
          apply List.map_congr_left
          intro v _
          show key (if key v = key w then w else v) = key v
          split
          · rename_i hv
            exact hv.symm
          · rfl
        rw [hkeys]
        exact t.distinct }
  else
    { rows := t.rows ++ [w]
      distinct := by
        rw [List.map_append]
        refine List.Nodup.append t.distinct (by simp) ?_
        intro k hold hnew
        have hkey : k = key w := by simpa using hnew
        exact hk (hkey ▸ hold) }

theorem lookup_eq_some {t : Table Row key} {k : Key} {w : Row} :
    t.lookup k = some w <-> w ∈ t.rows ∧ key w = k := by
  constructor
  · intro h
    exact ⟨List.mem_of_find?_eq_some h, by simpa using List.find?_some h⟩
  · intro h
    cases hfind : t.lookup k with
    | none =>
        have hnone := List.find?_eq_none.mp hfind w h.left
        simp [h.right] at hnone
    | some w' =>
        have hmem : w' ∈ t.rows := List.mem_of_find?_eq_some hfind
        have hkey : key w' = k := by simpa using List.find?_some hfind
        have heq : w' = w :=
          List.inj_on_of_nodup_map t.distinct hmem h.left
            (hkey.trans h.right.symm)
        rw [heq]

theorem key_of_lookup {t : Table Row key} {k : Key} {w : Row}
    (h : t.lookup k = some w) : key w = k :=
  (lookup_eq_some.mp h).right

theorem lookup_update (t : Table Row key) (k : Key) (f : Row -> Row)
    (h : forall w, key (f w) = key w) (k' : Key) :
    (t.update k f h).lookup k' =
      if k' = k then (t.lookup k').map f else t.lookup k' := by
  apply Option.ext
  intro w
  rw [lookup_eq_some]
  have hmem : w ∈ (t.update k f h).rows <->
      exists v, v ∈ t.rows ∧ (if key v = k then f v else v) = w :=
    List.mem_map
  rw [hmem]
  by_cases hk : k' = k
  · subst hk
    rw [if_pos rfl, Option.map_eq_some_iff]
    constructor
    · intro h'
      rcases h' with ⟨⟨v, hv, hvw⟩, hkey⟩
      by_cases hvk : key v = k'
      · rw [if_pos hvk] at hvw
        exact ⟨v, lookup_eq_some.mpr ⟨hv, hvk⟩, hvw⟩
      · rw [if_neg hvk] at hvw
        rw [hvw] at hvk
        exact absurd hkey hvk
    · intro h'
      rcases h' with ⟨v, hv, hvw⟩
      rcases lookup_eq_some.mp hv with ⟨hvMem, hvk⟩
      refine ⟨⟨v, hvMem, by rw [if_pos hvk]; exact hvw⟩, ?_⟩
      rw [← hvw, h v]
      exact hvk
  · rw [if_neg hk, lookup_eq_some]
    constructor
    · intro h'
      rcases h' with ⟨⟨v, hv, hvw⟩, hkey⟩
      by_cases hvk : key v = k
      · rw [if_pos hvk] at hvw
        rw [← hvw, h v] at hkey
        exact absurd (hkey.symm.trans hvk) hk
      · rw [if_neg hvk] at hvw
        rw [← hvw]
        exact ⟨hv, by rw [hvw]; exact hkey⟩
    · intro h'
      refine ⟨⟨w, h'.left, ?_⟩, h'.right⟩
      rw [if_neg]
      intro hwk
      exact hk (h'.right.symm.trans hwk)

theorem lookup_delete (t : Table Row key) (k k' : Key) :
    (t.delete k).lookup k' = if k' = k then none else t.lookup k' := by
  apply Option.ext
  intro w
  rw [lookup_eq_some]
  have hmem : w ∈ (t.delete k).rows <-> w ∈ t.rows ∧ key w ≠ k := by
    simp [delete]
  rw [hmem]
  by_cases hk : k' = k
  · subst hk
    simp
  · rw [if_neg hk, lookup_eq_some]
    constructor
    · intro h
      exact ⟨h.left.left, h.right⟩
    · intro h
      refine ⟨⟨h.left, ?_⟩, h.right⟩
      rw [h.right]
      exact hk

theorem lookup_eq_none {t : Table Row key} {k : Key} :
    t.lookup k = none <-> forall w, w ∈ t.rows -> key w ≠ k := by
  unfold lookup
  rw [List.find?_eq_none]
  simp

theorem lookup_insertUnless_of_ne (t : Table Row key)
    {conflicts : Row -> Row -> Bool}
    (h : forall w w', key w = key w' -> conflicts w w' = true) {w : Row}
    {k : Key} (hne : key w ≠ k) :
    (t.insertUnless conflicts h w).lookup k = t.lookup k := by
  unfold insertUnless
  split
  · rfl
  · unfold lookup
    rw [List.find?_append]
    simp [hne]

/-- A row that conflicts with none is inserted. -/
theorem lookup_insertUnless_of_free (t : Table Row key)
    {conflicts : Row -> Row -> Bool}
    (h : forall w w', key w = key w' -> conflicts w w' = true) {w : Row}
    (hfree : forall w', w' ∈ t.rows -> conflicts w w' = false) :
    (t.insertUnless conflicts h w).lookup (key w) = some w := by
  have hnone : ¬ t.rows.any (conflicts w) = true := by
    rw [List.any_eq_true]
    intro hany
    rcases hany with ⟨w', hw', hconflict⟩
    rw [hfree w' hw'] at hconflict
    cases hconflict
  unfold insertUnless
  rw [dif_neg hnone]
  apply lookup_eq_some.mpr
  simp

theorem mem_put {t : Table Row key} {w v : Row} :
    v ∈ (t.put w).rows <-> v = w ∨ v ∈ t.rows ∧ key v ≠ key w := by
  unfold put
  split
  · rename_i hk
    rw [List.mem_map]
    constructor
    · rintro ⟨u, hu, huv⟩
      split at huv
      · exact Or.inl huv.symm
      · rename_i hne
        rw [← huv]
        exact Or.inr ⟨hu, hne⟩
    · rintro (heq | ⟨hv, hne⟩)
      · rcases List.mem_map.mp hk with ⟨u, hu, hkey⟩
        exact ⟨u, hu, by rw [if_pos hkey, heq]⟩
      · exact ⟨v, hv, if_neg hne⟩
  · rename_i hk
    show v ∈ t.rows ++ [w] <-> _
    rw [List.mem_append, List.mem_singleton, or_comm]
    refine or_congr_right (and_iff_left_of_imp ?_).symm
    intro hv heq
    exact hk (heq ▸ List.mem_map_of_mem hv)

theorem lookup_put (t : Table Row key) (w : Row) (k : Key) :
    (t.put w).lookup k = if k = key w then some w else t.lookup k := by
  apply Option.ext
  intro v
  rw [lookup_eq_some, mem_put]
  split
  · rename_i hk
    constructor
    · rintro ⟨heq | ⟨_, hne⟩, hkey⟩
      · rw [heq]
      · exact absurd (hkey.trans hk) hne
    · intro heq
      cases heq
      exact ⟨Or.inl rfl, hk.symm⟩
  · rename_i hk
    rw [lookup_eq_some]
    constructor
    · rintro ⟨heq | ⟨hv, _⟩, hkey⟩
      · rw [heq] at hkey
        exact absurd hkey.symm hk
      · exact ⟨hv, hkey⟩
    · rintro ⟨hv, hkey⟩
      exact ⟨Or.inr ⟨hv, fun hne => hk (hkey.symm.trans hne)⟩, hkey⟩

theorem rows_put_of_none {t : Table Row key} {w : Row} (h : t.lookup (key w) = none) :
    (t.put w).rows = t.rows ++ [w] := by
  unfold put
  rw [dif_neg]
  intro hk
  rcases List.mem_map.mp hk with ⟨v, hv, hkey⟩
  exact lookup_eq_none.mp h v hv hkey

theorem length_put (t : Table Row key) (w : Row) :
    (t.put w).rows.length =
      if (t.lookup (key w)).isSome then t.rows.length else t.rows.length + 1 := by
  have hsome : (t.lookup (key w)).isSome = true <-> key w ∈ t.rows.map key := by
    rw [Option.isSome_iff_exists, List.mem_map]
    exact exists_congr fun _ => lookup_eq_some
  unfold put
  split
  · rename_i hk
    rw [if_pos (hsome.mpr hk)]
    exact List.length_map _
  · rename_i hk
    rw [if_neg (fun h => hk (hsome.mp h))]
    exact List.length_append

theorem length_delete_lt {t : Table Row key} {k : Key}
    (h : (t.lookup k).isSome = true) :
    (t.delete k).rows.length < t.rows.length := by
  rcases Option.isSome_iff_exists.mp h with ⟨w, hw⟩
  rcases lookup_eq_some.mp hw with ⟨hmem, hkey⟩
  exact List.length_filter_lt_length_iff_exists.mpr ⟨w, hmem, by simp [hkey]⟩

end Statements

/-- Keep the rows that pass a test. -/
def retain (t : Table Row key) (p : Row -> Bool) : Table Row key where
  rows := t.rows.filter p
  distinct := t.distinct.sublist (List.filter_sublist.map key)

theorem lookup_retain [DecidableEq Key] (t : Table Row key) (p : Row -> Bool)
    (k : Key) : (t.retain p).lookup k = (t.lookup k).filter p := by
  apply Option.ext
  intro w
  have hmem : w ∈ (t.retain p).rows <-> w ∈ t.rows ∧ p w = true :=
    List.mem_filter
  rw [lookup_eq_some, Option.filter_eq_some_iff, lookup_eq_some, hmem]
  constructor
  · rintro ⟨⟨hw, hp⟩, hkey⟩
    exact ⟨⟨hw, hkey⟩, hp⟩
  · rintro ⟨⟨hw, hkey⟩, hp⟩
    exact ⟨⟨hw, hp⟩, hkey⟩

/-- One update for each row. -/
def mapRows (t : Table Row key) (f : Row -> Row)
    (h : forall w, key (f w) = key w) : Table Row key where
  rows := t.rows.map f
  distinct := by
    have hkeys : (t.rows.map f).map key = t.rows.map key := by
      rw [List.map_map]
      exact List.map_congr_left fun w _ => h w
    rw [hkeys]
    exact t.distinct

theorem lookup_mapRows [DecidableEq Key] (t : Table Row key) {f : Row -> Row}
    (h : forall w, key (f w) = key w) (k : Key) :
    (t.mapRows f h).lookup k = (t.lookup k).map f := by
  unfold lookup mapRows
  rw [List.find?_map]
  have hcomp : (fun w => decide (key w = k)) ∘ f = fun w => decide (key w = k) := by
    funext w
    exact congrArg (fun k' => decide (k' = k)) (h w)
  rw [hcomp]

/-- {lit}`SELECT … ORDER BY column ASC`. -/
def ordered (t : Table Row key) (column : Row -> Int) : List Row :=
  t.rows.insertionSort fun v w => column v ≤ column w

theorem ordered_perm (t : Table Row key) (column : Row -> Int) :
    (t.ordered column).Perm t.rows :=
  List.perm_insertionSort _ _

theorem mem_ordered {t : Table Row key} {column : Row -> Int} {w : Row} :
    w ∈ t.ordered column <-> w ∈ t.rows :=
  (t.ordered_perm column).mem_iff

/-- An order in which the entries of a hash map are visited. -/
structure Iteration (Row : Type) where
  visit : List Row -> List Row
  perm : forall rows, (visit rows).Perm rows

/-- Entries in the order in which they have been inserted. -/
def Iteration.inOrder (Row : Type) : Iteration Row :=
  ⟨fun rows => rows, fun _ => List.Perm.refl _⟩

/-- Entries in the opposite order. -/
def Iteration.reversed (Row : Type) : Iteration Row :=
  ⟨List.reverse, List.reverse_perm⟩

theorem Iteration.mem_visit (order : Iteration Row) {rows : List Row}
    {w : Row} : w ∈ order.visit rows <-> w ∈ rows :=
  (order.perm rows).mem_iff

/-!
## Properties of all rows
-/

/-- A property of every row. -/
def Holds (t : Table Row key) (W : Row -> Prop) : Prop :=
  forall w, w ∈ t.rows -> W w

section Holds

variable {t : Table Row key} {W : Row -> Prop}

theorem Holds.update [DecidableEq Key] (ht : t.Holds W) {k : Key}
    {f : Row -> Row} (h : forall w, key (f w) = key w)
    (hW : forall w, W w -> W (f w)) : (t.update k f h).Holds W := by
  intro w hw
  rcases List.mem_map.mp hw with ⟨v, hv, hvw⟩
  rw [← hvw]
  split
  · exact hW v (ht v hv)
  · exact ht v hv

theorem Holds.insertUnless (ht : t.Holds W) {conflicts : Row -> Row -> Bool}
    (h : forall w w', key w = key w' -> conflicts w w' = true) {w : Row}
    (hw : W w) : (t.insertUnless conflicts h w).Holds W := by
  unfold Table.insertUnless
  split
  · exact ht
  · intro v hv
    rcases List.mem_append.mp hv with hold | hnew
    · exact ht v hold
    · have heq : v = w := by simpa using hnew
      rw [heq]
      exact hw

theorem Holds.delete [DecidableEq Key] (ht : t.Holds W) (k : Key) :
    (t.delete k).Holds W :=
  fun w hw => ht w (List.mem_filter.mp hw).left

theorem Holds.put [DecidableEq Key] (ht : t.Holds W) {w : Row} (hw : W w) :
    (t.put w).Holds W := by
  intro v hv
  rcases mem_put.mp hv with heq | ⟨hold, _⟩
  · rw [heq]
    exact hw
  · exact ht v hold

theorem Holds.retain (ht : t.Holds W) (p : Row -> Bool) : (t.retain p).Holds W :=
  fun w hw => ht w (List.mem_filter.mp hw).left

theorem Holds.mapRows (ht : t.Holds W) {f : Row -> Row}
    (h : forall w, key (f w) = key w) (hW : forall w, W w -> W (f w)) :
    (t.mapRows f h).Holds W := by
  intro w hw
  rcases List.mem_map.mp hw with ⟨v, hv, hvw⟩
  rw [← hvw]
  exact hW v (ht v hv)

end Holds

end Table

end HifiApi
