import Mathlib.Data.List.Nodup
import Mathlib.Logic.Function.Basic
import Mathlib.Tactic.Common

/-!
# Rosters of shared cells

A roster lists pointers to reference-counted cells.  Readers may keep a pointer
after the roster has dropped or exchanged it, so the cells outlive their place
in the roster.  No two cells of a roster carry the same key; the operations
below keep this by construction, and the view of a roster as a partial map from
keys to records gives one equation for each of them.
-/

namespace HifiApi

/-- Cells, the next free pointer, and the pointers now in the roster. -/
structure Arena (Rec : Type) {Key : Type} (key : Rec -> Key) where
  cells : Nat -> Rec
  fresh : Nat
  roster : List Nat
  bounded : forall p, p ∈ roster -> p < fresh
  distinct : (roster.map fun p => key (cells p)).Nodup

namespace Arena

variable {Rec Key : Type} {key : Rec -> Key}

/-- The records in the roster, in roster order. -/
def records (a : Arena Rec key) : List Rec :=
  a.roster.map a.cells

/-- The keys in the roster, in roster order. -/
def keys (a : Arena Rec key) : List Key :=
  a.roster.map fun p => key (a.cells p)

/-- The pointer the roster holds for a key. -/
def find? [DecidableEq Key] (a : Arena Rec key) (k : Key) : Option Nat :=
  a.roster.find? fun p => decide (key (a.cells p) = k)

/-- The record the roster holds for a key. -/
def lookup [DecidableEq Key] (a : Arena Rec key) (k : Key) : Option Rec :=
  (a.find? k).map a.cells

/-- A property of every cell ever allocated, in the roster or not. -/
def Holds (a : Arena Rec key) (Q : Rec -> Prop) : Prop :=
  forall p, p < a.fresh -> Q (a.cells p)

theorem mem_keys {a : Arena Rec key} {k : Key} :
    k ∈ a.keys <-> exists p, p ∈ a.roster ∧ key (a.cells p) = k := by
  simp [keys]

section Lookup

variable [DecidableEq Key]

theorem find?_eq_some {a : Arena Rec key} {k : Key} {p : Nat} :
    a.find? k = some p <-> p ∈ a.roster ∧ key (a.cells p) = k := by
  constructor
  · intro h
    exact ⟨List.mem_of_find?_eq_some h, by simpa using List.find?_some h⟩
  · intro h
    cases hfind : a.find? k with
    | none =>
        have hnone := List.find?_eq_none.mp hfind p h.left
        simp [h.right] at hnone
    | some q =>
        have hqMem : q ∈ a.roster := List.mem_of_find?_eq_some hfind
        have hqKey : key (a.cells q) = k := by simpa using List.find?_some hfind
        have hqp : q = p :=
          List.inj_on_of_nodup_map a.distinct hqMem h.left
            (hqKey.trans h.right.symm)
        rw [hqp]

theorem find?_eq_none {a : Arena Rec key} {k : Key} :
    a.find? k = none <-> k ∉ a.keys := by
  unfold find?
  rw [List.find?_eq_none, mem_keys]
  simp

theorem lookup_eq_some {a : Arena Rec key} {k : Key} {r : Rec} :
    a.lookup k = some r <->
      exists p, p ∈ a.roster ∧ key (a.cells p) = k ∧ a.cells p = r := by
  unfold lookup
  rw [Option.map_eq_some_iff]
  constructor
  · intro h
    rcases h with ⟨p, hp, hr⟩
    have hfind := find?_eq_some.mp hp
    exact ⟨p, hfind.left, hfind.right, hr⟩
  · intro h
    rcases h with ⟨p, hmem, hkey, hr⟩
    exact ⟨p, find?_eq_some.mpr ⟨hmem, hkey⟩, hr⟩

theorem lookup_eq_none {a : Arena Rec key} {k : Key} :
    a.lookup k = none <-> k ∉ a.keys := by
  unfold lookup
  rw [Option.map_eq_none_iff]
  exact find?_eq_none

theorem mem_keys_iff_lookup {a : Arena Rec key} {k : Key} :
    k ∈ a.keys <-> exists r, a.lookup k = some r := by
  rw [← Option.isSome_iff_exists, ← not_iff_not, ← lookup_eq_none]
  simp

theorem key_of_lookup {a : Arena Rec key} {k : Key} {r : Rec}
    (h : a.lookup k = some r) : key r = k := by
  rcases lookup_eq_some.mp h with ⟨p, _, hkey, hr⟩
  rw [← hr]
  exact hkey

theorem lookup_of_find? {a : Arena Rec key} {k : Key} {p : Nat}
    (h : a.find? k = some p) : a.lookup k = some (a.cells p) := by
  simp [lookup, h]

theorem Holds.lookup {a : Arena Rec key} {Q : Rec -> Prop} (h : a.Holds Q)
    {k : Key} {r : Rec} (hr : a.lookup k = some r) : Q r := by
  rcases lookup_eq_some.mp hr with ⟨p, hmem, _, hcell⟩
  rw [← hcell]
  exact h p (a.bounded p hmem)

end Lookup

/-!
## Operations
-/

/-- Change a cell in place, for the roster and for every other holder. -/
def write (a : Arena Rec key) (p : Nat) (r : Rec)
    (h : key r = key (a.cells p)) : Arena Rec key where
  cells := Function.update a.cells p r
  fresh := a.fresh
  roster := a.roster
  bounded := a.bounded
  distinct := by
    have hkeys : (fun q => key (Function.update a.cells p r q)) =
        fun q => key (a.cells q) := by
      funext q
      by_cases hq : q = p
      · subst hq
        simpa using h
      · simp [Function.update_of_ne hq]
    rw [hkeys]
    exact a.distinct

theorem cells_write (a : Arena Rec key) (p : Nat) (r : Rec)
    (h : key r = key (a.cells p)) (q : Nat) :
    (a.write p r h).cells q = if q = p then r else a.cells q :=
  Function.update_apply a.cells p r q

/-- Change any cells in place, their keys apart. -/
def modify (a : Arena Rec key) (f : Nat -> Rec)
    (h : forall p, key (f p) = key (a.cells p)) : Arena Rec key where
  cells := f
  fresh := a.fresh
  roster := a.roster
  bounded := a.bounded
  distinct := by
    have hkeys : (fun p => key (f p)) = fun p => key (a.cells p) := funext h
    rw [hkeys]
    exact a.distinct

private theorem key_update_fresh (a : Arena Rec key) (r : Rec) {q : Nat}
    (hq : q ∈ a.roster) :
    Function.update a.cells a.fresh r q = a.cells q := by
  have hlt := a.bounded q hq
  exact Function.update_of_ne (Nat.ne_of_lt hlt) r a.cells

/-- Put a new cell where the roster held a pointer; holders of the pointer
keep the old cell. -/
def swap (a : Arena Rec key) (p : Nat) (r : Rec)
    (h : key r = key (a.cells p)) : Arena Rec key where
  cells := Function.update a.cells a.fresh r
  fresh := a.fresh + 1
  roster := a.roster.map fun q => if q = p then a.fresh else q
  bounded := by
    intro q hq
    rcases List.mem_map.mp hq with ⟨old, hold, hqEq⟩
    have hlt := a.bounded old hold
    by_cases hp : old = p
    · rw [if_pos hp] at hqEq
      omega
    · rw [if_neg hp] at hqEq
      omega
  distinct := by
    have hkeys : (a.roster.map fun q => if q = p then a.fresh else q).map
          (fun q => key (Function.update a.cells a.fresh r q)) =
        a.roster.map fun q => key (a.cells q) := by
      rw [List.map_map]
      apply List.map_congr_left
      intro q hq
      by_cases hp : q = p
      · subst hp
        simpa using h
      · simp [hp, key_update_fresh a r hq]
    rw [hkeys]
    exact a.distinct

/-- Append a new cell whose key the roster does not hold. -/
def insert (a : Arena Rec key) (r : Rec) (h : key r ∉ a.keys) :
    Arena Rec key where
  cells := Function.update a.cells a.fresh r
  fresh := a.fresh + 1
  roster := a.roster ++ [a.fresh]
  bounded := by
    intro q hq
    rcases List.mem_append.mp hq with hold | hnew
    · have hlt := a.bounded q hold
      omega
    · have hq' : q = a.fresh := by simpa using hnew
      omega
  distinct := by
    have hkeys : (a.roster.map fun q =>
          key (Function.update a.cells a.fresh r q)) = a.keys := by
      apply List.map_congr_left
      intro q hq
      rw [key_update_fresh a r hq]
    rw [List.map_append, hkeys]
    refine List.Nodup.append a.distinct (by simp) ?_
    intro k hk hkNew
    have hkey : k = key r := by simpa using hkNew
    rw [hkey] at hk
    exact h hk

/-- Drop the cell of a key from the roster. -/
def retain [DecidableEq Key] (a : Arena Rec key) (k : Key) :
    Arena Rec key where
  cells := a.cells
  fresh := a.fresh
  roster := a.roster.filter fun p => decide (key (a.cells p) ≠ k)
  bounded := fun p hp => a.bounded p (List.mem_filter.mp hp).left
  distinct := a.distinct.sublist (List.filter_sublist.map _)

/-- The roster without cells. -/
def empty [Inhabited Rec] : Arena Rec key where
  cells := fun _ => default
  fresh := 0
  roster := []
  bounded := by simp
  distinct := by simp

private theorem map_getD_range (rs : List Rec) (d : Rec) :
    (List.range rs.length).map (fun p => rs.getD p d) = rs := by
  apply List.ext_getElem
  · simp
  · intro n h1 h2
    simp [List.getD_eq_getElem?_getD, List.getElem?_eq_getElem h2]

/-- One cell for each record of a list with distinct keys. -/
def ofRecords [Inhabited Rec] (rs : List Rec) (h : (rs.map key).Nodup) :
    Arena Rec key where
  cells := fun p => rs.getD p default
  fresh := rs.length
  roster := List.range rs.length
  bounded := by simp
  distinct := by
    have hkeys : (List.range rs.length).map
        (fun p => key (rs.getD p default)) = rs.map key := by
      have hmap := congrArg (List.map key) (map_getD_range rs default)
      simpa [List.map_map, Function.comp_def] using hmap
    rw [hkeys]
    exact h

/-!
## One equation for each operation
-/

section Equations

variable [DecidableEq Key]

theorem find?_write (a : Arena Rec key) (p : Nat) (r : Rec)
    (h : key r = key (a.cells p)) (k : Key) :
    (a.write p r h).find? k = a.find? k := by
  apply Option.ext
  intro q
  rw [find?_eq_some, find?_eq_some]
  by_cases hq : q = p
  · subst hq
    simp [write, h]
  · simp [write, Function.update_of_ne hq]

theorem lookup_write {a : Arena Rec key} {p : Nat} {r : Rec}
    (h : key r = key (a.cells p)) (hp : p ∈ a.roster) (k : Key) :
    (a.write p r h).lookup k = if key r = k then some r else a.lookup k := by
  by_cases hk : key r = k
  · have hfind : (a.write p r h).find? k = some p := by
      rw [find?_write]
      exact find?_eq_some.mpr ⟨hp, h ▸ hk⟩
    rw [lookup_of_find? hfind, if_pos hk]
    simp [write]
  · rw [if_neg hk]
    unfold lookup
    rw [find?_write]
    cases hfind : a.find? k with
    | none =>
        rfl
    | some q =>
        have hq : q ≠ p := by
          intro hqp
          apply hk
          rw [h, ← hqp]
          exact (find?_eq_some.mp hfind).right
        simp [write, Function.update_of_ne hq]

/-- Where the roster held the old pointer it holds the new one. -/
theorem find?_swap (a : Arena Rec key) (p : Nat) (r : Rec)
    (h : key r = key (a.cells p)) (k : Key) :
    (a.swap p r h).find? k =
      (a.find? k).map fun q => if q = p then a.fresh else q := by
  apply Option.ext
  intro q'
  rw [find?_eq_some, Option.map_eq_some_iff]
  have hkey : forall q, q ∈ a.roster ->
      key ((a.swap p r h).cells (if q = p then a.fresh else q)) =
        key (a.cells q) := by
    intro q hq
    by_cases hqp : q = p
    · subst hqp
      simpa [swap] using h
    · rw [if_neg hqp]
      exact congrArg key (key_update_fresh a r hq)
  constructor
  · intro h'
    rcases List.mem_map.mp h'.left with ⟨q, hq, heq⟩
    refine ⟨q, find?_eq_some.mpr ⟨hq, ?_⟩, heq⟩
    rw [← hkey q hq, heq]
    exact h'.right
  · intro h'
    rcases h' with ⟨q, hq, heq⟩
    have hfound := find?_eq_some.mp hq
    refine ⟨List.mem_map.mpr ⟨q, hfound.left, heq⟩, ?_⟩
    rw [← heq, hkey q hfound.left]
    exact hfound.right

theorem lookup_swap {a : Arena Rec key} {p : Nat} {r : Rec}
    (h : key r = key (a.cells p)) (hp : p ∈ a.roster) (k : Key) :
    (a.swap p r h).lookup k = if key r = k then some r else a.lookup k := by
  by_cases hk : key r = k
  · rw [if_pos hk]
    apply lookup_eq_some.mpr
    refine ⟨a.fresh, List.mem_map.mpr ⟨p, hp, by simp⟩, ?_, ?_⟩
    · simpa [swap] using hk
    · simp [swap]
  · rw [if_neg hk]
    apply Option.ext
    intro r'
    rw [lookup_eq_some, lookup_eq_some]
    constructor
    · intro h'
      rcases h' with ⟨q, hmem, hkey, hcell⟩
      rcases List.mem_map.mp hmem with ⟨old, hold, hq⟩
      by_cases hop : old = p
      · rw [if_pos hop] at hq
        subst hq
        exact absurd (by simpa [swap] using hkey) hk
      · rw [if_neg hop] at hq
        subst hq
        have hcells : (a.swap p r h).cells old = a.cells old :=
          key_update_fresh a r hold
        rw [hcells] at hkey hcell
        exact ⟨old, hold, hkey, hcell⟩
    · intro h'
      rcases h' with ⟨q, hmem, hkey, hcell⟩
      have hqp : q ≠ p := by
        intro hqp
        apply hk
        rw [h, ← hqp]
        exact hkey
      have hcells : (a.swap p r h).cells q = a.cells q :=
        key_update_fresh a r hmem
      refine ⟨q, List.mem_map.mpr ⟨q, hmem, by simp [hqp]⟩, ?_, ?_⟩
      · rw [hcells]
        exact hkey
      · rw [hcells]
        exact hcell

theorem lookup_insert {a : Arena Rec key} {r : Rec} (h : key r ∉ a.keys)
    (k : Key) :
    (a.insert r h).lookup k = if key r = k then some r else a.lookup k := by
  by_cases hk : key r = k
  · rw [if_pos hk]
    apply lookup_eq_some.mpr
    refine ⟨a.fresh, by simp [insert], ?_, ?_⟩
    · simpa [insert] using hk
    · simp [insert]
  · rw [if_neg hk]
    apply Option.ext
    intro r'
    rw [lookup_eq_some, lookup_eq_some]
    constructor
    · intro h'
      rcases h' with ⟨q, hmem, hkey, hcell⟩
      rcases List.mem_append.mp hmem with hold | hnew
      · have hcells : (a.insert r h).cells q = a.cells q :=
          key_update_fresh a r hold
        rw [hcells] at hkey hcell
        exact ⟨q, hold, hkey, hcell⟩
      · have hq : q = a.fresh := by simpa using hnew
        subst hq
        exact absurd (by simpa [insert] using hkey) hk
    · intro h'
      rcases h' with ⟨q, hmem, hkey, hcell⟩
      have hcells : (a.insert r h).cells q = a.cells q :=
        key_update_fresh a r hmem
      refine ⟨q, List.mem_append.mpr (Or.inl hmem), ?_, ?_⟩
      · rw [hcells]
        exact hkey
      · rw [hcells]
        exact hcell

theorem lookup_retain (a : Arena Rec key) (removed k : Key) :
    (a.retain removed).lookup k = if k = removed then none else a.lookup k := by
  apply Option.ext
  intro r
  rw [lookup_eq_some]
  by_cases hk : k = removed
  · rw [if_pos hk]
    constructor
    · intro h
      rcases h with ⟨p, hmem, hkey, _⟩
      have hne := of_decide_eq_true (List.mem_filter.mp hmem).right
      exact absurd (hkey.trans hk) hne
    · intro h
      cases h
  · rw [if_neg hk, lookup_eq_some]
    constructor
    · intro h
      rcases h with ⟨p, hmem, hkey, hcell⟩
      exact ⟨p, (List.mem_filter.mp hmem).left, hkey, hcell⟩
    · intro h
      rcases h with ⟨p, hmem, hkey, hcell⟩
      have hne : key (a.cells p) ≠ removed := by
        rw [hkey]
        exact hk
      exact ⟨p, List.mem_filter.mpr ⟨hmem, decide_eq_true hne⟩, hkey, hcell⟩

theorem lookup_ofRecords [Inhabited Rec] {rs : List Rec}
    (h : (rs.map key).Nodup) {k : Key} {r : Rec} :
    (ofRecords rs h).lookup k = some r <-> r ∈ rs ∧ key r = k := by
  rw [lookup_eq_some]
  constructor
  · intro h'
    rcases h' with ⟨p, hmem, hkey, hcell⟩
    have hlt : p < rs.length := by simpa [ofRecords] using hmem
    have hget : (ofRecords rs h).cells p = rs[p] := by
      simp [ofRecords, List.getD_eq_getElem?_getD, List.getElem?_eq_getElem hlt]
    rw [hget] at hcell hkey
    rw [← hcell]
    exact ⟨List.getElem_mem hlt, hkey⟩
  · intro h'
    rcases List.mem_iff_getElem.mp h'.left with ⟨p, hlt, hget⟩
    have hcell : (ofRecords rs h).cells p = r := by
      simp [ofRecords, List.getD_eq_getElem?_getD, List.getElem?_eq_getElem hlt,
        hget]
    exact ⟨p, by simpa [ofRecords] using hlt, by rw [hcell]; exact h'.right,
      hcell⟩

end Equations

/-!
## Properties of all cells
-/

theorem Holds.write {a : Arena Rec key} {Q : Rec -> Prop} (ha : a.Holds Q)
    {p : Nat} {r : Rec} (h : key r = key (a.cells p)) (hr : Q r) :
    (a.write p r h).Holds Q := by
  intro q hq
  by_cases hqp : q = p
  · subst hqp
    simpa [Arena.write] using hr
  · simpa [Arena.write, Function.update_of_ne hqp] using ha q hq

private theorem holds_update_fresh {a : Arena Rec key} {Q : Rec -> Prop}
    (ha : a.Holds Q) {r : Rec} (hr : Q r) {q : Nat} (hq : q < a.fresh + 1) :
    Q (Function.update a.cells a.fresh r q) := by
  by_cases hqf : q = a.fresh
  · subst hqf
    simpa using hr
  · rw [Function.update_of_ne hqf]
    exact ha q (by omega)

theorem Holds.swap {a : Arena Rec key} {Q : Rec -> Prop} (ha : a.Holds Q)
    {p : Nat} {r : Rec} (h : key r = key (a.cells p)) (hr : Q r) :
    (a.swap p r h).Holds Q :=
  fun _ hq => holds_update_fresh ha hr hq

theorem Holds.insert {a : Arena Rec key} {Q : Rec -> Prop} (ha : a.Holds Q)
    {r : Rec} (h : key r ∉ a.keys) (hr : Q r) : (a.insert r h).Holds Q :=
  fun _ hq => holds_update_fresh ha hr hq

theorem Holds.mono {a : Arena Rec key} {Q R : Rec -> Prop} (ha : a.Holds Q)
    (hQR : forall r, Q r -> R r) : a.Holds R :=
  fun p hp => hQR _ (ha p hp)

theorem holds_ofRecords [Inhabited Rec] {Q : Rec -> Prop} {rs : List Rec}
    (h : (rs.map key).Nodup) (hQ : forall r, r ∈ rs -> Q r) :
    (ofRecords rs h).Holds Q := by
  intro p hp
  have hlt : p < rs.length := hp
  have hget : (ofRecords rs h).cells p = rs[p] := by
    simp [ofRecords, List.getD_eq_getElem?_getD, List.getElem?_eq_getElem hlt]
  rw [hget]
  exact hQ _ (List.getElem_mem hlt)

end Arena

end HifiApi
