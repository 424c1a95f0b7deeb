import HifiApi.Accounts.Shared
import HifiApi.ApiKeys.State
import HifiApi.Fleet.Protocol

/-!
# Removals

A merge never drops an id from a roster, so a removal reaches no instance but
the one that runs it; the others push the id back once they miss it in the
index.  On a single instance the removal holds, unless a merge that has read
the record before the removal restores it afterwards.
-/

namespace HifiApi

/-- The step starts or continues a task; in a fleet that runs merges and one
removal these are the steps of the merges. -/
def Action.IsMerging {Host : Type} {C : Collection} : Action Host C -> Prop
  | .merge _ _ => True
  | .advance _ _ _ => True
  | _ => False

instance {Host : Type} {C : Collection} :
    (a : Action Host C) -> Decidable a.IsMerging
  | .merge _ _ | .advance _ _ _ => isTrue trivial
  | .edit _ _ _ _ _ | .create _ _ _ _ | .remove _ _ _ | .lose _ _
  | .restart _ => isFalse id

namespace Fleet

variable {Host : Type} {C : Collection} [DecidableEq Host]

/-- No roster and no index holds the id. -/
def Gone (id : String) (s : Fleet Host C) : Prop :=
  (forall h, id ∉ (s.hosts h).roster.memory.keys) ∧ id ∉ s.shelf.index

/-- An instance has finished a merge that was started in the run. -/
def FinishedMerge (s : Fleet Host C) (actions : List (Action Host C))
    (h : Host) : Prop :=
  exists k first second mid, actions = first ++ second ∧
    .merge h k ∈ first ∧ (fleetSystem Host C).run s first = some mid ∧
    (mid.hosts h).tasks k = none

/-- Merges run on every instance; one instance removes an id, and after the
removal has finished every instance finishes a further merge. -/
structure Removal (s : Fleet Host C) (id : String) (remover : Host) (k : Nat)
    (before during after : List (Action Host C)) (s' : Fleet Host C) :
    Prop where
  common : s.Common
  merging : forall a, a ∈ before ++ (during ++ after) -> a.IsMerging
  removed : exists mid,
    (fleetSystem Host C).run s (before ++ .remove remover k id :: during) =
      some mid ∧
    (mid.hosts remover).tasks k = none ∧
    (forall h, mid.FinishedMerge after h) ∧
    (fleetSystem Host C).run mid after = some s'

end Fleet

/-- Explicit deletes stay deleted on every instance and in Redis. -/
def DeletesStay (C : Collection) : Prop :=
  forall (Host : Type) [DecidableEq Host] (s : Fleet Host C) (id : String)
    (remover : Host) (k : Nat) (before during after : List (Action Host C))
    (s' : Fleet Host C),
    s.Removal id remover k before during after s' -> s'.Gone id

namespace Fleet

variable {Host : Type} {C : Collection} [DecidableEq Host]

/-- A merge has read a record of the id that it can restore. -/
def offers (clock : String -> I64) (id : String) : Task C -> Bool
  | .fetched entries =>
      entries.any fun entry =>
        decide (entry.1 = id) &&
          (entry.2.bind (C.restore (clock id) id)).isSome
  | _ => false

/-- A merge restores a record of the id that it has read earlier, although its
instance does not know the id. -/
def RestoresUnknown (id : String) (s : Fleet Host C) : Action Host C -> Prop
  | .advance h k clock =>
      id ∉ (s.hosts h).roster.memory.keys ∧
        exists entries v, (s.hosts h).tasks k = some (.fetched entries) ∧
          (id, some v) ∈ entries ∧ (C.restore (clock id) id v).isSome = true
  | _ => False

theorem offers_eq_true {clock : String -> I64} {id : String} {t : Task C} :
    offers clock id t = true <->
      exists entries v, t = .fetched entries ∧ (id, some v) ∈ entries ∧
        (C.restore (clock id) id v).isSome = true := by
  cases t with
  | fetched entries =>
      simp only [offers, List.any_eq_true, Bool.and_eq_true, decide_eq_true_iff]
      constructor
      · intro h
        rcases h with ⟨⟨id', payload⟩, hmem, hid, hr⟩
        dsimp only at hid hr
        subst hid
        rcases payload with _ | v
        · cases hr
        · exact ⟨entries, v, rfl, hmem, hr⟩
      · intro h
        rcases h with ⟨entries', v, heq, hmem, hr⟩
        cases heq
        exact ⟨_, hmem, rfl, hr⟩
  | _ =>
      simp [offers]

instance (id : String) (s : Fleet Host C) :
    (a : Action Host C) -> Decidable (s.RestoresUnknown id a)
  | .advance h k clock =>
      decidable_of_iff
        (id ∉ (s.hosts h).roster.memory.keys ∧
          ((s.hosts h).tasks k).any (offers clock id) = true) (by
        simp only [RestoresUnknown, Option.any_eq_true, offers_eq_true]
        constructor
        · intro h
          rcases h with ⟨hid, t, ht, entries, v, heq, hv⟩
          exact ⟨hid, entries, v, heq ▸ ht, hv⟩
        · intro h
          rcases h with ⟨hid, entries, v, ht, hv⟩
          exact ⟨hid, _, ht, entries, v, rfl, hv⟩)
  | .edit _ _ _ _ _ | .create _ _ _ _ | .remove _ _ _ | .merge _ _
  | .lose _ _ | .restart _ => isFalse (fun h => h)

/-!
## Ids stay
-/

theorem mem_keys_advance {t : Task C} {clock : String -> I64} {m : Roster C}
    {shelf : Shelf C} {o : Outcome C} (h : t.advance clock m shelf = some o)
    {id : String} (hid : id ∈ m.memory.keys) : id ∈ o.roster.memory.keys := by
  cases t with
  | joining r =>
      simp only [Task.advance] at h
      split at h
      · cases h
      · rename_i hkey
        cases h
        rcases Arena.mem_keys_iff_lookup.mp hid with ⟨r', hr'⟩
        apply Arena.mem_keys_iff_lookup.mpr
        dsimp only
        rw [Arena.lookup_insert]
        split
        · exact ⟨r, rfl⟩
        · exact ⟨r', hr'⟩
  | fetched entries =>
      cases h
      exact Roster.mem_keys_mergeAll.mpr (Or.inl hid)
  | publishing cells =>
      cases cells <;> cases h <;> exact hid
  | _ =>
      cases h
      exact hid

/-- A step of a merge forgets no id. -/
theorem mem_keys_merging {s s' : Fleet Host C} {a : Action Host C}
    (ha : a.IsMerging) (hstep : s.step a = some s') {id : String} {h : Host}
    (hid : id ∈ (s.hosts h).roster.memory.keys) :
    id ∈ (s'.hosts h).roster.memory.keys := by
  cases a with
  | merge h' k =>
      rcases step_merge.mp hstep with ⟨_, heq⟩
      rw [heq, put_roster]
      split
      · rename_i hh
        rw [← hh]
        exact hid
      · exact hid
  | advance h' k clock =>
      rcases step_advance.mp hstep with ⟨t, o, _, hadvance, heq⟩
      rw [heq, put_roster]
      split
      · rename_i hh
        subst hh
        exact mem_keys_advance hadvance hid
      · exact hid
  | _ =>
      exact False.elim ha

theorem mem_keys_merging_run {s s' : Fleet Host C}
    {actions : List (Action Host C)}
    (hmerging : forall a, a ∈ actions -> a.IsMerging)
    (hrun : (fleetSystem Host C).run s actions = some s') {id : String}
    {h : Host} (hid : id ∈ (s.hosts h).roster.memory.keys) :
    id ∈ (s'.hosts h).roster.memory.keys :=
  System.run_invariant_along (P := fun _ a => a.IsMerging)
    (I := fun s => id ∈ (s.hosts h).roster.memory.keys)
    (fun _ _ _ hid ha hstep => mem_keys_merging ha hstep hid) hid
    (System.along_of_forall_mem hmerging) hrun

/-- A removal leaves the other instances alone. -/
theorem mem_keys_remove {s s' : Fleet Host C} {remover h : Host} {k : Nat}
    {removed id : String} (hstep : s.step (.remove remover k removed) = some s')
    (hne : h ≠ remover) (hid : id ∈ (s.hosts h).roster.memory.keys) :
    id ∈ (s'.hosts h).roster.memory.keys := by
  rcases step_remove.mp hstep with ⟨_, heq⟩
  rw [heq, put_roster, if_neg hne]
  exact hid

/-- A step that restores an id makes it known. -/
theorem mem_keys_restores {s s' : Fleet Host C} {a : Action Host C}
    {id : String} (hrestores : s.RestoresUnknown id a)
    (hstep : s.step a = some s') :
    exists h, id ∈ (s'.hosts h).roster.memory.keys := by
  cases a with
  | advance h k clock =>
      rcases hrestores with ⟨_, entries, v, htask, hentry, hrestore⟩
      rcases step_advance.mp hstep with ⟨t, o, htask', hadvance, heq⟩
      rw [htask] at htask'
      cases htask'
      cases hadvance
      refine ⟨h, ?_⟩
      rw [heq, put_roster, if_pos rfl]
      exact Roster.mem_keys_mergeAll.mpr (Or.inr ⟨v, hentry, hrestore⟩)
  | _ =>
      exact False.elim hrestores

/-!
## Pushes of other ids
-/

/-- The task will not publish the id. -/
def Spares (id : String) (m : Roster C) : Task C -> Prop
  | .saving _ _ _ _ cell =>
      cell < m.memory.fresh ∧ C.idOf (m.memory.cells cell) ≠ id
  | .joining r => C.idOf r ≠ id
  | .publishing cells =>
      forall p, p ∈ cells ->
        p < m.memory.fresh ∧ C.idOf (m.memory.cells p) ≠ id
  | .setting id' _ cells =>
      id' ≠ id ∧ forall p, p ∈ cells ->
        p < m.memory.fresh ∧ C.idOf (m.memory.cells p) ≠ id
  | .adding id' cells =>
      id' ≠ id ∧ forall p, p ∈ cells ->
        p < m.memory.fresh ∧ C.idOf (m.memory.cells p) ≠ id
  | _ => True

/-- A merge has read the id in the index. -/
def Lists (id : String) : Task C -> Prop
  | .indexed ids => id ∈ ids
  | .fetched entries => id ∈ entries.map Prod.fst
  | _ => True

/-- The task is a removal of the id that has left memory. -/
def Leaves (id : String) : Task C -> Prop
  | .deletingRow id' => id' = id
  | .deletingRecord id' => id' = id
  | .leavingIndex id' => id' = id
  | _ => False

theorem Spares.mono {id : String} {m m' : Roster C} {t : Task C}
    (h : Spares id m t) (hext : m.Extends m') : Spares id m' t := by
  have hcell : forall p,
      (p < m.memory.fresh ∧ C.idOf (m.memory.cells p) ≠ id) ->
      p < m'.memory.fresh ∧ C.idOf (m'.memory.cells p) ≠ id := by
    intro p hp
    refine ⟨Nat.lt_of_lt_of_le hp.left hext.fresh_le, ?_⟩
    rw [hext.idOf_cells p hp.left]
    exact hp.right
  cases t with
  | saving e now before after cell =>
      exact hcell cell h
  | publishing cells =>
      exact fun p hp => hcell p (h p hp)
  | setting id' payload cells =>
      exact ⟨h.left, fun p hp => hcell p (h.right p hp)⟩
  | adding id' cells =>
      exact ⟨h.left, fun p hp => hcell p (h.right p hp)⟩
  | _ =>
      exact h

/-- What is missing in the index a merge has read is not the id, when the
index held it or the merged roster does not. -/
theorem idOf_unindexed {id : String} {m : Roster C}
    {entries : List (String × Option C.Payload)}
    (h : id ∈ entries.map Prod.fst ∨ id ∉ m.memory.keys) {p : Nat}
    (hp : p ∈ m.unindexed entries) :
    p < m.memory.fresh ∧ C.idOf (m.memory.cells p) ≠ id := by
  rcases List.mem_filter.mp hp with ⟨hmem, hmissing⟩
  refine ⟨m.memory.bounded p hmem, ?_⟩
  intro hid
  rcases h with hlisted | hunknown
  · rw [hid] at hmissing
    simp only [decide_not, Bool.not_eq_true', decide_eq_false_iff_not]
      at hmissing
    exact hmissing hlisted
  · exact hunknown (Arena.mem_keys.mpr ⟨p, hmem, hid⟩)

/-- What resuming a task does to an id that is neither published nor
restored. -/
structure Resumed (id : String) (m : Roster C) (shelf : Shelf C) (t : Task C)
    (o : Outcome C) : Prop where
  next : forall t', o.task = some t' ->
    Spares id o.roster t' ∧ (id ∈ m.memory.keys -> Lists id t') ∧
      (Leaves id t' -> Leaves id t)
  keys : id ∈ o.roster.memory.keys <-> id ∈ m.memory.keys
  index : id ∈ o.shelf.index <->
    id ∈ shelf.index ∧ t ≠ .leavingIndex id

theorem resumed_advance {id : String} {t : Task C} {clock : String -> I64}
    {m : Roster C} {shelf : Shelf C} {o : Outcome C}
    (hspares : Spares id m t) (hlists : id ∈ m.memory.keys -> Lists id t)
    (hunknown : id ∉ m.memory.keys -> forall entries v,
      t = .fetched entries -> (id, some v) ∈ entries ->
      (C.restore (clock id) id v).isSome = false)
    (h : t.advance clock m shelf = some o) : Resumed id m shelf t o := by
  cases t with
  | saving e now before after cell =>
      cases h
      refine ⟨?_, Iff.rfl, by simp⟩
      intro t' ht'
      cases ht'
      refine ⟨?_, fun _ => trivial, fun hleaves => hleaves⟩
      intro p hp
      have hcell : p = cell := by simpa using hp
      rw [hcell]
      exact hspares
  | joining r =>
      have hne : C.idOf r ≠ id := hspares
      simp only [Task.advance] at h
      split at h
      · cases h
      · rename_i hkey
        cases h
        refine ⟨?_, ?_, by simp⟩
        · intro t' ht'
          cases ht'
          refine ⟨?_, fun _ => trivial, fun hleaves => hleaves⟩
          intro p hp
          have hcell : p = m.memory.fresh := by simpa using hp
          rw [hcell]
          exact ⟨Nat.lt_succ_self _, by simpa [Arena.insert] using hne⟩
        · dsimp only
          rw [Arena.mem_keys_iff_lookup, Arena.mem_keys_iff_lookup,
            Arena.lookup_insert, if_neg hne]
  | publishing cells =>
      cases cells with
      | nil =>
          cases h
          exact ⟨fun _ ht' => (by cases ht'), Iff.rfl, by simp⟩
      | cons p cells =>
          cases h
          refine ⟨?_, Iff.rfl, by simp⟩
          intro t' ht'
          cases ht'
          refine ⟨⟨(hspares p (by simp)).right, ?_⟩, fun _ => trivial,
            fun hleaves => hleaves⟩
          exact fun q hq => hspares q (by simp [hq])
  | setting id' payload cells =>
      cases h
      refine ⟨?_, Iff.rfl, by simp⟩
      intro t' ht'
      cases ht'
      exact ⟨hspares, fun _ => trivial, fun hleaves => hleaves⟩
  | adding id' cells =>
      cases h
      refine ⟨?_, Iff.rfl, ?_⟩
      · intro t' ht'
        rcases Task.publishRest_eq_some.mp ht' with ⟨_, heq⟩
        subst heq
        exact ⟨hspares.right, fun _ => trivial, fun hleaves => hleaves⟩
      · dsimp only
        rw [Shelf.mem_sadd_index]
        simp [Ne.symm hspares.left]
  | indexed ids =>
      cases h
      refine ⟨?_, Iff.rfl, by simp⟩
      intro t' ht'
      cases ht'
      refine ⟨trivial, ?_, fun hleaves => hleaves⟩
      intro hid
      have hids : id ∈ ids := hlists hid
      simpa [Lists, Shelf.mget, Function.comp_def] using hids
  | fetched entries =>
      cases h
      have hkeys : id ∈ (m.mergeAll clock entries).memory.keys <->
          id ∈ m.memory.keys := by
        rw [Roster.mem_keys_mergeAll]
        constructor
        · intro h
          rcases h with h | ⟨v, hv, hr⟩
          · exact h
          · by_contra hid
            rw [hunknown hid entries v rfl hv] at hr
            cases hr
        · exact Or.inl
      refine ⟨?_, hkeys, by simp⟩
      intro t' ht'
      rcases Task.publishRest_eq_some.mp ht' with ⟨_, heq⟩
      subst heq
      refine ⟨?_, fun _ => trivial, fun hleaves => hleaves⟩
      intro p hp
      refine idOf_unindexed ?_ hp
      by_cases hid : id ∈ m.memory.keys
      · exact Or.inl (hlists hid)
      · exact Or.inr (fun h => hid (hkeys.mp h))
  | deletingRow id' =>
      cases h
      refine ⟨?_, Iff.rfl, by simp⟩
      intro t' ht'
      cases ht'
      exact ⟨trivial, fun _ => trivial, fun hleaves => hleaves⟩
  | deletingRecord id' =>
      cases h
      refine ⟨?_, Iff.rfl, by simp⟩
      intro t' ht'
      cases ht'
      exact ⟨trivial, fun _ => trivial, fun hleaves => hleaves⟩
  | leavingIndex id' =>
      cases h
      refine ⟨fun _ ht' => (by cases ht'), Iff.rfl, ?_⟩
      dsimp only
      rw [Shelf.mem_srem_index]
      simp [eq_comm]

/-- No task publishes the id; where it is known it is in the index and in every
list a merge has read; and it is known nowhere once it leaves. -/
structure Quiet (id : String) (s : Fleet Host C) : Prop where
  spares : forall h k t, (s.hosts h).tasks k = some t ->
    Spares id (s.hosts h).roster t
  indexed : forall h, id ∈ (s.hosts h).roster.memory.keys -> id ∈ s.shelf.index
  lists : forall h, id ∈ (s.hosts h).roster.memory.keys ->
    forall k t, (s.hosts h).tasks k = some t -> Lists id t
  leaves : forall h k t, (s.hosts h).tasks k = some t -> Leaves id t ->
    forall h', id ∉ (s.hosts h').roster.memory.keys

omit [DecidableEq Host] in
theorem Common.quiet {s : Fleet Host C} (h : s.Common) (id : String) :
    s.Quiet id where
  spares := fun h' k t ht => by
    rw [h.idle h' k] at ht
    cases ht
  indexed := fun h' hid => (h.ids h' id).mp hid
  lists := fun h' _ k t ht => by
    rw [h.idle h' k] at ht
    cases ht
  leaves := fun h' k t ht => by
    rw [h.idle h' k] at ht
    cases ht

/-- The first step of a merge reads the index. -/
theorem quiet_startMerge {id : String} {s s' : Fleet Host C} {h : Host} {k : Nat}
    (hs : s.Quiet id) (hstep : s.step (.merge h k) = some s') :
    s'.Quiet id ∧
      (forall h, id ∈ (s'.hosts h).roster.memory.keys <->
        id ∈ (s.hosts h).roster.memory.keys) ∧
      (id ∈ s'.shelf.index -> id ∈ s.shelf.index) := by
  rcases step_merge.mp hstep with ⟨_, heq⟩
  have hroster : forall h', (s'.hosts h').roster = (s.hosts h').roster := by
    intro h'
    rw [heq, put_roster]
    split
    · rename_i hh
      rw [hh]
    · rfl
  have htask : forall {h' k' t}, (s'.hosts h').tasks k' = some t ->
      (s.hosts h').tasks k' = some t ∨ t = .indexed s.shelf.index := by
    intro h' k' t ht
    rw [heq] at ht
    rcases task_put_cases ht with ⟨_, _, ht⟩ | ⟨_, ht⟩
    · unfold Shelf.startMerge at ht
      split at ht
      · cases ht
      · exact Or.inr (Option.some.inj ht).symm
    · exact Or.inl ht
  have hshelf : s'.shelf = s.shelf := by rw [heq, put_shelf]
  refine ⟨⟨?_, ?_, ?_, ?_⟩, ?_, ?_⟩
  · intro h' k' t ht
    rw [hroster]
    rcases htask ht with hold | hnew
    · exact hs.spares h' k' t hold
    · rw [hnew]
      trivial
  · intro h' hid
    rw [hroster] at hid
    rw [hshelf]
    exact hs.indexed h' hid
  · intro h' hid k' t ht
    rw [hroster] at hid
    rcases htask ht with hold | hnew
    · exact hs.lists h' hid k' t hold
    · rw [hnew]
      exact hs.indexed h' hid
  · intro h' k' t ht hleaves h''
    rw [hroster]
    rcases htask ht with hold | hnew
    · exact hs.leaves h' k' t hold hleaves h''
    · rw [hnew] at hleaves
      exact False.elim hleaves
  · intro h'
    rw [hroster]
  · rw [hshelf]
    exact fun h => h

/-- A step of a task that does not restore the id. -/
theorem quiet_advance {id : String} {s s' : Fleet Host C} {h : Host} {k : Nat}
    {clock : String -> I64} (hs : s.Quiet id)
    (hrestores : ¬ s.RestoresUnknown id (.advance h k clock))
    (hstep : s.step (.advance h k clock) = some s') :
    s'.Quiet id ∧
      (forall h, id ∈ (s'.hosts h).roster.memory.keys <->
        id ∈ (s.hosts h).roster.memory.keys) ∧
      (id ∈ s'.shelf.index -> id ∈ s.shelf.index) := by
  rcases step_advance.mp hstep with ⟨t, o, htask, hadvance, heq⟩
  have hresumed : Resumed id (s.hosts h).roster s.shelf t o := by
    refine resumed_advance (hs.spares h k t htask)
      (fun hid => hs.lists h hid k t htask) ?_ hadvance
    intro hid entries v ht hv
    rw [← Bool.not_eq_true]
    intro hr
    exact hrestores ⟨hid, entries, v, ht ▸ htask, hv, hr⟩
  have hkeys : forall h', id ∈ (s'.hosts h').roster.memory.keys <->
      id ∈ (s.hosts h').roster.memory.keys := by
    intro h'
    rw [heq, put_roster]
    split
    · rename_i hh
      rw [hh]
      exact hresumed.keys
    · exact Iff.rfl
  have hroster : forall h',
      (s.hosts h').roster.Extends (s'.hosts h').roster := by
    intro h'
    rw [heq, put_roster]
    split
    · rename_i hh
      rw [hh]
      exact Task.extends_advance hadvance
    · exact Roster.Extends.refl _
  refine ⟨⟨?_, ?_, ?_, ?_⟩, hkeys, ?_⟩
  · intro h' k' t' ht'
    have hext := hroster h'
    rw [heq] at ht' hext ⊢
    rcases task_put_cases ht' with ⟨hh, _, ht⟩ | ⟨_, ht⟩
    · subst hh
      rw [put_roster_same]
      exact (hresumed.next t' ht).left
    · exact (hs.spares h' k' t' ht).mono hext
  · intro h' hid
    have hid := (hkeys h').mp hid
    rw [heq, put_shelf]
    refine hresumed.index.mpr ⟨hs.indexed h' hid, ?_⟩
    intro ht
    subst ht
    exact hs.leaves h k _ htask rfl h' hid
  · intro h' hid k' t' ht'
    have hid := (hkeys h').mp hid
    rw [heq] at ht'
    rcases task_put_cases ht' with ⟨hh, _, ht⟩ | ⟨_, ht⟩
    · subst hh
      exact (hresumed.next t' ht).right.left hid
    · exact hs.lists h' hid k' t' ht
  · intro h' k' t' ht' hleaves h''
    rw [hkeys]
    rw [heq] at ht'
    rcases task_put_cases ht' with ⟨hh, _, ht⟩ | ⟨_, ht⟩
    · exact hs.leaves h k t htask
        ((hresumed.next t' ht).right.right hleaves) h''
    · exact hs.leaves h' k' t' ht hleaves h''
  · rw [heq, put_shelf]
    exact fun hid => (hresumed.index.mp hid).left

/-- A step of a merge that does not restore the id leaves it quiet, makes it
known nowhere, and does not put it into the index. -/
theorem quiet_merging {id : String} {s s' : Fleet Host C} {a : Action Host C}
    (hs : s.Quiet id) (ha : a.IsMerging) (hrestores : ¬ s.RestoresUnknown id a)
    (hstep : s.step a = some s') :
    s'.Quiet id ∧
      (forall h, id ∈ (s'.hosts h).roster.memory.keys <->
        id ∈ (s.hosts h).roster.memory.keys) ∧
      (id ∈ s'.shelf.index -> id ∈ s.shelf.index) := by
  cases a with
  | merge h k =>
      exact quiet_startMerge hs hstep
  | advance h k clock =>
      exact quiet_advance hs hrestores hstep
  | _ =>
      exact False.elim ha

/-- Where no other instance knows the id, the removal leaves it quiet. -/
theorem quiet_remove {id : String} {s s' : Fleet Host C} {remover : Host}
    {k : Nat} (hs : s.Quiet id)
    (hothers : forall h, h ≠ remover -> id ∉ (s.hosts h).roster.memory.keys)
    (hstep : s.step (.remove remover k id) = some s') :
    s'.Quiet id ∧ (forall h, id ∉ (s'.hosts h).roster.memory.keys) ∧
      (id ∈ (s.hosts remover).roster.memory.keys ->
        (s'.hosts remover).tasks k = some (.deletingRow id)) := by
  rcases step_remove.mp hstep with ⟨hfree, heq⟩
  have hgone : id ∉ ((s.hosts remover).roster.startRemove id).1.memory.keys := by
    unfold Roster.startRemove
    split
    · rename_i h
      exact h.right
    · apply Arena.lookup_eq_none.mp
      dsimp only
      rw [Arena.lookup_retain, if_pos rfl]
  have hnone : forall h, id ∉ (s'.hosts h).roster.memory.keys := by
    intro h
    rw [heq, put_roster]
    split
    · exact hgone
    · rename_i hne
      exact hothers h hne
  have htask : forall t, ((s.hosts remover).roster.startRemove id).2 = some t ->
      t = .deletingRow id := by
    intro t ht
    unfold Roster.startRemove at ht
    split at ht
    · cases ht
    · exact (Option.some.inj ht).symm
  refine ⟨⟨?_, ?_, ?_, ?_⟩, hnone, ?_⟩
  · intro h k' t ht
    rw [heq] at ht ⊢
    rcases task_put_cases ht with ⟨_, _, hnew⟩ | ⟨_, hold⟩
    · rw [htask t hnew]
      trivial
    · refine (hs.spares h k' t hold).mono ?_
      rw [put_roster]
      split
      · rename_i hh
        rw [hh]
        exact Roster.extends_startRemove _ id
      · exact Roster.Extends.refl _
  · exact fun h hid => absurd hid (hnone h)
  · exact fun h hid => absurd hid (hnone h)
  · exact fun _ _ _ _ _ h' => hnone h'
  · intro hid
    rw [heq, put_tasks_same, if_pos rfl]
    unfold Roster.startRemove
    rw [if_neg (fun h => h.right hid)]

/-- The removal is on its way, or the index does not hold the id. -/
def Leaving (id : String) (remover : Host) (k : Nat) (s : Fleet Host C) :
    Prop :=
  id ∉ s.shelf.index ∨
    exists t, (s.hosts remover).tasks k = some t ∧ Leaves id t

/-- The task of the removal ends when the id has left the index. -/
theorem leaving_merging {id : String} {remover : Host} {k : Nat}
    {s s' : Fleet Host C} {a : Action Host C} (hs : s.Quiet id)
    (ha : a.IsMerging) (hrestores : ¬ s.RestoresUnknown id a)
    (hleaving : s.Leaving id remover k) (hstep : s.step a = some s') :
    s'.Leaving id remover k := by
  have hquiet := quiet_merging hs ha hrestores hstep
  rcases hleaving with hindex | ⟨t, htask, hleaves⟩
  · exact Or.inl fun h => hindex (hquiet.right.right h)
  · have hother : forall h k' m shelf task, (h = remover -> k' ≠ k) ->
        s' = s.put h k' m shelf task ->
        (s'.hosts remover).tasks k = some t := by
      intro h k' m shelf task hne heq
      rw [heq]
      by_cases hh : h = remover
      · subst hh
        rw [put_tasks_same, if_neg (Ne.symm (hne rfl))]
        exact htask
      · rw [put_hosts_of_ne s (Ne.symm hh)]
        exact htask
    cases a with
    | merge h k' =>
        rcases step_merge.mp hstep with ⟨hfree, heq⟩
        refine Or.inr ⟨t, hother h k' _ _ _ ?_ heq, hleaves⟩
        intro hh hk
        subst hh
        subst hk
        rw [htask] at hfree
        cases hfree
    | advance h k' clock =>
        rcases step_advance.mp hstep with ⟨t', o, htask', hadvance, heq⟩
        by_cases hsame : h = remover ∧ k' = k
        · rcases hsame with ⟨hh, hk⟩
          subst hh
          subst hk
          rw [htask] at htask'
          cases htask'
          cases t with
          | deletingRow id' =>
              cases hadvance
              refine Or.inr ⟨.deletingRecord id', ?_, hleaves⟩
              rw [heq, put_tasks_same, if_pos rfl]
          | deletingRecord id' =>
              cases hadvance
              refine Or.inr ⟨.leavingIndex id', ?_, hleaves⟩
              rw [heq, put_tasks_same, if_pos rfl]
          | leavingIndex id' =>
              have hid : id' = id := hleaves
              cases hadvance
              refine Or.inl ?_
              rw [heq, put_shelf, hid, Shelf.mem_srem_index]
              exact fun h => h.right rfl
          | _ =>
              exact False.elim hleaves
        · refine Or.inr ⟨t, hother h k' _ _ _ ?_ heq, hleaves⟩
          exact fun hh hk => hsame ⟨hh, hk⟩
    | _ =>
        exact False.elim ha

/-- The id is nowhere, and no merge has read it in the index. -/
structure Absent (id : String) (s : Fleet Host C) : Prop where
  quiet : s.Quiet id
  gone : s.Gone id
  unlisted : forall h k t, (s.hosts h).tasks k = some t ->
    (forall ids, t = .indexed ids -> id ∉ ids) ∧
      (forall entries, t = .fetched entries -> id ∉ entries.map Prod.fst)

omit [DecidableEq Host] in
theorem Absent.not_restoresUnknown {id : String} {s : Fleet Host C}
    (hs : s.Absent id) (a : Action Host C) : ¬ s.RestoresUnknown id a := by
  intro h
  cases a with
  | advance h' k clock =>
      rcases h with ⟨_, entries, v, htask, hentry, _⟩
      exact (hs.unlisted h' k _ htask).right entries rfl
        (List.mem_map.mpr ⟨_, hentry, rfl⟩)
  | _ =>
      exact h

theorem absent_merging {id : String} {s s' : Fleet Host C} {a : Action Host C}
    (hs : s.Absent id) (ha : a.IsMerging) (hstep : s.step a = some s') :
    s'.Absent id := by
  rcases quiet_merging hs.quiet ha (hs.not_restoresUnknown a) hstep with
    ⟨hquiet, hkeys, hindex⟩
  refine ⟨hquiet, ⟨?_, fun h => hs.gone.right (hindex h)⟩, ?_⟩
  · exact fun h hid => hs.gone.left h ((hkeys h).mp hid)
  · intro h' k' t ht
    cases a with
    | merge h k =>
        rcases step_merge.mp hstep with ⟨_, heq⟩
        rw [heq] at ht
        rcases task_put_cases ht with ⟨_, _, hnew⟩ | ⟨_, hold⟩
        · unfold Shelf.startMerge at hnew
          split at hnew
          · cases hnew
          · cases hnew
            refine ⟨?_, fun _ h => by cases h⟩
            intro ids hids
            cases hids
            exact hs.gone.right
        · exact hs.unlisted h' k' t hold
    | advance h k clock =>
        rcases step_advance.mp hstep with ⟨t', o, htask, hadvance, heq⟩
        rw [heq] at ht
        rcases task_put_cases ht with ⟨_, _, hnew⟩ | ⟨_, hold⟩
        · refine ⟨?_, ?_⟩
          · intro ids ht
            exact absurd (ht ▸ hnew)
              (Task.not_indexed_of_advance hadvance ids)
          · intro entries ht
            rcases Task.fetched_of_advance hadvance (ht ▸ hnew) with
              ⟨ids, ht', hentries⟩
            have hids := (hs.unlisted h k t' htask).left ids ht'
            rw [hentries]
            simpa [Shelf.mget, Function.comp_def] using hids
        · exact hs.unlisted h' k' t hold
    | _ =>
        exact False.elim ha

/-!
## When a removal holds
-/

theorem quiet_merging_run {id : String} {s s' : Fleet Host C}
    {actions : List (Action Host C)} (hs : s.Quiet id)
    (hmerging : forall a, a ∈ actions -> a.IsMerging)
    (halong : (fleetSystem Host C).Along
      (fun s a => ¬ s.RestoresUnknown id a) s actions)
    (hrun : (fleetSystem Host C).run s actions = some s') :
    s'.Quiet id ∧
      ((forall h, id ∉ (s.hosts h).roster.memory.keys) ->
        forall h, id ∉ (s'.hosts h).roster.memory.keys) ∧
      (id ∉ s.shelf.index -> id ∉ s'.shelf.index) ∧
      (forall remover k, s.Leaving id remover k ->
        s'.Leaving id remover k) := by
  refine System.run_invariant_along
    (P := fun s a => a.IsMerging ∧ ¬ s.RestoresUnknown id a)
    (I := fun t => t.Quiet id ∧
      ((forall h, id ∉ (s.hosts h).roster.memory.keys) ->
        forall h, id ∉ (t.hosts h).roster.memory.keys) ∧
      (id ∉ s.shelf.index -> id ∉ t.shelf.index) ∧
      (forall remover k, s.Leaving id remover k -> t.Leaving id remover k))
    ?_ ⟨hs, fun h => h, fun h => h, fun _ _ h => h⟩
    ((System.along_and (P := fun _ a => a.IsMerging)).mpr
      ⟨System.along_of_forall_mem hmerging, halong⟩) hrun
  intro t a t' hI hP hstep
  have hquiet := quiet_merging hI.left hP.left hP.right hstep
  refine ⟨hquiet.left, ?_, ?_, ?_⟩
  · exact fun hs h hid => hI.right.left hs h ((hquiet.right.left h).mp hid)
  · exact fun hs hid => hI.right.right.left hs (hquiet.right.right hid)
  · exact fun remover k hs => leaving_merging hI.left hP.left hP.right
      (hI.right.right.right remover k hs) hstep

theorem absent_merging_run {id : String} {s s' : Fleet Host C}
    {actions : List (Action Host C)} (hs : s.Absent id)
    (hmerging : forall a, a ∈ actions -> a.IsMerging)
    (hrun : (fleetSystem Host C).run s actions = some s') : s'.Absent id :=
  System.run_invariant_along (P := fun _ a => a.IsMerging)
    (I := fun t => t.Absent id)
    (fun _ _ _ hI ha hstep => absent_merging hI ha hstep) hs
    (System.along_of_forall_mem hmerging) hrun

/-- No merge restores an id that every instance knows. -/
theorem not_restoresUnknown_of_known {id : String} {s : Fleet Host C}
    {actions : List (Action Host C)}
    (hs : forall h, id ∈ (s.hosts h).roster.memory.keys)
    (hmerging : forall a, a ∈ actions -> a.IsMerging) :
    (fleetSystem Host C).Along (fun s a => ¬ s.RestoresUnknown id a) s
      actions := by
  refine System.along_of_invariant (P := fun _ a => a.IsMerging)
    (I := fun s => forall h, id ∈ (s.hosts h).roster.memory.keys)
    (fun _ _ _ hI ha hstep h => mem_keys_merging ha hstep (hI h)) ?_ hs
    (System.along_of_forall_mem hmerging)
  intro t a hI _ hrestores
  cases a with
  | advance h k clock =>
      exact hrestores.left (hI h)
  | _ =>
      exact hrestores

section Removal

variable {s s' : Fleet Host C} {id : String} {remover : Host} {k : Nat}
  {before during after : List (Action Host C)}

/-- The states before and after the removal starts, and after it has ended. -/
theorem Removal.states (h : s.Removal id remover k before during after s') :
    exists s₁ s₂ mid, (fleetSystem Host C).run s before = some s₁ ∧
      s₁.step (.remove remover k id) = some s₂ ∧
      (fleetSystem Host C).run s₂ during = some mid ∧
      (mid.hosts remover).tasks k = none ∧
      (fleetSystem Host C).run mid after = some s' := by
  rcases h.removed with ⟨mid, hmid, hended, _, hafter⟩
  rcases System.run_append_some.mp hmid with ⟨s₁, hbefore, hrest⟩
  rcases System.run_cons_some.mp hrest with ⟨s₂, hremove, hduring⟩
  exact ⟨s₁, s₂, mid, hbefore, hremove, hduring, hended, hafter⟩

theorem Removal.merging_before
    (h : s.Removal id remover k before during after s') :
    forall a, a ∈ before -> a.IsMerging :=
  fun a ha => h.merging a (List.mem_append_left _ ha)

theorem Removal.merging_rest
    (h : s.Removal id remover k before during after s') :
    forall a, a ∈ during ++ after -> a.IsMerging :=
  fun a ha => h.merging a (List.mem_append_right _ ha)

/-- With nothing to remove, the id stays away. -/
theorem removal_gone_of_absent
    (h : s.Removal id remover k before during after s')
    (hindex : id ∉ s.shelf.index) : s'.Gone id := by
  rcases h.states with ⟨s₁, s₂, mid, hbefore, hremove, hduring, _, hafter⟩
  have habsent : s.Absent id := by
    refine ⟨h.common.quiet id, ⟨?_, hindex⟩, ?_⟩
    · exact fun h' hid => hindex ((h.common.ids h' id).mp hid)
    · intro h' k' t ht
      rw [h.common.idle h' k'] at ht
      cases ht
  have habsent₁ := absent_merging_run habsent h.merging_before hbefore
  have habsent₂ : s₂.Absent id := by
    rcases quiet_remove habsent₁.quiet
        (fun h _ => habsent₁.gone.left h) hremove with ⟨hquiet₂, hgone₂, _⟩
    rcases step_remove.mp hremove with ⟨_, heq⟩
    refine ⟨hquiet₂, ⟨hgone₂, ?_⟩, ?_⟩
    · rw [heq, put_shelf]
      exact habsent₁.gone.right
    · intro h' k' t ht
      rw [heq] at ht
      rcases task_put_cases ht with ⟨_, _, hnew⟩ | ⟨_, hold⟩
      · unfold Roster.startRemove at hnew
        split at hnew
        · cases hnew
        · cases hnew
          exact ⟨fun _ h => (by cases h), fun _ h => (by cases h)⟩
      · exact habsent₁.unlisted h' k' t hold
  have hlast := System.run_append_some.mpr ⟨mid, hduring, hafter⟩
  exact (absent_merging_run habsent₂ h.merging_rest hlast).gone

/-- Another instance keeps the id for good. -/
theorem removal_alone_of_gone
    (h : s.Removal id remover k before during after s')
    (hindex : id ∈ s.shelf.index) (hgone : s'.Gone id) :
    forall h, h = remover := by
  rcases h.states with ⟨s₁, s₂, mid, hbefore, hremove, hduring, _, hafter⟩
  intro h'
  by_contra hne
  have hknown₁ := mem_keys_merging_run h.merging_before hbefore
    ((h.common.ids h' id).mpr hindex)
  have hknown₂ := mem_keys_remove hremove hne hknown₁
  have hlast := System.run_append_some.mpr ⟨mid, hduring, hafter⟩
  exact hgone.left h' (mem_keys_merging_run h.merging_rest hlast hknown₂)

/-- An instance that restores the id after the removal keeps it for good. -/
theorem removal_not_restored_of_gone
    (h : s.Removal id remover k before during after s')
    (hindex : id ∈ s.shelf.index) (hgone : s'.Gone id) :
    (fleetSystem Host C).Along (fun s a => ¬ s.RestoresUnknown id a) s
      (before ++ .remove remover k id :: (during ++ after)) := by
  rcases h.states with ⟨s₁, s₂, mid, hbefore, hremove, hduring, _, hafter⟩
  have hlast : (fleetSystem Host C).run s₂ (during ++ after) = some s' :=
    System.run_append_some.mpr ⟨mid, hduring, hafter⟩
  have hmerging := h.merging_rest
  rw [System.along_append hbefore]
  refine ⟨not_restoresUnknown_of_known
    (fun h' => (h.common.ids h' id).mpr hindex) h.merging_before,
    fun h => h, ?_⟩
  intro s₂' hs₂'
  have hsame : s₂' = s₂ := Option.some.inj (hs₂'.symm.trans hremove)
  rw [hsame]
  by_contra hnot
  rcases System.exists_step_of_not_along hnot with
    ⟨first, a, second, t, hactions, hfirst, _, hrestores⟩
  rw [hactions] at hlast hmerging
  rcases System.run_append_some.mp hlast with ⟨t', hfirst', hsecond⟩
  rw [hfirst] at hfirst'
  cases hfirst'
  rcases System.run_cons_some.mp hsecond with ⟨t'', hstep, hsecond⟩
  rcases mem_keys_restores (not_not.mp hrestores) hstep with ⟨h', hid⟩
  exact hgone.left h' (mem_keys_merging_run
    (fun a ha => hmerging a (by simp [ha])) hsecond hid)

theorem removal_gone_of_alone
    (h : s.Removal id remover k before during after s')
    (hindex : id ∈ s.shelf.index) (halone : forall h, h = remover)
    (halong : (fleetSystem Host C).Along (fun s a => ¬ s.RestoresUnknown id a) s
      (before ++ .remove remover k id :: (during ++ after))) :
    s'.Gone id := by
  rcases h.states with
    ⟨s₁, s₂, mid, hbefore, hremove, hduring, hended, hafter⟩
  rcases (System.along_append hbefore).mp halong with ⟨halong₁, _, hrest⟩
  rcases (System.along_append hduring).mp (hrest s₂ hremove) with
    ⟨halong₂, halong₃⟩
  have hquiet₁ := (quiet_merging_run (h.common.quiet id) h.merging_before
    halong₁ hbefore).left
  have hknown₁ := mem_keys_merging_run h.merging_before hbefore
    ((h.common.ids remover id).mpr hindex)
  rcases quiet_remove hquiet₁ (fun h hne => absurd (halone h) hne) hremove with
    ⟨hquiet₂, hgone₂, htask₂⟩
  rcases quiet_merging_run hquiet₂
      (fun a ha => h.merging_rest a (List.mem_append_left _ ha)) halong₂
      hduring with ⟨hquiet₃, hgone₃, _, hleaving₃⟩
  have hindex₃ : id ∉ mid.shelf.index := by
    rcases hleaving₃ remover k (Or.inr ⟨_, htask₂ hknown₁, rfl⟩) with
      hout | ⟨t, ht, _⟩
    · exact hout
    · rw [hended] at ht
      cases ht
  rcases quiet_merging_run hquiet₃
      (fun a ha => h.merging_rest a (List.mem_append_right _ ha)) halong₃
      hafter with ⟨_, hgone₄, hindex₄, _⟩
  exact ⟨hgone₄ (hgone₃ hgone₂), hindex₄ hindex₃⟩

/-- A removal holds exactly when there was nothing to remove, or when there is
a single instance and no merge restores the record after the removal. -/
theorem removal_gone_iff (h : s.Removal id remover k before during after s') :
    s'.Gone id <->
      id ∉ s.shelf.index ∨
        ((forall h, h = remover) ∧
          (fleetSystem Host C).Along (fun s a => ¬ s.RestoresUnknown id a) s
            (before ++ .remove remover k id :: (during ++ after))) := by
  by_cases hindex : id ∈ s.shelf.index
  · constructor
    · intro hgone
      exact Or.inr ⟨removal_alone_of_gone h hindex hgone,
        removal_not_restored_of_gone h hindex hgone⟩
    · intro hcond
      rcases hcond with habsent | ⟨halone, halong⟩
      · exact absurd hindex habsent
      · exact removal_gone_of_alone h hindex halone halong
  · exact ⟨fun _ => Or.inl hindex, fun _ => removal_gone_of_absent h hindex⟩

end Removal

/-!
## Removals on one instance and on two
-/

/-- The given number of steps of a task. -/
def advances (h : Host) (k n : Nat) : List (Action Host C) :=
  List.replicate n (.advance h k fun _ => 0)

/-- A table with two accounts. -/
def twoAccounts : Table accounts.Row accounts.rowId where
  rows :=
    [.ofAccount (NewAccount.record ⟨"a", "first", "c", "s", "r", none⟩ 0),
      .ofAccount (NewAccount.record ⟨"b", "second", "c", "s", "q", none⟩ 0)]
  distinct := by decide

/-- A table with two API keys. -/
def twoKeys : Table apiKeys.Row apiKeys.rowId where
  rows :=
    [.ofKey 0 (NewKey.record ⟨"a", "first", longHash 'a', "hifi_a", 0⟩ 0),
      .ofKey 0 (NewKey.record ⟨"b", "second", longHash 'b', "hifi_b", 0⟩ 0)]
  distinct := by decide

/-- A single instance removes an account and merges. -/
theorem removal_gone_iff_single :
    exists s', (fleetSystem Unit accounts).run (loaded Unit twoAccounts)
        (.remove () 0 "a" :: (advances () 0 3 ++
          .merge () 0 :: advances () 0 2)) = some s' ∧
      s'.Gone "a" := by
  refine ⟨_, rfl, (removal_gone_iff (show
    (loaded Unit twoAccounts).Removal "a" () 0 [] (advances () 0 3)
      (.merge () 0 :: advances () 0 2) _ from
    ⟨loaded_common Unit twoAccounts, by decide, _, rfl, rfl, ?_, rfl⟩)).mpr
    (Or.inr ⟨fun _ => rfl, by decide⟩)⟩
  exact fun _ => ⟨0, _, [], _, (List.append_nil _).symm, by simp, rfl, rfl⟩

/-- After the removal has finished both instances merge: the second one pushes
the id back, and the first one restores it. -/
def mergesAfterRemoval : List (Action Bool C) :=
  .merge false 0 :: (advances false 0 2 ++ Action.merge true 0 ::
    (advances true 0 5 ++ Action.merge false 1 :: advances false 1 2))

theorem not_deletesStay : ¬ DeletesStay accounts ∧ ¬ DeletesStay apiKeys := by
  constructor
  · intro h
    have hgone := h Bool (loaded Bool twoAccounts) "a" false 0 []
      (advances false 0 3) mergesAfterRemoval _
      ⟨loaded_common Bool twoAccounts, by decide, _, rfl, rfl, ?_, rfl⟩
    · exact hgone.left false (by decide)
    · intro host
      cases host with
      | false =>
          exact ⟨1, mergesAfterRemoval, [], _, (List.append_nil _).symm,
            by simp [mergesAfterRemoval], rfl, rfl⟩
      | true =>
          exact ⟨0, mergesAfterRemoval, [], _, (List.append_nil _).symm,
            by simp [mergesAfterRemoval], rfl, rfl⟩
  · intro h
    have hgone := h Bool (loaded Bool twoKeys) "a" false 0 []
      (advances false 0 3) mergesAfterRemoval _
      ⟨loaded_common Bool twoKeys, by decide, _, rfl, rfl, ?_, rfl⟩
    · exact hgone.left false (by decide)
    · intro host
      cases host with
      | false =>
          exact ⟨1, mergesAfterRemoval, [], _, (List.append_nil _).symm,
            by simp [mergesAfterRemoval], rfl, rfl⟩
      | true =>
          exact ⟨0, mergesAfterRemoval, [], _, (List.append_nil _).symm,
            by simp [mergesAfterRemoval], rfl, rfl⟩

end Fleet

end HifiApi
