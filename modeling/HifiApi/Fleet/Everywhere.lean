import HifiApi.Fleet.Protocol

/-!
# Invariants of every record

A property of records, of rows and of published payloads that each way of
making one from another preserves holds of everything a fleet holds: the cells
of every roster, whether still listed or not, the rows, the records in Redis,
and what the running tasks carry.
-/

namespace HifiApi

variable {C : Collection}

/-- The ways in which records, rows and payloads arise from each other, apart
from local mutations, new records and restarts. -/
structure Preserved (Q : C.Rec -> Prop) (W : C.Row -> Prop)
    (P : String -> C.Payload -> Prop) : Prop where
  publish : forall r, Q r -> P (C.idOf r) (C.toPayload r)
  adopt : forall r v r', Q r -> P (C.idOf r) v -> C.adopt r v = some r' -> Q r'
  restore : forall now id v r, P id v -> C.restore now id v = some r -> Q r
  adoptRow : forall r w, Q r -> W w -> W (C.adoptRow r w)
  editRow : forall e now r r' w, Q r' -> W w -> W (C.editRow e now r r' w)
  newRow : forall now r, Q r -> W (C.newRow now r)
  repairRow : forall w, W w -> W (C.repairRow w)

/-- What a task carries has the property. -/
def Task.Carries (Q : C.Rec -> Prop) (P : String -> C.Payload -> Prop)
    (m : Roster C) : Task C -> Prop
  | .saving _ _ _ after cell => Q after ∧ cell < m.memory.fresh
  | .joining r => Q r
  | .publishing cells => forall p, p ∈ cells -> p < m.memory.fresh
  | .setting id payload cells =>
      P id payload ∧ forall p, p ∈ cells -> p < m.memory.fresh
  | .adding _ cells => forall p, p ∈ cells -> p < m.memory.fresh
  | .fetched entries => forall id v, (id, some v) ∈ entries -> P id v
  | _ => True

theorem Task.Carries.extends {Q : C.Rec -> Prop}
    {P : String -> C.Payload -> Prop} {m m' : Roster C} {t : Task C}
    (h : t.Carries Q P m) (hext : m.Extends m') : t.Carries Q P m' := by
  have hcell : forall p, p < m.memory.fresh -> p < m'.memory.fresh :=
    fun p hp => Nat.lt_of_lt_of_le hp hext.fresh_le
  cases t with
  | saving e now before after cell =>
      exact ⟨h.left, hcell cell h.right⟩
  | publishing cells =>
      exact fun p hp => hcell p (h p hp)
  | setting id payload cells =>
      exact ⟨h.left, fun p hp => hcell p (h.right p hp)⟩
  | adding id cells =>
      exact fun p hp => hcell p (h p hp)
  | _ =>
      exact h

theorem Task.Carries.mono {Q R : C.Rec -> Prop}
    {P T : String -> C.Payload -> Prop} {m : Roster C} {t : Task C}
    (h : t.Carries Q P m) (hQ : forall r, Q r -> R r)
    (hP : forall id v, P id v -> T id v) : t.Carries R T m := by
  cases t with
  | saving e now before after cell =>
      exact ⟨hQ after h.left, h.right⟩
  | joining r =>
      exact hQ r h
  | setting id payload cells =>
      exact ⟨hP id payload h.left, h.right⟩
  | fetched entries =>
      exact fun id v hv => hP id v (h id v hv)
  | _ =>
      exact h

theorem Task.carries_publishRest {Q : C.Rec -> Prop}
    {P : String -> C.Payload -> Prop} {m : Roster C} {cells : List Nat}
    (h : forall p, p ∈ cells -> p < m.memory.fresh) {t : Task C}
    (ht : Task.publishRest cells = some t) : t.Carries Q P m := by
  rcases Task.publishRest_eq_some.mp ht with ⟨_, heq⟩
  subst heq
  exact h

/-- Every record, row and payload of a fleet has the property. -/
structure Fleet.Everywhere {Host : Type} (Q : C.Rec -> Prop)
    (W : C.Row -> Prop) (P : String -> C.Payload -> Prop) (s : Fleet Host C) :
    Prop where
  cells : forall h, (s.hosts h).roster.memory.Holds Q
  rows : forall h, (s.hosts h).roster.table.Holds W
  records : forall id v, s.shelf.record id = some v -> P id v
  tasks : forall h k t, (s.hosts h).tasks k = some t ->
    t.Carries Q P (s.hosts h).roster

theorem Fleet.Everywhere.mono {Host : Type} {Q R : C.Rec -> Prop}
    {W : C.Row -> Prop} {P T : String -> C.Payload -> Prop}
    {s : Fleet Host C} (h : s.Everywhere Q W P) (hQ : forall r, Q r -> R r)
    (hP : forall id v, P id v -> T id v) : s.Everywhere R W T where
  cells := fun h' => (h.cells h').mono hQ
  rows := h.rows
  records := fun id v hv => hP id v (h.records id v hv)
  tasks := fun h' k t ht => (h.tasks h' k t ht).mono hQ hP

section Operations

variable {Q : C.Rec -> Prop} {W : C.Row -> Prop}
  {P : String -> C.Payload -> Prop}

/-!
## Operations on a roster
-/

theorem Roster.holds_mergeOne (hkeep : Preserved Q W P) {m : Roster C}
    (hcells : m.memory.Holds Q) (hrows : m.table.Holds W)
    {clock : String -> I64} {entry : String × Option C.Payload}
    (hentry : forall v, entry.2 = some v -> P entry.1 v) :
    (m.mergeOne clock entry).memory.Holds Q ∧
      (m.mergeOne clock entry).table.Holds W := by
  rcases m.mergeOne_cases clock entry with
    hsame | ⟨v, p, r, hv, hfind, hadopt, heq⟩ | ⟨v, r, hv, hrestore, hkey, heq⟩
  · rw [hsame]
    exact ⟨hcells, hrows⟩
  · rw [heq]
    have hp := Arena.find?_eq_some.mp hfind
    have hr : Q r := by
      refine hkeep.adopt _ v r
        (hcells p (m.memory.bounded p hp.left)) ?_ hadopt
      rw [hp.right]
      exact hentry v hv
    refine ⟨?_, hrows.update (C.adoptRow_rowId r)
      fun w hw => hkeep.adoptRow r w hr hw⟩
    dsimp only
    split
    · exact hcells.swap (C.adopt_idOf hadopt) hr
    · exact hcells.write (C.adopt_idOf hadopt) hr
  · rw [heq]
    have hr : Q r := hkeep.restore _ _ v r (hentry v hv) hrestore
    exact ⟨hcells.insert hkey hr,
      hrows.insertUnless C.conflicts_of_rowId (hkeep.newRow _ r hr)⟩

theorem Roster.holds_mergeAll (hkeep : Preserved Q W P) {m : Roster C}
    (hcells : m.memory.Holds Q) (hrows : m.table.Holds W)
    (clock : String -> I64) {entries : List (String × Option C.Payload)}
    (hentries : forall id v, (id, some v) ∈ entries -> P id v) :
    (m.mergeAll clock entries).memory.Holds Q ∧
      (m.mergeAll clock entries).table.Holds W := by
  refine Roster.mergeAll_induction
    (motive := fun m' => m'.memory.Holds Q ∧ m'.table.Holds W)
    ⟨hcells, hrows⟩ ?_
  intro m' entry hm' hentry
  refine Roster.holds_mergeOne hkeep hm'.left hm'.right ?_
  intro v hv
  apply hentries
  rw [← hv]
  exact hentry

theorem Roster.holds_startEdit (hkeep : Preserved Q W P) {m : Roster C}
    (hcells : m.memory.Holds Q) (hrows : m.table.Holds W) {id : String}
    {e : C.Edit} {now : I64}
    (hedit : forall r r', m.lookup id = some r -> Q r ->
      C.edit e now r = some r' -> (m.startEdit id e now).2.isSome = true ->
      Q r') :
    (m.startEdit id e now).1.memory.Holds Q ∧
      (m.startEdit id e now).1.table.Holds W ∧
      forall t, (m.startEdit id e now).2 = some t ->
        t.Carries Q P (m.startEdit id e now).1 := by
  rcases m.startEdit_cases id e now with hsame | ⟨_, _, _, _, hstarted, _⟩
  · rw [hsame]
    exact ⟨hcells, hrows, fun _ h => by cases h⟩
  · have heffective : (m.startEdit id e now).2.isSome = true := by
      rw [hstarted]
      rfl
    unfold startEdit
    split
    · exact ⟨hcells, hrows, fun _ h => by cases h⟩
    · rename_i p hfind
      have hp := Arena.find?_eq_some.mp hfind
      have hbound := m.memory.bounded p hp.left
      split
      · exact ⟨hcells, hrows, fun _ h => by cases h⟩
      · rename_i r hr
        have hQ : Q r := hedit _ r (Arena.lookup_of_find? hfind)
          (hcells p hbound) hr heffective
        have hput : forall rebuilds, (m.putEdited rebuilds p r
              (C.edit_idOf hr)).1.Holds Q ∧
            (m.putEdited rebuilds p r (C.edit_idOf hr)).2 <
              (m.putEdited rebuilds p r (C.edit_idOf hr)).1.fresh := by
          intro rebuilds
          unfold putEdited
          split
          · exact ⟨hcells.swap (C.edit_idOf hr) hQ, Nat.lt_succ_self _⟩
          · exact ⟨hcells.write (C.edit_idOf hr) hQ, hbound⟩
        dsimp only
        split
        · split
          · refine ⟨(hput _).left,
              hrows.update (C.editRow_rowId e now _ r)
                fun w hw => hkeep.editRow e now _ r w hQ hw, ?_⟩
            intro t ht
            cases ht
            intro q hq
            have heq : q = _ := List.mem_singleton.mp hq
            rw [heq]
            exact (hput _).right
          · exact ⟨hcells, hrows, fun _ h => by cases h⟩
        · refine ⟨(hput _).left, hrows, ?_⟩
          intro t ht
          cases ht
          exact ⟨hQ, (hput _).right⟩

theorem Roster.holds_reload {m : Roster C} (hrows : m.table.Holds W)
    (hload : forall w, W w -> Q (C.loadRow w)) : m.reload.memory.Holds Q := by
  refine Arena.holds_ofRecords (Roster.nodup_loaded m.table) ?_
  intro r hr
  rcases List.mem_map.mp hr with ⟨w, hw, hwr⟩
  rw [← hwr]
  exact hload w (hrows w (Table.mem_ordered.mp hw))

theorem Task.carries_advance (hkeep : Preserved Q W P) {t : Task C}
    {clock : String -> I64} {m : Roster C} {shelf : Shelf C} {o : Outcome C}
    (hcells : m.memory.Holds Q) (hrows : m.table.Holds W)
    (hrecords : forall id v, shelf.record id = some v -> P id v)
    (ht : t.Carries Q P m) (h : t.advance clock m shelf = some o) :
    o.roster.memory.Holds Q ∧ o.roster.table.Holds W ∧
      (forall id v, o.shelf.record id = some v -> P id v) ∧
      forall t', o.task = some t' -> t'.Carries Q P o.roster := by
  cases t with
  | saving e now before after cell =>
      cases h
      refine ⟨hcells, hrows.update (C.editRow_rowId e now before after)
        fun w hw => hkeep.editRow e now before after w ht.left hw,
        hrecords, ?_⟩
      intro t' ht'
      cases ht'
      intro p hp
      have heq : p = cell := List.mem_singleton.mp hp
      rw [heq]
      exact ht.right
  | joining r =>
      simp only [advance] at h
      split at h
      · cases h
      · rename_i hkey
        cases h
        refine ⟨hcells.insert hkey ht, hrows, hrecords, ?_⟩
        intro t' ht'
        cases ht'
        intro p hp
        have heq : p = m.memory.fresh := List.mem_singleton.mp hp
        rw [heq]
        exact Nat.lt_succ_self _
  | publishing cells =>
      cases cells with
      | nil =>
          cases h
          exact ⟨hcells, hrows, hrecords, fun _ h => by cases h⟩
      | cons p cells =>
          cases h
          refine ⟨hcells, hrows, hrecords, ?_⟩
          intro t' ht'
          cases ht'
          exact ⟨hkeep.publish _ (hcells p (ht p (by simp))),
            fun q hq => ht q (by simp [hq])⟩
  | setting id payload cells =>
      cases h
      refine ⟨hcells, hrows, ?_, ?_⟩
      · intro id' v hv
        dsimp only at hv
        rw [Shelf.set_record] at hv
        split at hv
        · rename_i hid
          cases hv
          rw [hid]
          exact ht.left
        · exact hrecords id' v hv
      · intro t' ht'
        cases ht'
        exact ht.right
  | adding id cells =>
      cases h
      refine ⟨hcells, hrows, ?_, fun t' ht' => carries_publishRest ht ht'⟩
      intro id' v hv
      dsimp only at hv
      rw [Shelf.sadd_record] at hv
      exact hrecords id' v hv
  | indexed ids =>
      cases h
      refine ⟨hcells, hrows, hrecords, ?_⟩
      intro t' ht'
      cases ht'
      intro id v hv
      exact hrecords id v (Shelf.mem_mget.mp hv).right
  | fetched entries =>
      cases h
      have hmerged := Roster.holds_mergeAll hkeep hcells hrows clock ht
      refine ⟨hmerged.left, hmerged.right, hrecords, ?_⟩
      intro t' ht'
      refine carries_publishRest ?_ ht'
      intro p hp
      exact Arena.bounded _ p (List.mem_filter.mp hp).left
  | deletingRow id =>
      cases h
      refine ⟨hcells, hrows.delete id, hrecords, ?_⟩
      intro t' ht'
      cases ht'
      trivial
  | deletingRecord id =>
      cases h
      refine ⟨hcells, hrows, ?_, ?_⟩
      · intro id' v hv
        dsimp only at hv
        rw [Shelf.del_record] at hv
        split at hv
        · cases hv
        · exact hrecords id' v hv
      · intro t' ht'
        cases ht'
        trivial
  | leavingIndex id =>
      cases h
      exact ⟨hcells, hrows, hrecords, fun _ h => by cases h⟩

theorem Task.carries_lose {t : Task C} {m : Roster C} (ht : t.Carries Q P m)
    {task : Option (Task C)} (h : t.lose = some task) :
    forall t', task = some t' -> t'.Carries Q P m := by
  intro t' ht'
  cases t with
  | setting id payload cells =>
      cases h
      cases ht'
      exact ht.right
  | adding id cells =>
      cases h
      exact carries_publishRest ht ht'
  | _ =>
      cases h

end Operations

/-!
## One step of the fleet
-/

namespace Fleet

variable {Host : Type} [DecidableEq Host] {Q : C.Rec -> Prop}
  {W : C.Row -> Prop} {P : String -> C.Payload -> Prop}

/-- A mutation that takes effect, a new record and a restart give records with
the property. -/
def Admits (Q : C.Rec -> Prop) (W : C.Row -> Prop) (s : Fleet Host C) :
    Action Host C -> Prop
  | .edit h _ id e now =>
      forall r r', (s.hosts h).roster.lookup id = some r -> Q r ->
        C.edit e now r = some r' ->
        ((s.hosts h).roster.startEdit id e now).2.isSome = true -> Q r'
  | .create _ _ d now => Q (C.draft d now)
  | .restart _ => forall w, W w -> Q (C.loadRow w)
  | _ => True

theorem everywhere_put {s : Fleet Host C} (hs : s.Everywhere Q W P) {h : Host}
    {k : Nat} {m : Roster C} {shelf : Shelf C} {task : Option (Task C)}
    (hcells : m.memory.Holds Q) (hrows : m.table.Holds W)
    (hrecords : forall id v, shelf.record id = some v -> P id v)
    (htask : forall t, task = some t -> t.Carries Q P m)
    (hext : (s.hosts h).roster.Extends m) :
    (s.put h k m shelf task).Everywhere Q W P where
  cells := by
    intro h'
    rw [put_roster]
    split
    · exact hcells
    · exact hs.cells h'
  rows := by
    intro h'
    rw [put_roster]
    split
    · exact hrows
    · exact hs.rows h'
  records := hrecords
  tasks := by
    intro h' k' t ht
    rw [put_roster]
    rcases task_put_cases ht with ⟨hh, _, hnew⟩ | ⟨_, hold⟩
    · rw [if_pos hh]
      exact htask t hnew
    · split
      · rename_i hh
        subst hh
        exact (hs.tasks h' k' t hold).extends hext
      · exact hs.tasks h' k' t hold

theorem everywhere_step (hkeep : Preserved Q W P) {s s' : Fleet Host C}
    {a : Action Host C} (hs : s.Everywhere Q W P) (ha : s.Admits Q W a)
    (hstep : s.step a = some s') : s'.Everywhere Q W P := by
  cases a with
  | edit h k id e now =>
      rcases step_edit.mp hstep with ⟨_, heq⟩
      rcases Roster.holds_startEdit (P := P) hkeep (hs.cells h) (hs.rows h) ha
        with ⟨hcells, hrows, htask⟩
      rw [heq]
      exact everywhere_put hs hcells hrows hs.records htask
        (Roster.extends_startEdit _ id e now)
  | create h k d now =>
      rcases step_create.mp hstep with ⟨started, _, hcreate, heq⟩
      unfold Roster.startCreate at hcreate
      dsimp only at hcreate
      split at hcreate
      · cases hcreate
      · cases hcreate
        rw [heq]
        refine everywhere_put hs (hs.cells h)
          ((hs.rows h).insertUnless C.conflicts_of_rowId
            (hkeep.newRow now _ ha)) hs.records ?_
          ⟨Nat.le_refl _, fun _ _ => rfl⟩
        intro t ht
        cases ht
        exact ha
  | remove h k id =>
      rcases step_remove.mp hstep with ⟨_, heq⟩
      rw [heq]
      refine everywhere_put hs ?_ ?_ hs.records ?_
        (Roster.extends_startRemove _ id)
      · unfold Roster.startRemove
        split
        · exact hs.cells h
        · exact hs.cells h
      · unfold Roster.startRemove
        split
        · exact hs.rows h
        · exact hs.rows h
      · intro t ht
        unfold Roster.startRemove at ht
        split at ht
        · cases ht
        · cases ht
          trivial
  | merge h k =>
      rcases step_merge.mp hstep with ⟨_, heq⟩
      rw [heq]
      refine everywhere_put hs (hs.cells h) (hs.rows h) hs.records ?_
        (Roster.Extends.refl _)
      intro t ht
      unfold Shelf.startMerge at ht
      split at ht
      · cases ht
      · cases ht
        trivial
  | advance h k clock =>
      rcases step_advance.mp hstep with ⟨t, o, htask, hadvance, heq⟩
      rcases Task.carries_advance hkeep (hs.cells h) (hs.rows h) hs.records
          (hs.tasks h k t htask) hadvance with
        ⟨hcells, hrows, hrecords, hnext⟩
      rw [heq]
      exact everywhere_put hs hcells hrows hrecords hnext
        (Task.extends_advance hadvance)
  | lose h k =>
      rcases step_lose.mp hstep with ⟨t, task, htask, hlose, heq⟩
      rw [heq]
      exact everywhere_put hs (hs.cells h) (hs.rows h) hs.records
        (Task.carries_lose (hs.tasks h k t htask) hlose) (Roster.Extends.refl _)
  | restart h =>
      rw [step_restart.mp hstep]
      refine ⟨?_, ?_, hs.records, ?_⟩
      · intro h'
        by_cases hh : h' = h
        · subst hh
          simp only [Function.update_self]
          exact Roster.holds_reload (hs.rows h') ha
        · simp only [Function.update_of_ne hh]
          exact hs.cells h'
      · intro h'
        by_cases hh : h' = h
        · subst hh
          simp only [Function.update_self]
          exact (hs.rows h').mapRows C.repairRow_rowId hkeep.repairRow
        · simp only [Function.update_of_ne hh]
          exact hs.rows h'
      · intro h' k t ht
        by_cases hh : h' = h
        · subst hh
          simp only [Function.update_self] at ht
          cases ht
        · simp only [Function.update_of_ne hh] at ht ⊢
          exact hs.tasks h' k t ht

end Fleet

end HifiApi
