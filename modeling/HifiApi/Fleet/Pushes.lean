import HifiApi.Accounts.Shared
import HifiApi.Fleet.Everywhere

/-!
# Account records on their way to Redis

Between mutation and merge a record travels in a task.  A task that is to
publish an account keeps its promise or passes it on, and while tasks only
mutate, publish and merge, records in memory never get older.
-/

namespace HifiApi

open AccountState (Shared)

/-- Mutations and merges, with their pushes; no call to Redis fails. -/
def Action.IsSynchronising {Host : Type} {C : Collection} :
    Action Host C -> Prop
  | .edit _ _ _ _ _ => True
  | .merge _ _ => True
  | .advance _ _ _ => True
  | _ => False

instance {Host : Type} {C : Collection} :
    (a : Action Host C) -> Decidable a.IsSynchronising
  | .edit _ _ _ _ _ | .merge _ _ | .advance _ _ _ => isTrue trivial
  | .create _ _ _ _ | .remove _ _ _ | .lose _ _ | .restart _ =>
      isFalse fun h => h

/-- The clock reading of a mutation. -/
def Action.reading? {Host : Type} {C : Collection} :
    Action Host C -> Option I64
  | .edit _ _ _ _ now => some now
  | _ => none

namespace Fleet

/-!
## Tasks on the way to Redis
-/

/-- The task puts a record of the account into Redis that is at least as new. -/
def Promises (m : Roster accounts) (id : String) (stamp : I64) :
    Task accounts -> Prop
  | .saving _ _ _ _ cell =>
      (m.memory.cells cell).id = id ∧ stamp ≤ (m.memory.cells cell).updatedAt
  | .publishing cells =>
      exists p, p ∈ cells ∧ (m.memory.cells p).id = id ∧
        stamp ≤ (m.memory.cells p).updatedAt
  | .setting id' payload cells =>
      (id' = id ∧ exists v, payload = some v ∧
        stamp ≤ RemoteAccount.updatedAt v) ∨
      exists p, p ∈ cells ∧ (m.memory.cells p).id = id ∧
        stamp ≤ (m.memory.cells p).updatedAt
  | .adding _ cells =>
      exists p, p ∈ cells ∧ (m.memory.cells p).id = id ∧
        stamp ≤ (m.memory.cells p).updatedAt
  | _ => False

/-- The id and the record that a task is about to set. -/
def recordSet : Task accounts -> Option (String × Value)
  | .setting id (some v) _ => some (id, v)
  | _ => none

/-- The cells a task refers to. -/
def cellsOf : Task accounts -> List Nat
  | .saving _ _ _ _ cell => [cell]
  | .publishing cells => cells
  | .setting _ _ cells => cells
  | .adding _ cells => cells
  | _ => []

/-- Every cell a task refers to has been allocated. -/
theorem lt_of_mem_cellsOf {Q : AccountState -> Prop}
    {P : String -> Option Value -> Prop} {m : Roster accounts}
    {t : Task accounts} (ht : t.Carries Q P m) {p : Nat} (hp : p ∈ cellsOf t) :
    p < m.memory.fresh := by
  cases t with
  | saving e now before after cell =>
      have hpc : p = cell := List.mem_singleton.mp hp
      rw [hpc]
      exact ht.right
  | publishing cells =>
      exact ht p hp
  | setting id payload cells =>
      exact ht.right p hp
  | adding id cells =>
      exact ht p hp
  | _ =>
      cases hp

/-- A promise outlasts changes that make the records of its cells newer. -/
theorem Promises.mono {m m' : Roster accounts} {id : String} {stamp : I64}
    {t : Task accounts} (h : Promises m id stamp t)
    (hcells : forall p, p ∈ cellsOf t ->
      (m'.memory.cells p).id = (m.memory.cells p).id ∧
        (m.memory.cells p).updatedAt ≤ (m'.memory.cells p).updatedAt) :
    Promises m' id stamp t := by
  have hmove : forall p, p ∈ cellsOf t -> (m.memory.cells p).id = id ->
      stamp ≤ (m.memory.cells p).updatedAt ->
      (m'.memory.cells p).id = id ∧ stamp ≤ (m'.memory.cells p).updatedAt := by
    intro p hp hid hstamp
    have hcell := hcells p hp
    exact ⟨hcell.left.trans hid, le_trans hstamp hcell.right⟩
  cases t with
  | saving e now before after cell =>
      exact hmove cell (by simp [cellsOf]) h.left h.right
  | publishing cells =>
      rcases h with ⟨p, hp, hid, hstamp⟩
      exact ⟨p, hp, hmove p hp hid hstamp⟩
  | setting id' payload cells =>
      rcases h with hpayload | ⟨p, hp, hid, hstamp⟩
      · exact Or.inl hpayload
      · exact Or.inr ⟨p, hp, hmove p hp hid hstamp⟩
  | adding id' cells =>
      rcases h with ⟨p, hp, hid, hstamp⟩
      exact ⟨p, hp, hmove p hp hid hstamp⟩
  | _ =>
      exact False.elim h

/-- A mutation starts a task that promises its record. -/
theorem promises_edited {m m' : Roster accounts} {id : String}
    {e : AccountEdit} {now : I64} {r r' : AccountState} {cell : Nat}
    {t : Task accounts} (h : m.Edited m' id e now r r' cell t) {stamp : I64}
    (hstamp : stamp ≤ r'.updatedAt) : Promises m' id stamp t := by
  have hcell : m'.memory.cells cell = r' := h.cell_eq
  have hedit : e.apply now r = some r' := h.edit
  have hid : (m'.memory.cells cell).id = id := by
    rw [hcell, (AccountEdit.apply_stamps hedit).left]
    exact Roster.idOf_lookup h.before
  have hle : stamp ≤ (m'.memory.cells cell).updatedAt := by
    rw [hcell]
    exact hstamp
  rcases h.task with ht | ht
  · rw [ht]
    exact ⟨hid, hle⟩
  · rw [ht]
    exact ⟨cell, by simp, hid, hle⟩

/-- A promise is kept, or it is passed on to the next task. -/
theorem promises_advance {t : Task accounts} {clock : String -> I64}
    {m : Roster accounts} {shelf : Shelf accounts} {o : Outcome accounts}
    {id : String} {stamp : I64} (h : Promises m id stamp t)
    (hadvance : t.advance clock m shelf = some o) :
    (exists v, o.shelf.record id = some (some v) ∧
      stamp ≤ RemoteAccount.updatedAt v) ∨
    exists t', o.task = some t' ∧ Promises o.roster id stamp t' := by
  have hrest : forall cells,
      (exists p, p ∈ cells ∧ (m.memory.cells p).id = id ∧
        stamp ≤ (m.memory.cells p).updatedAt) ->
      exists t', Task.publishRest (C := accounts) cells = some t' ∧
        Promises m id stamp t' := by
    intro cells hcells
    rcases hcells with ⟨p, hp, hcell⟩
    exact ⟨_, Task.publishRest_eq_some.mpr ⟨List.ne_nil_of_mem hp, rfl⟩, p, hp,
      hcell⟩
  cases t with
  | saving e now before after cell =>
      cases hadvance
      exact Or.inr ⟨_, rfl, cell, by simp, h⟩
  | publishing cells =>
      rcases h with ⟨p, hp, hid, hstamp⟩
      cases cells with
      | nil =>
          cases hp
      | cons q cells =>
          cases hadvance
          refine Or.inr ⟨_, rfl, ?_⟩
          rcases List.mem_cons.mp hp with hpq | hp
          · subst hpq
            refine Or.inl ⟨hid, _, rfl, ?_⟩
            rw [RemoteAccount.updatedAt_accountToJson]
            exact hstamp
          · exact Or.inr ⟨p, hp, hid, hstamp⟩
  | setting id' payload cells =>
      cases hadvance
      rcases h with ⟨hid, v, hv, hstamp⟩ | hcells
      · refine Or.inl ⟨v, ?_, hstamp⟩
        dsimp only
        rw [Shelf.set_record, if_pos hid.symm, hv]
      · exact Or.inr ⟨_, rfl, hcells⟩
  | adding id' cells =>
      cases hadvance
      exact Or.inr (hrest cells h)
  | _ =>
      exact False.elim h

/-- Neither a removal nor the start of a new account. -/
def Synchronises : Task accounts -> Prop
  | .joining _ => False
  | .deletingRow _ => False
  | .deletingRecord _ => False
  | .leavingIndex _ => False
  | _ => True

theorem synchronises_advance {t : Task accounts} {clock : String -> I64}
    {m : Roster accounts} {shelf : Shelf accounts} {o : Outcome accounts}
    (ht : Synchronises t) (h : t.advance clock m shelf = some o) :
    forall t', o.task = some t' -> Synchronises t' := by
  intro t' ht'
  cases t with
  | publishing cells =>
      cases cells <;> cases h <;> cases ht'
      trivial
  | adding id cells =>
      cases h
      rw [(Task.publishRest_eq_some.mp ht').right]
      trivial
  | fetched entries =>
      cases h
      rw [(Task.publishRest_eq_some.mp ht').right]
      trivial
  | saving e now before after cell =>
      cases h
      cases ht'
      trivial
  | setting id payload cells =>
      cases h
      cases ht'
      trivial
  | indexed ids =>
      cases h
      cases ht'
      trivial
  | _ =>
      exact False.elim ht

/-!
## Timestamps only grow
-/

/-- The account stays, as the same record or a newer one. -/
def Newer (id : String) (m m' : Roster accounts) : Prop :=
  forall r, m.lookup id = some r ->
    exists r', m'.lookup id = some r' ∧ r.updatedAt ≤ r'.updatedAt

theorem Newer.refl (id : String) (m : Roster accounts) : Newer id m m :=
  fun r hr => ⟨r, hr, le_refl _⟩

/-- The record in an entry is taken over, or it is not newer. -/
theorem newer_mergeOne (clock : String -> I64) (m : Roster accounts)
    (entry : String × Option (Option Value)) (id : String) :
    Newer id m (m.mergeOne clock entry) ∧
      forall v, entry = (id, some (some v)) ->
        forall r, m.lookup id = some r ->
          exists r', (m.mergeOne clock entry).lookup id = some r' ∧
            RemoteAccount.updatedAt v ≤ r'.updatedAt := by
  rcases entry with ⟨id', payload⟩
  have hmerged : forall r text, m.lookup id = some r ->
      id = id' -> payload = some text ->
      (m.mergeOne clock (id', payload)).lookup id =
        some ((accounts.adopt r text).getD r) := by
    intro r text hr hid hpayload
    rw [Roster.lookup_mergeOne, if_pos hid, hr, hpayload]
    rfl
  constructor
  · intro r hr
    by_cases hid : id = id'
    · cases hpayload : payload with
      | none =>
          rw [← hpayload, Roster.lookup_mergeOne, if_pos hid, hr, hpayload]
          exact ⟨r, rfl, le_refl _⟩
      | some text =>
          rw [← hpayload, hmerged r text hr hid hpayload]
          refine ⟨_, rfl, ?_⟩
          cases hadopt : accounts.adopt r text with
          | none =>
              exact le_refl _
          | some r' =>
              rcases Option.bind_eq_some_iff.mp hadopt with ⟨v, _, hv⟩
              have hspec := RemoteAccount.adopt_spec hv
              have hstamp := congrArg Shared.updatedAt hspec.right.right
              exact le_of_lt (lt_of_lt_of_eq hspec.left hstamp.symm)
    · rw [Roster.lookup_mergeOne, if_neg hid]
      exact ⟨r, hr, le_refl _⟩
  · intro v hentry r hr
    cases hentry
    rw [hmerged r (some v) hr rfl rfl]
    refine ⟨_, rfl, ?_⟩
    cases hadopt : accounts.adopt r (some v) with
    | none =>
        exact RemoteAccount.adopt_eq_none.mp hadopt
    | some r' =>
        have hspec := RemoteAccount.adopt_spec hadopt
        exact le_of_eq (congrArg Shared.updatedAt hspec.right.right).symm

theorem newer_mergeAll (clock : String -> I64) (m : Roster accounts)
    (entries : List (String × Option (Option Value))) (id : String) :
    Newer id m (m.mergeAll clock entries) := by
  refine Roster.mergeAll_induction (C := accounts) (motive := Newer id m)
    (Newer.refl id m) ?_
  intro m' entry hm' _ r hr
  rcases hm' r hr with ⟨r', hr', hle⟩
  rcases (newer_mergeOne clock m' entry id).left r' hr' with
    ⟨r'', hr'', hle'⟩
  exact ⟨r'', hr'', le_trans hle hle'⟩

/-- After a merge a known account is at least as new as what was read. -/
theorem read_mergeAll (clock : String -> I64) {m : Roster accounts}
    {entries : List (String × Option (Option Value))} {id : String} {v : Value}
    (hentry : (id, some (some v)) ∈ entries) {r : AccountState}
    (hr : m.lookup id = some r) :
    exists r', (m.mergeAll clock entries).lookup id = some r' ∧
      RemoteAccount.updatedAt v ≤ r'.updatedAt := by
  induction entries generalizing m r with
  | nil =>
      cases hentry
  | cons entry rest ih =>
      rw [Roster.mergeAll_cons]
      have hone := newer_mergeOne clock m entry id
      rcases List.mem_cons.mp hentry with heq | hrest
      · rcases hone.right v heq.symm r hr with ⟨r', hr', hle⟩
        rcases newer_mergeAll clock _ rest id r' hr' with ⟨r'', hr'', hle'⟩
        exact ⟨r'', hr'', le_trans hle hle'⟩
      · rcases hone.left r hr with ⟨r', hr', _⟩
        exact ih hrest hr'

/-- Resuming a task makes records newer and leaves the cells as they are. -/
theorem newer_advance {t : Task accounts} {clock : String -> I64}
    {m : Roster accounts} {shelf : Shelf accounts} {o : Outcome accounts}
    (ht : Synchronises t) (h : t.advance clock m shelf = some o) :
    (forall id, Newer id m o.roster) ∧ forall p, p < m.memory.fresh ->
      o.roster.memory.cells p = m.memory.cells p := by
  cases t with
  | fetched entries =>
      cases h
      exact ⟨newer_mergeAll clock m entries,
        fun p hp => Roster.cells_mergeAll (C := accounts) rfl hp⟩
  | publishing cells =>
      cases cells <;> cases h <;>
        exact ⟨fun id => Newer.refl id m, fun _ _ => rfl⟩
  | joining r =>
      exact False.elim ht
  | _ =>
      cases h
      exact ⟨fun id => Newer.refl id m, fun _ _ => rfl⟩

/-- Redis keeps its index. -/
theorem index_advance {t : Task accounts} {clock : String -> I64}
    {m : Roster accounts} {shelf : Shelf accounts} {o : Outcome accounts}
    (ht : Synchronises t) (h : t.advance clock m shelf = some o) {id : String}
    (hid : id ∈ shelf.index) : id ∈ o.shelf.index := by
  cases t with
  | adding id' cells =>
      cases h
      exact Shelf.mem_sadd_index.mpr (Or.inl hid)
  | publishing cells =>
      cases cells <;> cases h <;> exact hid
  | setting id' payload cells =>
      cases h
      exact hid
  | saving e now before after cell =>
      cases h
      exact hid
  | indexed ids =>
      cases h
      exact hid
  | fetched entries =>
      cases h
      exact hid
  | _ =>
      exact False.elim ht

/-- A record in Redis stays, unless the task sets it. -/
theorem record_advance {t : Task accounts} {clock : String -> I64}
    {m : Roster accounts} {shelf : Shelf accounts} {o : Outcome accounts}
    (ht : Synchronises t) (h : t.advance clock m shelf = some o) (id : String) :
    o.shelf.record id = shelf.record id ∨
      exists payload cells, t = .setting id payload cells ∧
        o.shelf.record id = some payload := by
  cases t with
  | setting id' payload cells =>
      cases h
      dsimp only
      rw [Shelf.set_record]
      by_cases hid : id = id'
      · subst hid
        rw [if_pos rfl]
        exact Or.inr ⟨payload, cells, rfl, rfl⟩
      · rw [if_neg hid]
        exact Or.inl rfl
  | publishing cells =>
      cases cells <;> cases h <;> exact Or.inl rfl
  | adding id' cells =>
      cases h
      exact Or.inl (congrFun (Shelf.sadd_record _ _) id)
  | saving e now before after cell =>
      cases h
      exact Or.inl rfl
  | indexed ids =>
      cases h
      exact Or.inl rfl
  | fetched entries =>
      cases h
      exact Or.inl rfl
  | _ =>
      exact False.elim ht

/-!
## Steps of a fleet
-/

section Steps

variable {Host : Type} [DecidableEq Host] {s s' : Fleet Host accounts}
  {a : Action Host accounts}

/-- Mutations and merges start no removal and no new account. -/
theorem synchronises_step
    (hs : forall h k t, (s.hosts h).tasks k = some t -> Synchronises t)
    (ha : a.IsSynchronising) (hstep : s.step a = some s') :
    forall h k t, (s'.hosts h).tasks k = some t -> Synchronises t := by
  intro h' k' t' ht'
  cases a with
  | edit h k id e now =>
      rcases step_edit.mp hstep with ⟨_, heq⟩
      rw [heq] at ht'
      rcases task_put_cases ht' with ⟨_, _, hnew⟩ | ⟨_, hold⟩
      · rcases (s.hosts h).roster.startEdit_cases id e now with
          hsame | ⟨r, r', cell, t, hstarted, hedited⟩
        · rw [hsame] at hnew
          cases hnew
        · rw [hstarted] at hnew
          cases hnew
          rcases hedited.task with ht | ht
          · rw [ht]
            trivial
          · rw [ht]
            trivial
      · exact hs h' k' t' hold
  | merge h k =>
      rcases step_merge.mp hstep with ⟨_, heq⟩
      rw [heq] at ht'
      rcases task_put_cases ht' with ⟨_, _, hnew⟩ | ⟨_, hold⟩
      · unfold Shelf.startMerge at hnew
        split at hnew
        · cases hnew
        · cases hnew
          trivial
      · exact hs h' k' t' hold
  | advance h k clock =>
      rcases step_advance.mp hstep with ⟨t, o, htask, hadvance, heq⟩
      rw [heq] at ht'
      rcases task_put_cases ht' with ⟨_, _, hnew⟩ | ⟨_, hold⟩
      · exact synchronises_advance (hs h k t htask) hadvance t' hnew
      · exact hs h' k' t' hold
  | _ =>
      exact False.elim ha

/-- An id stays in the index. -/
theorem index_step
    (hs : forall h k t, (s.hosts h).tasks k = some t -> Synchronises t)
    (ha : a.IsSynchronising) (hstep : s.step a = some s') {id : String}
    (hid : id ∈ s.shelf.index) : id ∈ s'.shelf.index := by
  cases a with
  | edit h k id' e now =>
      rw [(step_edit.mp hstep).right]
      exact hid
  | merge h k =>
      rw [(step_merge.mp hstep).right]
      exact hid
  | advance h k clock =>
      rcases step_advance.mp hstep with ⟨t, o, htask, hadvance, heq⟩
      rw [heq]
      exact index_advance (hs h k t htask) hadvance hid
  | _ =>
      exact False.elim ha

/-- An account stays known; its timestamp grows, or it is the clock reading of
the step. -/
theorem lookup_step
    (hs : forall h k t, (s.hosts h).tasks k = some t -> Synchronises t)
    (ha : a.IsSynchronising) (hstep : s.step a = some s') {h : Host}
    {id : String} {r : AccountState}
    (hr : (s.hosts h).roster.lookup id = some r) :
    exists r', (s'.hosts h).roster.lookup id = some r' ∧
      (r.updatedAt ≤ r'.updatedAt ∨ a.reading? = some r'.updatedAt) := by
  have hput : forall {h' k m shelf task},
      s' = s.put h' k m shelf task ->
      (forall r, (s.hosts h').roster.lookup id = some r ->
        exists r', m.lookup id = some r' ∧
          (r.updatedAt ≤ r'.updatedAt ∨ a.reading? = some r'.updatedAt)) ->
      exists r', (s'.hosts h).roster.lookup id = some r' ∧
        (r.updatedAt ≤ r'.updatedAt ∨ a.reading? = some r'.updatedAt) := by
    intro h' k m shelf task heq hm
    rw [heq, put_roster]
    split
    · rename_i hh
      subst hh
      exact hm r hr
    · exact ⟨r, hr, Or.inl (le_refl _)⟩
  cases a with
  | edit h' k id' e now =>
      rcases step_edit.mp hstep with ⟨_, heq⟩
      refine hput heq ?_
      intro r₁ hr₁
      rcases (s.hosts h').roster.startEdit_cases id' e now with
        hsame | ⟨r, r', cell, t, _, hedited⟩
      · rw [hsame]
        exact ⟨r₁, hr₁, Or.inl (le_refl _)⟩
      · rw [hedited.after]
        split
        · have hstamps := AccountEdit.apply_stamps hedited.edit
          exact ⟨r', rfl, Or.inr (congrArg some hstamps.right.symm)⟩
        · exact ⟨r₁, hr₁, Or.inl (le_refl _)⟩
  | merge h' k =>
      rcases step_merge.mp hstep with ⟨_, heq⟩
      exact hput heq fun r₁ hr₁ => ⟨r₁, hr₁, Or.inl (le_refl _)⟩
  | advance h' k clock =>
      rcases step_advance.mp hstep with ⟨t, o, htask, hadvance, heq⟩
      refine hput heq ?_
      intro r₁ hr₁
      rcases (newer_advance (hs h' k t htask) hadvance).left id r₁ hr₁ with
        ⟨r', hr', hle⟩
      exact ⟨r', hr', Or.inl hle⟩
  | _ =>
      exact False.elim ha

end Steps

end Fleet

end HifiApi
