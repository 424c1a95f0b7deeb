import HifiApi.Accounts.FullChecks
import HifiApi.Accounts.Shared
import HifiApi.Fleet.Protocol

/-!
# Roster operations and failing statements

Adding and removing an account, its catalog flag, and the check that sets the
flag, when any SQLite statement may fail.  None of them is one transaction: two
change memory before their statement, and one needs two statements.
-/

namespace HifiApi

/-- The statements of the roster operations. -/
inductive RosterStatement where
  | insertAccount
  | insertMetrics
  | deleteAccount
  | updateCatalog
  | updateStreak
  deriving DecidableEq

/-- The roster of an instance, and the accounts that have a row in
{lit}`account_metrics`. -/
structure AccountStore where
  roster : Roster accounts
  metrics : List String

/-- What the operations answer with. -/
inductive RosterAnswer where
  | added
  | removed
  | flagged
  | counted (moved : Bool)
  deriving DecidableEq

/-- A failed statement, as it is passed on. -/
def databaseError : AppError := .internal "Database error"

namespace AccountStore

/-- Write into a cell, for the roster and every other holder. -/
def write (s : AccountStore) (p : Nat) (f : AccountState -> AccountState)
    (hid : forall a, (f a).id = a.id) : AccountStore :=
  { s with
    roster :=
      { s.roster with
        memory := s.roster.memory.write p (f (s.roster.memory.cells p)) (hid _) } }

/-- Change the row of an account. -/
def saveRow (s : AccountStore) (id : String) (f : AccountRow -> AccountRow)
    (hid : forall w, (f w).id = w.id) : AccountStore :=
  { s with
    roster := { s.roster with table := s.roster.table.update id f hid } }

/-- {lit}`add_account`, with the fresh id the call draws. -/
def addAccount (fails : RosterStatement -> Bool) (d : NewAccount) (now : I64)
    (s : AccountStore) : AccountStore × Except AppError RosterAnswer :=
  let a := d.record now
  if fails .insertAccount = true ∨ (s.roster.table.lookup a.id).isSome = true then
    (s, .error databaseError)
  else
    let table := s.roster.table.insertUnless accounts.conflicts
      accounts.conflicts_of_rowId (AccountRow.ofAccount a)
    if fails .insertMetrics = true ∨ a.id ∈ s.metrics then
      ({ s with roster := { s.roster with table := table } },
        .error databaseError)
    else
      ({ roster :=
          { memory :=
              if h : a.id ∉ s.roster.memory.keys then s.roster.memory.insert a h
              else s.roster.memory
            table := table }
         metrics := s.metrics ++ [a.id] },
        .ok .added)

/-- {lit}`remove_account`; the rows of the account go with its row. -/
def removeAccount (fails : RosterStatement -> Bool) (id : String)
    (s : AccountStore) : AccountStore × Except AppError RosterAnswer :=
  let memory := s.roster.memory.retain id
  if fails .deleteAccount = true then
    ({ s with roster := { s.roster with memory := memory } },
      .error databaseError)
  else
    ({ roster := { memory := memory, table := s.roster.table.delete id }
       metrics := s.metrics.filter fun k => decide (k ≠ id) },
      .ok .removed)

theorem setAccountCatalog_id (catalog : Bool) (now : I64) (a : AccountState) :
    (a.setAccountCatalog catalog now).id = a.id := rfl

/-- The flag in memory. -/
def storeCatalog (p : Nat) (catalog : Bool) (now : I64) (s : AccountStore) :
    AccountStore :=
  s.write p (AccountState.setAccountCatalog catalog now)
    (setAccountCatalog_id catalog now)

/-- The flag in SQLite. -/
def saveCatalog (p : Nat) (catalog : Bool) (now : I64) (s : AccountStore) :
    AccountStore :=
  let a := s.roster.memory.cells p
  s.saveRow a.id (AccountEdit.save (.setAccountCatalog catalog) now a a)
    (AccountEdit.save_id _ now a a)

/-- {lit}`set_account_catalog` -/
def setAccountCatalog (fails : RosterStatement -> Bool) (id : String)
    (catalog : Bool) (now : I64) (s : AccountStore) :
    AccountStore × Except AppError RosterAnswer :=
  match s.roster.memory.find? id with
  | none => (s, .error (.notFound s!"Account {id} not found"))
  | some p =>
      let s := s.storeCatalog p catalog now
      if fails .updateCatalog = true then (s, .error databaseError)
      else (s.saveCatalog p catalog now, .ok .flagged)

/-- {lit}`save_preview_streak`; a failure is only logged. -/
def savePreviewStreak (fails : RosterStatement -> Bool) (p : Nat)
    (s : AccountStore) : AccountStore :=
  if fails .updateStreak = true then s
  else
    let a := s.roster.memory.cells p
    s.saveRow a.id (fun row => { row with previewStreak := a.previewStreak })
      fun _ => rfl

/-- {lit}`note_preview_check` on the account behind a pointer. -/
def notePreviewCheck (fails : RosterStatement -> Bool) (p : Nat) (now : I64)
    (s : AccountStore) : AccountStore × Except AppError RosterAnswer :=
  let streak := (s.roster.memory.cells p).previewStreak + 1
  let s := s.write p AccountState.countPreview countPreview_id
  if streak < previewChecksBeforeCatalog then
    (s.savePreviewStreak fails p, .ok (.counted false))
  else
    match s.setAccountCatalog fails (s.roster.memory.cells p).id true now with
    | (s, .error e) => (s, .error e)
    | (s, .ok _) =>
        let s := s.write p AccountState.clearPreviews clearPreviews_id
        (s.savePreviewStreak fails p, .ok (.counted true))

/-!
## What is held
-/

/-- Whether memory has the account, and its catalog flag there. -/
def inMemory (s : AccountStore) (id : String) : Option Bool :=
  (s.roster.lookup id).map AccountState.isCatalog

/-- Whether SQLite has the account, and its catalog flag there. -/
def inSqlite (s : AccountStore) (id : String) : Option Bool :=
  (s.roster.table.lookup id).map fun row => row.isCatalog != 0

/-- Memory and SQLite agree on the account, both are as they were, and the next
check of the account is due when it was. -/
structure Untouched (id : String) (before after : AccountStore) : Prop where
  agree : after.inMemory id = after.inSqlite id
  memory : after.inMemory id = before.inMemory id
  sqlite : after.inSqlite id = before.inSqlite id
  due : forall (now : I64) (loopStartedAt : Int),
    (after.roster.lookup id).map (fun a => fullCheckDue a now loopStartedAt) =
      (before.roster.lookup id).map fun a => fullCheckDue a now loopStartedAt

/-- Memory and SQLite hold the same state of the account. -/
structure BothHold (id : String) (state : Option Bool) (s : AccountStore) :
    Prop where
  memory : s.inMemory id = state
  sqlite : s.inSqlite id = state

end AccountStore

/-- The roster operations. -/
inductive RosterOp where
  | addAccount (d : NewAccount)
  | removeAccount (id : String)
  | setAccountCatalog (id : String) (catalog : Bool)
  | notePreviewCheck (p : Nat)

namespace RosterOp

open AccountStore

def run (fails : RosterStatement -> Bool) (now : I64) (s : AccountStore) :
    RosterOp -> AccountStore × Except AppError RosterAnswer
  | .addAccount d => s.addAccount fails d now
  | .removeAccount id => s.removeAccount fails id
  | .setAccountCatalog id catalog => s.setAccountCatalog fails id catalog now
  | .notePreviewCheck p => s.notePreviewCheck fails p now

/-- The account an operation is about. -/
def account (s : AccountStore) : RosterOp -> String
  | .addAccount d => d.id
  | .removeAccount id => id
  | .setAccountCatalog id _ => id
  | .notePreviewCheck p => (s.roster.memory.cells p).id

/-- The state an operation answered with {lit}`Ok` is to leave. -/
def target (s : AccountStore) (op : RosterOp) (answer : RosterAnswer) :
    Option Bool :=
  match op, answer with
  | .addAccount _, _ => some false
  | .removeAccount _, _ => none
  | .setAccountCatalog _ catalog, _ => some catalog
  | .notePreviewCheck _, .counted true => some true
  | .notePreviewCheck p, _ => s.inMemory (s.roster.memory.cells p).id

/-- An operation that fails changes nothing, one that succeeds changes both
sides. -/
def AllOrNothing (s : AccountStore) (op : RosterOp)
    (after : AccountStore × Except AppError RosterAnswer) : Prop :=
  match after.2 with
  | .error _ => Untouched (op.account s) s after.1
  | .ok answer => BothHold (op.account s) (op.target s answer) after.1

/-- The id a new account draws is not in use. -/
def Fresh (s : AccountStore) : RosterOp -> Prop
  | .addAccount d =>
      d.id ∉ s.roster.memory.keys ∧ s.roster.table.lookup d.id = none ∧
        d.id ∉ s.metrics
  | _ => True

/-- When setting the flag of an account to a value leaves both sides in step. -/
def FlagStored (fails : RosterStatement -> Bool) (id : String) (catalog : Bool)
    (s : AccountStore) : Prop :=
  match s.inMemory id with
  | none => s.inSqlite id = none
  | some old =>
      if fails .updateCatalog = true then
        old = catalog ∧ s.inSqlite id = some catalog
      else (s.inSqlite id).isSome = true

/-- No statement fails once something has been changed, and the row a statement
writes to is there. -/
def Unhindered (fails : RosterStatement -> Bool) (s : AccountStore) :
    RosterOp -> Prop
  | .addAccount _ => fails .insertAccount = true ∨ fails .insertMetrics = false
  | .removeAccount id =>
      fails .deleteAccount = true -> s.inMemory id = none ∧ s.inSqlite id = none
  | .setAccountCatalog id catalog => FlagStored fails id catalog s
  | .notePreviewCheck p =>
      let a := s.roster.memory.cells p
      if a.previewStreak + 1 < previewChecksBeforeCatalog then
        s.inMemory a.id = s.inSqlite a.id
      else FlagStored fails a.id true s

end RosterOp

/-!
## What the parts of an operation change
-/

namespace AccountStore

variable {fails : RosterStatement -> Bool} {now : I64} {s : AccountStore}
  {id : String}

theorem cells_write {p q : Nat} {f : AccountState -> AccountState}
    {hid : forall a, (f a).id = a.id} :
    (s.write p f hid).roster.memory.cells q =
      if q = p then f (s.roster.memory.cells p) else s.roster.memory.cells q :=
  Arena.cells_write _ _ _ (hid _) q

theorem lookup_write {p : Nat} {f : AccountState -> AccountState}
    {hid : forall a, (f a).id = a.id} :
    (s.write p f hid).roster.lookup id =
      (s.roster.memory.find? id).map fun q =>
        if q = p then f (s.roster.memory.cells p) else s.roster.memory.cells q := by
  show (s.roster.memory.write p (f (s.roster.memory.cells p)) (hid _)).lookup id = _
  unfold Arena.lookup
  rw [Arena.find?_write]
  congr 1
  funext q
  exact Arena.cells_write _ _ _ (hid _) q

/-- A write that keeps a part of the record keeps that part of every record. -/
theorem map_lookup_write {β : Type} {g : AccountState -> β} {p : Nat}
    {f : AccountState -> AccountState} {hid : forall a, (f a).id = a.id}
    (hg : forall a, g (f a) = g a) :
    ((s.write p f hid).roster.lookup id).map g = (s.roster.lookup id).map g := by
  rw [lookup_write]
  show _ = Option.map g ((s.roster.memory.find? id).map s.roster.memory.cells)
  rw [Option.map_map, Option.map_map]
  congr 1
  funext q
  simp only [Function.comp_apply]
  split
  · rename_i hq
    rw [hq]
    exact hg _
  · rfl

theorem lookup_write_of_find? {p : Nat} {f : AccountState -> AccountState}
    {hid : forall a, (f a).id = a.id}
    (hfind : s.roster.memory.find? id = some p) :
    (s.write p f hid).roster.lookup id = some (f (s.roster.memory.cells p)) := by
  rw [lookup_write, hfind, Option.map_some, if_pos rfl]

theorem inSqlite_saveRow {k : String} {f : AccountRow -> AccountRow}
    {hid : forall w, (f w).id = w.id} :
    (s.saveRow k f hid).inSqlite id =
      if id = k then
        (s.roster.table.lookup id).map fun row => (f row).isCatalog != 0
      else s.inSqlite id := by
  unfold inSqlite saveRow
  dsimp only
  rw [Table.lookup_update]
  split
  · rw [Option.map_map]
    rfl
  · rfl

theorem savePreviewStreak_inSqlite (p : Nat) :
    (s.savePreviewStreak fails p).inSqlite id = s.inSqlite id := by
  unfold savePreviewStreak
  split
  · rfl
  · rw [inSqlite_saveRow]
    split <;> rfl

theorem savePreviewStreak_lookup (p : Nat) :
    (s.savePreviewStreak fails p).roster.lookup id = s.roster.lookup id := by
  unfold savePreviewStreak
  split <;> rfl

/-- What decides whether a check is due has not changed. -/
theorem due_congr {before after : AccountStore}
    (h : (after.roster.lookup id).map AccountState.checkFields =
      (before.roster.lookup id).map AccountState.checkFields)
    (now : I64) (loopStartedAt : Int) :
    (after.roster.lookup id).map (fun a => fullCheckDue a now loopStartedAt) =
      (before.roster.lookup id).map fun a => fullCheckDue a now loopStartedAt := by
  cases hafter : after.roster.lookup id with
  | none =>
      rw [hafter, Option.map_none] at h
      rw [Option.map_eq_none_iff.mp h.symm]
  | some a =>
      rw [hafter, Option.map_some] at h
      rcases Option.map_eq_some_iff.mp h.symm with ⟨b, hb, hfields⟩
      rw [hb, Option.map_some, Option.map_some,
        fullCheckDue_congr hfields.symm now loopStartedAt]

/-!
## The catalog flag
-/

theorem setAccountCatalog_of_unknown {catalog : Bool}
    (h : s.inMemory id = none) :
    s.setAccountCatalog fails id catalog now =
      (s, .error (.notFound s!"Account {id} not found")) := by
  have hfind : s.roster.memory.find? id = none := by
    apply Arena.find?_eq_none.mpr
    exact Arena.lookup_eq_none.mp (Option.map_eq_none_iff.mp h)
  unfold setAccountCatalog
  rw [hfind]

theorem setAccountCatalog_of_known (fails : RosterStatement -> Bool)
    (catalog : Bool) (now : I64) {old : Bool} (h : s.inMemory id = some old) :
    exists p, s.roster.memory.find? id = some p ∧
      (s.roster.memory.cells p).isCatalog = old ∧
      s.setAccountCatalog fails id catalog now =
        if fails .updateCatalog = true then
          (s.storeCatalog p catalog now, .error databaseError)
        else
          ((s.storeCatalog p catalog now).saveCatalog p catalog now,
            .ok .flagged) := by
  rcases Option.map_eq_some_iff.mp h with ⟨a, ha, hold⟩
  rcases Option.map_eq_some_iff.mp ha with ⟨p, hfind, hcell⟩
  refine ⟨p, hfind, ?_, ?_⟩
  · rw [hcell]
    exact hold
  · unfold setAccountCatalog
    rw [hfind]

section

variable {p : Nat}

theorem storeCatalog_inMemory (catalog : Bool) (now : I64)
    (hfind : s.roster.memory.find? id = some p) :
    (s.storeCatalog p catalog now).inMemory id = some catalog := by
  unfold inMemory storeCatalog
  rw [lookup_write_of_find? hfind]
  rfl

/-- Setting the flag to what it was changes no check. -/
theorem storeCatalog_checkFields {catalog : Bool}
    (hfind : s.roster.memory.find? id = some p)
    (hsame : (s.roster.memory.cells p).isCatalog = catalog) :
    ((s.storeCatalog p catalog now).roster.lookup id).map
        AccountState.checkFields =
      (s.roster.lookup id).map AccountState.checkFields := by
  have hlookup : s.roster.lookup id = some (s.roster.memory.cells p) :=
    Arena.lookup_of_find? hfind
  unfold storeCatalog
  rw [lookup_write_of_find? hfind, hlookup, ← hsame]
  rfl

theorem saveCatalog_inSqlite (catalog : Bool) (now : I64)
    (hfind : s.roster.memory.find? id = some p) :
    ((s.storeCatalog p catalog now).saveCatalog p catalog now).inSqlite id =
      (s.inSqlite id).map fun _ => catalog := by
  have hid : ((s.storeCatalog p catalog now).roster.memory.cells p).id = id := by
    have hkey : (s.roster.memory.cells p).id = id :=
      (Arena.find?_eq_some.mp hfind).right
    unfold storeCatalog
    rw [cells_write, if_pos rfl]
    exact hkey
  unfold saveCatalog
  dsimp only
  rw [inSqlite_saveRow, if_pos hid.symm]
  unfold inSqlite
  rw [Option.map_map]
  congr 1
  funext row
  exact flagColumn_ne_zero catalog

end

end AccountStore

/-!
## One operation
-/

namespace RosterOp

open AccountStore

variable {fails : RosterStatement -> Bool} {now : I64} {s : AccountStore}

theorem removeAccount_iff (id : String) :
    AllOrNothing s (.removeAccount id) (s.removeAccount fails id) <->
      Unhindered fails s (.removeAccount id) := by
  have hremoved : (s.roster.memory.retain id).lookup id = none := by
    rw [Arena.lookup_retain, if_pos rfl]
  by_cases hfails : fails .deleteAccount = true
  · have hrun : s.removeAccount fails id =
        ({ s with
            roster := { s.roster with memory := s.roster.memory.retain id } },
          .error databaseError) := by
      unfold AccountStore.removeAccount
      rw [if_pos hfails]
    have hmemory : (s.removeAccount fails id).1.inMemory id = none := by
      rw [hrun]
      exact congrArg (Option.map AccountState.isCatalog) hremoved
    have hsqlite : (s.removeAccount fails id).1.inSqlite id = s.inSqlite id := by
      rw [hrun]
      rfl
    have hanswer : AllOrNothing s (.removeAccount id) (s.removeAccount fails id) <->
        Untouched id s (s.removeAccount fails id).1 := by
      unfold AllOrNothing
      rw [hrun]
      rfl
    rw [hanswer]
    constructor
    · intro h _
      constructor
      · rw [← h.memory, hmemory]
      · rw [← h.sqlite, ← h.agree, hmemory]
    · intro h
      have hunknown := h hfails
      constructor
      · rw [hmemory, hsqlite, hunknown.right]
      · rw [hmemory, hunknown.left]
      · exact hsqlite
      · have hlookup : s.roster.lookup id = none :=
          Option.map_eq_none_iff.mp hunknown.left
        have hafter : (s.removeAccount fails id).1.roster.lookup id = none :=
          Option.map_eq_none_iff.mp hmemory
        intro now loopStartedAt
        rw [hlookup, hafter]
  · have hrun : s.removeAccount fails id =
        ({ roster :=
            { memory := s.roster.memory.retain id
              table := s.roster.table.delete id }
           metrics := s.metrics.filter fun k => decide (k ≠ id) },
          .ok .removed) := by
      unfold AccountStore.removeAccount
      rw [if_neg hfails]
    constructor
    · intro _ h
      exact absurd h hfails
    · intro _
      unfold AllOrNothing
      rw [hrun]
      constructor
      · exact congrArg (Option.map AccountState.isCatalog) hremoved
      · show ((s.roster.table.delete id).lookup id).map _ = none
        rw [Table.lookup_delete, if_pos rfl]
        rfl

/-- What setting the flag of an account must leave, for the store before. -/
def FlagKept (s : AccountStore) (id : String) (catalog : Bool)
    (after : AccountStore × Except AppError RosterAnswer) : Prop :=
  match after.2 with
  | .error _ => Untouched id s after.1
  | .ok _ => BothHold id (some catalog) after.1

theorem flagKept_iff (now : I64) (id : String) (catalog : Bool) :
    FlagKept s id catalog (s.setAccountCatalog fails id catalog now) <->
      FlagStored fails id catalog s := by
  unfold FlagStored
  cases hknown : s.inMemory id with
  | none =>
      unfold FlagKept
      rw [setAccountCatalog_of_unknown hknown]
      dsimp only
      constructor
      · intro h
        rw [← h.agree, hknown]
      · intro h
        constructor
        · rw [hknown, h]
        · rfl
        · rfl
        · intro _ _
          rfl
  | some old =>
      rcases setAccountCatalog_of_known fails catalog now hknown with
        ⟨p, hfind, hold, hrun⟩
      have hmemory := storeCatalog_inMemory catalog now hfind
      unfold FlagKept
      rw [hrun]
      dsimp only
      by_cases hfails : fails .updateCatalog = true
      · rw [if_pos hfails, if_pos hfails]
        dsimp only
        constructor
        · intro h
          have hsame : some old = some catalog := by
            rw [← hknown, ← h.memory, hmemory]
          constructor
          · exact Option.some.inj hsame
          · rw [← h.sqlite, ← h.agree, hmemory]
        · intro h
          constructor
          · exact hmemory.trans h.right.symm
          · rw [hmemory, hknown, h.left]
          · rfl
          · apply due_congr
            exact storeCatalog_checkFields hfind (hold.trans h.left)
      · rw [if_neg hfails, if_neg hfails]
        dsimp only
        have hsqlite := saveCatalog_inSqlite catalog now hfind
        constructor
        · intro h
          have hheld := h.sqlite
          rw [hsqlite] at hheld
          rcases Option.map_eq_some_iff.mp hheld with ⟨flag, hflag, _⟩
          rw [hflag]
          rfl
        · intro h
          constructor
          · exact hmemory
          · rw [hsqlite]
            rcases Option.isSome_iff_exists.mp h with ⟨flag, hflag⟩
            rw [hflag]
            rfl

/-- The row of a new account, whose id is not in use. -/
theorem inserted_inSqlite {d : NewAccount} (now : I64)
    (hrow : s.roster.table.lookup d.id = none) :
    ((s.roster.table.insertUnless accounts.conflicts accounts.conflicts_of_rowId
      (AccountRow.ofAccount (d.record now))).lookup d.id).map
        (fun row => row.isCatalog != 0) = some false := by
  have hfree : forall w, w ∈ s.roster.table.rows ->
      accounts.conflicts (AccountRow.ofAccount (d.record now)) w = false := by
    intro w hw
    apply decide_eq_false
    intro hid
    exact Table.lookup_eq_none.mp hrow w hw hid.symm
  have hinserted := Table.lookup_insertUnless_of_free s.roster.table
    accounts.conflicts_of_rowId hfree
  rw [show accounts.rowId (AccountRow.ofAccount (d.record now)) = d.id from rfl]
    at hinserted
  rw [hinserted]
  rfl

/-- A failing first statement changes nothing, a failing second one leaves the
row of an account that memory does not have. -/
theorem addAccount_iff (d : NewAccount) (hfresh : Fresh s (.addAccount d)) :
    AllOrNothing s (.addAccount d) (s.addAccount fails d now) <->
      Unhindered fails s (.addAccount d) := by
  rcases hfresh with ⟨hmemory, hrow, hmetrics⟩
  have hunknown : s.inMemory d.id = none := by
    unfold inMemory
    rw [show s.roster.lookup d.id = none from Arena.lookup_eq_none.mpr hmemory]
    rfl
  have hunsaved : s.inSqlite d.id = none := by
    unfold inSqlite
    rw [hrow]
    rfl
  have hinserted := inserted_inSqlite now hrow
  have hnew : ¬ (s.roster.table.lookup (d.record now).id).isSome = true := by
    rw [show (d.record now).id = d.id from rfl, hrow]
    exact Bool.false_ne_true
  have hcounted : (d.record now).id ∉ s.metrics := hmetrics
  have hjoins : (d.record now).id ∉ s.roster.memory.keys := hmemory
  unfold AllOrNothing AccountStore.addAccount
  dsimp only
  by_cases haccount : fails .insertAccount = true
  · rw [if_pos (Or.inl haccount)]
    refine iff_of_true ?_ (Or.inl haccount)
    constructor
    · exact hunknown.trans hunsaved.symm
    · rfl
    · rfl
    · intro _ _
      rfl
  · rw [if_neg (not_or.mpr ⟨haccount, hnew⟩)]
    by_cases hmetric : fails .insertMetrics = true
    · rw [if_pos (Or.inl hmetric)]
      have hhindered : ¬ Unhindered fails s (.addAccount d) := by
        intro h
        rcases h with h | h
        · exact haccount h
        · rw [hmetric] at h
          cases h
      refine iff_of_false ?_ hhindered
      intro h
      cases hinserted.symm.trans (h.sqlite.trans hunsaved)
    · rw [if_neg (not_or.mpr ⟨hmetric, hcounted⟩)]
      refine iff_of_true ?_ (Or.inr (Bool.eq_false_of_not_eq_true hmetric))
      constructor
      · show (Arena.lookup (dite _ _ _) d.id).map AccountState.isCatalog = some false
        rw [dif_pos hjoins, Arena.lookup_insert,
          if_pos (show (d.record now).id = d.id from rfl)]
        rfl
      · exact hinserted

/-!
## A check counted
-/

/-- The two stores hold the same of an account, as far as its flag and its
checks go. -/
structure SameAccount (id : String) (s s' : AccountStore) : Prop where
  fields : (s'.roster.lookup id).map AccountState.checkFields =
    (s.roster.lookup id).map AccountState.checkFields
  sqlite : s'.inSqlite id = s.inSqlite id

theorem SameAccount.memory {id : String} {s s' : AccountStore}
    (h : SameAccount id s s') : s'.inMemory id = s.inMemory id := by
  have hflag : forall t : AccountStore, t.inMemory id =
      ((t.roster.lookup id).map AccountState.checkFields).map
        fun fields => fields.2.2.1 := by
    intro t
    rw [Option.map_map]
    rfl
  rw [hflag s', hflag s, h.fields]

theorem SameAccount.untouched {id : String} {s s' after : AccountStore}
    (h : SameAccount id s s') :
    Untouched id s' after <-> Untouched id s after := by
  have hdue := due_congr h.fields
  constructor
  · intro hafter
    constructor
    · exact hafter.agree
    · exact hafter.memory.trans h.memory
    · exact hafter.sqlite.trans h.sqlite
    · exact fun now started => (hafter.due now started).trans (hdue now started)
  · intro hafter
    constructor
    · exact hafter.agree
    · exact hafter.memory.trans h.memory.symm
    · exact hafter.sqlite.trans h.sqlite.symm
    · exact fun now started =>
        (hafter.due now started).trans (hdue now started).symm

/-- Writing the streak of an account changes neither its flag nor its checks. -/
theorem sameAccount_write (id : String) (p : Nat) (f : AccountState -> AccountState)
    (hid : forall a, (f a).id = a.id)
    (hfields : forall a, (f a).checkFields = a.checkFields) :
    SameAccount id s (s.write p f hid) where
  fields := map_lookup_write hfields
  sqlite := rfl

theorem sameAccount_save (fails : RosterStatement -> Bool) (id : String)
    (p : Nat) :
    SameAccount id s (s.savePreviewStreak fails p) where
  fields := by rw [savePreviewStreak_lookup]
  sqlite := savePreviewStreak_inSqlite p

theorem SameAccount.trans {id : String} {s s' s'' : AccountStore}
    (h : SameAccount id s s') (h' : SameAccount id s' s'') :
    SameAccount id s s'' where
  fields := h'.fields.trans h.fields
  sqlite := h'.sqlite.trans h.sqlite

theorem SameAccount.bothHold {id : String} {s s' : AccountStore}
    (h : SameAccount id s s') (state : Option Bool) :
    BothHold id state s' <-> BothHold id state s := by
  constructor
  · intro hheld
    exact ⟨h.memory.symm.trans hheld.memory, h.sqlite.symm.trans hheld.sqlite⟩
  · intro hheld
    exact ⟨h.memory.trans hheld.memory, h.sqlite.trans hheld.sqlite⟩

theorem SameAccount.flagStored {id : String} {s s' : AccountStore}
    (h : SameAccount id s s') (catalog : Bool) :
    FlagStored fails id catalog s' <-> FlagStored fails id catalog s := by
  unfold FlagStored
  rw [h.memory, h.sqlite]

theorem notePreviewCheck_iff (p : Nat) :
    AllOrNothing s (.notePreviewCheck p) (s.notePreviewCheck fails p now) <->
      Unhindered fails s (.notePreviewCheck p) := by
  have hcount : SameAccount (s.roster.memory.cells p).id s
      (s.write p AccountState.countPreview countPreview_id) :=
    sameAccount_write _ _ _ _ fun _ => rfl
  have hid : ((s.write p AccountState.countPreview
      countPreview_id).roster.memory.cells p).id = (s.roster.memory.cells p).id := by
    rw [cells_write, if_pos rfl]
    rfl
  unfold Unhindered AccountStore.notePreviewCheck
  dsimp only
  rw [hid]
  by_cases hfew :
      (s.roster.memory.cells p).previewStreak + 1 < previewChecksBeforeCatalog
  · rw [if_pos hfew, if_pos hfew]
    have hafter := hcount.trans (sameAccount_save fails _ p)
    refine Iff.trans (hafter.bothHold (s.inMemory _)) ?_
    constructor
    · intro h
      exact h.sqlite.symm
    · intro h
      exact ⟨rfl, h.symm⟩
  · rw [if_neg hfew, if_neg hfew, ← hcount.flagStored true,
      ← flagKept_iff now]
    rcases hrun : (s.write p AccountState.countPreview
      countPreview_id).setAccountCatalog fails (s.roster.memory.cells p).id true
      now with ⟨after, answer⟩
    cases answer with
    | error e => exact hcount.untouched.symm
    | ok answer =>
        have hcleared : SameAccount (s.roster.memory.cells p).id after
            (after.write p AccountState.clearPreviews clearPreviews_id) :=
          sameAccount_write _ _ _ _ fun _ => rfl
        have hafter := hcleared.trans (sameAccount_save fails _ p)
        exact hafter.bothHold (some true)

/-- An operation is all or nothing exactly when no statement fails after it has
changed something and the rows it writes to are there. -/
theorem allOrNothing_iff (op : RosterOp) (fails : RosterStatement -> Bool)
    (now : I64) (s : AccountStore) (hfresh : op.Fresh s) :
    AllOrNothing s op (op.run fails now s) <-> op.Unhindered fails s := by
  cases op with
  | addAccount d => exact addAccount_iff d hfresh
  | removeAccount id => exact removeAccount_iff id
  | setAccountCatalog id catalog => exact flagKept_iff now id catalog
  | notePreviewCheck p => exact notePreviewCheck_iff p

/-- One account, loaded from its row. -/
def loadedStore : AccountStore := ⟨Roster.reload ⟨Arena.empty, oneRow⟩, ["a"]⟩

theorem allOrNothing_iff_added :
    Fresh loadedStore (.addAccount ⟨"b", "", "c", "s", "r", none⟩) ∧
      (AllOrNothing loadedStore (.addAccount ⟨"b", "", "c", "s", "r", none⟩)
          (run (fun st => decide (st = .insertMetrics)) 0 loadedStore
            (.addAccount ⟨"b", "", "c", "s", "r", none⟩)) <->
        Unhindered (fun st => decide (st = .insertMetrics)) loadedStore
          (.addAccount ⟨"b", "", "c", "s", "r", none⟩)) :=
  ⟨⟨by decide, by decide, by decide⟩,
    allOrNothing_iff _ _ _ _ ⟨by decide, by decide, by decide⟩⟩

/-- The flag of the third PREVIEW check is stored in memory alone, and no check
follows. -/
theorem not_allOrNothing_flag :
    ¬ forall (op : RosterOp) (fails : RosterStatement -> Bool) (now : I64)
        (s : AccountStore), op.Fresh s ->
      AllOrNothing s op (op.run fails now s) := by
  intro h
  have hcounted := h (.notePreviewCheck 0)
    (fun st => decide (st = .updateCatalog)) 0
    ((loadedStore.write 0 AccountState.countPreview countPreview_id).write 0
      AccountState.countPreview countPreview_id) trivial
  have huntouched : Untouched "a" _ _ := hcounted
  exact absurd huntouched.agree (by decide)

end RosterOp

end HifiApi
