import HifiApi.Accounts.Edits
import HifiApi.Fleet.Collection

/-!
# Accounts in Redis

The published form of an account and the two ways a merge reads it: taking over
a newer record of a known account, and restoring an account this instance does
not know.  A text that is not JSON is skipped.
-/

namespace HifiApi

open AccountState

/-- The published form of an account. -/
def accountToJson (a : AccountState) : Value :=
  .object
    [("id", .string a.id),
      ("label", .string a.label),
      ("client_id", .string a.clientId),
      ("client_secret", .string a.clientSecret),
      ("refresh_token", .string a.refreshToken),
      ("user_id", Value.ofOption a.userId),
      ("is_active", .bool a.isActive),
      ("disabled_at", .number a.disabledAt.val),
      ("auto_disabled", .bool a.autoDisabled),
      ("is_catalog", .bool a.isCatalog),
      ("notes", .string a.notes),
      ("created_at", .number a.createdAt.val),
      ("updated_at", .number a.updatedAt.val)]

namespace RemoteAccount

/-!
## Fields of a published record
-/

def updatedAt (v : Value) : I64 :=
  ((v.get "updated_at").bind Value.asI64).getD 0

def createdAt (now : I64) (v : Value) : I64 :=
  let created := ((v.get "created_at").bind Value.asI64).filter
    fun ts => decide (0 < ts)
  let fallback := if 0 < updatedAt v then some (updatedAt v) else none
  (created.or fallback).getD now

def userId (v : Value) : Option String :=
  (v.get "user_id").bind Value.asStr

def isActive (v : Value) : Bool :=
  ((v.get "is_active").bind Value.asBool).getD true

def disabledAt (v : Value) : I64 :=
  if isActive v then 0 else ((v.get "disabled_at").bind Value.asI64).getD 0

def autoDisabled (v : Value) : Bool :=
  ((v.get "auto_disabled").bind Value.asBool).getD false

def isCatalog (v : Value) : Bool :=
  ((v.get "is_catalog").bind Value.asBool).getD false

/-- The constructor call of both branches of the merge. -/
def rebuild (id : String) (v : Value) : AccountState :=
  AccountState.new id (v.strField "label") (v.strField "client_id")
    (v.strField "client_secret") (v.strField "refresh_token") (userId v)
    (isActive v) (v.strField "notes")

/-- Take over a newer record of a known account. -/
def adopt (old : AccountState) (v : Value) : Option AccountState :=
  if updatedAt v ≤ old.updatedAt then
    none
  else
    some
      { carryOver (rebuild old.id v) old with
        disabledAt := disabledAt v
        autoDisabled := autoDisabled v
        isCatalog := isCatalog v
        updatedAt := updatedAt v }

/-- Restore an account that is unknown here. -/
def restore (now : I64) (id : String) (v : Value) : AccountState :=
  { rebuild id v with
    autoDisabled := autoDisabled v
    disabledAt := disabledAt v
    isCatalog := isCatalog v
    createdAt := createdAt now v
    updatedAt := updatedAt v }

/-- What instances share after reading a published record. -/
def shared (v : Value) : Shared where
  label := v.strField "label"
  credentials :=
    ⟨v.strField "client_id",
      normalizeClientSecret (v.strField "client_secret"),
      v.strField "refresh_token"⟩
  userId := userId v
  isActive := isActive v
  disabledAt := disabledAt v
  autoDisabled := autoDisabled v
  isCatalog := isCatalog v
  notes := v.strField "notes"
  updatedAt := updatedAt v

/-!
## Reading a record back
-/

theorem adopt_eq_none {old : AccountState} {v : Value} :
    adopt old v = none <-> updatedAt v ≤ old.updatedAt := by
  unfold adopt
  split
  · simp_all
  · simp_all

theorem adopt_spec {old r : AccountState} {v : Value}
    (h : adopt old v = some r) :
    old.updatedAt < updatedAt v ∧ r.id = old.id ∧ r.shared = shared v := by
  unfold adopt at h
  split at h
  · cases h
  · rename_i hnewer
    cases h
    refine ⟨lt_of_not_ge hnewer, ?_, ?_⟩
    · exact carryOver_id _ _
    · show
        { (carryOver (rebuild old.id v) old).shared with
          disabledAt := disabledAt v
          autoDisabled := autoDisabled v
          isCatalog := isCatalog v
          updatedAt := updatedAt v } = shared v
      rw [carryOver_shared]
      rfl

private theorem get_cons (k k' : String) (x : Value)
    (rest : List (String × Value)) :
    (Value.object ((k, x) :: rest)).get k' =
      if k = k' then some x else (Value.object rest).get k' := by
  by_cases h : k = k'
  · simp [Value.get, h]
  · simp [Value.get, h]

theorem updatedAt_accountToJson (a : AccountState) :
    updatedAt (accountToJson a) = a.updatedAt := by
  simp [updatedAt, accountToJson, get_cons]

/-- Reading a published record back gives what was shared, up to one more
decoding of the secret; the time of deactivation of an active account is not
kept. -/
theorem shared_accountToJson (a : AccountState) :
    shared (accountToJson a) =
      { a.shared with
        credentials :=
          { a.credentials with
            clientSecret := normalizeClientSecret a.clientSecret }
        disabledAt := if a.isActive then 0 else a.disabledAt } := by
  simp [shared, AccountState.shared, AccountState.credentials, updatedAt, userId,
    isActive, disabledAt, autoDisabled, isCatalog, Value.strField, accountToJson,
    get_cons]

end RemoteAccount

/-- What {lit}`add_account` is called with, and the id it draws. -/
structure NewAccount where
  id : String
  label : String
  clientId : String
  clientSecret : String
  refreshToken : String
  userId : Option String

/-- The record {lit}`add_account` puts into the roster. -/
def NewAccount.record (d : NewAccount) (now : I64) : AccountState :=
  { AccountState.new d.id d.label d.clientId d.clientSecret d.refreshToken
      d.userId true "" with
    createdAt := now
    updatedAt := now }

/-- The accounts of an instance. -/
@[reducible] def accounts : Collection where
  Rec := AccountState
  Payload := Option Value
  Row := AccountRow
  Edit := AccountEdit
  Draft := NewAccount
  blank := default
  idOf := AccountState.id
  rowId := AccountRow.id
  toPayload a := some (accountToJson a)
  adopt old text := text.bind (RemoteAccount.adopt old)
  adoptRebuilds := true
  restore now id text := text.map (RemoteAccount.restore now id)
  edit := AccountEdit.apply
  editRebuilds := AccountEdit.rebuilds
  editSavesFirst := AccountEdit.savesFirst
  editFindsRow := AccountEdit.findsRow
  editRow := AccountEdit.save
  adoptRow := AccountRow.saveAdopted
  newRow _ a := AccountRow.ofAccount a
  conflicts w w' := w.id = w'.id
  rowCreatedAt row := row.createdAt.val
  repairRow := AccountRow.repair
  loadRow := AccountRow.load
  draft := NewAccount.record
  removeNeedsRecord := false
  adopt_idOf := by
    intro r r' text h
    rcases Option.bind_eq_some_iff.mp h with ⟨v, _, hv⟩
    exact (RemoteAccount.adopt_spec hv).right.left
  restore_idOf := by
    intro now id text r h
    rcases Option.map_eq_some_iff.mp h with ⟨v, _, hv⟩
    rw [← hv]
    rfl
  edit_idOf := fun h => (AccountEdit.apply_stamps h).left
  editRow_rowId := fun e now r r' w => AccountEdit.save_id e now r r' w
  adoptRow_rowId := fun _ _ => rfl
  newRow_rowId := fun _ _ => rfl
  conflicts_of_rowId := fun _ _ h => decide_eq_true h
  repairRow_rowId := fun _ => rfl
  loadRow_idOf := fun _ => rfl

/-- A table with one account, stamped with second 1. -/
def oneRow : Table accounts.Row accounts.rowId where
  rows := [.ofAccount (NewAccount.record ⟨"a", "first", "c", "s", "r", none⟩
    (.ofNat 1))]
  distinct := by decide

end HifiApi
