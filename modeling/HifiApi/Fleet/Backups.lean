import HifiApi.Accounts.Shared
import HifiApi.ApiKeys.State
import HifiApi.Fleet.Restore

/-!
# Backups of accounts and API keys

A backup is to come back as it was: the ids, the credentials and switches of
the accounts, the hashes, quotas and switches of the keys.
-/

namespace HifiApi

/-!
## What is compared
-/

/-- The credentials of an account and its two switches. -/
structure AccountContent where
  credentials : AccountState.Credentials
  isActive : Bool
  isCatalog : Bool
  deriving DecidableEq

def AccountState.content (a : AccountState) : AccountContent :=
  ⟨a.credentials, a.isActive, a.isCatalog⟩

def AccountRow.content (row : AccountRow) : AccountContent :=
  ⟨row.credentials, row.isActive != 0, row.isCatalog != 0⟩

def RemoteAccount.content (v : Value) : AccountContent :=
  ⟨(RemoteAccount.shared v).credentials, RemoteAccount.isActive v,
    RemoteAccount.isCatalog v⟩

/-- The hash, the quota and the switch of a key. -/
structure KeyContent where
  keyHash : String
  quota : U64
  isActive : Bool
  deriving DecidableEq

def ApiKeyState.content (k : ApiKeyState) : KeyContent :=
  ⟨k.keyHash, k.quota, k.isActive⟩

def ApiKeyRow.content (row : ApiKeyRow) : KeyContent :=
  ⟨row.keyHash, U64.ofColumn row.quota, row.isActive != 0⟩

theorem accounts_tracks :
    Roster.Tracks (C := accounts) AccountState.content AccountRow.content where
  loadRow := fun _ => rfl
  adoptRow := by
    intro r r' w _ _
    simp [AccountRow.content, AccountRow.saveAdopted, AccountRow.credentials,
      AccountState.content, AccountState.credentials]

theorem apiKeys_tracks :
    Roster.Tracks (C := apiKeys) ApiKeyState.content ApiKeyRow.content where
  loadRow := fun _ => rfl
  adoptRow := by
    intro r r' w hr hw
    have hquota : r'.quota.val < 9223372036854775808 := by
      have heq : r'.quota = U64.ofColumn w.quota := by
        rw [show r'.quota = r.quota from congrArg KeyContent.quota hr]
        exact (congrArg KeyContent.quota hw).symm
      have hupper := w.quota.upper
      rw [heq]
      show w.quota.val.toNat < 9223372036854775808
      omega
    have hhash : w.keyHash = r'.keyHash :=
      (congrArg KeyContent.keyHash hw).trans
        (congrArg KeyContent.keyHash hr).symm
    have hactive : ((if r'.isActive = true then (1 : Int) else 0) != 0) =
        r'.isActive := by
      cases r'.isActive <;> rfl
    simp [ApiKeyRow.content, ApiKeyRow.saveAdopted, ApiKeyState.content, hhash,
      U64.ofColumn_toI64 hquota, hactive]

/-!
## When a backup comes back
-/

/-- After every restore, memory, table and index hold the accounts and the keys
of the backup as they were, and so do the records published for them. -/
def RestoreWins : Prop :=
  (forall (clock : String -> I64) (live : Roster accounts)
    (backup : Table accounts.Row accounts.rowId) (s : Shelf accounts),
    Roster.Restored AccountState.content AccountRow.content backup
      (Roster.restoreBackup clock live backup s).1
      (Roster.restoreBackup clock live backup s).2) ∧
  (forall (clock : String -> I64) (live : Roster apiKeys)
    (backup : Table apiKeys.Row apiKeys.rowId) (s : Shelf apiKeys),
    Roster.Restored ApiKeyState.content ApiKeyRow.content backup
      (Roster.restoreBackup clock live backup s).1
      (Roster.restoreBackup clock live backup s).2)

/-- Every readable account of the index is in the backup, and it is not newer
there or has the same content. -/
def AccountsInBackup (backup : Table accounts.Row accounts.rowId)
    (s : Shelf accounts) : Prop :=
  forall id v, id ∈ s.index -> s.record id = some (some v) ->
    exists b, backup.lookup id = some b ∧
      (RemoteAccount.updatedAt v ≤ b.updatedAt ∨
        RemoteAccount.content v = b.repair.content)

/-- Every key of the index whose hash is well formed is in the backup, and its
definition there has no timestamp, another hash, or the same content. -/
def KeysInBackup (backup : Table apiKeys.Row apiKeys.rowId)
    (s : Shelf apiKeys) : Prop :=
  forall id v, id ∈ s.index -> s.record id = some (some v) ->
    match backup.lookup id with
    | none => (v.strField "key_hash").utf8ByteSize ≠ 64
    | some b =>
        RemoteKey.updatedAt v ≤ 0 ∨
          RemoteKey.hashMismatch (ApiKeyRow.load b) v = true ∨
          (RemoteKey.quota v = U64.ofColumn b.quota ∧
            RemoteKey.isActive v = (b.isActive != 0))

theorem adopt_content {old r : AccountState} {v : Value}
    (h : RemoteAccount.adopt old v = some r) :
    r.content = RemoteAccount.content v := by
  have hshared := (RemoteAccount.adopt_spec h).right.right
  have hcredentials : r.credentials = (RemoteAccount.shared v).credentials :=
    congrArg AccountState.Shared.credentials hshared
  have hactive : r.isActive = RemoteAccount.isActive v :=
    congrArg AccountState.Shared.isActive hshared
  have hcatalog : r.isCatalog = RemoteAccount.isCatalog v :=
    congrArg AccountState.Shared.isCatalog hshared
  unfold AccountState.content RemoteAccount.content
  rw [hcredentials, hactive, hcatalog]

theorem harmless_accounts {clock : String -> I64}
    {backup : Table accounts.Row accounts.rowId} {s : Shelf accounts} :
    Roster.Harmless AccountState.content clock backup s <->
      AccountsInBackup backup s := by
  constructor
  · intro h id v hid hv
    have hread := h id (some v) hid hv
    cases hb : backup.lookup id with
    | none =>
        have hskip := hread.left hb
        cases hskip
    | some b =>
        refine ⟨b, rfl, ?_⟩
        by_cases hnewer : RemoteAccount.updatedAt v ≤ b.updatedAt
        · exact Or.inl hnewer
        · cases hadopt : RemoteAccount.adopt b.load v with
          | none =>
              exact Or.inl (RemoteAccount.adopt_eq_none.mp hadopt)
          | some r =>
              have hcontent := hread.right b r hb hadopt
              exact Or.inr ((adopt_content hadopt).symm.trans hcontent)
  · intro h id text hid htext
    constructor
    · intro hb
      cases text with
      | none =>
          rfl
      | some v =>
          rcases h id v hid htext with ⟨b, hb', _⟩
          rw [hb] at hb'
          cases hb'
    · intro b r hb hadopt
      rcases Option.bind_eq_some_iff.mp hadopt with ⟨v, hv, hread⟩
      subst hv
      rcases h id v hid htext with ⟨b', hb', hcond⟩
      rw [hb] at hb'
      cases hb'
      rcases hcond with holder | hcontent
      · have hkept : RemoteAccount.adopt b.load v = none :=
          RemoteAccount.adopt_eq_none.mpr holder
        rw [hkept] at hread
        cases hread
      · exact (adopt_content hread).trans hcontent

theorem harmless_apiKeys {clock : String -> I64}
    {backup : Table apiKeys.Row apiKeys.rowId} {s : Shelf apiKeys} :
    Roster.Harmless ApiKeyState.content clock backup s <->
      KeysInBackup backup s := by
  constructor
  · intro h id v hid hv
    have hread := h id (some v) hid hv
    cases hb : backup.lookup id with
    | none =>
        have hskip : RemoteKey.restore id v = none := hread.left hb
        dsimp only
        intro hsize
        simp [RemoteKey.restore, hsize] at hskip
    | some b =>
        dsimp only
        by_cases hstamp : RemoteKey.updatedAt v ≤ 0
        · exact Or.inl hstamp
        · by_cases hhash : RemoteKey.hashMismatch (ApiKeyRow.load b) v = true
          · exact Or.inr (Or.inl hhash)
          · have hadopt : RemoteKey.adopt (ApiKeyRow.load b) v = some
                { ApiKeyRow.load b with
                  quota := RemoteKey.quota v
                  isActive := RemoteKey.isActive v
                  updatedAt := RemoteKey.updatedAt v } := by
              have hnewer : ¬ RemoteKey.updatedAt v ≤
                  (ApiKeyRow.load b).updatedAt := hstamp
              unfold RemoteKey.adopt
              rw [if_neg hnewer, if_neg hhash]
            have hcontent := hread.right b _ hb hadopt
            exact Or.inr (Or.inr ⟨congrArg KeyContent.quota hcontent,
              congrArg KeyContent.isActive hcontent⟩)
  · intro h id text hid htext
    constructor
    · intro hb
      cases text with
      | none =>
          rfl
      | some v =>
          have hsize := h id v hid htext
          rw [hb] at hsize
          show RemoteKey.restore id v = none
          unfold RemoteKey.restore
          rw [if_pos hsize]
    · intro b r hb hadopt
      rcases Option.bind_eq_some_iff.mp hadopt with ⟨v, hv, hadopt⟩
      subst hv
      have hcond := h id v hid htext
      rw [hb] at hcond
      rcases RemoteKey.adopt_spec hadopt with ⟨hnewer, hhash, hr⟩
      rcases hcond with hstamp | hmismatch | ⟨hquota, hactive⟩
      · exact absurd hstamp (not_le_of_gt hnewer)
      · rw [hhash] at hmismatch
        cases hmismatch
      · rw [hr]
        simp [ApiKeyState.content, hquota, hactive, ApiKeyRow.load]

/-- A restore brings accounts and keys back exactly when Redis holds none that
the backup lacks, and no newer definition that differs from the backup. -/
theorem restore_wins_iff (clock : String -> I64) (live : Roster accounts)
    (backup : Table accounts.Row accounts.rowId) (s : Shelf accounts)
    (liveKeys : Roster apiKeys) (backupKeys : Table apiKeys.Row apiKeys.rowId)
    (keys : Shelf apiKeys) :
    (Roster.Restored AccountState.content AccountRow.content backup
        (Roster.restoreBackup clock live backup s).1
        (Roster.restoreBackup clock live backup s).2 <->
      AccountsInBackup backup s) ∧
    (Roster.Restored ApiKeyState.content ApiKeyRow.content backupKeys
        (Roster.restoreBackup clock liveKeys backupKeys keys).1
        (Roster.restoreBackup clock liveKeys backupKeys keys).2 <->
      KeysInBackup backupKeys keys) := by
  constructor
  · exact (Roster.restored_iff_harmless accounts_tracks).trans harmless_accounts
  · exact (Roster.restored_iff_harmless apiKeys_tracks).trans harmless_apiKeys

/-- A Redis that still holds an account which an empty backup lacks. -/
def oneAccount : Shelf accounts where
  index := ["a"]
  once := by decide
  record := fun id =>
    if id = "a" then
      some (some (accountToJson
        (NewAccount.record ⟨"a", "first", "c", "s", "r", none⟩ 0)))
    else none

/-- The account comes back, although the backup does not hold it. -/
theorem not_restoreWins : ¬ RestoreWins := by
  intro h
  have hrestored := h.left (fun _ => 0) ⟨Arena.empty, Table.empty⟩ Table.empty
    oneAccount
  have hmemory := (hrestored.memory "a").mp (by decide)
  exact absurd hmemory (by decide)

end HifiApi
