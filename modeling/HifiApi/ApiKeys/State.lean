import HifiApi.Base.Json
import HifiApi.Fleet.Collection

/-!
# API keys

The keys of an instance, their rows in SQLite and their definitions in Redis.
The raw key never leaves the instance that made it: a key is known by the hash
of its text, which is data here.
-/

namespace HifiApi

structure ApiKeyState where
  id : String
  label : String
  keyHash : String
  keyPrefix : String
  /-- Zero means unlimited. -/
  quota : U64
  used : U64
  isActive : Bool
  /-- Last mutation of the definition. -/
  updatedAt : I64
  deriving DecidableEq

/-- A row of {lit}`api_keys`. -/
structure ApiKeyRow where
  id : String
  label : String
  keyHash : String
  keyPrefix : String
  quota : I64
  used : I64
  isActive : Int
  createdAt : I64
  deriving DecidableEq

/-- What {lit}`create` draws and is called with. -/
structure NewKey where
  id : String
  label : String
  keyHash : String
  keyPrefix : String
  quota : U64

namespace ApiKeyRow

/-- The key {lit}`load_from_db` makes of a row. -/
def load (row : ApiKeyRow) : ApiKeyState where
  id := row.id
  label := row.label
  keyHash := row.keyHash
  keyPrefix := row.keyPrefix
  quota := U64.ofColumn row.quota
  used := U64.ofColumn row.used
  isActive := row.isActive != 0
  updatedAt := 0

/-- The insert of {lit}`create` and of a restored definition. -/
def ofKey (now : I64) (k : ApiKeyState) : ApiKeyRow where
  id := k.id
  label := k.label
  keyHash := k.keyHash
  keyPrefix := k.keyPrefix
  quota := k.quota.toI64
  used := 0
  isActive := if k.isActive then 1 else 0
  createdAt := now

/-- The update sent when a definition is taken over from Redis. -/
def saveAdopted (k : ApiKeyState) (row : ApiKeyRow) : ApiKeyRow :=
  { row with
    label := k.label
    quota := k.quota.toI64
    isActive := if k.isActive then 1 else 0 }

end ApiKeyRow

/-- The key {lit}`create` puts into the roster. -/
def NewKey.record (d : NewKey) (now : I64) : ApiKeyState where
  id := d.id
  label := d.label
  keyHash := d.keyHash
  keyPrefix := d.keyPrefix
  quota := d.quota
  used := 0
  isActive := true
  updatedAt := now

def ApiKeyState.setActive (active : Bool) (now : I64) (k : ApiKeyState) :
    ApiKeyState :=
  { k with
    isActive := active
    updatedAt := now }

/-- The published definition of a key; uses are counted apart from it. -/
def keyToJson (k : ApiKeyState) : Value :=
  .object
    [("id", .string k.id),
      ("label", .string k.label),
      ("key_hash", .string k.keyHash),
      ("key_prefix", .string k.keyPrefix),
      ("quota", .number (Int.ofNat k.quota.val)),
      ("is_active", .bool k.isActive),
      ("updated_at", .number k.updatedAt.val)]

namespace RemoteKey

def updatedAt (v : Value) : I64 :=
  ((v.get "updated_at").bind Value.asI64).getD 0

def quota (v : Value) : U64 :=
  ((v.get "quota").bind Value.asU64).getD 0

def isActive (v : Value) : Bool :=
  ((v.get "is_active").bind Value.asBool).getD true

/-- A well-formed hash other than the local one means another secret. -/
def hashMismatch (k : ApiKeyState) (v : Value) : Bool :=
  (v.strField "key_hash").utf8ByteSize = 64 ∧ v.strField "key_hash" ≠ k.keyHash

/-- Take over a newer definition of a known key; the label stays. -/
def adopt (k : ApiKeyState) (v : Value) : Option ApiKeyState :=
  if updatedAt v ≤ k.updatedAt then
    none
  else if hashMismatch k v then
    none
  else
    some
      { k with
        quota := quota v
        isActive := isActive v
        updatedAt := updatedAt v }

/-- Restore a key that is unknown here; malformed records are refused. -/
def restore (id : String) (v : Value) : Option ApiKeyState :=
  if (v.strField "key_hash").utf8ByteSize ≠ 64 then
    none
  else
    some
      { id := id
        label := v.strField "label"
        keyHash := v.strField "key_hash"
        keyPrefix := v.strField "key_prefix"
        quota := quota v
        used := 0
        isActive := isActive v
        updatedAt := updatedAt v }

theorem adopt_spec {k r : ApiKeyState} {v : Value} (h : adopt k v = some r) :
    k.updatedAt < updatedAt v ∧ hashMismatch k v = false ∧
      r = { k with
        quota := quota v
        isActive := isActive v
        updatedAt := updatedAt v } := by
  unfold adopt at h
  split at h
  · cases h
  · rename_i hnewer
    split at h
    · cases h
    · rename_i hhash
      cases h
      exact ⟨lt_of_not_ge hnewer, by simpa using hhash, rfl⟩

theorem restore_spec {id : String} {r : ApiKeyState} {v : Value}
    (h : restore id v = some r) :
    (v.strField "key_hash").utf8ByteSize = 64 ∧ r.id = id ∧
      r.updatedAt = updatedAt v := by
  unfold restore at h
  split at h
  · cases h
  · rename_i hhash
    cases h
    exact ⟨not_not.mp hhash, rfl, rfl⟩

theorem updatedAt_keyToJson (k : ApiKeyState) :
    updatedAt (keyToJson k) = k.updatedAt := by
  simp [updatedAt, keyToJson, Value.get]

end RemoteKey

/-- A text as long as a hash. -/
def longHash (c : Char) : String :=
  String.ofList (List.replicate 64 c)

/-- The API keys of an instance. -/
@[reducible] def apiKeys : Collection where
  Rec := ApiKeyState
  Payload := Option Value
  Row := ApiKeyRow
  Edit := Bool
  Draft := NewKey
  blank := ⟨"", "", "", "", 0, 0, true, 0⟩
  idOf := ApiKeyState.id
  rowId := ApiKeyRow.id
  toPayload k := some (keyToJson k)
  adopt k text := text.bind (RemoteKey.adopt k)
  adoptRebuilds := false
  restore _ id text := text.bind (RemoteKey.restore id)
  edit active now k := some (k.setActive active now)
  editRebuilds _ := false
  editSavesFirst _ := false
  editFindsRow _ _ _ := true
  editRow active _ _ _ row := { row with isActive := if active then 1 else 0 }
  adoptRow := ApiKeyRow.saveAdopted
  newRow := ApiKeyRow.ofKey
  conflicts w w' := w.id = w'.id ∨ w.keyHash = w'.keyHash
  rowCreatedAt row := row.createdAt.val
  repairRow row := row
  loadRow := ApiKeyRow.load
  draft := NewKey.record
  removeNeedsRecord := true
  adopt_idOf := by
    intro r r' text h
    rcases Option.bind_eq_some_iff.mp h with ⟨v, _, hv⟩
    rw [(RemoteKey.adopt_spec hv).right.right]
  restore_idOf := by
    intro now id text r h
    rcases Option.bind_eq_some_iff.mp h with ⟨v, _, hv⟩
    exact (RemoteKey.restore_spec hv).right.left
  edit_idOf := by
    intro active now k k' h
    cases h
    rfl
  editRow_rowId := fun _ _ _ _ _ => rfl
  adoptRow_rowId := fun _ _ => rfl
  newRow_rowId := fun _ _ => rfl
  conflicts_of_rowId := fun _ _ h => decide_eq_true (Or.inl h)
  repairRow_rowId := fun _ => rfl
  loadRow_idOf := fun _ => rfl

end HifiApi
