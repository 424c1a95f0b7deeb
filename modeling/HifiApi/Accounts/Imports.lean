import HifiApi.Accounts.Edits
import HifiApi.Accounts.Shared
import HifiApi.Base.AppError

/-!
# Adding, importing and exporting accounts

The ways an account comes into the roster: a request of the owner, a list that is
imported, the token file, and the environment.  The export writes what an import
reads.  Of every attempt to add an account the id it draws, its time and whether
its writes fail are given; an account whose writes fail does not come into the
roster.
-/

namespace HifiApi

/-- What an attempt to add an account meets with. -/
structure Attempt where
  id : String
  now : I64
  failure : Option AppError

namespace Imports

/-- {lit}`eq_ignore_ascii_case("catalog")` -/
def isCatalogRole (role : String) : Bool :=
  role.toList.map Char.toLower == "catalog".toList

def addAccount (d : NewAccount) (attempt : Attempt) (roster : List AccountState) :
    Except AppError (List AccountState) :=
  match attempt.failure with
  | some e => .error e
  | none => .ok (roster ++ [d.record attempt.now])

/-- {lit}`set_account_catalog` on the account that is found by its id. -/
def flagCatalog (id : String) (now : I64) (roster : List AccountState) :
    List AccountState :=
  match roster.findIdx? fun a => decide (a.id = id) with
  | some i => roster.modify i (AccountState.setAccountCatalog true now)
  | none => roster

/-- An account is added, and flagged when it is for metadata only. -/
def addFlagged (d : NewAccount) (catalog : Bool) (attempt : Attempt)
    (roster : List AccountState) : Except AppError (List AccountState) := do
  let added ← addAccount d attempt roster
  return if catalog then flagCatalog d.id attempt.now added else added

/-!
## Lists of accounts
-/

/-- An entry of a list as {lit}`import_accounts` reads it. -/
structure ImportEntry where
  label : String
  clientId : String
  clientSecret : String
  refreshToken : String
  userId : Option String
  catalog : Bool
  deriving DecidableEq

/-- {lit}`role="catalog"` or {lit}`catalog=true` -/
def marksCatalog (val : Value) : Bool :=
  (((val.get "role").bind Value.asStr).map isCatalogRole).getD false ||
    ((val.get "catalog").bind Value.asBool).getD false

def ImportEntry.of (val : Value) : ImportEntry where
  label := val.strField "label"
  clientId := val.strField "client_id"
  clientSecret := val.strField "client_secret"
  refreshToken := val.strField "refresh_token"
  userId := (val.get "user_id").bind Value.asStr
  catalog := marksCatalog val

namespace ImportEntry

def draft (e : ImportEntry) (id : String) : NewAccount :=
  ⟨id, e.label, e.clientId, e.clientSecret, e.refreshToken, e.userId⟩

/-- None of the fields that an account needs is missing. -/
def isImportable (e : ImportEntry) : Bool :=
  decide (e.clientId ≠ "" ∧ e.clientSecret ≠ "" ∧ e.refreshToken ≠ "")

end ImportEntry

/-- Why an entry was not imported, with its index. -/
inductive ImportError where
  /-- {lit}`missing client_id/client_secret/refresh_token` -/
  | missing (index : Nat)
  | failed (index : Nat) (e : AppError)
  deriving DecidableEq

structure ImportReport where
  imported : Nat
  skipped : Nat
  errors : List ImportError
  deriving DecidableEq

def tokens (roster : List AccountState) : List String :=
  roster.map AccountState.refreshToken

/-- One round of the loop of {lit}`import_accounts`. -/
def importEntry (existing : List String) (attempts : Nat -> Attempt)
    (s : List AccountState × ImportReport) (entry : Value × Nat) :
    List AccountState × ImportReport :=
  let e := ImportEntry.of entry.1
  let report := s.2
  if ¬ e.isImportable then
    (s.1,
      { report with
        skipped := report.skipped + 1
        errors := report.errors ++ [ImportError.missing entry.2] })
  else if e.refreshToken ∈ existing then
    (s.1, { report with skipped := report.skipped + 1 })
  else
    let attempt := attempts entry.2
    match addFlagged (e.draft attempt.id) e.catalog attempt s.1 with
    | .ok roster => (roster, { report with imported := report.imported + 1 })
    | .error failure =>
        (s.1,
          { report with
            skipped := report.skipped + 1
            errors := report.errors ++ [ImportError.failed entry.2 failure] })

/-- Where {lit}`import_accounts` looks for its list. -/
def importList (body : Value) : Option (List Value) :=
  (((body.get "accounts").bind Value.asArray).or body.asArray).or
    ((body.get "credentials").bind Value.asArray)

def importAccounts (roster : List AccountState) (body : Value)
    (attempts : Nat -> Attempt) : List AccountState × Except AppError ImportReport :=
  match importList body with
  | none =>
      (roster, .error (.badRequest
        "Expected \x7baccounts: [...]\x7d or [...] with client_id/client_secret/refresh_token"))
  | some entries =>
      let final := entries.zipIdx.foldl (importEntry (tokens roster) attempts)
        (roster, ⟨0, 0, []⟩)
      (final.1, .ok final.2)

/-!
## The token file
-/

/-- What the environment adds to the entries of a token file. -/
structure TokenEnv where
  clientId : String
  clientSecret : String

/-- The closure {lit}`s`: the first of the keys that holds a text. -/
def firstText (entry : Value) (keys : List String) : String :=
  (keys.filterMap fun key => (entry.get key).bind Value.asStr).head?.getD ""

/-- An entry as {lit}`import_token_file` reads it. -/
def tokenEntry (env : TokenEnv) (entry : Value) : ImportEntry :=
  let clientId := firstText entry ["client_id", "client_ID", "clientID"]
  let clientSecret := firstText entry ["client_secret", "clientSecret"]
  { label := entry.strField "label"
    clientId := if clientId = "" then env.clientId else clientId
    clientSecret := if clientSecret = "" then env.clientSecret else clientSecret
    refreshToken := firstText entry ["refresh_token", "refreshToken"]
    userId := (["user_id", "userID", "userId"].filterMap fun key =>
      (entry.get key).bind Value.asStr).head?
    catalog := marksCatalog entry }

/-- The token file asks for less: an account may be without a secret. -/
def ImportEntry.isReadable (e : ImportEntry) : Bool :=
  decide (e.clientId ≠ "" ∧ e.refreshToken ≠ "")

/-- The loop of {lit}`import_token_file`: the roster, the tokens seen, and the
number of accounts that were imported. -/
structure TokenScan where
  roster : List AccountState
  seen : List String
  imported : Nat

def scanEntry (env : TokenEnv) (attempts : Nat -> Attempt) (s : TokenScan)
    (entry : Value × Nat) : TokenScan :=
  let e := tokenEntry env entry.1
  if ¬ e.isReadable ∨ e.refreshToken ∈ s.seen then s
  else
    let attempt := attempts entry.2
    match addFlagged (e.draft attempt.id) e.catalog attempt s.roster with
    | .ok roster => ⟨roster, e.refreshToken :: s.seen, s.imported + 1⟩
    | .error _ => s

/-- The entries of a token file; a file that is missing or is not JSON is
none. -/
def tokenFileEntries : Option Value -> List Value
  | some (.array entries) => entries
  | some (.object fields) => [.object fields]
  | _ => []

def importTokenFile (env : TokenEnv) (roster : List AccountState)
    (file : Option Value) (attempts : Nat -> Attempt) : TokenScan :=
  (tokenFileEntries file).zipIdx.foldl (scanEntry env attempts)
    ⟨roster, tokens roster, 0⟩

/-!
## The export
-/

/-- An account as {lit}`export_accounts` writes it. -/
def exportEntry (a : AccountState) : Value :=
  let obj := Value.object
    [("label", .string a.label), ("client_id", .string a.clientId),
      ("client_secret", .string a.clientSecret),
      ("refresh_token", .string a.refreshToken),
      ("user_id", Value.ofOption a.userId)]
  if a.isCatalog then obj.insert "role" (.string "catalog") else obj

def exportAccounts (roster : List AccountState) : Value :=
  .object [("accounts", .array (roster.map exportEntry))]

/-!
## All ways into the roster
-/

/-- {lit}`AddAccountRequest` -/
structure AddAccountRequest where
  label : Option String
  clientId : String
  clientSecret : String
  refreshToken : String
  userId : Option String
  catalog : Option Bool
  role : Option String

def AddAccountRequest.marksCatalog (request : AddAccountRequest) : Bool :=
  request.catalog.getD false || (request.role.map isCatalogRole).getD false

/-- The credentials that the environment gives. -/
structure EnvAccount where
  clientId : String
  clientSecret : String
  refreshToken : String
  userId : Option String

/-- The secret that is taken when the environment gives none. -/
def defaultClientSecret : String :=
  "Y8tIpqKJxs9BEIwYr0I9bSbMWDsogXJx9LaN3mCHwD4%3D"

def EnvAccount.draft (env : EnvAccount) (label id : String) : NewAccount :=
  ⟨id, label, env.clientId,
    if env.clientSecret = "" then defaultClientSecret else env.clientSecret,
    env.refreshToken, env.userId⟩

inductive AddPath where
  | adminAdd (request : AddAccountRequest) (attempt : Attempt)
  | importAccounts (body : Value) (attempts : Nat -> Attempt)
  | importTokenFile (env : TokenEnv) (file : Option Value)
      (attempts : Nat -> Attempt)
  /-- At the start, when there is no catalog account. -/
  | catalogEnv (env : EnvAccount) (attempt : Attempt)
  /-- At the start, when there is no account. -/
  | defaultEnv (env : EnvAccount) (attempt : Attempt)

/-- The roster after an attempt, which may have failed. -/
def orKeep (roster : List AccountState)
    (result : Except AppError (List AccountState)) : List AccountState :=
  match result with
  | .ok after => after
  | .error _ => roster

def AddPath.apply (roster : List AccountState) : AddPath -> List AccountState
  | adminAdd request attempt =>
      orKeep roster (addFlagged
        ⟨attempt.id, request.label.getD "", request.clientId, request.clientSecret,
          request.refreshToken, request.userId⟩
        request.marksCatalog attempt roster)
  | importAccounts body attempts => (Imports.importAccounts roster body attempts).1
  | importTokenFile env file attempts =>
      (Imports.importTokenFile env roster file attempts).roster
  | catalogEnv env attempt =>
      if (roster.any AccountState.isCatalog) ∨ env.refreshToken = "" then roster
      else
        orKeep roster
          (addFlagged (env.draft "Catalog (env)" attempt.id) true attempt roster)
  | defaultEnv env attempt =>
      if roster ≠ [] ∨ env.clientId = "" ∨ env.refreshToken = "" then roster
      else
        orKeep roster
          (addFlagged (env.draft "Default Account (env)" attempt.id) false attempt
            roster)

/-- The rosters that the add paths create. -/
def created (paths : List AddPath) : List AccountState :=
  paths.foldl AddPath.apply []

end Imports

end HifiApi
