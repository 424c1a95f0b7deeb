import HifiApi.Accounts.Shared
import HifiApi.Base.Utf8Lossy
import HifiApi.Lib.System

/-!
# Client secrets in the long run

A client secret is decoded by every constructor of a record: when it is added, on
every edit, on every load and on every merge.  What is once decoded may contain an
escape again, and is then decoded once more.
-/

namespace HifiApi

/-- Bytes with a percent sign and two hexadecimal digits. -/
def HasEscape (bytes : List UInt8) : Prop :=
  exists before high low after, bytes = before ++ 37 :: high :: low :: after ∧
    (hexDigit high).isSome ∧ (hexDigit low).isSome

def isUtf8 (bytes : List UInt8) : Bool :=
  (String.fromUTF8? ⟨bytes.toArray⟩).isSome

/-- Decoding a secret leaves no escape, or nothing that a second decoding turns
into a text; a secret that does not decode to a text is kept. -/
def DecodesOnce (secret : String) : Prop :=
  let decoded := percentDecode (utf8Bytes secret)
  isUtf8 decoded = false ∨ ¬ HasEscape decoded ∨
    isUtf8 (percentDecode decoded) = false

/-!
## Decoding twice
-/

theorem hasEscape_cons (b : UInt8) (rest : List UInt8) :
    HasEscape (b :: rest) <->
      (exists high low after, b = 37 ∧ rest = high :: low :: after ∧
        (hexDigit high).isSome ∧ (hexDigit low).isSome) ∨ HasEscape rest := by
  constructor
  · intro h
    rcases h with ⟨before, high, low, after, heq, hhex⟩
    cases before with
    | nil =>
        rw [List.nil_append] at heq
        cases heq
        exact Or.inl ⟨high, low, after, rfl, rfl, hhex⟩
    | cons c before =>
        rw [List.cons_append] at heq
        cases heq
        exact Or.inr ⟨before, high, low, after, rfl, hhex⟩
  · intro h
    rcases h with hhere | hlater
    · rcases hhere with ⟨high, low, after, rfl, rfl, hhex⟩
      exact ⟨[], high, low, after, rfl, hhex⟩
    · rcases hlater with ⟨before, high, low, after, rfl, hhex⟩
      exact ⟨b :: before, high, low, after, rfl, hhex⟩

theorem not_hasEscape_nil : ¬ HasEscape [] := by
  intro h
  rcases h with ⟨before, high, low, after, heq, _⟩
  exact List.append_ne_nil_of_right_ne_nil before (List.cons_ne_nil _ _) heq.symm

theorem length_percentDecode_le (bytes : List UInt8) :
    (percentDecode bytes).length ≤ bytes.length := by
  fun_induction percentDecode bytes with
  | case1 high low rest x y hy hx ih =>
      rw [List.length_cons, List.length_cons, List.length_cons, List.length_cons]
      omega
  | case2 high low rest hnot ih =>
      rw [List.length_cons, List.length_cons (a := 37)]
      omega
  | case3 b rest hother ih =>
      rw [List.length_cons, List.length_cons]
      omega
  | case4 =>
      exact le_refl _

/-- Every escape makes the text shorter. -/
theorem length_percentDecode_lt {bytes : List UInt8} (h : HasEscape bytes) :
    (percentDecode bytes).length < bytes.length := by
  fun_induction percentDecode bytes with
  | case1 high low rest x y hy hx ih =>
      have hle := length_percentDecode_le rest
      rw [List.length_cons, List.length_cons, List.length_cons, List.length_cons]
      omega
  | case2 high low rest hnot ih =>
      rcases (hasEscape_cons _ _).mp h with hhere | hlater
      · rcases hhere with ⟨high', low', after, _, heq, hhigh, hlow⟩
        cases heq
        rcases Option.isSome_iff_exists.mp hhigh with ⟨x, hx⟩
        rcases Option.isSome_iff_exists.mp hlow with ⟨y, hy⟩
        exact (hnot x y hx hy).elim
      · have hlt := ih hlater
        rw [List.length_cons, List.length_cons (a := 37)]
        omega
  | case3 b rest hother ih =>
      rcases (hasEscape_cons _ _).mp h with hhere | hlater
      · rcases hhere with ⟨high, low, after, hb, heq, _⟩
        exact (hother high low after hb heq).elim
      · have hlt := ih hlater
        rw [List.length_cons, List.length_cons]
        omega
  | case4 =>
      exact absurd h not_hasEscape_nil

theorem percentDecode_of_not_hasEscape {bytes : List UInt8}
    (h : ¬ HasEscape bytes) : percentDecode bytes = bytes := by
  fun_induction percentDecode bytes with
  | case1 high low rest x y hy hx ih =>
      exfalso
      apply h
      exact ⟨[], high, low, rest, rfl, by rw [hx]; rfl, by rw [hy]; rfl⟩
  | case2 high low rest hnot ih =>
      rw [ih fun hlater => h ((hasEscape_cons _ _).mpr (Or.inr hlater))]
  | case3 b rest hother ih =>
      rw [ih fun hlater => h ((hasEscape_cons _ _).mpr (Or.inr hlater))]
  | case4 =>
      rfl

theorem percentDecode_eq_self_iff (bytes : List UInt8) :
    percentDecode bytes = bytes <-> ¬ HasEscape bytes := by
  constructor
  · intro heq hescape
    have hlt := length_percentDecode_lt hescape
    rw [heq] at hlt
    exact lt_irrefl _ hlt
  · exact percentDecode_of_not_hasEscape

/-- Bytes that are a text are the bytes of that text. -/
theorem utf8Bytes_of_fromUTF8? {bytes : List UInt8} {text : String}
    (h : String.fromUTF8? ⟨bytes.toArray⟩ = some text) : utf8Bytes text = bytes := by
  unfold String.fromUTF8? at h
  split at h
  · cases h
    rfl
  · cases h

theorem normalizeClientSecret_of_not_utf8 {secret : String}
    (h : isUtf8 (percentDecode (utf8Bytes secret)) = false) :
    normalizeClientSecret secret = secret := by
  have hnone : String.fromUTF8? ⟨(percentDecode (utf8Bytes secret)).toArray⟩ = none :=
    Option.isSome_eq_false_iff.mp h |> Option.isNone_iff_eq_none.mp
  show (String.fromUTF8? ⟨(percentDecode (utf8Bytes secret)).toArray⟩).getD secret = _
  rw [hnone]
  rfl

theorem utf8Bytes_normalizeClientSecret {secret : String}
    (h : isUtf8 (percentDecode (utf8Bytes secret)) = true) :
    utf8Bytes (normalizeClientSecret secret) = percentDecode (utf8Bytes secret) := by
  rcases Option.isSome_iff_exists.mp h with ⟨text, htext⟩
  have hsame : normalizeClientSecret secret = text := by
    show (String.fromUTF8? ⟨(percentDecode (utf8Bytes secret)).toArray⟩).getD secret = _
    rw [htext]
    rfl
  rw [hsame]
  exact utf8Bytes_of_fromUTF8? htext

/-- A secret that decodes once stays as it is then, and no other does. -/
theorem normalizeClientSecret_twice_iff (secret : String) :
    normalizeClientSecret (normalizeClientSecret secret) =
        normalizeClientSecret secret <-> DecodesOnce secret := by
  cases hfirst : isUtf8 (percentDecode (utf8Bytes secret)) with
  | false =>
      rw [normalizeClientSecret_of_not_utf8 hfirst,
        normalizeClientSecret_of_not_utf8 hfirst]
      exact ⟨fun _ => Or.inl hfirst, fun _ => rfl⟩
  | true =>
      have hbytes := utf8Bytes_normalizeClientSecret hfirst
      cases hsecond : isUtf8 (percentDecode (percentDecode (utf8Bytes secret))) with
      | false =>
          constructor
          · intro _
            exact Or.inr (Or.inr hsecond)
          · intro _
            apply normalizeClientSecret_of_not_utf8
            rw [hbytes]
            exact hsecond
      | true =>
          have htwice : utf8Bytes (normalizeClientSecret (normalizeClientSecret secret)) =
              percentDecode (percentDecode (utf8Bytes secret)) := by
            rw [utf8Bytes_normalizeClientSecret, hbytes]
            rw [hbytes]
            exact hsecond
          have hescape : normalizeClientSecret (normalizeClientSecret secret) =
              normalizeClientSecret secret <->
              ¬ HasEscape (percentDecode (utf8Bytes secret)) := by
            rw [← utf8Bytes_injective.eq_iff, htwice, hbytes]
            exact percentDecode_eq_self_iff _
          rw [hescape]
          constructor
          · intro h
            exact Or.inr (Or.inl h)
          · intro h
            rcases h with hno | hrest
            · rw [hfirst] at hno
              cases hno
            · rcases hrest with hnone | hno
              · exact hnone
              · rw [hsecond] at hno
                cases hno

/-!
## One account over its life
-/

/-- An account in memory, in SQLite and in Redis, and its access token. -/
structure KeptAccount where
  record : AccountState
  row : AccountRow
  pushed : Value
  token : Option String

inductive KeepAction where
  /-- {lit}`update_account` with a label and nothing else. -/
  | relabel (label : String) (now : I64)
  /-- A refresh that leaves the refresh token. -/
  | refreshed (token : String) (expiresAt : Int) (now : I64)
  /-- The process stops and {lit}`load_from_db` reads the row. -/
  | restart
  /-- A merge finds a record that another instance has pushed. -/
  | merge (remote : AccountState)

namespace KeptAccount

/-- After {lit}`add_account`. -/
def start (d : NewAccount) (now : I64) : KeptAccount where
  record := d.record now
  row := .ofAccount (d.record now)
  pushed := accountToJson (d.record now)
  token := none

def relabel (label : String) (now : I64) (s : KeptAccount) : KeptAccount :=
  let updated := s.record.updateAccount (some label) none none none none now
  { s with
    record := updated
    row := s.row.saveUpdated s.record updated now
    pushed := accountToJson updated }

/-- {lit}`store_refreshed_credentials`; the token and its end come from a grant. -/
def refreshed (token : String) (expiresAt : Int) (now : I64) (s : KeptAccount) :
    Option KeptAccount :=
  let sent := s.record.refreshToken
  if token ≠ "" ∧ 0 < expiresAt ∧ s.row.matchesSent s.record sent then
    (s.record.storeRefreshedCredentials sent none token expiresAt now).map fun a =>
      { record := a
        row := s.row.persistToken s.record sent none token expiresAt now
        pushed := accountToJson a
        token := some token }
  else
    none

def merge (remote : AccountState) (s : KeptAccount) : KeptAccount :=
  match RemoteAccount.adopt s.record (accountToJson remote) with
  | none => { s with pushed := accountToJson remote }
  | some rebuilt =>
      { s with
        record := rebuilt
        row := s.row.saveAdopted rebuilt
        pushed := accountToJson remote }

/-- The other instance holds the same account with the same credentials. -/
def step (s : KeptAccount) : KeepAction -> Option KeptAccount
  | .relabel label now => some (s.relabel label now)
  | .refreshed token expiresAt now => s.refreshed token expiresAt now
  | .restart => some { s with record := s.row.load, row := s.row.repair }
  | .merge remote =>
      if remote.id = s.record.id ∧ remote.credentials = s.record.credentials then
        some (s.merge remote)
      else
        none

def system : System KeptAccount KeepAction := ⟨step⟩

/-- The secret is the same everywhere, and the access token has not been lost. -/
structure Keeps (secret : String) (s : KeptAccount) : Prop where
  memory : s.record.clientSecret = secret
  sqlite : s.row.clientSecret = secret
  redis : s.pushed.strField "client_secret" = secret
  token : s.record.accessToken = s.token

/-!
## Runs
-/

/-- The row keeps the access token too, one that a load takes. -/
structure Matches (secret : String) (s : KeptAccount) : Prop where
  keeps : s.Keeps secret
  saved : s.row.loadedToken.map TokenRow.accessToken = s.token

variable {secret : String} {s s' : KeptAccount}

theorem matches_start (d : NewAccount) (now : I64) :
    (start d now).Matches (normalizeClientSecret d.clientSecret) := by
  constructor
  · constructor <;> rfl
  · rfl

theorem credentials_new (a : AccountState) (id label : String)
    (userId : Option String) (isActive : Bool) (notes : String)
    (h : normalizeClientSecret a.clientSecret = a.clientSecret) :
    (AccountState.new id label a.clientId a.clientSecret a.refreshToken userId
      isActive notes).credentials = a.credentials := by
  show (⟨_, normalizeClientSecret a.clientSecret, _⟩ : AccountState.Credentials) = _
  rw [h]
  rfl

theorem Matches.relabel (h : s.Matches secret)
    (hsettled : normalizeClientSecret secret = secret) (label : String) (now : I64) :
    (s.relabel label now).Matches secret := by
  have hsame : normalizeClientSecret s.record.clientSecret =
      s.record.clientSecret := by
    rw [h.keeps.memory]
    exact hsettled
  have hcredentials := credentials_new s.record s.record.id label s.record.userId
    s.record.isActive s.record.notes hsame
  have hupdated : (s.record.updateAccount (some label) none none none none
      now).credentials = s.record.credentials := by
    rw [← hcredentials]
    exact AccountState.carryOver_credentials _ _
  have hsecret : (s.record.updateAccount (some label) none none none none
      now).clientSecret = secret := by
    rw [← h.keeps.memory]
    exact congrArg AccountState.Credentials.clientSecret hupdated
  constructor
  · constructor
    · exact hsecret
    · exact hsecret
    · exact hsecret
    · show (AccountState.carryOver _ s.record).accessToken = s.token
      rw [AccountState.carryOver_accessToken]
      exact (if_pos hcredentials).trans h.keeps.token
  · show (Option.filter _ (if _ = _ then s.row.token else none)).map _ = s.token
    rw [if_pos hupdated]
    exact h.saved

theorem Matches.refreshed (h : s.Matches secret) {token : String} {expiresAt : Int}
    {now : I64} (hstep : s.refreshed token expiresAt now = some s') :
    s'.Matches secret := by
  unfold KeptAccount.refreshed at hstep
  dsimp only at hstep
  split at hstep
  · rename_i hgranted
    rcases Option.map_eq_some_iff.mp hstep with ⟨a, hstored, heq⟩
    rw [AccountState.storeRefreshedCredentials_eq_some] at hstored
    rw [← heq, hstored.right]
    constructor
    · constructor
      · exact h.keeps.memory
      · exact h.keeps.sqlite
      · exact h.keeps.memory
      · rfl
    · show (Option.filter _ (some _)).map _ = some token
      rw [Option.filter_some_pos]
      · rfl
      · exact decide_eq_true ⟨hgranted.left, hgranted.right.left⟩
  · cases hstep

theorem Matches.restart (h : s.Matches secret)
    (hsettled : normalizeClientSecret secret = secret) :
    ({ s with record := s.row.load, row := s.row.repair } :
      KeptAccount).Matches secret := by
  have hsecret : normalizeClientSecret s.row.clientSecret = secret := by
    rw [h.keeps.sqlite]
    exact hsettled
  constructor
  · constructor
    · exact hsecret
    · exact hsecret
    · exact h.keeps.redis
    · exact h.saved
  · exact h.saved

/-- A merge of a record with the same credentials keeps the access token. -/
theorem adopt_accessToken {old r : AccountState} {v : Value}
    (h : RemoteAccount.adopt old v = some r)
    (hsame : (RemoteAccount.shared v).credentials = old.credentials) :
    r.accessToken = old.accessToken := by
  unfold RemoteAccount.adopt at h
  split at h
  · cases h
  · cases h
    show (AccountState.carryOver _ old).accessToken = _
    rw [AccountState.carryOver_accessToken]
    exact if_pos hsame

theorem Matches.merge (h : s.Matches secret)
    (hsettled : normalizeClientSecret secret = secret) {remote : AccountState}
    (hsame : remote.credentials = s.record.credentials) :
    (s.merge remote).Matches secret := by
  have hremote : remote.clientSecret = secret := by
    rw [← h.keeps.memory]
    exact congrArg AccountState.Credentials.clientSecret hsame
  unfold KeptAccount.merge
  split
  · constructor
    · constructor
      · exact h.keeps.memory
      · exact h.keeps.sqlite
      · exact hremote
      · exact h.keeps.token
    · exact h.saved
  · rename_i rebuilt hadopt
    have hpublished : (RemoteAccount.shared (accountToJson remote)).credentials =
        remote.credentials := by
      rw [RemoteAccount.shared_accountToJson]
      show (⟨_, normalizeClientSecret remote.clientSecret, _⟩ :
        AccountState.Credentials) = _
      rw [hremote, hsettled, ← hremote]
      rfl
    have hrebuilt : rebuilt.credentials = remote.credentials := by
      rw [← hpublished, ← (RemoteAccount.adopt_spec hadopt).right.right]
      rfl
    have hsecret : rebuilt.clientSecret = secret := by
      rw [← hremote]
      exact congrArg AccountState.Credentials.clientSecret hrebuilt
    constructor
    · constructor
      · exact hsecret
      · exact hsecret
      · exact hremote
      · show rebuilt.accessToken = s.token
        rw [adopt_accessToken hadopt (hpublished.trans hsame)]
        exact h.keeps.token
    · exact h.saved

theorem Matches.step (h : s.Matches secret)
    (hsettled : normalizeClientSecret secret = secret) {a : KeepAction}
    (hstep : s.step a = some s') : s'.Matches secret := by
  cases a with
  | relabel label now =>
      cases hstep
      exact h.relabel hsettled label now
  | refreshed token expiresAt now =>
      exact h.refreshed hstep
  | restart =>
      cases hstep
      exact h.restart hsettled
  | merge remote =>
      simp only [KeptAccount.step] at hstep
      split at hstep
      · rename_i hsame
        cases hstep
        exact h.merge hsettled hsame.right
      · cases hstep

theorem Matches.run {actions : List KeepAction} (h : s.Matches secret)
    (hsettled : normalizeClientSecret secret = secret)
    (hrun : system.run s actions = some s') : s'.Matches secret := by
  induction actions generalizing s with
  | nil =>
      cases hrun
      exact h
  | cons a rest ih =>
      rcases System.run_cons_some.mp hrun with ⟨mid, hstep, hrest⟩
      exact ih (h.step hsettled hstep) hrest

end KeptAccount

/-- A secret stays as it was added, and with it the access token, exactly when it
decodes once. -/
theorem keeps_iff_decodesOnce (d : NewAccount) (now : I64) :
    (forall actions s,
      KeptAccount.system.run (.start d now) actions = some s ->
      s.Keeps (normalizeClientSecret d.clientSecret)) <->
    DecodesOnce d.clientSecret := by
  rw [← normalizeClientSecret_twice_iff]
  constructor
  · intro h
    have hrun : KeptAccount.system.run (.start d now) [.relabel d.label now] =
        some ((KeptAccount.start d now).relabel d.label now) := rfl
    have hdecoded : ((KeptAccount.start d now).relabel d.label now).record.clientSecret =
        normalizeClientSecret (normalizeClientSecret d.clientSecret) :=
      congrArg AccountState.Credentials.clientSecret
        (AccountState.carryOver_credentials _ _)
    exact hdecoded.symm.trans (h _ _ hrun).memory
  · intro hsettled actions s hrun
    exact ((KeptAccount.matches_start d now).run hsettled hrun).keeps

/-- A secret with an escaped percent sign twice over: a new label decodes it again
and loses the access token. -/
theorem not_keeps_relabelled :
    ¬ forall (d : NewAccount) (now : I64) actions s,
      KeptAccount.system.run (.start d now) actions = some s ->
      s.Keeps (normalizeClientSecret d.clientSecret) := by
  intro h
  have hkeeps := h ⟨"a", "first", "c", "%2525", "r", none⟩ 0
    [.refreshed "t" 3600 0, .relabel "second" 0] _ rfl
  have htoken := hkeeps.token
  revert htoken
  decide

end HifiApi
