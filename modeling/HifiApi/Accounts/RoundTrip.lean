import HifiApi.Accounts.Imports
import HifiApi.Accounts.Secrets
import Mathlib.Algebra.Order.BigOperators.Group.List
import Mathlib.Algebra.Order.Group.Nat

/-!
# Export and import

An import reads what the export writes, field by field.  It skips accounts that
other ways into the roster let in without all fields, and every account that it
adds has its secret decoded once more.
-/

namespace HifiApi

namespace Imports

/-- The fields of an account that the export is about. -/
def ImportEntry.ofAccount (a : AccountState) : ImportEntry :=
  ⟨a.label, a.clientId, a.clientSecret, a.refreshToken, a.userId, a.isCatalog⟩

/-- The account that an entry becomes. -/
def ImportEntry.decoded (e : ImportEntry) : ImportEntry :=
  { e with clientSecret := normalizeClientSecret e.clientSecret }

def fields (roster : List AccountState) : List ImportEntry :=
  roster.map ImportEntry.ofAccount

/-- An instance without accounts imports the export of a roster: it skips none of
the accounts, and has the same ones afterwards. -/
def Restores (roster : List AccountState) (attempts : Nat -> Attempt) : Prop :=
  exists report, (importAccounts [] (exportAccounts roster) attempts).2 = .ok report ∧
    report.skipped = 0 ∧
    (fields (importAccounts [] (exportAccounts roster) attempts).1).Perm (fields roster)

/-- Another decoding leaves a secret as it is. -/
def DecodedAlready (secret : String) : Prop :=
  ¬ HasEscape (utf8Bytes secret) ∨ isUtf8 (percentDecode (utf8Bytes secret)) = false

/-- The account has all fields that an import asks for, and a secret that it leaves
alone. -/
structure Restorable (a : AccountState) : Prop where
  clientId : a.clientId ≠ ""
  clientSecret : a.clientSecret ≠ ""
  refreshToken : a.refreshToken ≠ ""
  decoded : DecodedAlready a.clientSecret

/-!
## Secrets
-/

theorem normalizeClientSecret_eq_self_iff (secret : String) :
    normalizeClientSecret secret = secret <-> DecodedAlready secret := by
  cases hutf8 : isUtf8 (percentDecode (utf8Bytes secret)) with
  | false =>
      exact ⟨fun _ => Or.inr hutf8, fun _ => normalizeClientSecret_of_not_utf8 hutf8⟩
  | true =>
      have hbytes := utf8Bytes_normalizeClientSecret hutf8
      rw [← utf8Bytes_injective.eq_iff, hbytes, percentDecode_eq_self_iff]
      constructor
      · exact Or.inl
      · rintro (hno | hnot)
        · exact hno
        · rw [hutf8] at hnot
          cases hnot

def secretSize (e : ImportEntry) : Nat := (utf8Bytes e.clientSecret).length

/-- Decoding does not make a secret longer, and makes it shorter if it changes
it. -/
theorem secretSize_decoded (e : ImportEntry) :
    secretSize e.decoded ≤ secretSize e ∧
      (¬ DecodedAlready e.clientSecret -> secretSize e.decoded < secretSize e) := by
  unfold secretSize ImportEntry.decoded
  dsimp only
  cases hutf8 : isUtf8 (percentDecode (utf8Bytes e.clientSecret)) with
  | false =>
      rw [normalizeClientSecret_of_not_utf8 hutf8]
      exact ⟨le_refl _, fun hnot => absurd (Or.inr hutf8) hnot⟩
  | true =>
      rw [utf8Bytes_normalizeClientSecret hutf8]
      refine ⟨length_percentDecode_le _, ?_⟩
      intro hnot
      apply length_percentDecode_lt
      by_contra hno
      exact hnot (Or.inl hno)

/-!
## One account
-/

/-- An import reads an exported account as it is. -/
theorem of_exportEntry (a : AccountState) :
    ImportEntry.of (exportEntry a) = .ofAccount a := by
  unfold exportEntry ImportEntry.of ImportEntry.ofAccount marksCatalog Value.strField
  cases hcatalog : a.isCatalog with
  | true =>
      rw [if_pos rfl]
      simp [Value.insert, Value.get, isCatalogRole]
  | false =>
      rw [if_neg (by decide)]
      simp [Value.get]

theorem fields_append (first second : List AccountState) :
    fields (first ++ second) = fields first ++ fields second :=
  List.map_append

/-- The flag goes to the account that has just been added. -/
theorem flagCatalog_append {roster : List AccountState} {a : AccountState} {now : I64}
    (h : forall b, b ∈ roster -> b.id ≠ a.id) :
    flagCatalog a.id now (roster ++ [a]) = roster ++ [a.setAccountCatalog true now] := by
  have hnone : roster.findIdx? (fun b => decide (b.id = a.id)) = none := by
    rw [List.findIdx?_eq_none_iff]
    intro b hb
    exact decide_eq_false (h b hb)
  have hfound : (roster ++ [a]).findIdx? (fun b => decide (b.id = a.id)) =
      some roster.length := by
    rw [List.findIdx?_append, hnone]
    simp
  unfold flagCatalog
  rw [hfound]
  show (roster ++ [a]).modify roster.length _ = _
  rw [List.modify_eq_take_cons_drop (by simp)]
  simp

/-- A record is added at the end. -/
theorem fields_added (roster : List AccountState) {a : AccountState} {e : ImportEntry}
    (h : ImportEntry.ofAccount a = e.decoded) :
    fields (roster ++ [a]) = fields roster ++ [e.decoded] ∧
      forall b, b ∈ roster ++ [a] -> b ∈ roster ∨ b.id = a.id := by
  constructor
  · rw [fields_append, ← h]
    rfl
  · intro b hb
    rcases List.mem_append.mp hb with hold | hnew
    · exact Or.inl hold
    · rw [List.mem_singleton.mp hnew]
      exact Or.inr rfl

theorem addFlagged_fields {attempt : Attempt} (hwrites : attempt.failure = none)
    (e : ImportEntry) {roster : List AccountState}
    (h : forall b, b ∈ roster -> b.id ≠ attempt.id) :
    exists after, addFlagged (e.draft attempt.id) e.catalog attempt roster = .ok after ∧
      fields after = fields roster ++ [e.decoded] ∧
      forall b, b ∈ after -> b ∈ roster ∨ b.id = attempt.id := by
  unfold addFlagged addAccount
  rw [hwrites]
  refine ⟨_, rfl, ?_⟩
  cases hcatalog : e.catalog with
  | true =>
      have hflag : flagCatalog (e.draft attempt.id).id attempt.now
          (roster ++ [(e.draft attempt.id).record attempt.now]) = _ :=
        flagCatalog_append (a := (e.draft attempt.id).record attempt.now) h
      rw [if_pos rfl, hflag]
      apply fields_added
      unfold ImportEntry.decoded
      rw [hcatalog]
      rfl
  | false =>
      rw [if_neg (by decide)]
      apply fields_added
      unfold ImportEntry.decoded
      rw [hcatalog]
      rfl

/-!
## The whole roster
-/

section Export

variable {attempts : Nat -> Attempt}

/-- The ids of the accounts are those of the first {lit}`k` attempts. -/
def Drawn (attempts : Nat -> Attempt) (k : Nat) (roster : List AccountState) : Prop :=
  forall b, b ∈ roster -> exists j, j < k ∧ b.id = (attempts j).id

theorem Drawn.succ {k : Nat} {roster : List AccountState} (h : Drawn attempts k roster) :
    Drawn attempts (k + 1) roster := by
  intro b hb
  rcases h b hb with ⟨j, hj, hid⟩
  exact ⟨j, Nat.lt_succ_of_lt hj, hid⟩

/-- The next attempt draws an id that no account has. -/
theorem Drawn.fresh {k : Nat} {roster : List AccountState} (h : Drawn attempts k roster)
    (hids : Function.Injective fun i => (attempts i).id) :
    forall b, b ∈ roster -> b.id ≠ (attempts k).id := by
  intro b hb heq
  rcases h b hb with ⟨j, hj, hid⟩
  have hsame := hids (hid.symm.trans heq)
  omega

/-- An account that lacks a field is skipped. -/
theorem importEntry_skipped (attempts : Nat -> Attempt) {a : AccountState}
    (h : ¬ (ImportEntry.ofAccount a).isImportable = true)
    (s : List AccountState × ImportReport) (k : Nat) :
    importEntry [] attempts s (exportEntry a, k) =
      (s.1, { s.2 with
        skipped := s.2.skipped + 1
        errors := s.2.errors ++ [ImportError.missing k] }) := by
  unfold importEntry
  dsimp only
  rw [of_exportEntry, if_pos h]

/-- An account with all fields is added, with its secret decoded. -/
theorem importEntry_added {a : AccountState} {k : Nat}
    (hwrites : (attempts k).failure = none)
    (hids : Function.Injective fun i => (attempts i).id)
    (h : (ImportEntry.ofAccount a).isImportable = true)
    {s : List AccountState × ImportReport} (hs : Drawn attempts k s.1) :
    exists after, importEntry [] attempts s (exportEntry a, k) =
        (after, { s.2 with imported := s.2.imported + 1 }) ∧
      fields after = fields s.1 ++ [(ImportEntry.ofAccount a).decoded] ∧
      Drawn attempts (k + 1) after := by
  rcases addFlagged_fields hwrites (.ofAccount a) (hs.fresh hids) with
    ⟨after, hafter, hfields, hmembers⟩
  refine ⟨after, ?_, hfields, ?_⟩
  · unfold importEntry
    dsimp only
    rw [of_exportEntry, if_neg (not_not_intro h), if_neg List.not_mem_nil, hafter]
  · intro b hb
    rcases hmembers b hb with hold | hnew
    · exact hs.succ b hold
    · exact ⟨k, Nat.lt_succ_self k, hnew⟩

/-- The loop over an export: importable accounts are added with their secrets
decoded, and the others are skipped. -/
theorem importEntries_fields (hwrites : forall i, (attempts i).failure = none)
    (hids : Function.Injective fun i => (attempts i).id) (roster : List AccountState)
    (k : Nat) (s : List AccountState × ImportReport) (hs : Drawn attempts k s.1) :
    let final := ((roster.map exportEntry).zipIdx k).foldl (importEntry [] attempts) s
    fields final.1 = fields s.1 ++
        ((fields roster).filter ImportEntry.isImportable).map ImportEntry.decoded ∧
      final.2.skipped = s.2.skipped +
        (fields roster).countP fun e => !e.isImportable := by
  induction roster generalizing k s with
  | nil =>
      exact ⟨(List.append_nil _).symm, rfl⟩
  | cons a rest ih =>
      have hcons : fields (a :: rest) = .ofAccount a :: fields rest := rfl
      dsimp only
      rw [List.map_cons, List.zipIdx_cons, List.foldl_cons, hcons]
      by_cases himportable : (ImportEntry.ofAccount a).isImportable = true
      · rcases importEntry_added (hwrites k) hids himportable hs with
          ⟨after, hstep, hfields, hnext⟩
        have hlater := ih (k + 1) (after, { s.2 with imported := s.2.imported + 1 }) hnext
        dsimp only at hlater
        rw [hstep, hlater.left, hlater.right, hfields,
          List.filter_cons_of_pos himportable, List.map_cons, List.append_assoc,
          List.countP_cons_of_neg (by simp [himportable])]
        exact ⟨rfl, rfl⟩
      · have hstep := importEntry_skipped attempts himportable s k
        have hnext : Drawn attempts (k + 1)
            (importEntry [] attempts s (exportEntry a, k)).1 := by
          rw [hstep]
          exact hs.succ
        have hlater := ih (k + 1) _ hnext
        dsimp only at hlater
        rw [hlater.left, hlater.right, hstep, List.filter_cons_of_neg himportable,
          List.countP_cons_of_pos (by simp [himportable])]
        refine ⟨rfl, ?_⟩
        dsimp only
        omega

theorem importAccounts_exportAccounts (hwrites : forall i, (attempts i).failure = none)
    (hids : Function.Injective fun i => (attempts i).id) (roster : List AccountState) :
    exists report, (importAccounts [] (exportAccounts roster) attempts).2 = .ok report ∧
      report.skipped = ((fields roster).countP fun e => !e.isImportable) ∧
      fields (importAccounts [] (exportAccounts roster) attempts).1 =
        ((fields roster).filter ImportEntry.isImportable).map ImportEntry.decoded := by
  have hspec := importEntries_fields hwrites hids roster 0 ([], ⟨0, 0, []⟩)
    fun b hb => absurd hb List.not_mem_nil
  dsimp only at hspec
  rw [Nat.zero_add] at hspec
  exact ⟨_, rfl, hspec.right, hspec.left⟩

/-- Decoded secrets that are as long together as before have not changed. -/
theorem decodedAlready_of_perm {entries : List ImportEntry}
    (h : (entries.map ImportEntry.decoded).Perm entries) :
    forall e, e ∈ entries -> DecodedAlready e.clientSecret := by
  have hsum := (h.map secretSize).sum_eq
  rw [List.map_map] at hsum
  intro e he
  by_contra hnot
  have hlt : (entries.map (secretSize ∘ ImportEntry.decoded)).sum <
      (entries.map secretSize).sum := by
    apply List.sum_lt_sum
    · intro e' _
      exact (secretSize_decoded e').left
    · exact ⟨e, he, (secretSize_decoded e).right hnot⟩
  exact absurd hsum (Nat.ne_of_lt hlt)

/-- Importing the export of a roster restores it exactly if every account has a
client, a secret and a refresh token, and no secret would be decoded further. -/
theorem restores_iff (hwrites : forall i, (attempts i).failure = none)
    (hids : Function.Injective fun i => (attempts i).id) (roster : List AccountState) :
    Restores roster attempts <-> forall a, a ∈ roster -> Restorable a := by
  rcases importAccounts_exportAccounts hwrites hids roster with
    ⟨report, hreport, hskipped, hfields⟩
  unfold Restores
  rw [hfields]
  constructor
  · rintro ⟨report', hreport', hzero, hperm⟩ a ha
    rw [hreport] at hreport'
    cases hreport'
    have hall : forall e, e ∈ fields roster -> e.isImportable = true := by
      intro e he
      have hnone := List.countP_eq_zero.mp (hskipped.symm.trans hzero) e he
      rw [Bool.not_eq_true', Bool.not_eq_false] at hnone
      exact hnone
    rw [List.filter_eq_self.mpr hall] at hperm
    have hmem : ImportEntry.ofAccount a ∈ fields roster := List.mem_map_of_mem ha
    rcases of_decide_eq_true (hall _ hmem) with ⟨hclient, hsecret, hrefresh⟩
    exact ⟨hclient, hsecret, hrefresh, decodedAlready_of_perm hperm _ hmem⟩
  · intro hrestorable
    have hall : forall e, e ∈ fields roster -> e.isImportable = true := by
      intro e he
      rcases List.mem_map.mp he with ⟨a, ha, heq⟩
      have hthis := hrestorable a ha
      rw [← heq]
      exact decide_eq_true ⟨hthis.clientId, hthis.clientSecret, hthis.refreshToken⟩
    refine ⟨report, hreport, ?_, ?_⟩
    · rw [hskipped, List.countP_eq_zero]
      intro e he
      rw [hall e he]
      decide
    · rw [List.filter_eq_self.mpr hall]
      have hsame : (fields roster).map ImportEntry.decoded = fields roster := by
        unfold fields
        rw [List.map_map]
        apply List.map_congr_left
        intro a ha
        have hdecoded := (normalizeClientSecret_eq_self_iff _).mpr (hrestorable a ha).decoded
        show ImportEntry.mk _ _ (normalizeClientSecret a.clientSecret) _ _ _ = _
        rw [hdecoded]
        rfl
      rw [hsame]

end Export

/-- Attempts that succeed and draw ids of different lengths. -/
def plainAttempts (i : Nat) : Attempt := ⟨String.ofList (List.replicate i 'x'), 0, none⟩

theorem plainAttempts_injective : Function.Injective fun i => (plainAttempts i).id := by
  intro i j h
  have hlists := String.ofList_injective h
  have hlengths := congrArg List.length hlists
  rw [List.length_replicate, List.length_replicate] at hlengths
  exact hlengths

/-- An account that the owner has added, for metadata only. -/
theorem restores_iff_added :
    Restores
        (created [.adminAdd ⟨some "main", "c", "s%3D", "r", none, some true, none⟩
          ⟨"a", 0, none⟩]) plainAttempts <->
      forall a, a ∈ created [.adminAdd ⟨some "main", "c", "s%3D", "r", none, some true, none⟩
        ⟨"a", 0, none⟩] -> Restorable a :=
  restores_iff (fun _ => rfl) plainAttempts_injective _

/-- The owner has added an account whose secret has an escaped percent sign. -/
theorem not_restores_escaped :
    ¬ Restores
      (created [.adminAdd ⟨some "main", "c", "%2525", "r", none, none, none⟩
        ⟨"a", 0, none⟩]) plainAttempts := by
  rintro ⟨report, _, _, hperm⟩
  have hsecrets := (hperm.map ImportEntry.clientSecret).mem_iff (a := "%25")
  exact absurd hsecrets (by decide)

end Imports

end HifiApi
