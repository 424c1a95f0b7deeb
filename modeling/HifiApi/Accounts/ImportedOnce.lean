import HifiApi.Accounts.Imports
import Mathlib.Data.List.Nodup

/-!
# One account a refresh token

Two accounts with one refresh token would invalidate each other.  The import of a
list compares its entries with the accounts from before it, the import of the
token file with all that it has seen; only the second one keeps the tokens of
the roster distinct for every list.
-/

namespace HifiApi

namespace Imports

/-- After an import the refresh tokens are distinct, every importable one is there
once, and as many accounts have come in as are counted. -/
structure ImportsOnce (before after : List AccountState) (importable : List String)
    (imported : Nat) : Prop where
  distinct : (tokens after).Nodup
  present : forall token, token ∈ importable -> (tokens after).count token = 1
  counted : exists added, tokens after = tokens before ++ added ∧
    added.length = imported

/-- The refresh tokens of the entries that {lit}`import_accounts` may import. -/
def importableTokens (entries : List Value) : List String :=
  ((entries.map ImportEntry.of).filter ImportEntry.isImportable).map
    ImportEntry.refreshToken

/-- Those of them that the roster does not have. -/
def newTokens (roster : List AccountState) (entries : List Value) : List String :=
  (importableTokens entries).filter fun token => token ∉ tokens roster

/-- The refresh tokens of the entries that the token file may add. -/
def readableTokens (env : TokenEnv) (entries : List Value) : List String :=
  ((entries.map (tokenEntry env)).filter ImportEntry.isReadable).map
    ImportEntry.refreshToken

def ImportReport.count (answer : Except AppError ImportReport) : Nat :=
  match answer with
  | .ok report => report.imported
  | .error _ => 0

/-!
## One account
-/

theorem tokens_append (first second : List AccountState) :
    tokens (first ++ second) = tokens first ++ tokens second :=
  List.map_append

theorem tokens_modify {f : AccountState -> AccountState}
    (hf : forall a, (f a).refreshToken = a.refreshToken)
    (roster : List AccountState) (i : Nat) :
    tokens (roster.modify i f) = tokens roster := by
  unfold tokens
  apply List.ext_getElem?
  intro j
  rw [List.getElem?_map, List.getElem?_map, List.getElem?_modify]
  cases roster[j]? with
  | none =>
      rfl
  | some a =>
      show some (AccountState.refreshToken (if i = j then f a else a)) = _
      split
      · rw [hf]
        rfl
      · rfl

theorem tokens_flagCatalog (id : String) (now : I64) (roster : List AccountState) :
    tokens (flagCatalog id now roster) = tokens roster := by
  unfold flagCatalog
  split
  · apply tokens_modify
    intro a
    rfl
  · rfl

/-- An attempt whose writes succeed adds one account. -/
theorem addFlagged_of_writes {attempt : Attempt} (h : attempt.failure = none)
    (d : NewAccount) (catalog : Bool) (roster : List AccountState) :
    exists after, addFlagged d catalog attempt roster = .ok after ∧
      tokens after = tokens roster ++ [d.refreshToken] := by
  unfold addFlagged addAccount
  rw [h]
  refine ⟨_, rfl, ?_⟩
  cases catalog with
  | true =>
      rw [if_pos rfl, tokens_flagCatalog, tokens_append]
      rfl
  | false =>
      rw [if_neg (by decide), tokens_append]
      rfl

/-!
## The import of a list
-/

section Lists

variable (existing : List String) {attempts : Nat -> Attempt}

/-- One round adds the token of its entry, unless that is known or the entry
misses a field. -/
theorem importEntry_spec (hwrites : forall i, (attempts i).failure = none)
    (s : List AccountState × ImportReport) (entry : Value × Nat) :
    let added := (importableTokens [entry.1]).filter fun token => token ∉ existing
    tokens (importEntry existing attempts s entry).1 = tokens s.1 ++ added ∧
      (importEntry existing attempts s entry).2.imported =
        s.2.imported + added.length := by
  unfold importableTokens importEntry
  rw [List.map_singleton]
  by_cases himportable : (ImportEntry.of entry.1).isImportable = true
  · rw [List.filter_cons_of_pos himportable, List.filter_nil, List.map_singleton]
    dsimp only
    rw [if_neg (not_not_intro himportable)]
    by_cases hknown : (ImportEntry.of entry.1).refreshToken ∈ existing
    · rw [if_pos hknown, List.filter_cons_of_neg (by simpa using hknown)]
      exact ⟨(List.append_nil _).symm, rfl⟩
    · rcases addFlagged_of_writes (hwrites entry.2)
        ((ImportEntry.of entry.1).draft (attempts entry.2).id)
        (ImportEntry.of entry.1).catalog s.1 with ⟨after, hafter, htokens⟩
      rw [if_neg hknown, List.filter_cons_of_pos (by simpa using hknown), hafter]
      exact ⟨htokens, rfl⟩
  · rw [List.filter_cons_of_neg himportable]
    dsimp only
    rw [if_pos himportable]
    exact ⟨(List.append_nil _).symm, rfl⟩

theorem importableTokens_cons (entry : Value) (rest : List Value) :
    importableTokens (entry :: rest) =
      importableTokens [entry] ++ importableTokens rest := by
  unfold importableTokens
  rw [← List.map_append, ← List.filter_append]
  rfl

theorem importEntries_spec (hwrites : forall i, (attempts i).failure = none)
    (entries : List (Value × Nat)) (s : List AccountState × ImportReport) :
    let added := (importableTokens (entries.map Prod.fst)).filter fun token =>
      token ∉ existing
    tokens (entries.foldl (importEntry existing attempts) s).1 = tokens s.1 ++ added ∧
      (entries.foldl (importEntry existing attempts) s).2.imported =
        s.2.imported + added.length := by
  induction entries generalizing s with
  | nil =>
      exact ⟨(List.append_nil _).symm, rfl⟩
  | cons entry rest ih =>
      have hfirst := importEntry_spec existing hwrites s entry
      have hrest := ih (importEntry existing attempts s entry)
      have hcons := importableTokens_cons entry.1 (rest.map Prod.fst)
      dsimp only at hfirst hrest ⊢
      rw [List.foldl_cons, hrest.left, hrest.right, hfirst.left, hfirst.right,
        List.map_cons, hcons, List.filter_append, List.length_append,
        List.append_assoc, Nat.add_assoc]
      exact ⟨rfl, rfl⟩

end Lists

/-- The entries of a body without a list are none. -/
def entriesOf (body : Value) : List Value := (importList body).getD []

theorem importAccounts_spec {attempts : Nat -> Attempt}
    (hwrites : forall i, (attempts i).failure = none) (roster : List AccountState)
    (body : Value) :
    tokens (importAccounts roster body attempts).1 =
        tokens roster ++ newTokens roster (entriesOf body) ∧
      ImportReport.count (importAccounts roster body attempts).2 =
        (newTokens roster (entriesOf body)).length := by
  unfold importAccounts entriesOf
  cases importList body with
  | none =>
      exact ⟨(List.append_nil _).symm, rfl⟩
  | some entries =>
      have hspec := importEntries_spec (tokens roster) hwrites entries.zipIdx
        (roster, ⟨0, 0, []⟩)
      rw [List.zipIdx_map_fst] at hspec
      dsimp only at hspec ⊢
      rw [Nat.zero_add] at hspec
      exact hspec

/-- The import of a list keeps tokens distinct exactly if the new ones are. -/
theorem importAccounts_once_iff {attempts : Nat -> Attempt}
    (hwrites : forall i, (attempts i).failure = none) {roster : List AccountState}
    (hdistinct : (tokens roster).Nodup) (body : Value) :
    ImportsOnce roster (importAccounts roster body attempts).1
        (importableTokens (entriesOf body))
        (ImportReport.count (importAccounts roster body attempts).2) <->
      (newTokens roster (entriesOf body)).Nodup := by
  rcases importAccounts_spec hwrites roster body with ⟨htokens, hcount⟩
  constructor
  · intro h
    have hafter := h.distinct
    rw [htokens] at hafter
    exact (List.nodup_append.mp hafter).right.left
  · intro hnew
    have hafter : (tokens (importAccounts roster body attempts).1).Nodup := by
      rw [htokens]
      refine List.nodup_append.mpr ⟨hdistinct, hnew, ?_⟩
      intro token hold token' hfresh heq
      have hnot := of_decide_eq_true (List.mem_filter.mp hfresh).right
      rw [heq] at hold
      exact hnot hold
    refine ⟨hafter, ?_, newTokens roster (entriesOf body), htokens, hcount.symm⟩
    intro token hmem
    apply List.count_eq_one_of_mem hafter
    rw [htokens]
    by_cases hold : token ∈ tokens roster
    · exact List.mem_append_left _ hold
    · exact List.mem_append_right _ (List.mem_filter.mpr ⟨hmem, decide_eq_true hold⟩)

/-!
## The token file
-/

section Files

variable (env : TokenEnv) {attempts : Nat -> Attempt} {roster : List AccountState}

/-- The loop has seen the tokens of the roster, which are distinct, and has added
as many as it counts. -/
structure ScanKeeps (roster : List AccountState) (s : TokenScan) : Prop where
  distinct : (tokens s.roster).Nodup
  seen : forall token, token ∈ s.seen <-> token ∈ tokens s.roster
  counted : exists added, tokens s.roster = tokens roster ++ added ∧
    added.length = s.imported

/-- One round keeps this, keeps what is seen, and has seen the token of its entry. -/
theorem scanEntry_keeps (hwrites : forall i, (attempts i).failure = none)
    {s : TokenScan} (h : ScanKeeps roster s) (entry : Value × Nat) :
    ScanKeeps roster (scanEntry env attempts s entry) ∧
      (forall token, token ∈ s.seen ->
        token ∈ (scanEntry env attempts s entry).seen) ∧
      ((tokenEntry env entry.1).isReadable = true ->
        (tokenEntry env entry.1).refreshToken ∈
          (scanEntry env attempts s entry).seen) := by
  unfold scanEntry
  dsimp only
  split
  · rename_i hskip
    refine ⟨h, fun _ hseen => hseen, ?_⟩
    intro hreadable
    rcases hskip with hnot | hknown
    · exact absurd hreadable hnot
    · exact hknown
  · rename_i hadd
    rw [not_or, not_not] at hadd
    rcases addFlagged_of_writes (hwrites entry.2)
      ((tokenEntry env entry.1).draft (attempts entry.2).id)
      (tokenEntry env entry.1).catalog s.roster with ⟨after, hafter, htokens⟩
    rw [hafter]
    dsimp only
    have htoken : ((tokenEntry env entry.1).draft (attempts entry.2).id).refreshToken =
        (tokenEntry env entry.1).refreshToken := rfl
    rw [htoken] at htokens
    refine ⟨⟨?_, ?_, ?_⟩, fun _ hseen => List.mem_cons_of_mem _ hseen,
      fun _ => List.mem_cons_self⟩
    · rw [htokens]
      refine List.nodup_append.mpr ⟨h.distinct, List.nodup_singleton _, ?_⟩
      intro token hold token' hnew heq
      rw [List.mem_singleton.mp hnew] at heq
      rw [heq, ← h.seen] at hold
      exact hadd.right hold
    · intro token
      rw [htokens, List.mem_cons, List.mem_append, List.mem_singleton, h.seen, or_comm]
    · rcases h.counted with ⟨added, hadded, hlength⟩
      refine ⟨added ++ [(tokenEntry env entry.1).refreshToken], ?_, ?_⟩
      · rw [htokens, hadded, List.append_assoc]
      · rw [List.length_append, hlength]
        rfl

theorem scanEntries_keeps (hwrites : forall i, (attempts i).failure = none)
    (entries : List (Value × Nat)) {s : TokenScan} (h : ScanKeeps roster s) :
    ScanKeeps roster (entries.foldl (scanEntry env attempts) s) ∧
      (forall token, token ∈ s.seen ->
        token ∈ (entries.foldl (scanEntry env attempts) s).seen) ∧
      forall token, token ∈ readableTokens env (entries.map Prod.fst) ->
        token ∈ (entries.foldl (scanEntry env attempts) s).seen := by
  induction entries generalizing s with
  | nil =>
      exact ⟨h, fun _ hseen => hseen, fun _ hmem => absurd hmem List.not_mem_nil⟩
  | cons entry rest ih =>
      rcases scanEntry_keeps env hwrites h entry with ⟨hkeeps, hgrows, hthis⟩
      rcases ih hkeeps with ⟨hfinal, hgrows', hlater⟩
      rw [List.foldl_cons]
      refine ⟨hfinal, fun token hseen => hgrows' token (hgrows token hseen), ?_⟩
      intro token hmem
      unfold readableTokens at hmem
      rcases List.mem_map.mp hmem with ⟨e, he, htoken⟩
      rw [List.mem_filter, List.map_cons, List.map_cons, List.mem_cons] at he
      rcases he with ⟨hfirst | hrest, hreadable⟩
      · rw [hfirst] at hreadable htoken
        rw [← htoken]
        exact hgrows' _ (hthis hreadable)
      · apply hlater
        exact List.mem_map.mpr ⟨e, List.mem_filter.mpr ⟨hrest, hreadable⟩, htoken⟩

/-- The token file keeps tokens distinct. -/
theorem importTokenFile_once (hwrites : forall i, (attempts i).failure = none)
    (hdistinct : (tokens roster).Nodup) (file : Option Value) :
    ImportsOnce roster (importTokenFile env roster file attempts).roster
      (readableTokens env (tokenFileEntries file))
      (importTokenFile env roster file attempts).imported := by
  have hstart : ScanKeeps roster ⟨roster, tokens roster, 0⟩ :=
    ⟨hdistinct, fun _ => Iff.rfl, [], (List.append_nil _).symm, rfl⟩
  rcases scanEntries_keeps env hwrites (tokenFileEntries file).zipIdx hstart with
    ⟨hkeeps, _, hseen⟩
  rw [List.zipIdx_map_fst] at hseen
  refine ⟨hkeeps.distinct, ?_, hkeeps.counted⟩
  intro token hmem
  exact List.count_eq_one_of_mem hkeeps.distinct
    ((hkeeps.seen token).mp (hseen token hmem))

end Files

/-- One account, given to both imports. -/
def oneEntry : Value :=
  .object [("client_id", .string "c"), ("client_secret", .string "s"),
    ("refresh_token", .string "r")]

end Imports

end HifiApi
