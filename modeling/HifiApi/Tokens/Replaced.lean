import HifiApi.Fleet.Restore
import HifiApi.Tokens.Rotation

/-!
# Tokens of replaced credentials

The credentials of an account may be replaced by an edit or by a merge.  A token
that was issued before may still stand in four places: in the slot of a record,
in the row of {lit}`tokens`, in the Redis key, and in a refresh on its way.  The
account is followed on one instance with its refreshes and with the answers of
Redis on their way.  Credentials are numbered by how often they have been
replaced, and every place remembers the number of the credentials that its token
was issued to.
-/

namespace HifiApi

open TokenManager
open AccountState (Credentials)

/-- Which credentials the records and the tokens belong to. -/
structure Provenance where
  /-- How often the credentials have been replaced. -/
  now : Nat
  /-- The credentials of a record. -/
  record : Nat -> Nat
  /-- The credentials that the token in the slot of a record was issued to. -/
  token : Nat -> Nat
  /-- The same for the row in SQLite. -/
  row : Nat
  /-- The same for the Redis key. -/
  key : Nat
  /-- A merge has replaced the credentials, and the row is as before. -/
  leftover : Bool

namespace Provenance

/-- A record has taken the place of another one. -/
def rebuilt (g : Provenance) (p fresh : Nat) (changed leaves : Bool) :
    Provenance :=
  if changed then
    { g with
      now := g.now + 1
      record := Function.update g.record fresh (g.now + 1)
      token := Function.update g.token fresh (g.now + 1)
      leftover := leaves }
  else
    { g with
      record := Function.update g.record fresh (g.record p)
      token := Function.update g.token fresh (g.token p) }

/-- A refresh goes on: it stores its token, or publishes it. -/
def follow (g : Provenance) : Cycle -> Cycle -> Provenance
  | .storing r _ _ _, .publishing _ _ _ =>
      { g with
        token := Function.update g.token r.pointer (g.record r.pointer)
        row := g.record r.pointer
        leftover := false }
  | .publishing r _ _, .ended (.ok _) => { g with key := g.record r.pointer }
  | _, _ => g

end Provenance

/-- One account of one instance. -/
structure TokenRun where
  roster : Roster accounts
  cycles : List Cycle
  /-- The text of the Redis key. -/
  key : Option (Option Value)
  /-- Answers of Redis with the text they carry. -/
  answers : List (Option (Option Value) × Nat)
  provenance : Provenance

inductive TokenAction where
  | updateAccount (label clientId clientSecret refreshToken userId :
      Option String) (now : I64)
  | merge (clock : String -> I64) (text : Option (Option Value))
  | restart
  | refresh (p : Nat)
  | cycle (k : Nat) (e : CycleEvent)
  | cachedToken (p : Nat) (now : I64)
  | getKey
  | sharedToken (p k : Nat) (now : I64) (previous : Option String)
  | rejectAccessToken (p : Nat) (rejected : String)
  /-- The key expires, is deleted, or is written by another instance. -/
  | setKey (text : Option (Option Value)) (credentials : Nat)

/-- The text a refresh publishes. -/
def publishedToken (token : String) (expires : Int) : Value :=
  .object [("t", .string token), ("e", .number expires)]

namespace TokenRun

/-- The roster after an operation that may have replaced the record. -/
def replaced (s : TokenRun) (id : String) (m : Roster accounts) (leaves : Bool) :
    TokenRun :=
  match s.roster.memory.find? id, m.memory.find? id with
  | some p, some q =>
      if q = p then { s with roster := m }
      else
        { s with
          roster := m
          provenance := s.provenance.rebuilt p q
            (decide ((m.memory.cells q).credentials ≠
              (s.roster.memory.cells p).credentials)) leaves }
  | _, _ => { s with roster := m }

def keyAfter (key : Option (Option Value)) : Cycle -> Cycle ->
    Option (Option Value)
  | .publishing _ token expires, .ended (.ok _) =>
      some (some (publishedToken token expires))
  | _, _ => key

/-- The pointer leads to a record of the account. -/
def Holds (s : TokenRun) (id : String) (p : Nat) : Prop :=
  p < s.roster.memory.fresh ∧ (s.roster.memory.cells p).id = id

instance (s : TokenRun) (id : String) (p : Nat) : Decidable (s.Holds id p) :=
  inferInstanceAs (Decidable (_ ∧ _))

def step (id : String) (s : TokenRun) : TokenAction -> Option TokenRun
  | .updateAccount label clientId clientSecret refreshToken userId now =>
      let started := s.roster.startEdit id
        (.updateAccount label clientId clientSecret refreshToken userId) now
      some (s.replaced id started.1 false)
  | .merge clock text =>
      some (s.replaced id (s.roster.mergeOne clock (id, text)) true)
  | .restart =>
      some
        { s with
          roster := s.roster.reload
          cycles := []
          answers := []
          provenance :=
            { s.provenance with
              record := fun _ => s.provenance.now
              token := fun _ => s.provenance.row } }
  | .refresh p =>
      if s.Holds id p then
        let a := s.roster.memory.cells p
        some
          { s with
            cycles :=
              s.cycles ++ [Cycle.sending ⟨p, 0, cycleAttempts a, a.authUseBasic⟩] }
      else none
  | .cycle k e =>
      match s.cycles[k]? with
      | none => none
      | some c =>
          (c.step s.roster e).map fun next =>
            { s with
              roster := next.1
              cycles := s.cycles.set k next.2
              key := keyAfter s.key c next.2
              provenance := s.provenance.follow c next.2 }
  | .cachedToken p _ => if s.Holds id p then some s else none
  | .getKey => some { s with answers := s.answers ++ [(s.key, s.provenance.key)] }
  | .sharedToken p k now previous =>
      if s.Holds id p then
        match s.answers[k]? with
        | none => none
        | some (text, credentials) =>
            match hshared :
                TokenManager.sharedToken now previous text
                  (s.roster.memory.cells p) with
            | none => some s
            | some (a, _) =>
                some
                  { s with
                    roster :=
                      { s.roster with
                        memory := s.roster.memory.write p a (by
                          rcases (sharedToken_eq_some hshared).right with ⟨_, ha⟩
                          rw [ha]) }
                    provenance :=
                      { s.provenance with
                        token :=
                          Function.update s.provenance.token p credentials } }
      else none
  | .rejectAccessToken p rejected =>
      if s.Holds id p then
        some
          { s with
            roster := (s.roster.rewrite p (TokenManager.rejectAccessToken rejected)
              (rejectAccessToken_id rejected)).saveRefreshState p }
      else none
  | .setKey text credentials =>
      some { s with key := text, provenance.key := credentials }

end TokenRun

/-- One account of one instance as a step system. -/
def tokenSystem (id : String) : System TokenRun TokenAction :=
  ⟨TokenRun.step id⟩

namespace TokenRun

/-- The account is known, and nothing is on its way. -/
structure Starts (s : TokenRun) (id : String) : Prop where
  held : exists p row, s.roster.Held id p row
  cycles : s.cycles = []
  answers : s.answers = []
  provenance : s.provenance = ⟨0, fun _ => 0, fun _ => 0, 0, 0, false⟩

/-- A token that the step yields was not issued to replaced credentials. -/
def YieldsCurrent (id : String) (s : TokenRun) : TokenAction -> Prop
  | .cachedToken p now =>
      s.Holds id p ->
        TokenManager.cachedToken now (s.roster.memory.cells p) ≠ none ->
          s.provenance.now ≤ s.provenance.token p
  | .sharedToken p k now previous =>
      forall text credentials, s.answers[k]? = some (text, credentials) ->
        TokenManager.sharedToken now previous text (s.roster.memory.cells p) ≠
            none ->
          s.provenance.now ≤ credentials
  | .restart =>
      forall row, s.roster.table.lookup id = some row -> row.loadedToken ≠ none ->
        s.provenance.now ≤ s.provenance.row
  | _ => True

end TokenRun

/-- No token of replaced credentials is served. -/
def ReplacedNotServed : Prop :=
  forall (id : String) (s : TokenRun) (actions : List TokenAction), s.Starts id ->
    (tokenSystem id).Along (TokenRun.YieldsCurrent id) s actions

namespace TokenRun

/-- A token is taken from a record only while its credentials are the account's
or when it has come from the key since; the key is read only while it holds a
text for these credentials; and the process does not restart on a row that a
merge has left behind.  Places without a usable token do no harm. -/
def SourcesCurrent (id : String) (s : TokenRun) : TokenAction -> Prop
  | .cachedToken p now =>
      s.Holds id p ->
        s.provenance.record p = s.provenance.now ∨
          s.provenance.now ≤ s.provenance.token p ∨
          TokenManager.cachedToken now (s.roster.memory.cells p) = none
  | .sharedToken p k now previous =>
      forall text credentials, s.answers[k]? = some (text, credentials) ->
        s.provenance.now ≤ credentials ∨
          TokenManager.sharedToken now previous text
            (s.roster.memory.cells p) = none
  | .restart =>
      s.provenance.leftover = false ∨
        forall row, s.roster.table.lookup id = some row -> row.loadedToken = none
  | _ => True

/-!
## Where tokens stand
-/

/-- The record that a refresh holds. -/
def pointer? : Cycle -> Option Nat
  | .sending r => some r.pointer
  | .asking r _ => some r.pointer
  | .storing r _ _ _ => some r.pointer
  | .publishing r _ _ => some r.pointer
  | .ended _ => none

/-- The listed record has the account's credentials, and the tokens in records
with these credentials, and in a row that no merge has left behind, were issued
to them. -/
structure Tracks (s : TokenRun) (id : String) : Prop where
  held : exists p row, s.roster.Held id p row
  listed : forall p, s.roster.memory.find? id = some p ->
    s.provenance.record p = s.provenance.now
  bounded : forall p, s.Holds id p -> s.provenance.record p ≤ s.provenance.now
  slots : forall p, s.Holds id p ->
    s.provenance.record p = s.provenance.now ->
      (s.roster.memory.cells p).accessToken ≠ none ->
        s.provenance.now ≤ s.provenance.token p
  row : forall row, s.roster.table.lookup id = some row ->
    s.provenance.leftover = false -> row.token ≠ none ->
      s.provenance.now ≤ s.provenance.row
  stored : s.provenance.row ≤ s.provenance.now
  left : s.provenance.leftover = true -> s.provenance.row < s.provenance.now
  cycles : forall c, c ∈ s.cycles -> forall p, pointer? c = some p -> s.Holds id p

section Steps

variable {s s' : TokenRun} {id : String} {m : Roster accounts}

/-- Ids and tokens stay, in memory and in the rows. -/
structure KeepsTokens (m m' : Roster accounts) : Prop where
  roster : m'.memory.roster = m.memory.roster
  fresh : m'.memory.fresh = m.memory.fresh
  id : forall p, (m'.memory.cells p).id = (m.memory.cells p).id
  token : forall p,
    (m'.memory.cells p).accessToken = (m.memory.cells p).accessToken
  row : forall id row, m.table.lookup id = some row ->
    exists row', m'.table.lookup id = some row' ∧ row'.token = row.token

theorem keepsTokens {m m' : Roster accounts} (h : m.Keeps m') :
    KeepsTokens m m' where
  roster := h.roster
  fresh := h.fresh
  id := fun p => (h.cells p).id
  token := fun p => (h.cells p).accessToken
  row := by
    intro id row hrow
    rcases h.rows id row hrow with ⟨row', hrow', _, htoken⟩
    exact ⟨row', hrow', htoken⟩

theorem KeepsTokens.find? {m m' : Roster accounts} (h : KeepsTokens m m')
    (id : String) : m'.memory.find? id = m.memory.find? id :=
  Roster.find?_congr h.roster h.id id

theorem KeepsTokens.rejectAccessToken (m : Roster accounts) (p : Nat)
    (rejected : String) :
    KeepsTokens m
      ((m.rewrite p (TokenManager.rejectAccessToken rejected)
        (rejectAccessToken_id rejected)).saveRefreshState p) := by
  have hcell : forall q, (Function.update m.memory.cells p
      (TokenManager.rejectAccessToken rejected (m.memory.cells p)) q).id =
        (m.memory.cells q).id ∧
      (Function.update m.memory.cells p
        (TokenManager.rejectAccessToken rejected (m.memory.cells p)) q).accessToken =
        (m.memory.cells q).accessToken := by
    intro q
    by_cases hq : q = p
    · rw [hq, Function.update_self]
      unfold TokenManager.rejectAccessToken
      split <;> exact ⟨rfl, rfl⟩
    · rw [Function.update_of_ne hq]
      exact ⟨rfl, rfl⟩
  constructor
  · rfl
  · rfl
  · exact fun q => (hcell q).left
  · exact fun q => (hcell q).right
  · intro id row hrow
    rcases (Roster.keeps_saveRefreshState (m.rewrite p
      (TokenManager.rejectAccessToken rejected)
      (rejectAccessToken_id rejected)) p).rows id row hrow with
      ⟨row', hrow', _, htoken⟩
    exact ⟨row', hrow', htoken⟩

theorem Holds.keeps {p : Nat} (hkeeps : KeepsTokens s.roster m) :
    p < m.memory.fresh ∧ (m.memory.cells p).id = id <-> s.Holds id p := by
  unfold Holds
  rw [hkeeps.fresh, hkeeps.id p]

/-- A step that leaves ids and tokens alone keeps track of them. -/
theorem Tracks.keeps (h : s.Tracks id) (hkeeps : KeepsTokens s.roster m)
    {cycles : List Cycle}
    (hcycles : forall c, c ∈ cycles -> forall p, pointer? c = some p ->
      s.Holds id p)
    (key : Option (Option Value))
    (answers : List (Option (Option Value) × Nat)) :
    Tracks ⟨m, cycles, key, answers, s.provenance⟩ id := by
  constructor
  · rcases h.held with ⟨p, row, hheld⟩
    rcases hkeeps.row id row hheld.row with ⟨row', hrow', _⟩
    exact ⟨p, row', (hkeeps.find? id).trans hheld.pointer, hrow'⟩
  · intro p hp
    exact h.listed p ((hkeeps.find? id).symm.trans hp)
  · intro p hp
    exact h.bounded p ((Holds.keeps hkeeps).mp hp)
  · intro p hp hrecord htoken
    apply h.slots p ((Holds.keeps hkeeps).mp hp) hrecord
    rw [← hkeeps.token p]
    exact htoken
  · intro row hrow hleft htoken
    rcases h.held with ⟨p, old, hheld⟩
    rcases hkeeps.row id old hheld.row with ⟨row', hrow', hsame⟩
    cases Option.some.inj (hrow.symm.trans hrow')
    apply h.row old hheld.row hleft
    rw [← hsame]
    exact htoken
  · exact h.stored
  · exact h.left
  · intro c hc p hp
    exact (Holds.keeps hkeeps).mpr (hcycles c hc p hp)

/-- What a record that takes the place of another one takes over from it. -/
structure TakesOver (old a : AccountState) (row row' : AccountRow)
    (leaves : Bool) : Prop where
  same : a.credentials = old.credentials -> a.accessToken = old.accessToken
  other : a.credentials ≠ old.credentials -> a.accessToken = none
  row : row'.token ≠ none -> row.token ≠ none
  left : a.credentials ≠ old.credentials -> leaves = false -> row'.token = none

theorem Tracks.replaced (h : s.Tracks id) {p : Nat} {a : AccountState}
    {row row' : AccountRow} {leaves : Bool} (hheld : s.roster.Held id p row)
    (hrebuilt : s.roster.Rebuilt m id a row')
    (htakes : TakesOver (s.roster.memory.cells p) a row row' leaves) :
    (s.replaced id m leaves).Tracks id := by
  have hne : s.roster.memory.fresh ≠ p := Nat.ne_of_gt hheld.lt
  have hold : forall q, q ≠ s.roster.memory.fresh -> q < m.memory.fresh ->
      (m.memory.cells q).id = id -> s.Holds id q ∧
        m.memory.cells q = s.roster.memory.cells q := by
    intro q hq hlt hid
    rw [hrebuilt.fresh] at hlt
    have hlt' : q < s.roster.memory.fresh :=
      lt_of_le_of_ne (Nat.le_of_lt_succ hlt) hq
    have hcell := hrebuilt.others q hlt'
    rw [hcell] at hid
    exact ⟨⟨hlt', hid⟩, hcell⟩
  have hcycles : forall c, c ∈ s.cycles -> forall q, pointer? c = some q ->
      q < m.memory.fresh ∧ (m.memory.cells q).id = id := by
    intro c hc q hq
    have hholds := h.cycles c hc q hq
    constructor
    · rw [hrebuilt.fresh]
      exact Nat.lt_succ_of_lt hholds.left
    · rw [hrebuilt.others q hholds.left]
      exact hholds.right
  unfold TokenRun.replaced
  rw [hheld.pointer, hrebuilt.held.pointer]
  dsimp only
  rw [if_neg hne, hrebuilt.record]
  unfold Provenance.rebuilt
  by_cases hchanged : a.credentials = (s.roster.memory.cells p).credentials
  · rw [if_neg (by simpa using hchanged)]
    constructor
    · exact ⟨_, _, hrebuilt.held⟩
    · intro q hq
      cases Option.some.inj (hrebuilt.held.pointer.symm.trans hq)
      dsimp only
      rw [Function.update_self]
      exact h.listed p hheld.pointer
    · intro q hq
      dsimp only
      rw [Function.update_apply]
      split
      · exact le_of_eq (h.listed p hheld.pointer)
      · rename_i hqne
        exact h.bounded q (hold q hqne hq.left hq.right).left
    · intro q hq hrecord htoken
      dsimp only at hrecord htoken ⊢
      rw [Function.update_apply] at hrecord ⊢
      split
      · rename_i heq
        rw [heq, hrebuilt.record, htakes.same hchanged] at htoken
        exact h.slots p ⟨hheld.lt, hheld.idOf⟩ (h.listed p hheld.pointer) htoken
      · rename_i hqne
        rw [if_neg hqne] at hrecord
        have hq' := hold q hqne hq.left hq.right
        rw [hq'.right] at htoken
        exact h.slots q hq'.left hrecord htoken
    · intro w hw hleft htoken
      cases Option.some.inj (hrebuilt.held.row.symm.trans hw)
      exact h.row row hheld.row hleft (htakes.row htoken)
    · exact h.stored
    · exact h.left
    · exact hcycles
  · rw [if_pos (by simpa using hchanged)]
    constructor
    · exact ⟨_, _, hrebuilt.held⟩
    · intro q hq
      cases Option.some.inj (hrebuilt.held.pointer.symm.trans hq)
      exact Function.update_self ..
    · intro q hq
      dsimp only
      rw [Function.update_apply]
      split
      · exact Nat.le_refl _
      · rename_i hqne
        exact Nat.le_succ_of_le (h.bounded q (hold q hqne hq.left hq.right).left)
    · intro q hq hrecord htoken
      dsimp only at hrecord htoken ⊢
      by_cases hqne : q = s.roster.memory.fresh
      · rw [hqne, hrebuilt.record] at htoken
        exact absurd (htakes.other hchanged) htoken
      · rw [Function.update_of_ne hqne] at hrecord
        have hle := h.bounded q (hold q hqne hq.left hq.right).left
        rw [hrecord] at hle
        exact absurd hle (Nat.not_succ_le_self _)
    · intro w hw hleft htoken
      cases Option.some.inj (hrebuilt.held.row.symm.trans hw)
      exact absurd (htakes.left hchanged hleft) htoken
    · exact Nat.le_succ_of_le h.stored
    · exact fun _ => Nat.lt_succ_of_le h.stored
    · exact hcycles

/-!
## Edits and merges
-/

/-- A rebuilt record keeps the token of the old one exactly with its
credentials. -/
theorem takesOver_carryOver (new : AccountState) {old a : AccountState}
    {row row' : AccountRow} {leaves : Bool} (hnew : new.accessToken = none)
    (hcreds : a.credentials = new.credentials)
    (htoken : a.accessToken = (AccountState.carryOver new old).accessToken)
    (hrow : row'.token ≠ none -> row.token ≠ none)
    (hleft : a.credentials ≠ old.credentials -> leaves = false ->
      row'.token = none) : TakesOver old a row row' leaves := by
  have hcarried := AccountState.carryOver_accessToken new old
  constructor
  · intro hsame
    rw [htoken, hcarried, if_pos (hcreds.symm.trans hsame)]
  · intro hother
    rw [htoken, hcarried, if_neg (fun hsame => hother (hcreds.trans hsame))]
    exact hnew
  · exact hrow
  · exact hleft

theorem tracks_updateAccount (h : s.Tracks id)
    (label clientId clientSecret refreshToken userId : Option String)
    (now : I64) :
    (s.replaced id
      (s.roster.startEdit id
        (.updateAccount label clientId clientSecret refreshToken userId) now).1
      false).Tracks id := by
  rcases h.held with ⟨p, row, hheld⟩
  have hrebuilt := Roster.rebuilt_updateAccount hheld label clientId clientSecret
    refreshToken userId now
  refine h.replaced hheld hrebuilt ?_
  apply takesOver_carryOver (AccountState.new
    (s.roster.memory.cells p).id (label.getD (s.roster.memory.cells p).label)
    (clientId.getD (s.roster.memory.cells p).clientId)
    (clientSecret.getD (s.roster.memory.cells p).clientSecret)
    (refreshToken.getD (s.roster.memory.cells p).refreshToken)
    (userId.or (s.roster.memory.cells p).userId)
    (s.roster.memory.cells p).isActive (s.roster.memory.cells p).notes)
  · rfl
  · exact congrArg AccountState.Shared.credentials
      (AccountState.carryOver_shared _ _)
  · rfl
  · intro htoken hnone
    apply htoken
    unfold AccountRow.saveUpdated
    dsimp only
    rw [hnone]
    split <;> rfl
  · intro hchanged _
    exact if_neg hchanged

theorem tracks_merge (h : s.Tracks id) (clock : String -> I64)
    (text : Option (Option Value)) :
    (s.replaced id (s.roster.mergeOne clock (id, text)) true).Tracks id := by
  rcases h.held with ⟨p, row, hheld⟩
  have hunchanged : forall m, m = s.roster -> (s.replaced id m true).Tracks id := by
    intro m hm
    rw [hm]
    unfold TokenRun.replaced
    rw [hheld.pointer]
    dsimp only
    rw [if_pos rfl]
    exact h
  cases text with
  | none =>
      exact hunchanged _ rfl
  | some payload =>
      cases payload with
      | none =>
          apply hunchanged
          unfold Roster.mergeOne
          dsimp only
          split
          · rfl
          · rename_i hnone
            cases hheld.pointer.symm.trans hnone
      | some v =>
          cases hadopt : RemoteAccount.adopt (s.roster.memory.cells p) v with
          | none =>
              exact hunchanged _
                (Roster.mergeOne_of_adopt_eq_none hheld clock hadopt)
          | some a =>
              have hrebuilt := Roster.rebuilt_mergeOne hheld clock hadopt
              refine h.replaced hheld hrebuilt ?_
              unfold RemoteAccount.adopt at hadopt
              split at hadopt
              · cases hadopt
              · cases hadopt
                apply takesOver_carryOver (RemoteAccount.rebuild
                  (s.roster.memory.cells p).id v)
                · rfl
                · exact congrArg AccountState.Shared.credentials
                    (AccountState.carryOver_shared _ _)
                · rfl
                · exact fun htoken => htoken
                · intro _ hleaves
                  cases hleaves

/-!
## Refreshes
-/

theorem tracks_store (h : s.Tracks id) {r : Refreshing} {oldRefresh : String}
    {rotated : Option String} {token : String} {expires : Int} {now : I64}
    (hstored : s.roster.Stored m r.pointer oldRefresh rotated token expires now)
    (hid : (s.roster.memory.cells r.pointer).id = id) {cycles : List Cycle}
    (hcycles : forall c, c ∈ cycles -> forall p, pointer? c = some p ->
      s.Holds id p)
    (key : Option (Option Value))
    (answers : List (Option (Option Value) × Nat)) :
    Tracks
      ⟨m, cycles, key, answers,
        { s.provenance with
          token := Function.update s.provenance.token r.pointer
            (s.provenance.record r.pointer)
          row := s.provenance.record r.pointer
          leftover := false }⟩ id := by
  have hfind : s.roster.memory.find? id = some r.pointer :=
    Arena.find?_eq_some.mpr ⟨hstored.listed, hid⟩
  have hown := h.listed r.pointer hfind
  have hids : forall q, (m.memory.cells q).id = (s.roster.memory.cells q).id := by
    intro q
    by_cases hq : q = r.pointer
    · rw [hq, hstored.record]
    · rw [hstored.others q hq]
  have hholds : forall q, q < m.memory.fresh ∧ (m.memory.cells q).id = id <->
      s.Holds id q := by
    intro q
    unfold Holds
    rw [hstored.fresh, hids q]
  constructor
  · rcases hstored.agrees with ⟨q, row, hheld, _, _⟩
    rw [hid] at hheld
    exact ⟨q, row, hheld⟩
  · intro q hq
    have hq' := Arena.find?_eq_some.mp hq
    apply h.listed q
    apply Arena.find?_eq_some.mpr
    constructor
    · rw [← hstored.roster]
      exact hq'.left
    · exact (hids q).symm.trans hq'.right
  · intro q hq
    exact h.bounded q ((hholds q).mp hq)
  · intro q hq hrecord htoken
    dsimp only at hrecord ⊢
    rw [Function.update_apply]
    split
    · exact le_of_eq hown.symm
    · rename_i hqne
      rw [hstored.others q hqne] at htoken
      exact h.slots q ((hholds q).mp hq) hrecord htoken
  · intro row _ _ _
    exact le_of_eq hown.symm
  · exact le_of_eq hown
  · intro hleft
    cases hleft
  · intro c hc q hq
    exact (hholds q).mpr (hcycles c hc q hq)

theorem cycles_set (h : s.Tracks id) {k : Nat} {c : Cycle}
    (hk : s.cycles[k]? = some c) (c' : Cycle)
    (hp : forall p, pointer? c' = some p -> pointer? c = some p) :
    forall d, d ∈ s.cycles.set k c' -> forall p, pointer? d = some p ->
      s.Holds id p := by
  intro d hd p hpd
  rcases List.mem_or_eq_of_mem_set hd with hold | hnew
  · exact h.cycles d hold p hpd
  · rw [hnew] at hpd
    exact h.cycles c (List.mem_of_getElem? hk) p (hp p hpd)

/-- The tags do not say what the key holds. -/
theorem Tracks.rekey (h : s.Tracks id) (text : Option (Option Value))
    (credentials : Nat) :
    Tracks
      { s with
        key := text
        provenance := { s.provenance with key := credentials } } id :=
  ⟨h.held, h.listed, h.bounded, h.slots, h.row, h.stored, h.left, h.cycles⟩

theorem tracks_cycle (h : s.Tracks id) {k : Nat} {c c' : Cycle} {e : CycleEvent}
    (hk : s.cycles[k]? = some c) (hstep : c.step s.roster e = some (m, c')) :
    Tracks
      ⟨m, s.cycles.set k c', keyAfter s.key c c', s.answers,
        s.provenance.follow c c'⟩ id := by
  have hended : forall result, forall d, d ∈ s.cycles.set k (.ended result) ->
      forall p, pointer? d = some p -> s.Holds id p :=
    fun result => cycles_set h hk (.ended result) fun p hp => by cases hp
  cases c with
  | sending r =>
      rcases Cycle.step_sending hstep with ⟨hkeeps, rfl | ⟨error, rfl⟩⟩
      · exact h.keeps (keepsTokens hkeeps)
          (cycles_set h hk (.asking r _) fun _ hp => hp) s.key s.answers
      · exact h.keeps (keepsTokens hkeeps) (hended (.error error)) s.key s.answers
  | asking r oldRefresh =>
      rcases Cycle.step_asking hstep with
        ⟨hkeeps, ⟨r', rfl, hr'⟩ | ⟨error, rfl⟩ |
          ⟨now, jitter, response, grant, _, _, rfl⟩⟩
      · refine h.keeps (keepsTokens hkeeps) (cycles_set h hk (.sending r') ?_) s.key
          s.answers
        intro p hp
        rw [← hp]
        exact congrArg some hr'.symm
      · exact h.keeps (keepsTokens hkeeps) (hended (.error error)) s.key s.answers
      · exact h.keeps (keepsTokens hkeeps)
          (cycles_set h hk (.storing r oldRefresh grant _) fun _ hp => hp) s.key
          s.answers
  | storing r oldRefresh grant expires =>
      rcases Cycle.step_storing hstep with
        ⟨now, jitter, _, hok, rfl⟩ | ⟨hkeeps, error, rfl⟩
      · have hheld := h.cycles _ (List.mem_of_getElem? hk) r.pointer rfl
        exact tracks_store h (Roster.stored_of_ok hok) hheld.right
          (cycles_set h hk (.publishing r grant.token expires) fun _ hp => hp)
          s.key s.answers
      · exact h.keeps (keepsTokens hkeeps) (hended (.error error)) s.key s.answers
  | publishing r token expires =>
      rcases Cycle.step_publishing hstep with ⟨hkeeps, result, rfl⟩
      have hnext := h.keeps (keepsTokens hkeeps) (hended result) s.key s.answers
      cases result with
      | error error =>
          exact hnext
      | ok granted =>
          exact hnext.rekey _ _
  | ended result =>
      cases e <;> cases hstep

/-!
## Redis and restarts
-/

theorem tracks_shared (h : s.Tracks id) {p : Nat} {a : AccountState}
    {credentials : Nat} (hid : a.id = (s.roster.memory.cells p).id)
    (hcurrent : s.provenance.now ≤ credentials) :
    Tracks
      { s with
        roster := { s.roster with memory := s.roster.memory.write p a hid }
        provenance :=
          { s.provenance with
            token := Function.update s.provenance.token p credentials } } id := by
  have hcell : forall q, q ≠ p ->
      (s.roster.memory.write p a hid).cells q = s.roster.memory.cells q :=
    fun q hq => Function.update_of_ne hq ..
  have hids : forall q, ((s.roster.memory.write p a hid).cells q).id =
      (s.roster.memory.cells q).id := by
    intro q
    by_cases hq : q = p
    · rw [hq]
      show (Function.update s.roster.memory.cells p a p).id = _
      rw [Function.update_self]
      exact hid
    · rw [hcell q hq]
  have hholds : forall q, q < s.roster.memory.fresh ∧
      ((s.roster.memory.write p a hid).cells q).id = id <-> s.Holds id q := by
    intro q
    unfold Holds
    rw [hids q]
  constructor
  · rcases h.held with ⟨q, row, hheld⟩
    refine ⟨q, row, ?_, hheld.row⟩
    exact (Arena.find?_write s.roster.memory p a hid id).trans hheld.pointer
  · intro q hq
    exact h.listed q ((Arena.find?_write s.roster.memory p a hid id).symm.trans hq)
  · intro q hq
    exact h.bounded q ((hholds q).mp hq)
  · intro q hq hrecord htoken
    dsimp only at hrecord htoken ⊢
    rw [Function.update_apply]
    split
    · exact hcurrent
    · rename_i hqne
      rw [hcell q hqne] at htoken
      exact h.slots q ((hholds q).mp hq) hrecord htoken
  · exact h.row
  · exact h.stored
  · exact h.left
  · intro c hc q hq
    exact (hholds q).mpr (h.cycles c hc q hq)

/-- The records after a restart are those of the rows. -/
theorem reload_cells (m : Roster accounts) :
    m.reload.memory.Holds fun a => a.id = id ->
      exists row, m.table.lookup id = some row ∧ a = row.load := by
  refine Arena.holds_ofRecords (Roster.nodup_loaded m.table) ?_
  intro a ha hid
  rcases List.mem_map.mp ha with ⟨row, hrow, hload⟩
  refine ⟨row, Table.lookup_eq_some.mpr ⟨Table.mem_ordered.mp hrow, ?_⟩,
    hload.symm⟩
  rw [← hid, ← hload]
  rfl

theorem load_accessToken (row : AccountRow) :
    row.load.accessToken = row.loadedToken.map TokenRow.accessToken := rfl

theorem loadedToken_eq_none {row : AccountRow} (h : row.token = none) :
    row.loadedToken = none := by
  unfold AccountRow.loadedToken
  rw [h]
  rfl

theorem tracks_restart (h : s.Tracks id) (hsafe : SourcesCurrent id s .restart) :
    Tracks
      ⟨s.roster.reload, [], s.key, [],
        { s.provenance with
          record := fun _ => s.provenance.now
          token := fun _ => s.provenance.row }⟩ id := by
  rcases h.held with ⟨p, row, hheld⟩
  have hlookup := Roster.lookup_reload s.roster id
  have hrow := Roster.row_reload s.roster id
  rw [hheld.row] at hlookup hrow
  constructor
  · rcases Option.map_eq_some_iff.mp hlookup with ⟨q, hq, _⟩
    exact ⟨q, _, hq, hrow⟩
  · exact fun _ _ => rfl
  · exact fun _ _ => Nat.le_refl _
  · intro q hq _ htoken
    rcases reload_cells s.roster q hq.left hq.right with ⟨w, hw, hcell⟩
    cases Option.some.inj (hheld.row.symm.trans hw)
    have hloaded : row.loadedToken ≠ none := by
      intro hnone
      apply htoken
      rw [hcell, load_accessToken, hnone]
      rfl
    rcases hsafe with hleft | hnone
    · exact h.row row hheld.row hleft fun hnone =>
        hloaded (loadedToken_eq_none hnone)
    · exact absurd (hnone row hheld.row) hloaded
  · intro w hw hleft htoken
    cases Option.some.inj (hrow.symm.trans hw)
    exact h.row row hheld.row hleft htoken
  · exact h.stored
  · exact h.left
  · intro c hc
    cases hc

/-!
## Steps and runs
-/

variable {a : TokenAction}

theorem tracks_step (h : s.Tracks id) (hsafe : SourcesCurrent id s a)
    (hstep : (tokenSystem id).step s a = some s') : s'.Tracks id := by
  have hnext : s.step id a = some s' := hstep
  cases a with
  | updateAccount label clientId clientSecret refreshToken userId now =>
      cases hnext
      exact tracks_updateAccount h label clientId clientSecret refreshToken userId
        now
  | merge clock text =>
      cases hnext
      exact tracks_merge h clock text
  | restart =>
      cases hnext
      exact tracks_restart h hsafe
  | refresh p =>
      simp only [step] at hnext
      split at hnext
      · rename_i hp
        cases hnext
        refine h.keeps (keepsTokens (Roster.Keeps.refl _)) ?_ s.key s.answers
        intro c hc q hq
        rcases List.mem_append.mp hc with hold | hnew
        · exact h.cycles c hold q hq
        · rw [List.mem_singleton.mp hnew] at hq
          cases hq
          exact hp
      · cases hnext
  | cycle k e =>
      simp only [step] at hnext
      split at hnext
      · cases hnext
      · rename_i c hk
        rcases Option.map_eq_some_iff.mp hnext with ⟨next, hcycle, hs'⟩
        rw [← hs']
        exact tracks_cycle h hk hcycle
  | cachedToken p now =>
      simp only [step] at hnext
      split at hnext
      · cases hnext
        exact h
      · cases hnext
  | getKey =>
      cases hnext
      exact h.keeps (keepsTokens (Roster.Keeps.refl _)) h.cycles s.key _
  | sharedToken p k now previous =>
      simp only [step] at hnext
      split at hnext
      · split at hnext
        · cases hnext
        · rename_i text credentials hk
          split at hnext
          · cases hnext
            exact h
          · rename_i held token hshared
            cases hnext
            apply tracks_shared h
            rcases hsafe text credentials hk with hcurrent | hnone
            · exact hcurrent
            · rw [hshared] at hnone
              cases hnone
      · cases hnext
  | rejectAccessToken p rejected =>
      simp only [step] at hnext
      split at hnext
      · cases hnext
        exact h.keeps (KeepsTokens.rejectAccessToken s.roster p rejected) h.cycles
          s.key s.answers
      · cases hnext
  | setKey text credentials =>
      cases hnext
      exact h.rekey text credentials

/-- While the tokens are tracked, a step yields one of replaced credentials
exactly when it takes it from one of the three places. -/
theorem yieldsCurrent_iff (h : s.Tracks id) :
    YieldsCurrent id s a <-> SourcesCurrent id s a := by
  cases a with
  | cachedToken p now =>
      constructor
      · intro hyields hp
        by_cases hnone : TokenManager.cachedToken now (s.roster.memory.cells p) = none
        · exact Or.inr (Or.inr hnone)
        · exact Or.inr (Or.inl (hyields hp hnone))
      · intro hsources hp hsome
        rcases hsources hp with hrecord | htoken | hnone
        · apply h.slots p hp hrecord
          intro hempty
          apply hsome
          unfold TokenManager.cachedToken
          rw [hempty]
        · exact htoken
        · exact absurd hnone hsome
  | sharedToken p k now previous =>
      constructor
      · intro hyields text credentials hk
        by_cases hnone : TokenManager.sharedToken now previous text
            (s.roster.memory.cells p) = none
        · exact Or.inr hnone
        · exact Or.inl (hyields text credentials hk hnone)
      · intro hsources text credentials hk hsome
        rcases hsources text credentials hk with hcurrent | hnone
        · exact hcurrent
        · exact absurd hnone hsome
  | restart =>
      constructor
      · intro hyields
        cases hleft : s.provenance.leftover with
        | false =>
            exact Or.inl hleft
        | true =>
            right
            intro row hrow
            by_cases hnone : row.loadedToken = none
            · exact hnone
            · exact absurd (hyields row hrow hnone) (Nat.not_le_of_lt (h.left hleft))
      · intro hsources row hrow hsome
        rcases hsources with hleft | hnone
        · exact h.row row hrow hleft fun hempty => hsome (loadedToken_eq_none hempty)
        · exact absurd (hnone row hrow) hsome
  | _ =>
      exact Iff.rfl

theorem Starts.tracks (h : s.Starts id) : s.Tracks id := by
  rcases s with ⟨roster, cycles, key, answers, provenance⟩
  cases h.provenance
  cases h.cycles
  constructor
  · exact h.held
  · exact fun _ _ => rfl
  · exact fun _ _ => Nat.le_refl _
  · exact fun _ _ _ _ => Nat.le_refl _
  · exact fun _ _ _ _ => Nat.le_refl _
  · exact Nat.le_refl _
  · intro hleft
    cases hleft
  · intro c hc
    cases hc

end Steps

/-- One account without a token. -/
def loaded : TokenRun where
  roster := Roster.reload ⟨Arena.empty, oneRow⟩
  cycles := []
  key := none
  answers := []
  provenance := ⟨0, fun _ => 0, fun _ => 0, 0, 0, false⟩

theorem starts_loaded : loaded.Starts "a" :=
  ⟨⟨0, _, rfl, rfl⟩, rfl, rfl, rfl⟩

/-- A refresh that stores its token. -/
def storing : List TokenAction :=
  [.refresh 0, .cycle 0 .send, .cycle 0 (.answer 0 0 (.ok RefreshRun.rotation)),
    .cycle 0 (.store 0 0)]

/-- The record of another instance, with another secret. -/
def otherSecret : Value :=
  accountToJson
    (NewAccount.record ⟨"a", "first", "c", "s2", "r", none⟩ (.ofNat 2))

end TokenRun

end HifiApi
