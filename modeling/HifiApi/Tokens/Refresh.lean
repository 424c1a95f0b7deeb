import HifiApi.Accounts.Shared
import HifiApi.Fleet.Protocol
import HifiApi.Tokens.Manager

/-!
# A refresh of a shared record

A refresh holds a pointer to the record it has started with.  The store step
asks whether the roster still lists that pointer; everything else is written
into the record behind it, listed or not.
-/

namespace HifiApi

open AccountState (Credentials)

/-!
## Records behind pointers
-/

namespace Roster

/-- Change the record behind a pointer, for the roster and for every holder. -/
def rewrite (m : Roster accounts) (p : Nat) (f : AccountState -> AccountState)
    (hf : forall a, (f a).id = a.id) : Roster accounts :=
  { m with memory := m.memory.write p (f (m.memory.cells p)) (hf _) }

theorem persistRefreshState_id (a : AccountState) (row : AccountRow) :
    (AccountRow.persistRefreshState a row).id = row.id := by
  unfold AccountRow.persistRefreshState
  split <;> rfl

/-- {lit}`persist_refresh_state` of the record behind a pointer. -/
def saveRefreshState (m : Roster accounts) (p : Nat) : Roster accounts :=
  let a := m.memory.cells p
  { m with
    table := m.table.update a.id (AccountRow.persistRefreshState a)
      (persistRefreshState_id a) }

theorem storeRefreshedCredentials_id {oldRefresh : String}
    {rotated : Option String} {token : String} {expiresAt : Int} {now : I64}
    {a a' : AccountState}
    (h : a.storeRefreshedCredentials oldRefresh rotated token expiresAt now =
      some a') : a'.id = a.id :=
  (AccountEdit.apply_stamps
    (e := .storeRefreshedCredentials oldRefresh rotated token expiresAt)
    h).left

/-- {lit}`store_refreshed_credentials`: the roster must list the pointer, the
refresh token must be the one that was sent, and so must be the row's. -/
def storeRefreshedCredentials (m : Roster accounts) (expected : Nat)
    (oldRefresh : String) (rotated : Option String) (token : String)
    (expiresAt : Int) (now : I64) : Except AppError (Roster accounts) :=
  if expected ∉ m.memory.roster then
    .error (.serviceUnavailable "Account changed during refresh")
  else
    let a := m.memory.cells expected
    match hstore : a.storeRefreshedCredentials oldRefresh rotated token expiresAt
        now with
    | none => .error (.serviceUnavailable "Credentials changed during refresh")
    | some a' =>
        if (m.table.lookup a.id).any (AccountRow.matchesSent · a oldRefresh) then
          .ok
            { memory := m.memory.write expected a'
                (storeRefreshedCredentials_id hstore)
              table := m.table.update a.id
                (AccountRow.persistToken a oldRefresh rotated token expiresAt now)
                (fun _ => rfl) }
        else
          .error
            (.serviceUnavailable "Account credentials changed during refresh")

/-- A background mutation of a record, while the roster lists it. -/
def editListed (m : Roster accounts) (p : Nat) (e : AccountEdit) (now : I64) :
    Roster accounts :=
  if p ∈ m.memory.roster then
    let a := m.memory.cells p
    match hedit : e.apply now a with
    | none => m
    | some a' =>
        { memory := m.memory.write p a' (AccountEdit.apply_stamps hedit).left
          table := m.table.update a.id (e.save now a a')
            (AccountEdit.save_id e now a a') }
  else m

/-- The end of a refresh that failed. -/
def failRefresh (m : Roster accounts) (p : Nat) (now : I64) (jitter : Nat)
    (error : AppError) : Roster accounts :=
  let disabled :=
    if TokenManager.disablesAccount error then
      m.editListed p (.setSystemDisabled true) now
    else m
  (disabled.rewrite p (TokenManager.failRefresh now jitter error)
    fun a => (TokenManager.failRefresh_sameToken now jitter error a).id)
    |>.saveRefreshState p

end Roster

/-!
## The cycle
-/

/-- A refresh: the record it holds, its attempts, and the form of its next
request. -/
structure Refreshing where
  pointer : Nat
  attempt : Nat
  attempts : Nat
  useBasic : Bool

/-- Where a refresh has got to. -/
inductive Cycle where
  | sending (r : Refreshing)
  /-- The request is out, with the refresh token read before. -/
  | asking (r : Refreshing) (oldRefresh : String)
  /-- The answer has been read; the store step waits for the roster lock. -/
  | storing (r : Refreshing) (oldRefresh : String) (grant : TokenManager.Grant)
      (expiresAt : Int)
  /-- The token is stored; it goes to Redis. -/
  | publishing (r : Refreshing) (token : String) (expiresAt : Int)
  | ended (result : Except AppError String)

/-- What happens to a refresh. -/
inductive CycleEvent where
  | send
  | answer (now : I64) (jitter : Nat)
      (response : Except TokenManager.TokenAttemptFailure
        TokenManager.AuthResponse)
  | store (now : I64) (jitter : Nat)
  | publish
  /-- The deadline of 45 seconds has passed. -/
  | timeout (now : I64) (jitter : Nat)

namespace Cycle

open TokenManager

/-- An attempt has failed: another one follows, or the refresh ends. -/
def failAttempt (m : Roster accounts) (r : Refreshing) (now : I64)
    (jitter : Nat) (failure : TokenAttemptFailure) : Roster accounts × Cycle :=
  let noted := m.rewrite r.pointer (noteFailure failure r.useBasic)
    fun a => (noteFailure_sameToken failure r.useBasic a).id
  if retries failure r.attempt r.attempts then
    (noted,
      .sending
        { r with
          attempt := r.attempt + 1
          useBasic := if failure.forbidden then !r.useBasic else r.useBasic })
  else
    (noted.failRefresh r.pointer now jitter failure.error,
      .ended (.error failure.error))

def step (m : Roster accounts) : Cycle -> CycleEvent ->
    Option (Roster accounts × Cycle)
  | .sending r, .send =>
      some (m, .asking r (m.memory.cells r.pointer).refreshToken)
  | .asking r _, .answer now jitter (.error failure) =>
      some (failAttempt m r now jitter failure)
  | .asking r oldRefresh, .answer now jitter (.ok response) =>
      let m' := m.rewrite r.pointer (fun a => (readAnswer now response a).1)
        fun a => (readAnswer_sameToken now response a).id
      match (readAnswer now response (m.memory.cells r.pointer)).2 with
      | .error failure => some (failAttempt m' r now jitter failure)
      | .ok grant =>
          some (m', .storing r oldRefresh grant (expiresAt now grant.expiresIn))
  | .storing r oldRefresh grant expires, .store now jitter =>
      match m.storeRefreshedCredentials r.pointer oldRefresh grant.rotated
          grant.token expires now with
      | .error e => some (failAttempt m r now jitter (nonRetryableAttempt e))
      | .ok m' => some (m', .publishing r grant.token expires)
  | .publishing r token _, .publish =>
      some
        (m.rewrite r.pointer (finishRefresh r.useBasic)
          fun a => (finishRefresh_sameToken r.useBasic a).id,
          .ended (.ok token))
  | .sending r, .timeout now jitter
  | .asking r _, .timeout now jitter
  | .storing r _ _ _, .timeout now jitter
  | .publishing r _ _, .timeout now jitter =>
      some (m.failRefresh r.pointer now jitter .timeout, .ended (.error .timeout))
  | _, _ => none

end Cycle

/-!
## What a refresh leaves alone
-/

/-- The roster lists the same pointers, and credentials and tokens stay, in
memory and in the rows. -/
structure Roster.Keeps (m m' : Roster accounts) : Prop where
  roster : m'.memory.roster = m.memory.roster
  fresh : m'.memory.fresh = m.memory.fresh
  cells : forall p,
    TokenManager.SameToken (m.memory.cells p) (m'.memory.cells p)
  rows : forall id row, m.table.lookup id = some row ->
    exists row', m'.table.lookup id = some row' ∧
      row'.credentials = row.credentials ∧ row'.token = row.token

namespace Roster

open TokenManager (SameToken)

theorem Keeps.refl (m : Roster accounts) : m.Keeps m where
  roster := rfl
  fresh := rfl
  cells := fun _ => ⟨rfl, rfl, rfl, rfl⟩
  rows := fun _ row hrow => ⟨row, hrow, rfl, rfl⟩

theorem Keeps.trans {m m' m'' : Roster accounts} (h : m.Keeps m')
    (h' : m'.Keeps m'') : m.Keeps m'' where
  roster := h'.roster.trans h.roster
  fresh := h'.fresh.trans h.fresh
  cells := fun p =>
    ⟨(h'.cells p).id.trans (h.cells p).id,
      (h'.cells p).credentials.trans (h.cells p).credentials,
      (h'.cells p).accessToken.trans (h.cells p).accessToken,
      (h'.cells p).rejected.trans (h.cells p).rejected⟩
  rows := by
    intro id row hrow
    rcases h.rows id row hrow with ⟨row', hrow', hcreds, htoken⟩
    rcases h'.rows id row' hrow' with ⟨row'', hrow'', hcreds', htoken'⟩
    exact ⟨row'', hrow'', hcreds'.trans hcreds, htoken'.trans htoken⟩

theorem keeps_write {m : Roster accounts} {p : Nat} {a : AccountState}
    (ha : SameToken (m.memory.cells p) a) (hid : a.id = (m.memory.cells p).id) :
    m.Keeps { m with memory := m.memory.write p a hid } where
  roster := rfl
  fresh := rfl
  cells := by
    intro q
    by_cases hq : q = p
    · subst hq
      simpa [Arena.write] using ha
    · simpa [Arena.write, hq] using (Keeps.refl m).cells q
  rows := (Keeps.refl m).rows

theorem keeps_update {m : Roster accounts} {id : String}
    {f : AccountRow -> AccountRow} (hid : forall row, (f row).id = row.id)
    (hf : forall row, (f row).credentials = row.credentials ∧
      (f row).token = row.token) :
    m.Keeps { m with table := m.table.update id f hid } where
  roster := rfl
  fresh := rfl
  cells := (Keeps.refl m).cells
  rows := by
    intro id' row hrow
    dsimp only
    rw [Table.lookup_update]
    split
    · rw [hrow]
      exact ⟨f row, rfl, (hf row).left, (hf row).right⟩
    · exact ⟨row, hrow, rfl, rfl⟩

theorem keeps_rewrite {m : Roster accounts} {p : Nat}
    {f : AccountState -> AccountState} (hf : forall a, (f a).id = a.id)
    (hsame : forall a, SameToken a (f a)) : m.Keeps (m.rewrite p f hf) :=
  keeps_write (hsame _) (hf _)

theorem keeps_saveRefreshState (m : Roster accounts) (p : Nat) :
    m.Keeps (m.saveRefreshState p) := by
  refine keeps_update (persistRefreshState_id _) ?_
  intro row
  unfold AccountRow.persistRefreshState
  split <;> exact ⟨rfl, rfl⟩

theorem keeps_disable (m : Roster accounts) (p : Nat) (now : I64) :
    m.Keeps (m.editListed p (.setSystemDisabled true) now) := by
  unfold editListed
  split
  · dsimp only
    split
    · exact Keeps.refl m
    · rename_i a' hedit
      have hsame := TokenManager.setSystemDisabled_sameToken hedit
      exact (keeps_write hsame hsame.id).trans (keeps_update _ fun _ => ⟨rfl, rfl⟩)
  · exact Keeps.refl m

theorem keeps_failRefresh (m : Roster accounts) (p : Nat) (now : I64)
    (jitter : Nat) (error : AppError) :
    m.Keeps (m.failRefresh p now jitter error) := by
  have hdisabled : m.Keeps
      (if TokenManager.disablesAccount error then
        m.editListed p (.setSystemDisabled true) now else m) := by
    split
    · exact keeps_disable m p now
    · exact Keeps.refl m
  exact (hdisabled.trans (keeps_rewrite _
    (TokenManager.failRefresh_sameToken now jitter error))).trans
      (keeps_saveRefreshState _ p)

end Roster

namespace Cycle

open TokenManager

theorem keeps_failAttempt (m : Roster accounts) (r : Refreshing) (now : I64)
    (jitter : Nat) (failure : TokenAttemptFailure) :
    m.Keeps (failAttempt m r now jitter failure).1 := by
  have hnoted := Roster.keeps_rewrite (m := m) (p := r.pointer)
    (f := noteFailure failure r.useBasic)
    (fun a => (noteFailure_sameToken failure r.useBasic a).id)
    (noteFailure_sameToken failure r.useBasic)
  unfold failAttempt
  split
  · exact hnoted
  · exact hnoted.trans (Roster.keeps_failRefresh _ _ _ _ _)

section Steps

variable {m m' : Roster accounts} {c' : Cycle} {e : CycleEvent}
  {r : Refreshing} {oldRefresh : String}

theorem step_sending (h : (sending r).step m e = some (m', c')) :
    m.Keeps m' ∧
      (c' = .asking r (m.memory.cells r.pointer).refreshToken ∨
        exists error, c' = .ended (.error error)) := by
  cases e with
  | send =>
      cases h
      exact ⟨Roster.Keeps.refl m, Or.inl rfl⟩
  | timeout now jitter =>
      cases h
      exact ⟨Roster.keeps_failRefresh _ _ _ _ _, Or.inr ⟨_, rfl⟩⟩
  | _ =>
      cases h

/-- A failed attempt is followed by another one with the same record, or by
the end of the refresh. -/
theorem failAttempt_next (m : Roster accounts) (r : Refreshing) (now : I64)
    (jitter : Nat) (failure : TokenAttemptFailure) :
    (exists r', (failAttempt m r now jitter failure).2 = .sending r' ∧
      r'.pointer = r.pointer) ∨
    exists error, (failAttempt m r now jitter failure).2 =
      .ended (.error error) := by
  unfold failAttempt
  split
  · exact Or.inl ⟨_, rfl, rfl⟩
  · exact Or.inr ⟨_, rfl⟩

theorem step_asking (h : (asking r oldRefresh).step m e = some (m', c')) :
    m.Keeps m' ∧
      ((exists r', c' = .sending r' ∧ r'.pointer = r.pointer) ∨
        (exists error, c' = .ended (.error error)) ∨
        exists now jitter response grant, e = .answer now jitter (.ok response) ∧
          (readAnswer now response (m.memory.cells r.pointer)).2 = .ok grant ∧
          c' = .storing r oldRefresh grant
            (expiresAt now grant.expiresIn)) := by
  cases e with
  | answer now jitter response =>
      cases response with
      | error failure =>
          simp only [step, Option.some.injEq] at h
          have hkeeps := keeps_failAttempt m r now jitter failure
          have hnext := failAttempt_next m r now jitter failure
          rw [h] at hkeeps hnext
          refine ⟨hkeeps, ?_⟩
          rcases hnext with hsend | hend
          · exact Or.inl hsend
          · exact Or.inr (Or.inl hend)
      | ok response =>
          have hread := Roster.keeps_rewrite (m := m) (p := r.pointer)
            (f := fun a => (readAnswer now response a).1)
            (fun a => (readAnswer_sameToken now response a).id)
            (readAnswer_sameToken now response)
          simp only [step] at h
          split at h
          · rename_i failure _
            simp only [Option.some.injEq] at h
            have hkeeps := hread.trans
              (keeps_failAttempt _ r now jitter failure)
            have hnext := failAttempt_next
              (m.rewrite r.pointer (fun a => (readAnswer now response a).1)
                fun a => (readAnswer_sameToken now response a).id)
              r now jitter failure
            rw [h] at hkeeps hnext
            refine ⟨hkeeps, ?_⟩
            rcases hnext with hsend | hend
            · exact Or.inl hsend
            · exact Or.inr (Or.inl hend)
          · rename_i grant hgrant
            cases h
            exact ⟨hread,
              Or.inr (Or.inr ⟨now, jitter, response, grant, rfl, hgrant, rfl⟩)⟩
  | timeout now jitter =>
      cases h
      exact ⟨Roster.keeps_failRefresh _ _ _ _ _, Or.inr (Or.inl ⟨_, rfl⟩)⟩
  | _ =>
      cases h

theorem step_storing {grant : Grant} {expires : Int}
    (h : (storing r oldRefresh grant expires).step m e = some (m', c')) :
    (exists now jitter, e = .store now jitter ∧
      m.storeRefreshedCredentials r.pointer oldRefresh grant.rotated grant.token
        expires now = .ok m' ∧
      c' = .publishing r grant.token expires) ∨
    (m.Keeps m' ∧ exists error, c' = .ended (.error error)) := by
  cases e with
  | store now jitter =>
      simp only [step] at h
      split at h
      · rename_i error _
        simp only [Option.some.injEq] at h
        have hkeeps := keeps_failAttempt m r now jitter
          (nonRetryableAttempt error)
        rw [h] at hkeeps
        refine Or.inr ⟨hkeeps, error, ?_⟩
        exact (congrArg Prod.snd h).symm
      · rename_i m₁ hstored
        cases h
        exact Or.inl ⟨now, jitter, rfl, hstored, rfl⟩
  | timeout now jitter =>
      cases h
      exact Or.inr ⟨Roster.keeps_failRefresh _ _ _ _ _, _, rfl⟩
  | _ =>
      cases h

theorem step_publishing {token : String} {expires : Int}
    (h : (publishing r token expires).step m e = some (m', c')) :
    m.Keeps m' ∧ exists result, c' = .ended result := by
  cases e with
  | publish =>
      cases h
      exact ⟨Roster.keeps_rewrite _ (finishRefresh_sameToken r.useBasic),
        _, rfl⟩
  | timeout now jitter =>
      cases h
      exact ⟨Roster.keeps_failRefresh _ _ _ _ _, _, rfl⟩
  | _ =>
      cases h

end Steps

end Cycle

/-!
## Records that are replaced
-/

/-- The roster holds a pointer for an id, and the table holds a row. -/
structure Roster.Held (m : Roster accounts) (id : String) (p : Nat)
    (row : AccountRow) : Prop where
  pointer : m.memory.find? id = some p
  row : m.table.lookup id = some row

/-- A new record has taken the place of an id, and a row has been saved for
it; holders of older pointers keep their records. -/
structure Roster.Rebuilt (m m' : Roster accounts) (id : String)
    (a : AccountState) (row : AccountRow) : Prop where
  held : m'.Held id m.memory.fresh row
  record : m'.memory.cells m.memory.fresh = a
  others : forall p, p < m.memory.fresh ->
    m'.memory.cells p = m.memory.cells p
  fresh : m'.memory.fresh = m.memory.fresh + 1

namespace Roster

variable {m m' : Roster accounts} {id : String} {p : Nat} {row : AccountRow}

theorem Held.listed (h : m.Held id p row) : p ∈ m.memory.roster :=
  (Arena.find?_eq_some.mp h.pointer).left

theorem Held.idOf (h : m.Held id p row) : (m.memory.cells p).id = id :=
  (Arena.find?_eq_some.mp h.pointer).right

theorem Held.lt (h : m.Held id p row) : p < m.memory.fresh :=
  m.memory.bounded p h.listed

theorem Held.lookup (h : m.Held id p row) :
    m.lookup id = some (m.memory.cells p) :=
  Arena.lookup_of_find? h.pointer

theorem Held.keeps (h : m.Held id p row) (hkeeps : m.Keeps m') :
    exists row', m'.Held id p row' ∧ row'.credentials = row.credentials ∧
      row'.token = row.token := by
  rcases hkeeps.rows id row h.row with ⟨row', hrow', hcreds, htoken⟩
  refine ⟨row', ⟨Arena.find?_eq_some.mpr ⟨?_, ?_⟩, hrow'⟩, hcreds, htoken⟩
  · rw [hkeeps.roster]
    exact h.listed
  · exact (hkeeps.cells p).id.trans h.idOf

/-- Where the roster and the ids stay, so does the pointer of an id. -/
theorem find?_congr (hroster : m'.memory.roster = m.memory.roster)
    (hid : forall q, (m'.memory.cells q).id = (m.memory.cells q).id)
    (id : String) : m'.memory.find? id = m.memory.find? id := by
  apply Option.ext
  intro q
  have hq : accounts.idOf (m'.memory.cells q) = accounts.idOf (m.memory.cells q) :=
    hid q
  rw [Arena.find?_eq_some, Arena.find?_eq_some, hroster, hq]

theorem Keeps.find? (h : m.Keeps m') (id : String) :
    m'.memory.find? id = m.memory.find? id :=
  find?_congr h.roster (fun q => (h.cells q).id) id

/-- The account is listed; memory and its row agree on the credentials, and
this is their refresh token. -/
def Agrees (m : Roster accounts) (id refresh : String) : Prop :=
  exists q row, m.Held id q row ∧
    row.credentials = (m.memory.cells q).credentials ∧
    (m.memory.cells q).refreshToken = refresh

theorem Agrees.keeps {refresh : String} (h : m.Agrees id refresh)
    (hkeeps : m.Keeps m') : m'.Agrees id refresh := by
  rcases h with ⟨q, row, hheld, hcreds, hrefresh⟩
  rcases hheld.keeps hkeeps with ⟨row', hheld', hcreds', _⟩
  have hcells := (hkeeps.cells q).credentials
  refine ⟨q, row', hheld', ?_, ?_⟩
  · rw [hcreds', hcreds, hcells]
  · exact (congrArg Credentials.refreshToken hcells).trans hrefresh

theorem Rebuilt.agrees {a : AccountState} (h : m.Rebuilt m' id a row)
    (hrow : row.credentials = a.credentials) : m'.Agrees id a.refreshToken := by
  refine ⟨m.memory.fresh, row, h.held, ?_, ?_⟩
  · rw [h.record, hrow]
  · rw [h.record]

private theorem rebuilt_swap {a : AccountState} (h : m.Held id p row)
    (ha : a.id = (m.memory.cells p).id) {f : AccountRow -> AccountRow}
    (hf : forall w, (f w).id = w.id) :
    Rebuilt m
      { memory := m.memory.swap p a ha, table := m.table.update id f hf }
      id a (f row) where
  held := by
    refine ⟨?_, ?_⟩
    · dsimp only
      rw [Arena.find?_swap, h.pointer, Option.map_some, if_pos rfl]
    · dsimp only
      rw [Table.lookup_update, if_pos rfl, h.row]
      rfl
  record := Function.update_self ..
  others := fun q hq => Function.update_of_ne (Nat.ne_of_lt hq) ..
  fresh := rfl

/-- {lit}`update_account` rebuilds the record. -/
theorem rebuilt_updateAccount (h : m.Held id p row)
    (label clientId clientSecret refreshToken userId : Option String)
    (now : I64) :
    let old := m.memory.cells p
    let updated :=
      old.updateAccount label clientId clientSecret refreshToken userId now
    Rebuilt m
      (m.startEdit id
        (.updateAccount label clientId clientSecret refreshToken userId) now).1
      id updated (row.saveUpdated old updated now) := by
  intro old updated
  unfold startEdit
  split
  · rename_i hnone
    rw [h.pointer] at hnone
    cases hnone
  · rename_i q hq
    rw [h.pointer] at hq
    cases hq
    split
    · rename_i hnone
      cases hnone
    · rename_i a hedit
      cases hedit
      exact rebuilt_swap (a := updated) (f := AccountRow.saveUpdated old updated now)
        h (AccountState.carryOver_id _ _) fun _ => rfl

/-- A merge rebuilds the record when what it has read is newer. -/
theorem rebuilt_mergeOne (h : m.Held id p row) (clock : String -> I64)
    {v : Value} {a : AccountState}
    (hadopt : RemoteAccount.adopt (m.memory.cells p) v = some a) :
    Rebuilt m (m.mergeOne clock (id, some (some v))) id a (row.saveAdopted a) := by
  unfold mergeOne
  dsimp only
  split
  · rename_i q hq
    rw [h.pointer] at hq
    cases hq
    split
    · rename_i hnone
      cases hadopt.symm.trans hnone
    · rename_i r hr
      cases hadopt.symm.trans hr
      exact rebuilt_swap (f := AccountRow.saveAdopted a) h
        (RemoteAccount.adopt_spec hadopt).right.left fun _ => rfl
  · rename_i hnone
    rw [h.pointer] at hnone
    cases hnone

theorem mergeOne_of_adopt_eq_none (h : m.Held id p row)
    (clock : String -> I64) {v : Value}
    (hadopt : RemoteAccount.adopt (m.memory.cells p) v = none) :
    m.mergeOne clock (id, some (some v)) = m := by
  unfold mergeOne
  dsimp only
  split
  · rename_i q hq
    rw [h.pointer] at hq
    cases hq
    split
    · rfl
    · rename_i r hr
      cases hadopt.symm.trans hr
  · rename_i hnone
    rw [h.pointer] at hnone
    cases hnone

/-- A store step that succeeds: the record is listed and holds the refresh
token that was sent, and so does its row. -/
structure Stored (m m' : Roster accounts) (p : Nat) (oldRefresh : String)
    (rotated : Option String) (token : String) (expires : Int) (now : I64) :
    Prop where
  listed : p ∈ m.memory.roster
  sent : (m.memory.cells p).refreshToken = oldRefresh
  row : exists row, m.table.lookup (m.memory.cells p).id = some row ∧
    row.matchesSent (m.memory.cells p) oldRefresh = true ∧
    m'.table.lookup (m.memory.cells p).id =
      some (row.persistToken (m.memory.cells p) oldRefresh rotated token expires
        now)
  record : m'.memory.cells p =
    { m.memory.cells p with
      refreshToken := rotated.getD oldRefresh
      accessToken := some token
      tokenExpiresAt := expires
      updatedAt := now }
  others : forall q, q ≠ p -> m'.memory.cells q = m.memory.cells q
  roster : m'.memory.roster = m.memory.roster
  fresh : m'.memory.fresh = m.memory.fresh

/-- After the store step memory and the row agree on the refresh token that
came with the answer, or on the one that was sent. -/
theorem Stored.agrees {oldRefresh : String} {rotated : Option String}
    {token : String} {expires : Int} {now : I64}
    (h : m.Stored m' p oldRefresh rotated token expires now) :
    m'.Agrees (m.memory.cells p).id (rotated.getD oldRefresh) := by
  rcases h.row with ⟨row, _, hmatches, hrow'⟩
  have hmatch := of_decide_eq_true hmatches
  refine ⟨p, _, ⟨Arena.find?_eq_some.mpr ⟨?_, ?_⟩, hrow'⟩, ?_, ?_⟩
  · rw [h.roster]
    exact h.listed
  · rw [h.record]
  · rw [h.record]
    simp [AccountRow.persistToken, AccountRow.credentials,
      AccountState.credentials, hmatch]
  · rw [h.record]

section Store

variable {oldRefresh : String} {rotated : Option String} {token : String}
  {expires : Int} {now : I64}

theorem stored_of_ok
    (h : m.storeRefreshedCredentials p oldRefresh rotated token expires now =
      .ok m') : Stored m m' p oldRefresh rotated token expires now := by
  unfold storeRefreshedCredentials at h
  split at h
  · cases h
  · rename_i hlisted
    dsimp only at h
    split at h
    · cases h
    · rename_i a' hstore
      split at h
      · rename_i hany
        rcases (Option.any_eq_true _ _).mp hany with ⟨row, hrow, hmatches⟩
        cases h
        rcases AccountState.storeRefreshedCredentials_eq_some.mp hstore with
          ⟨hsent, ha'⟩
        refine ⟨not_not.mp hlisted, hsent, ⟨row, hrow, hmatches, ?_⟩, ?_,
          fun q hq => Function.update_of_ne hq .., rfl, rfl⟩
        · have hupdate := Table.lookup_update m.table (m.memory.cells p).id
            (AccountRow.persistToken (m.memory.cells p) oldRefresh rotated token
              expires now) (fun _ => rfl) (m.memory.cells p).id
          rw [if_pos rfl, hrow] at hupdate
          exact hupdate
        · rw [← ha']
          exact Function.update_self ..
      · cases h

/-- The store step succeeds on the listed record, when its row carries the same
credentials. -/
theorem Held.store_ok (h : m.Held id p row)
    (hrow : row.credentials = (m.memory.cells p).credentials)
    (hsent : (m.memory.cells p).refreshToken = oldRefresh) :
    exists m', m.storeRefreshedCredentials p oldRefresh rotated token expires
      now = .ok m' := by
  have hmatches : row.matchesSent (m.memory.cells p) oldRefresh = true := by
    have hid : row.id = (m.memory.cells p).id :=
      (Table.key_of_lookup h.row).trans h.idOf.symm
    have hclient : row.clientId = (m.memory.cells p).clientId :=
      congrArg Credentials.clientId hrow
    have hsecret : row.clientSecret = (m.memory.cells p).clientSecret :=
      congrArg Credentials.clientSecret hrow
    have hrefresh : row.refreshToken = (m.memory.cells p).refreshToken :=
      congrArg Credentials.refreshToken hrow
    simp [AccountRow.matchesSent, hid, hclient, hsecret, hrefresh, hsent]
  unfold storeRefreshedCredentials
  rw [if_neg (not_not.mpr h.listed)]
  dsimp only
  split
  · rename_i hnone
    have hsome : (m.memory.cells p).storeRefreshedCredentials oldRefresh rotated
        token expires now = some _ :=
      AccountState.storeRefreshedCredentials_eq_some.mpr ⟨hsent, rfl⟩
    cases hnone.symm.trans hsome
  · rw [if_pos]
    · exact ⟨_, rfl⟩
    · have hrow' : m.table.lookup (m.memory.cells p).id = some row := by
        rw [h.idOf]
        exact h.row
      rw [hrow']
      exact hmatches

end Store

end Roster

end HifiApi
