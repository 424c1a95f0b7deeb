import HifiApi.Accounts.Switches
import HifiApi.Fleet.Restore
import HifiApi.Tokens.Refresh

/-!
# Runs of the account switches

One instance whose calls take the write lock of the roster.  A call that writes
in place changes memory first and keeps the lock while SQLite works; the other
two commit to SQLite first and install their record afterwards.  A refresh
notes its progress on the record it holds without the lock, a caller may go
away while SQLite works, and the process may stop at any time and load its
rows again.
-/

namespace HifiApi

/-!
## Calls
-/

/-- The calls that take the write lock; some name an account, some hold a
pointer. -/
inductive SwitchCall where
  | setAccountActive (id : String) (active : Bool)
  | setSystemDisabled (expected : Nat) (disabled : Bool)
  | disableAfterAuthFailures (expected : Nat) (maxSecs : Int)
  | storeRefreshedCredentials (expected : Nat) (oldRefresh : String)
      (rotated : Option String) (token : String) (expiresAt : Int)
  | updateAccount (id : String) (label clientId clientSecret refreshToken userId :
      Option String)
  deriving DecidableEq

namespace SwitchCall

def edit : SwitchCall -> AccountEdit
  | setAccountActive _ active => .setAccountActive active
  | setSystemDisabled _ disabled => .setSystemDisabled disabled
  | disableAfterAuthFailures _ maxSecs => .disableAfterAuthFailures maxSecs
  | storeRefreshedCredentials _ oldRefresh rotated token expiresAt =>
      .storeRefreshedCredentials oldRefresh rotated token expiresAt
  | updateAccount _ label clientId clientSecret refreshToken userId =>
      .updateAccount label clientId clientSecret refreshToken userId

/-- The pointer when the roster lists it. -/
def listed (m : Roster accounts) (expected : Nat) : Option Nat :=
  if expected ∈ m.memory.roster then some expected else none

/-- The record a call is about. -/
def target (m : Roster accounts) : SwitchCall -> Option Nat
  | setAccountActive id _ => m.memory.find? id
  | setSystemDisabled expected _ => listed m expected
  | disableAfterAuthFailures expected _ => listed m expected
  | storeRefreshedCredentials expected .. => listed m expected
  | updateAccount id .. => m.memory.find? id

theorem target_mem {m : Roster accounts} {call : SwitchCall} {p : Nat}
    (h : call.target m = some p) : p ∈ m.memory.roster := by
  have hlisted : forall expected, listed m expected = some p ->
      p ∈ m.memory.roster := by
    intro expected hexpected
    unfold listed at hexpected
    split at hexpected
    · rename_i hmem
      cases hexpected
      exact hmem
    · cases hexpected
  cases call with
  | setAccountActive id active =>
      exact (Arena.find?_eq_some.mp h).left
  | updateAccount id label clientId clientSecret refreshToken userId =>
      exact (Arena.find?_eq_some.mp h).left
  | _ =>
      exact hlisted _ h

end SwitchCall

/-- What a refresh leaves on the record it holds, without the lock. -/
inductive RefreshNote where
  | shared (now : I64) (previous : Option String) (raw : Option (Option Value))
  | answered (now : I64) (response : TokenManager.AuthResponse)
  | attemptFailed (failure : TokenManager.TokenAttemptFailure) (useBasic : Bool)
  | finished (useBasic : Bool)
  | failed (now : I64) (jitter : Nat) (error : AppError)
  /-- A refused refresh, while no account manager is attached. -/
  | disabledAlone (now : I64)

namespace RefreshNote

open TokenManager

/-- The branch of a refused refresh that has no account manager to call. -/
def disableAlone (now : I64) (a : AccountState) : AccountState :=
  if a.isActive then
    { a with
      autoDisabled := true
      isActive := false
      disabledAt := now }
  else
    a

def apply : RefreshNote -> AccountState -> AccountState
  | shared now previous raw, a =>
      ((sharedToken now previous raw a).map Prod.fst).getD a
  | answered now response, a => (readAnswer now response a).1
  | attemptFailed failure useBasic, a => noteFailure failure useBasic a
  | finished useBasic, a => finishRefresh useBasic a
  | failed now jitter error, a => failRefresh now jitter error a
  | disabledAlone now, a => disableAlone now a

theorem sharedToken_keeps {now : I64} {previous : Option String}
    {raw : Option (Option Value)} {a a' : AccountState} {token : String}
    (h : sharedToken now previous raw a = some (a', token)) :
    a'.id = a.id ∧ a'.switchFields = a.switchFields := by
  rcases (sharedToken_eq_some h).right with ⟨expires, ha'⟩
  rw [ha']
  exact ⟨rfl, rfl⟩

theorem readAnswer_switchFields (now : I64) (r : AuthResponse)
    (a : AccountState) :
    (readAnswer now r a).1.switchFields = a.switchFields := by
  unfold readAnswer
  split
  · rfl
  · split
    · split <;> rfl
    · rfl

theorem noteFailure_switchFields (failure : TokenAttemptFailure)
    (useBasic : Bool) (a : AccountState) :
    (noteFailure failure useBasic a).switchFields = a.switchFields := by
  unfold noteFailure
  split <;> rfl

theorem apply_id (n : RefreshNote) (a : AccountState) :
    (n.apply a).id = a.id := by
  cases n with
  | shared now previous raw =>
      simp only [apply]
      cases h : sharedToken now previous raw a with
      | none =>
          rfl
      | some held =>
          exact (sharedToken_keeps h).left
  | answered now response =>
      exact (readAnswer_sameToken now response a).id
  | attemptFailed failure useBasic =>
      exact (noteFailure_sameToken failure useBasic a).id
  | finished useBasic =>
      rfl
  | failed now jitter error =>
      rfl
  | disabledAlone now =>
      simp only [apply, disableAlone]
      split <;> rfl

/-- Only the refused refresh without an account manager touches the switches. -/
theorem apply_switchFields (n : RefreshNote) (a : AccountState) :
    (n.apply a).switchFields = a.switchFields ∨
      exists now, n = .disabledAlone now ∧ a.isActive = true ∧
        (n.apply a).switchFields = ⟨false, true, now⟩ := by
  cases n with
  | shared now previous raw =>
      left
      simp only [apply]
      cases h : sharedToken now previous raw a with
      | none =>
          rfl
      | some held =>
          exact (sharedToken_keeps h).right
  | answered now response =>
      exact Or.inl (readAnswer_switchFields now response a)
  | attemptFailed failure useBasic =>
      exact Or.inl (noteFailure_switchFields failure useBasic a)
  | finished useBasic =>
      exact Or.inl rfl
  | failed now jitter error =>
      exact Or.inl rfl
  | disabledAlone now =>
      simp only [apply, disableAlone]
      split
      · rename_i hactive
        exact Or.inr ⟨now, rfl, hactive, rfl⟩
      · exact Or.inl rfl

theorem sound_apply {n : RefreshNote} {a : AccountState}
    (ha : a.switchFields.Sound)
    (hnow : forall now, n = .disabledAlone now -> 0 < now) :
    (n.apply a).switchFields.Sound := by
  rcases n.apply_switchFields a with hkeep | ⟨now, hn, _, hoff⟩
  · rw [hkeep]
    exact ha
  · rw [hoff]
    exact SwitchFields.sound_off (hnow now hn)

theorem ownerOff_apply {n : RefreshNote} {a : AccountState}
    (ha : a.switchFields.OwnerOff) : (n.apply a).switchFields.OwnerOff := by
  rcases n.apply_switchFields a with hkeep | ⟨_, _, hactive, _⟩
  · rw [hkeep]
    exact ha
  · exact Bool.noConfusion (hactive.symm.trans ha.inactive)

end RefreshNote

/-!
## Steps
-/

/-- How far the call that holds the write lock has got. -/
inductive LockHolder where
  | free
  /-- The record is written; the statement is with SQLite. -/
  | saving (e : AccountEdit) (now : I64) (before after : AccountState)
  /-- The transaction is with SQLite; memory is as before. -/
  | committing (e : AccountEdit) (now : I64) (p : Nat)
      (before after : AccountState)
  /-- The transaction is committed; memory is as before. -/
  | committed (e : AccountEdit) (now : I64) (p : Nat) (after : AccountState)

/-- The accounts of an instance and the write lock over them. -/
structure LockedRoster where
  roster : Roster accounts
  holder : LockHolder

inductive SwitchAction where
  | begin (call : SwitchCall) (now : I64)
  /-- The call that holds the lock goes on. -/
  | proceed
  /-- The call that holds the lock is dropped. -/
  | abandon
  | note (p : Nat) (n : RefreshNote)
  | saveRefreshState (p : Nat)
  /-- The process stops and {lit}`load_from_db` reads the rows. -/
  | restart

/-- The clock readings of an action are positive. -/
def SwitchAction.ClockPositive : SwitchAction -> Prop
  | begin _ now => 0 < now
  | note _ (.disabledAlone now) => 0 < now
  | _ => True

namespace LockedRoster

/-- The grant of a refresh, written into a record. -/
def writeGrant (rotated : Option String) (token : String) (expiresAt : Int)
    (now : I64) (a : AccountState) : AccountState :=
  { a with
    refreshToken := rotated.getD a.refreshToken
    accessToken := some token
    tokenExpiresAt := expiresAt
    updatedAt := now }

/-- What a committed call does to memory: an edit puts its record in the place
of the old one, a refresh writes its grant into the record. -/
def install (m : Roster accounts) (e : AccountEdit) (now : I64) (p : Nat)
    (after : AccountState) : Option (Roster accounts) :=
  let a := m.memory.cells p
  match e with
  | .updateAccount .. =>
      if h : after.id = a.id then
        some { m with memory := m.memory.swap p after h }
      else none
  | .storeRefreshedCredentials _ rotated token expiresAt =>
      some
        { m with
          memory :=
            m.memory.write p (writeGrant rotated token expiresAt now a) rfl }
  | _ => none

def saveEdit (m : Roster accounts) (e : AccountEdit) (now : I64)
    (before after : AccountState) : Roster accounts :=
  { m with
    table := m.table.update after.id (e.save now before after)
      (AccountEdit.save_id e now before after) }

def step (s : LockedRoster) : SwitchAction -> Option LockedRoster
  | .begin call now =>
      match s.holder with
      | .free =>
          match call.target s.roster with
          | none => some s
          | some p =>
              let a := s.roster.memory.cells p
              match hedit : call.edit.apply now a with
              | none => some s
              | some a' =>
                  if call.edit.savesFirst then
                    some { s with holder := .committing call.edit now p a a' }
                  else
                    some
                      { roster :=
                          { s.roster with
                            memory := s.roster.memory.write p a'
                              (AccountEdit.apply_stamps hedit).left }
                        holder := .saving call.edit now a a' }
      | _ => none
  | .proceed =>
      match s.holder with
      | .free => none
      | .saving e now before after =>
          some ⟨saveEdit s.roster e now before after, .free⟩
      | .committing e now p before after =>
          if e.findsRow before (s.roster.table.lookup after.id) then
            some ⟨saveEdit s.roster e now before after, .committed e now p after⟩
          else
            some { s with holder := .free }
      | .committed e now p after =>
          (install s.roster e now p after).map fun m => ⟨m, .free⟩
  | .abandon =>
      match s.holder with
      | .free => none
      | _ => some { s with holder := .free }
  | .note p n =>
      if p < s.roster.memory.fresh then
        some
          { s with
            roster := s.roster.rewrite p n.apply n.apply_id }
      else none
  | .saveRefreshState p =>
      if p < s.roster.memory.fresh then
        some { s with roster := s.roster.saveRefreshState p }
      else none
  | .restart => some ⟨s.roster.reload, .free⟩

/-- One instance and its accounts. -/
def system : System LockedRoster SwitchAction := ⟨step⟩

/-!
## What a step does
-/

/-- The steps, each with what it leaves behind. -/
inductive Moves (s : LockedRoster) : SwitchAction -> LockedRoster -> Prop where
  | declined {call : SwitchCall} {now : I64}
      (hdeclined : forall p, call.target s.roster = some p ->
        call.edit.apply now (s.roster.memory.cells p) = none) :
      Moves s (.begin call now) s
  | written {call : SwitchCall} {now : I64} {p : Nat} {a : AccountState}
      (htarget : call.target s.roster = some p)
      (hedit : call.edit.apply now (s.roster.memory.cells p) = some a)
      (hid : a.id = (s.roster.memory.cells p).id) :
      Moves s (.begin call now)
        ⟨{ s.roster with memory := s.roster.memory.write p a hid },
          .saving call.edit now (s.roster.memory.cells p) a⟩
  | computed {call : SwitchCall} {now : I64} {p : Nat} {a : AccountState}
      (hfirst : call.edit.savesFirst = true)
      (htarget : call.target s.roster = some p)
      (hedit : call.edit.apply now (s.roster.memory.cells p) = some a) :
      Moves s (.begin call now)
        ⟨s.roster, .committing call.edit now p (s.roster.memory.cells p) a⟩
  | saved {e : AccountEdit} {now : I64} {before after : AccountState}
      (hholder : s.holder = .saving e now before after) :
      Moves s .proceed ⟨saveEdit s.roster e now before after, .free⟩
  | committed {e : AccountEdit} {now : I64} {p : Nat}
      {before after : AccountState}
      (hholder : s.holder = .committing e now p before after) :
      Moves s .proceed
        ⟨saveEdit s.roster e now before after, .committed e now p after⟩
  | refused : Moves s .proceed { s with holder := .free }
  | replaced {e : AccountEdit} {now : I64} {p : Nat} {after : AccountState}
      (hholder : s.holder = .committed e now p after)
      (hid : after.id = (s.roster.memory.cells p).id) :
      Moves s .proceed
        ⟨{ s.roster with memory := s.roster.memory.swap p after hid }, .free⟩
  | granted {p : Nat} {a : AccountState}
      (hid : a.id = (s.roster.memory.cells p).id)
      (hfields : a.switchFields = (s.roster.memory.cells p).switchFields) :
      Moves s .proceed
        ⟨{ s.roster with memory := s.roster.memory.write p a hid }, .free⟩
  | dropped : Moves s .abandon { s with holder := .free }
  | noted {p : Nat} {n : RefreshNote} (hp : p < s.roster.memory.fresh) :
      Moves s (.note p n)
        { s with roster := s.roster.rewrite p n.apply n.apply_id }
  | notesSaved {p : Nat} :
      Moves s (.saveRefreshState p)
        { s with roster := s.roster.saveRefreshState p }
  | restarted : Moves s .restart ⟨s.roster.reload, .free⟩

variable {s s' : LockedRoster} {a : SwitchAction}

theorem install_moves {e : AccountEdit} {now : I64} {p : Nat}
    {after : AccountState} {m : Roster accounts}
    (hholder : s.holder = .committed e now p after)
    (h : install s.roster e now p after = some m) :
    Moves s .proceed ⟨m, .free⟩ := by
  unfold install at h
  dsimp only at h
  split at h
  · split at h
    · rename_i hid
      cases h
      exact .replaced hholder hid
    · cases h
  · rename_i rotated token expiresAt
    cases h
    exact .granted
      (a := writeGrant rotated token expiresAt now (s.roster.memory.cells p))
      rfl rfl
  · cases h

theorem moves_of_step (hstep : system.step s a = some s') : Moves s a s' := by
  have h : s.step a = some s' := hstep
  cases a with
  | begin call now =>
      simp only [step] at h
      split at h
      · split at h
        · rename_i hnone
          cases h
          exact .declined fun p hp => by cases hnone.symm.trans hp
        · rename_i p htarget
          split at h
          · rename_i hedit
            cases h
            refine .declined fun q hq => ?_
            cases Option.some.inj (htarget.symm.trans hq)
            exact hedit
          · rename_i a' hedit
            split at h
            · rename_i hfirst
              cases h
              exact .computed hfirst htarget hedit
            · cases h
              exact .written htarget hedit _
      · cases h
  | proceed =>
      simp only [step] at h
      split at h
      · cases h
      · rename_i e now before after hholder
        cases h
        exact .saved hholder
      · rename_i e now p before after hholder
        split at h
        · cases h
          exact .committed hholder
        · cases h
          exact .refused
      · rename_i e now p after hholder
        rcases Option.map_eq_some_iff.mp h with ⟨m, hm, hs'⟩
        rw [← hs']
        exact install_moves hholder hm
  | abandon =>
      simp only [step] at h
      split at h
      · cases h
      · cases h
        exact .dropped
  | note p n =>
      simp only [step] at h
      split at h
      · rename_i hp
        cases h
        exact .noted hp
      · cases h
  | saveRefreshState p =>
      simp only [step] at h
      split at h
      · cases h
        exact .notesSaved
      · cases h
  | restart =>
      cases h
      exact .restarted

end LockedRoster

/-!
## Sound switches
-/

namespace LockHolder

/-- The record of a call under way. -/
def pending : LockHolder -> Option AccountState
  | free => none
  | saving _ _ _ after => some after
  | committing _ _ _ _ after => some after
  | committed _ _ _ after => some after

/-- What goes to SQLite has been computed from the record before it. -/
def Computed : LockHolder -> Prop
  | saving e now before after => e.apply now before = some after
  | committing e now _ before after => e.apply now before = some after
  | _ => True

end LockHolder

namespace LockedRoster

variable {s s' : LockedRoster} {a : SwitchAction}

/-- The switches are sound in memory, in SQLite and in what is under way. -/
structure Sound (s : LockedRoster) : Prop where
  records : s.roster.memory.Holds fun a => a.switchFields.Sound
  rows : s.roster.table.Holds fun w => w.switchFields.Sound
  pending : forall a, s.holder.pending = some a -> a.switchFields.Sound
  computed : s.holder.Computed

theorem sound_saveEdit {m : Roster accounts} {e : AccountEdit} {now : I64}
    {before after : AccountState}
    (hrows : m.table.Holds fun w => w.switchFields.Sound)
    (hafter : after.switchFields.Sound)
    (hedit : e.apply now before = some after) :
    (saveEdit m e now before after).table.Holds fun w =>
      w.switchFields.Sound := by
  refine hrows.update (AccountEdit.save_id e now before after) ?_
  intro w hw
  rw [AccountEdit.switchFields_save hedit]
  split
  · exact hafter
  · exact hw

theorem sound_write {m : Roster accounts} {p : Nat} {r : AccountState}
    (hid : r.id = (m.memory.cells p).id)
    (hrecords : m.memory.Holds fun a => a.switchFields.Sound)
    (hr : p < m.memory.fresh -> r.switchFields.Sound) :
    (m.memory.write p r hid).Holds fun a => a.switchFields.Sound := by
  intro q hq
  show (Function.update m.memory.cells p r q).switchFields.Sound
  rw [Function.update_apply]
  split
  · rename_i heq
    exact hr (heq ▸ hq)
  · exact hrecords q hq

theorem repair_id (row : AccountRow) : row.repair.id = row.id := rfl

theorem sound_reload {m : Roster accounts}
    (hrows : m.table.Holds fun w => w.switchFields.Sound) :
    m.reload.memory.Holds (fun a => a.switchFields.Sound) ∧
      m.reload.table.Holds fun w => w.switchFields.Sound := by
  constructor
  · refine Arena.holds_ofRecords (Roster.nodup_loaded m.table) ?_
    intro r hr
    rcases List.mem_map.mp hr with ⟨w, hw, hload⟩
    rw [← hload]
    exact AccountRow.sound_load (hrows w (Table.mem_ordered.mp hw))
  · exact hrows.mapRows (f := AccountRow.repair) repair_id fun _ hw => hw

/-- A call that lets go of the lock leaves nothing under way. -/
theorem Sound.release (hs : s.Sound) : Sound { s with holder := .free } := by
  constructor
  · exact hs.records
  · exact hs.rows
  · intro a ha
    cases ha
  · trivial

theorem sound_moves (hs : s.Sound) (hclock : a.ClockPositive)
    (h : Moves s a s') : s'.Sound := by
  cases h with
  | declined =>
      exact hs
  | written htarget hedit hid =>
      have hcell := hs.records _
        (s.roster.memory.bounded _ (SwitchCall.target_mem htarget))
      have hsound := AccountEdit.sound_apply hcell hclock hedit
      constructor
      · exact sound_write hid hs.records fun _ => hsound
      · exact hs.rows
      · intro a ha
        cases ha
        exact hsound
      · exact hedit
  | computed hfirst htarget hedit =>
      have hcell := hs.records _
        (s.roster.memory.bounded _ (SwitchCall.target_mem htarget))
      constructor
      · exact hs.records
      · exact hs.rows
      · intro a ha
        cases ha
        exact AccountEdit.sound_apply hcell hclock hedit
      · exact hedit
  | saved hholder =>
      have hafter := hs.pending
      have hcomputed := hs.computed
      rw [hholder] at hafter hcomputed
      constructor
      · exact hs.records
      · exact sound_saveEdit hs.rows (hafter _ rfl) hcomputed
      · intro a ha
        cases ha
      · trivial
  | committed hholder =>
      have hafter := hs.pending
      have hcomputed := hs.computed
      rw [hholder] at hafter hcomputed
      constructor
      · exact hs.records
      · exact sound_saveEdit hs.rows (hafter _ rfl) hcomputed
      · intro a ha
        cases ha
        exact hafter _ rfl
      · trivial
  | refused =>
      exact hs.release
  | replaced hholder hid =>
      have hafter := hs.pending
      rw [hholder] at hafter
      constructor
      · exact hs.records.swap hid (hafter _ rfl)
      · exact hs.rows
      · intro a ha
        cases ha
      · trivial
  | granted hid hfields =>
      constructor
      · apply sound_write hid hs.records
        intro hp
        rw [hfields]
        exact hs.records _ hp
      · exact hs.rows
      · intro a ha
        cases ha
      · trivial
  | dropped =>
      exact hs.release
  | noted hp =>
      constructor
      · refine sound_write (RefreshNote.apply_id _ _) hs.records ?_
        intro _
        apply RefreshNote.sound_apply (hs.records _ hp)
        intro now hn
        cases hn
        exact hclock
      · exact hs.rows
      · exact hs.pending
      · exact hs.computed
  | notesSaved =>
      constructor
      · exact hs.records
      · refine hs.rows.update (Roster.persistRefreshState_id _) ?_
        intro w hw
        rw [AccountRow.switchFields_persistRefreshState]
        exact hw
      · exact hs.pending
      · exact hs.computed
  | restarted =>
      have hreload := sound_reload hs.rows
      constructor
      · exact hreload.left
      · exact hreload.right
      · intro a ha
        cases ha
      · trivial

theorem sound_run {actions : List SwitchAction} (hs : s.Sound)
    (hclock : forall a, a ∈ actions -> a.ClockPositive)
    (hrun : system.run s actions = some s') : s'.Sound :=
  System.run_invariant_along (I := Sound) (P := fun _ a => a.ClockPositive)
    (fun _ _ _ hs hclock hstep => sound_moves hs hclock (moves_of_step hstep))
    hs (System.along_of_forall_mem (P := SwitchAction.ClockPositive) hclock) hrun

end LockedRoster

/-!
## Switched off by the owner
-/

namespace Roster

variable {m : Roster accounts} {id : String}

/-- The roster lists the account, off and not to be healed. -/
def OwnerOff (m : Roster accounts) (id : String) : Prop :=
  exists a, m.lookup id = some a ∧ a.switchFields.OwnerOff

/-- The row of the account says so, too. -/
def RowOff (m : Roster accounts) (id : String) : Prop :=
  exists row, m.table.lookup id = some row ∧ row.switchFields.OwnerOff

theorem ownerOff_iff :
    m.OwnerOff id <->
      exists p, m.memory.find? id = some p ∧
        (m.memory.cells p).switchFields.OwnerOff := by
  unfold OwnerOff lookup Arena.lookup
  constructor
  · rintro ⟨a, ha, hoff⟩
    rcases Option.map_eq_some_iff.mp ha with ⟨p, hp, heq⟩
    rw [← heq] at hoff
    exact ⟨p, hp, hoff⟩
  · rintro ⟨p, hp, hoff⟩
    exact ⟨_, Option.map_eq_some_iff.mpr ⟨p, hp, rfl⟩, hoff⟩

theorem OwnerOff.write {p : Nat} {r : AccountState}
    (hid : r.id = (m.memory.cells p).id) (h : m.OwnerOff id)
    (hr : m.memory.find? id = some p ->
      (m.memory.cells p).switchFields.OwnerOff -> r.switchFields.OwnerOff) :
    OwnerOff { m with memory := m.memory.write p r hid } id := by
  rcases ownerOff_iff.mp h with ⟨q, hq, hoff⟩
  apply ownerOff_iff.mpr
  constructor
  · constructor
    · exact (Arena.find?_write m.memory p r hid id).trans hq
    · show (Function.update m.memory.cells p r q).switchFields.OwnerOff
      rw [Function.update_apply]
      split
      · rename_i heq
        rw [heq] at hq hoff
        exact hr hq hoff
      · exact hoff

theorem OwnerOff.swap {p : Nat} {r : AccountState}
    (hid : r.id = (m.memory.cells p).id) (h : m.OwnerOff id)
    (hr : m.memory.find? id = some p -> r.switchFields.OwnerOff) :
    OwnerOff { m with memory := m.memory.swap p r hid } id := by
  rcases ownerOff_iff.mp h with ⟨q, hq, hoff⟩
  have hfind := Arena.find?_swap m.memory p r hid id
  rw [hq, Option.map_some] at hfind
  apply ownerOff_iff.mpr
  constructor
  · constructor
    · exact hfind
    · show (Function.update m.memory.cells m.memory.fresh r
        (if q = p then m.memory.fresh else q)).switchFields.OwnerOff
      split
      · rename_i heq
        rw [Function.update_self]
        exact hr (heq ▸ hq)
      · have hlt := m.memory.bounded q (Arena.find?_eq_some.mp hq).left
        rw [Function.update_of_ne (Nat.ne_of_lt hlt)]
        exact hoff

theorem RowOff.reload (h : m.RowOff id) : m.reload.OwnerOff id := by
  rcases h with ⟨row, hrow, hoff⟩
  constructor
  · constructor
    · rw [lookup_reload, hrow]
      rfl
    · exact AccountRow.ownerOff_load hoff

theorem RowOff.update {k : String} {f : AccountRow -> AccountRow}
    (hf : forall w, (f w).id = w.id) (h : m.RowOff id)
    (hoff : k = id -> forall row, row.switchFields.OwnerOff ->
      (f row).switchFields.OwnerOff) :
    RowOff { m with table := m.table.update k f hf } id := by
  rcases h with ⟨row, hrow, hrowOff⟩
  have hlookup := Table.lookup_update m.table k f hf id
  rw [hrow] at hlookup
  by_cases hk : k = id
  · rw [if_pos hk.symm] at hlookup
    exact ⟨f row, hlookup, hoff hk row hrowOff⟩
  · rw [if_neg (Ne.symm hk)] at hlookup
    exact ⟨row, hlookup, hrowOff⟩

end Roster

/-- The call {lit}`set_account_active(id, true)`. -/
def SwitchAction.SwitchesOn (id : String) (a : SwitchAction) : Prop :=
  exists now, a = .begin (.setAccountActive id true) now

namespace LockedRoster

variable {s s' : LockedRoster} {a : SwitchAction} {id : String}

/-- Off in memory, and nothing under way will change this. -/
structure Off (s : LockedRoster) (id : String) : Prop where
  memory : s.roster.OwnerOff id
  pending : forall a, s.holder.pending = some a -> a.id = id ->
    a.switchFields.OwnerOff

theorem Off.release (h : s.Off id) : Off { s with holder := .free } id := by
  constructor
  · exact h.memory
  · intro a ha
    cases ha

/-- Of the calls only {lit}`set_account_active` switches an account on that the
owner has switched off. -/
theorem ownerOff_call {m : Roster accounts} {call : SwitchCall} {now : I64}
    {p : Nat} {r : AccountState} (hm : m.OwnerOff id)
    (hon : ¬ SwitchAction.SwitchesOn id (.begin call now))
    (htarget : call.target m = some p)
    (hedit : call.edit.apply now (m.memory.cells p) = some r)
    (hp : (m.memory.cells p).id = id) : r.switchFields.OwnerOff := by
  rcases Roster.ownerOff_iff.mp hm with ⟨q, hq, hoff⟩
  have hfind : m.memory.find? id = some p :=
    Arena.find?_eq_some.mpr ⟨SwitchCall.target_mem htarget, hp⟩
  cases Option.some.inj (hq.symm.trans hfind)
  refine AccountEdit.ownerOff_apply hoff ?_ hedit
  intro hset
  apply hon
  cases call with
  | setAccountActive k active =>
      cases hset
      have hk : k = id := (Arena.find?_eq_some.mp htarget).right.symm.trans hp
      rw [hk]
      exact ⟨now, rfl⟩
  | _ =>
      cases hset

theorem off_moves (hs : s.Off id) (hon : ¬ a.SwitchesOn id)
    (hrestart : a ≠ .restart) (h : Moves s a s') : s'.Off id := by
  cases h with
  | declined =>
      exact hs
  | written htarget hedit hid =>
      constructor
      · apply hs.memory.write hid
        intro hfind _
        exact ownerOff_call hs.memory hon htarget hedit
          (Arena.find?_eq_some.mp hfind).right
      · intro r hr hkey
        cases hr
        exact ownerOff_call hs.memory hon htarget hedit (hid.symm.trans hkey)
  | computed hfirst htarget hedit =>
      constructor
      · exact hs.memory
      · intro r hr hkey
        cases hr
        exact ownerOff_call hs.memory hon htarget hedit
          ((AccountEdit.apply_stamps hedit).left.symm.trans hkey)
  | saved hholder =>
      exact Off.release (s := ⟨saveEdit s.roster _ _ _ _, s.holder⟩)
        ⟨hs.memory, hs.pending⟩
  | committed hholder =>
      constructor
      · exact hs.memory
      · intro r hr
        apply hs.pending r
        rw [hholder]
        exact hr
  | refused =>
      exact hs.release
  | replaced hholder hid =>
      apply Off.release (s := ⟨_, s.holder⟩)
      constructor
      · apply hs.memory.swap hid
        intro hfind
        apply hs.pending
        · rw [hholder]
          rfl
        · exact hid.trans (Arena.find?_eq_some.mp hfind).right
      · exact hs.pending
  | granted hid hfields =>
      apply Off.release (s := ⟨_, s.holder⟩)
      constructor
      · apply hs.memory.write hid
        intro _ hoff
        rw [hfields]
        exact hoff
      · exact hs.pending
  | dropped =>
      exact hs.release
  | noted hp =>
      constructor
      · exact hs.memory.write (RefreshNote.apply_id _ _) fun _ hoff =>
          RefreshNote.ownerOff_apply hoff
      · exact hs.pending
  | notesSaved =>
      exact ⟨hs.memory, hs.pending⟩
  | restarted =>
      exact absurd rfl hrestart

theorem rowOff_saveEdit {m : Roster accounts} {e : AccountEdit} {now : I64}
    {before after : AccountState} (hm : m.RowOff id)
    (hafter : after.id = id -> after.switchFields.OwnerOff)
    (hedit : e.apply now before = some after) :
    (saveEdit m e now before after).RowOff id := by
  refine hm.update (AccountEdit.save_id e now before after) ?_
  intro hid row hrow
  rw [AccountEdit.switchFields_save hedit]
  split
  · exact hafter hid
  · exact hrow

theorem rowOff_moves (hs : s.Off id) (hsound : s.Sound)
    (hrow : s.roster.RowOff id) (h : Moves s a s') : s'.roster.RowOff id := by
  have hpending := hs.pending
  have hcomputed := hsound.computed
  cases h with
  | saved hholder =>
      rw [hholder] at hpending hcomputed
      exact rowOff_saveEdit hrow (hpending _ rfl) hcomputed
  | committed hholder =>
      rw [hholder] at hpending hcomputed
      exact rowOff_saveEdit hrow (hpending _ rfl) hcomputed
  | notesSaved =>
      refine hrow.update (Roster.persistRefreshState_id _) ?_
      intro _ row hoff
      rw [AccountRow.switchFields_persistRefreshState]
      exact hoff
  | restarted =>
      rcases hrow with ⟨row, hrow, hoff⟩
      constructor
      · constructor
        · rw [Roster.row_reload, hrow]
          rfl
        · exact hoff
  | _ =>
      exact hrow

/-- The account is listed and has a row. -/
structure Known (s : LockedRoster) (id : String) : Prop where
  listed : (s.roster.memory.find? id).isSome = true
  row : (s.roster.table.lookup id).isSome = true

theorem known_update {m : Roster accounts} {k : String}
    {f : AccountRow -> AccountRow} (hf : forall w, (f w).id = w.id)
    (h : (m.table.lookup id).isSome = true) :
    ((m.table.update k f hf).lookup id).isSome = true := by
  rw [Table.lookup_update]
  split
  · rw [Option.isSome_map]
    exact h
  · exact h

theorem known_write {m : Roster accounts} {p : Nat} {r : AccountState}
    (hid : r.id = (m.memory.cells p).id)
    (h : (m.memory.find? id).isSome = true) :
    ((m.memory.write p r hid).find? id).isSome = true := by
  rw [Arena.find?_write m.memory p r hid]
  exact h

theorem known_moves (hs : s.Known id) (h : Moves s a s') : s'.Known id := by
  cases h with
  | written htarget hedit hid =>
      exact ⟨known_write hid hs.listed, hs.row⟩
  | saved hholder =>
      exact ⟨hs.listed, known_update (AccountEdit.save_id _ _ _ _) hs.row⟩
  | committed hholder =>
      exact ⟨hs.listed, known_update (AccountEdit.save_id _ _ _ _) hs.row⟩
  | replaced hholder hid =>
      constructor
      · dsimp only
        rw [Arena.find?_swap _ _ _ hid, Option.isSome_map]
        exact hs.listed
      · exact hs.row
  | granted hid hfields =>
      exact ⟨known_write hid hs.listed, hs.row⟩
  | noted hp =>
      exact ⟨known_write (RefreshNote.apply_id _ _) hs.listed, hs.row⟩
  | notesSaved =>
      exact ⟨hs.listed, known_update (Roster.persistRefreshState_id _) hs.row⟩
  | restarted =>
      have hlisted := Roster.lookup_reload s.roster id
      unfold Roster.lookup Arena.lookup at hlisted
      constructor
      · rw [← Option.isSome_map, hlisted, Option.isSome_map]
        exact hs.row
      · rw [Roster.row_reload, Option.isSome_map]
        exact hs.row
  | _ =>
      exact ⟨hs.listed, hs.row⟩

/-!
## Runs after a switch-off
-/

theorem off_begin {now : I64} (hs : s.Known id)
    (h : Moves s (.begin (.setAccountActive id false) now) s') :
    s'.Off id ∧ exists before after,
      s'.holder = .saving (.setAccountActive false) now before after ∧
        after.id = id := by
  rcases Option.isSome_iff_exists.mp hs.listed with ⟨p, hp⟩
  cases h with
  | declined hdeclined =>
      cases hdeclined p hp
  | @written _ _ q r htarget hedit hid =>
      cases Option.some.inj (hp.symm.trans htarget)
      have hoff : r.switchFields.OwnerOff := by
        cases hedit
        exact ⟨rfl, rfl⟩
      constructor
      · constructor
        · apply Roster.ownerOff_iff.mpr
          constructor
          · constructor
            · exact (Arena.find?_write s.roster.memory p r hid id).trans hp
            · show (Function.update s.roster.memory.cells p r p).switchFields.OwnerOff
              rw [Function.update_self]
              exact hoff
        · intro a ha _
          cases ha
          exact hoff
      · exact ⟨_, _, rfl, hid.trans (Arena.find?_eq_some.mp hp).right⟩
  | computed hfirst htarget hedit =>
      cases hfirst

/-- The statement of the switch-off reaches SQLite. -/
theorem rowOff_proceed {now : I64} {before after : AccountState}
    (hs : s.Known id)
    (hholder : s.holder = .saving (.setAccountActive false) now before after)
    (hid : after.id = id) (h : s.step .proceed = some s') :
    s'.roster.RowOff id := by
  rcases Option.isSome_iff_exists.mp hs.row with ⟨row, hrow⟩
  simp only [step, hholder, Option.some.injEq] at h
  rw [← h]
  have hlookup := Table.lookup_update s.roster.table after.id
    (AccountEdit.save (.setAccountActive false) now before after)
    (AccountEdit.save_id _ now before after) id
  rw [if_pos hid.symm, hrow] at hlookup
  exact ⟨_, hlookup, ⟨rfl, rfl⟩⟩

end LockedRoster

/-- What goes on while a call holds the lock. -/
def SwitchAction.Background : SwitchAction -> Prop
  | note _ _ => True
  | saveRefreshState _ => True
  | _ => False

/-- The owner has switched the account off and nobody has switched it on since;
the process has not stopped before SQLite had the statement. -/
structure SwitchedOff (id : String) (actions : List SwitchAction) : Prop where
  call : exists before now after,
    actions = before ++ SwitchAction.begin (.setAccountActive id false) now :: after ∧
      (forall a, a ∈ after -> ¬ a.SwitchesOn id) ∧
      ((forall a, a ∈ after -> a ≠ .restart) ∨
        exists waiting rest, after = waiting ++ SwitchAction.proceed :: rest ∧
          forall a, a ∈ waiting -> a.Background)

namespace LockedRoster

variable {s s' : LockedRoster} {id : String} {actions : List SwitchAction}

theorem known_run (hs : s.Known id) (hrun : system.run s actions = some s') :
    s'.Known id :=
  System.run_invariant (I := fun s => Known s id)
    (fun _ _ _ hs hstep => known_moves hs (moves_of_step hstep)) hs hrun

theorem off_run (hs : s.Off id)
    (hactions : forall a, a ∈ actions -> ¬ a.SwitchesOn id ∧ a ≠ .restart)
    (hrun : system.run s actions = some s') : s'.Off id :=
  System.run_invariant_along (I := fun s => Off s id)
    (P := fun _ a => ¬ a.SwitchesOn id ∧ a ≠ .restart)
    (fun _ _ _ hs ha hstep =>
      off_moves hs ha.left ha.right (moves_of_step hstep))
    hs
    (System.along_of_forall_mem
      (P := fun a => ¬ SwitchAction.SwitchesOn id a ∧ a ≠ .restart) hactions)
    hrun

/-- Once SQLite has the switch-off the process may stop as well. -/
structure OffForGood (s : LockedRoster) (id : String) : Prop where
  off : s.Off id
  row : s.roster.RowOff id
  sound : s.Sound

theorem offForGood_moves {a : SwitchAction} (hs : s.OffForGood id)
    (hon : ¬ a.SwitchesOn id) (hclock : a.ClockPositive) (h : Moves s a s') :
    s'.OffForGood id := by
  constructor
  · by_cases hrestart : a = .restart
    · rw [hrestart] at h
      cases h
      constructor
      · exact hs.row.reload
      · intro r hr
        cases hr
    · exact off_moves hs.off hon hrestart h
  · exact rowOff_moves hs.off hs.sound hs.row h
  · exact sound_moves hs.sound hclock h

theorem offForGood_run (hs : s.OffForGood id)
    (hactions : forall a, a ∈ actions -> ¬ a.SwitchesOn id ∧ a.ClockPositive)
    (hrun : system.run s actions = some s') : s'.OffForGood id :=
  System.run_invariant_along (I := fun s => OffForGood s id)
    (P := fun _ a => ¬ a.SwitchesOn id ∧ a.ClockPositive)
    (fun _ _ _ hs ha hstep =>
      offForGood_moves hs ha.left ha.right (moves_of_step hstep))
    hs
    (System.along_of_forall_mem
      (P := fun a => ¬ SwitchAction.SwitchesOn id a ∧ a.ClockPositive) hactions)
    hrun

/-- The call that holds the lock keeps it. -/
theorem holder_background {a : SwitchAction} (ha : a.Background)
    (h : Moves s a s') : s'.holder = s.holder := by
  cases h with
  | noted hp =>
      rfl
  | notesSaved =>
      rfl
  | _ =>
      cases ha

theorem holder_waiting {waiting : List SwitchAction} {holder : LockHolder}
    (hs : s.holder = holder) (hwaiting : forall a, a ∈ waiting -> a.Background)
    (hrun : system.run s waiting = some s') : s'.holder = holder :=
  System.run_invariant_along (I := fun s => s.holder = holder)
    (P := fun _ a => a.Background)
    (fun _ _ _ hs ha hstep =>
      (holder_background ha (moves_of_step hstep)).trans hs)
    hs (System.along_of_forall_mem (P := SwitchAction.Background) hwaiting) hrun

theorem background_keeps {a : SwitchAction} (ha : a.Background) :
    ¬ a.SwitchesOn id ∧ a ≠ .restart := by
  constructor
  · rintro ⟨now, heq⟩
    rw [heq] at ha
    exact ha
  · intro heq
    rw [heq] at ha
    exact ha

/-- Accounts that {lit}`add_account` has added, each with its row. -/
structure Start (s : LockedRoster) : Prop where
  added : s.roster.memory.Holds fun a =>
    exists (d : NewAccount) (now : I64), a = d.record now
  stored : forall p, p ∈ s.roster.memory.roster ->
    s.roster.table.lookup (s.roster.memory.cells p).id =
      some (AccountRow.ofAccount (s.roster.memory.cells p))
  rows : s.roster.table.Holds fun w =>
    exists (d : NewAccount) (now : I64), w = AccountRow.ofAccount (d.record now)
  free : s.holder = .free

theorem Start.sound (hs : s.Start) : s.Sound := by
  constructor
  · intro p hp
    rcases hs.added p hp with ⟨d, now, ha⟩
    rw [ha]
    exact SwitchFields.sound_on
  · intro w hw
    rcases hs.rows w hw with ⟨d, now, hrow⟩
    rw [hrow, AccountRow.switchFields_ofAccount]
    exact SwitchFields.sound_on
  · intro a ha
    rw [hs.free] at ha
    cases ha
  · rw [hs.free]
    trivial

theorem Start.known (hs : s.Start) (hid : id ∈ s.roster.memory.keys) :
    s.Known id := by
  rcases Arena.mem_keys.mp hid with ⟨p, hp, hkey⟩
  constructor
  · rw [Arena.find?_eq_some.mpr ⟨hp, hkey⟩]
    rfl
  · have hstored := hs.stored p hp
    have hkey' : (s.roster.memory.cells p).id = id := hkey
    rw [hkey'] at hstored
    rw [hstored]
    rfl

/-- A switch-off that waits for SQLite, gets its answer, and whatever comes
then. -/
theorem ownerOff_of_returned {now : I64} {old new : AccountState}
    {waiting rest : List SwitchAction} (hs : s.Sound) (hknown : s.Known id)
    (hoff : s.Off id)
    (hholder : s.holder = .saving (.setAccountActive false) now old new)
    (hnew : new.id = id) (hwaiting : forall a, a ∈ waiting -> a.Background)
    (hclock : forall a, a ∈ waiting ++ .proceed :: rest -> a.ClockPositive)
    (hon : forall a, a ∈ rest -> ¬ a.SwitchesOn id)
    (hrun : system.run s (waiting ++ .proceed :: rest) = some s') :
    s'.roster.OwnerOff id := by
  rw [List.forall_mem_append, List.forall_mem_cons] at hclock
  rcases System.run_append_some.mp hrun with ⟨held, hwaits, hdone⟩
  rcases System.run_cons_some.mp hdone with ⟨done, hproceed, hlast⟩
  have hmoves := moves_of_step hproceed
  have hheldOff := off_run hoff
    (fun a ha => background_keeps (hwaiting a ha)) hwaits
  have hheldHolder := holder_waiting hholder hwaiting hwaits
  have hdoneOff := off_moves hheldOff (a := .proceed)
    (fun hswitch => by rcases hswitch with ⟨now, heq⟩; cases heq)
    (fun heq => by cases heq) hmoves
  have hgood : done.OffForGood id := by
    constructor
    · exact hdoneOff
    · exact rowOff_proceed (known_run hknown hwaits) hheldHolder hnew hproceed
    · exact sound_moves (sound_run hs hclock.left hwaits) hclock.right.left hmoves
  have hlastGood := offForGood_run hgood
    (fun a ha => ⟨hon a ha, hclock.right.right a ha⟩) hlast
  exact hlastGood.off.memory

/-- A run that goes on after the owner has switched the account off. -/
theorem ownerOff_of_switchedOff (hs : s.Start)
    (hid : id ∈ s.roster.memory.keys)
    (hclock : forall a, a ∈ actions -> a.ClockPositive)
    (hoff : SwitchedOff id actions) (hrun : system.run s actions = some s') :
    s'.roster.OwnerOff id := by
  rcases hoff.call with ⟨before, now, after, rfl, hon, hlater⟩
  rw [List.forall_mem_append, List.forall_mem_cons] at hclock
  rcases System.run_append_some.mp hrun with ⟨called, hbefore, hrest⟩
  rcases System.run_cons_some.mp hrest with ⟨mid, hcall, hafter⟩
  have hknown := known_run (hs.known hid) hbefore
  have hmoves := moves_of_step hcall
  have hsound := sound_moves (sound_run hs.sound hclock.left hbefore)
    hclock.right.left hmoves
  rcases off_begin hknown hmoves with ⟨hmid, old, new, hholder, hnew⟩
  rcases hlater with hrestart | ⟨waiting, rest, rfl, hwaiting⟩
  · have hlast := off_run hmid (fun a ha => ⟨hon a ha, hrestart a ha⟩) hafter
    exact hlast.memory
  · exact ownerOff_of_returned hsound (known_moves hknown hmoves) hmid hholder
      hnew hwaiting hclock.right.right
      (fun a ha => hon a (by simp [ha])) hafter

/-- In every state that a run can reach the switches of every account are
sound, and an account that the owner has switched off stays off until the owner
switches it on. -/
theorem switches_kept (hs : s.Start)
    (hclock : forall a, a ∈ actions -> a.ClockPositive)
    (hrun : system.run s actions = some s') :
    (forall id a, s'.roster.lookup id = some a -> a.switchFields.Sound) ∧
      forall id, id ∈ s.roster.memory.keys -> SwitchedOff id actions ->
        s'.roster.OwnerOff id := by
  constructor
  · intro id a ha
    exact (sound_run hs.sound hclock hrun).records.lookup ha
  · intro id hid hoff
    exact ownerOff_of_switchedOff hs hid hclock hoff hrun

/-- One account, as {lit}`add_account` leaves it. -/
def oneAccount : LockedRoster where
  roster := Roster.reload ⟨Arena.empty, oneRow⟩
  holder := .free

theorem start_oneAccount : oneAccount.Start := by
  constructor
  · intro p hp
    cases Nat.lt_one_iff.mp hp
    exact ⟨⟨"a", "first", "c", "s", "r", none⟩, ⟨1, by decide, by decide⟩, rfl⟩
  · intro p hp
    cases List.mem_singleton.mp hp
    rfl
  · intro w hw
    cases List.mem_singleton.mp hw
    exact ⟨⟨"a", "first", "c", "s", "r", none⟩, ⟨1, by decide, by decide⟩, rfl⟩
  · rfl

/-- The owner switches the account off, the process restarts, and a refused
refresh asks for a system switch-off. -/
def offAndRestart : List SwitchAction :=
  [.begin (.setAccountActive "a" false) (.ofNat 5), .proceed,
    .restart, .begin (.setSystemDisabled 0 true) (.ofNat 6)]

theorem switches_kept_restart :
    exists s', system.run oneAccount offAndRestart = some s' ∧
      s'.roster.OwnerOff "a" := by
  have hclock : forall a, a ∈ offAndRestart -> a.ClockPositive := by
    simp only [offAndRestart, List.forall_mem_cons, SwitchAction.ClockPositive]
    exact ⟨by decide, trivial, trivial, by decide, fun _ ha => absurd ha List.not_mem_nil⟩
  have hoff : SwitchedOff "a" offAndRestart := by
    refine ⟨[], _, _, rfl, ?_, Or.inr ⟨[], _, rfl, fun _ ha => absurd ha List.not_mem_nil⟩⟩
    intro a ha
    rintro ⟨now, heq⟩
    rw [heq] at ha
    simp at ha
  exact ⟨_, rfl,
    (switches_kept start_oneAccount hclock rfl).right "a" (by decide) hoff⟩

end LockedRoster

end HifiApi
