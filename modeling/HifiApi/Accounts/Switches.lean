import HifiApi.Accounts.Edits
import HifiApi.Tokens.Manager

/-!
# The switches of an account

Three fields say whether an account is on, who has switched it off, and when.
The owner, a refused refresh and a long failure of the auth server write them in
memory and in SQLite; every other mutation copies them.
-/

namespace HifiApi

/-- The fields that switch an account on and off. -/
structure SwitchFields where
  isActive : Bool
  autoDisabled : Bool
  disabledAt : I64

namespace SwitchFields

/-- An active account carries no trace of a switch-off; one that is off knows
since when. -/
structure Sound (s : SwitchFields) : Prop where
  active : s.isActive = true -> s.autoDisabled = false ∧ s.disabledAt = 0
  inactive : s.isActive = false -> 0 < s.disabledAt

/-- Off, and not to be healed. -/
structure OwnerOff (s : SwitchFields) : Prop where
  inactive : s.isActive = false
  manual : s.autoDisabled = false

theorem sound_on : Sound ⟨true, false, 0⟩ where
  active := fun _ => ⟨rfl, rfl⟩
  inactive := fun h => Bool.noConfusion h

theorem sound_off {auto : Bool} {at_ : I64} (h : 0 < at_) :
    Sound ⟨false, auto, at_⟩ where
  active := fun h => Bool.noConfusion h
  inactive := fun _ => h

end SwitchFields

def AccountState.switchFields (a : AccountState) : SwitchFields :=
  ⟨a.isActive, a.autoDisabled, a.disabledAt⟩

def AccountRow.switchFields (row : AccountRow) : SwitchFields :=
  ⟨row.isActive != 0, row.autoDisabled != 0, row.disabledAt⟩

/-!
## Guarded transitions
-/

namespace AccountState

variable {a a' : AccountState} {now : I64}

/-- The system switches an enabled account off, and back on only what it has
switched off itself. -/
theorem setSystemDisabled_guard {disabled : Bool}
    (h : a.setSystemDisabled disabled now = some a') :
    a.isActive = true ∨ a.autoDisabled = true := by
  unfold setSystemDisabled at h
  split at h
  · cases h
  · rename_i hoff
    split at h
    · cases h
    · rename_i hon
      cases disabled with
      | false =>
          right
          simpa using hon
      | true =>
          cases hactive : a.isActive with
          | true =>
              exact Or.inl rfl
          | false =>
              right
              simpa [hactive] using hoff

theorem setSystemDisabled_switchFields {disabled : Bool}
    (h : a.setSystemDisabled disabled now = some a') :
    let at_ : I64 :=
      if disabled then max a.disabledAt ⟨1, by decide, by decide⟩ else 0
    a'.switchFields =
      ⟨!disabled, disabled, if at_.val = 1 then now else at_⟩ := by
  unfold setSystemDisabled at h
  split at h
  · cases h
  · split at h
    · cases h
    · cases h
      rfl

theorem disableAfterAuthFailures_guard {maxSecs : Int}
    (h : a.disableAfterAuthFailures maxSecs now = some a') :
    a.isActive = true ∨ a.autoDisabled = true := by
  unfold disableAfterAuthFailures at h
  dsimp only at h
  split at h
  · cases h
  · rename_i hnot
    simp only [not_or] at hnot
    have henabled := hnot.right.right.right
    rwa [Bool.not_eq_false, Bool.or_eq_true] at henabled

theorem disableAfterAuthFailures_switchFields {maxSecs : Int}
    (h : a.disableAfterAuthFailures maxSecs now = some a') :
    a'.switchFields =
      ⟨false, false, if a.disabledAt = 0 then now else a.disabledAt⟩ := by
  unfold disableAfterAuthFailures at h
  dsimp only at h
  split at h
  · cases h
  · cases h
    rfl

end AccountState

/-!
## Mutations
-/

namespace AccountEdit

/-- The mutations that set the switches; the others copy them. -/
def switchesAccount : AccountEdit -> Bool
  | setAccountActive _ => true
  | setSystemDisabled _ => true
  | disableAfterAuthFailures _ => true
  | _ => false

variable {e : AccountEdit} {now : I64} {a a' : AccountState}

theorem switchFields_of_copy (he : e.switchesAccount = false)
    (h : e.apply now a = some a') : a'.switchFields = a.switchFields := by
  cases e with
  | setAccountActive active =>
      cases he
  | setAccountCatalog catalog =>
      cases h
      rfl
  | setSystemDisabled disabled =>
      cases he
  | disableAfterAuthFailures maxSecs =>
      cases he
  | storeRefreshedCredentials oldRefresh rotated token expiresAt =>
      rcases AccountState.storeRefreshedCredentials_eq_some.mp h with ⟨_, ha'⟩
      rw [ha']
      rfl
  | updateAccount label clientId clientSecret refreshToken userId =>
      cases h
      have hshared := AccountState.carryOver_shared
        (AccountState.new a.id (label.getD a.label) (clientId.getD a.clientId)
          (clientSecret.getD a.clientSecret) (refreshToken.getD a.refreshToken)
          (userId.or a.userId) a.isActive a.notes) a
      unfold AccountState.switchFields AccountState.updateAccount
      congr 1
      · exact congrArg AccountState.Shared.isActive hshared
      · exact congrArg AccountState.Shared.autoDisabled hshared
      · exact congrArg AccountState.Shared.disabledAt hshared

theorem sound_apply (ha : a.switchFields.Sound) (hnow : 0 < now)
    (h : e.apply now a = some a') : a'.switchFields.Sound := by
  cases e with
  | setAccountActive active =>
      cases h
      cases active with
      | true =>
          exact SwitchFields.sound_on
      | false =>
          apply SwitchFields.sound_off
          show 0 < if a.isActive = true then now else a.disabledAt
          split
          · exact hnow
          · rename_i hoff
            exact ha.inactive (Bool.eq_false_of_not_eq_true hoff)
  | setSystemDisabled disabled =>
      rw [AccountState.setSystemDisabled_switchFields h]
      cases disabled with
      | true =>
          have hone : (0 : I64) < ⟨1, by decide, by decide⟩ := by decide
          apply SwitchFields.sound_off
          rw [if_pos rfl]
          split
          · exact hnow
          · exact lt_of_lt_of_le hone (le_max_right _ _)
      | false =>
          exact SwitchFields.sound_on
  | disableAfterAuthFailures maxSecs =>
      have hguard := AccountState.disableAfterAuthFailures_guard h
      rw [AccountState.disableAfterAuthFailures_switchFields h]
      apply SwitchFields.sound_off
      split
      · exact hnow
      · rename_i hne
        cases hactive : a.isActive with
        | true =>
            exact absurd (ha.active hactive).right hne
        | false =>
            exact ha.inactive hactive
  | _ =>
      rw [switchFields_of_copy rfl h]
      exact ha

/-- Only the owner switches on what the owner has switched off. -/
theorem ownerOff_apply (ha : a.switchFields.OwnerOff)
    (he : e ≠ .setAccountActive true) (h : e.apply now a = some a') :
    a'.switchFields.OwnerOff := by
  have hdisabled : ¬ (a.isActive = true ∨ a.autoDisabled = true) := by
    rintro (hactive | hauto)
    · exact Bool.noConfusion (hactive.symm.trans ha.inactive)
    · exact Bool.noConfusion (hauto.symm.trans ha.manual)
  cases e with
  | setAccountActive active =>
      cases active with
      | true =>
          exact absurd rfl he
      | false =>
          cases h
          exact ⟨rfl, rfl⟩
  | setSystemDisabled disabled =>
      exact absurd (AccountState.setSystemDisabled_guard h) hdisabled
  | disableAfterAuthFailures maxSecs =>
      exact absurd (AccountState.disableAfterAuthFailures_guard h) hdisabled
  | _ =>
      rw [switchFields_of_copy rfl h]
      exact ha

/-- SQLite gets the switches of memory from the mutations that set them. -/
theorem switchFields_save (h : e.apply now a = some a') (row : AccountRow) :
    (e.save now a a' row).switchFields =
      if e.switchesAccount = true then a'.switchFields else row.switchFields := by
  cases e with
  | setAccountActive active =>
      cases h
      simp [save, switchesAccount, AccountRow.switchFields, AccountState.switchFields,
        AccountState.setAccountActive]
  | setSystemDisabled disabled =>
      have hswitches := AccountState.setSystemDisabled_switchFields h
      have hactive : a'.isActive = !disabled :=
        congrArg SwitchFields.isActive hswitches
      have hauto : a'.autoDisabled = disabled :=
        congrArg SwitchFields.autoDisabled hswitches
      simp [save, switchesAccount, AccountRow.switchFields, AccountState.switchFields,
        hactive, hauto]
  | disableAfterAuthFailures maxSecs =>
      have hswitches := AccountState.disableAfterAuthFailures_switchFields h
      have hactive : a'.isActive = false := congrArg SwitchFields.isActive hswitches
      have hauto : a'.autoDisabled = false :=
        congrArg SwitchFields.autoDisabled hswitches
      simp [save, switchesAccount, AccountRow.switchFields, AccountState.switchFields,
        hactive, hauto]
  | _ =>
      rfl

end AccountEdit

/-!
## Rows
-/

namespace AccountRow

theorem switchFields_ofAccount (a : AccountState) :
    (ofAccount a).switchFields = a.switchFields := by
  simp [switchFields, ofAccount, AccountState.switchFields]

/-- Loading drops the time of a switch-off from an active account. -/
theorem switchFields_load (row : AccountRow) :
    row.load.switchFields =
      { row.switchFields with
        disabledAt := if row.isActive = 0 then row.disabledAt else 0 } := rfl

theorem sound_load {row : AccountRow} (h : row.switchFields.Sound) :
    row.load.switchFields.Sound := by
  constructor
  · intro hactive
    have hne : row.isActive ≠ 0 := bne_iff_ne.mp hactive
    constructor
    · exact (h.active hactive).left
    · exact if_neg hne
  · intro hinactive
    have heq : row.isActive = 0 := by
      simpa [switchFields_load, switchFields] using hinactive
    rw [switchFields_load, if_pos heq]
    exact h.inactive hinactive

theorem ownerOff_load {row : AccountRow} (h : row.switchFields.OwnerOff) :
    row.load.switchFields.OwnerOff :=
  ⟨h.inactive, h.manual⟩

theorem switchFields_persistRefreshState (a : AccountState) (row : AccountRow) :
    (persistRefreshState a row).switchFields = row.switchFields := by
  unfold persistRefreshState
  split <;> rfl

end AccountRow

end HifiApi
