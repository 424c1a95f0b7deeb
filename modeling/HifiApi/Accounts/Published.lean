import HifiApi.Accounts.Shared

/-!
# Records that are published as they are

A record reads back from Redis as it was published when another decoding leaves
its secret alone and an active account has no time of deactivation.  Every
mutation keeps both, except for an edit that brings in a secret which a second
decoding would change.
-/

namespace HifiApi

namespace AccountState.Shared

/-- Publishing the record and reading it back changes nothing. -/
structure Clean (s : Shared) : Prop where
  secret :
    normalizeClientSecret s.credentials.clientSecret =
      s.credentials.clientSecret
  active : s.isActive = true -> s.disabledAt = 0

end AccountState.Shared

theorem RemoteAccount.shared_of_clean {a : AccountState}
    (h : a.shared.Clean) : shared (accountToJson a) = a.shared := by
  have hsecret : normalizeClientSecret a.clientSecret = a.clientSecret :=
    h.secret
  have hdisabled : (if a.isActive then 0 else a.disabledAt) = a.disabledAt := by
    cases hactive : a.isActive with
    | true =>
        have hzero : a.disabledAt = 0 := h.active hactive
        rw [if_pos rfl, hzero]
    | false =>
        rfl
  rw [shared_accountToJson, hsecret, hdisabled]
  rfl

/-- An edit of the secret brings in one that is decoded once and for all. -/
def AccountEdit.KeepsSecret : AccountEdit -> Prop
  | updateAccount _ _ (some secret) _ _ =>
      normalizeClientSecret (normalizeClientSecret secret) =
        normalizeClientSecret secret
  | _ => True

instance : (e : AccountEdit) -> Decidable e.KeepsSecret
  | .updateAccount _ _ (some secret) _ _ =>
      inferInstanceAs (Decidable
        (normalizeClientSecret (normalizeClientSecret secret) =
          normalizeClientSecret secret))
  | .updateAccount _ _ none _ _ | .setAccountActive _ | .setAccountCatalog _
  | .setSystemDisabled _ | .disableAfterAuthFailures _
  | .storeRefreshedCredentials _ _ _ _ => isTrue trivial

theorem AccountEdit.apply_clean {e : AccountEdit} {now : I64}
    {a a' : AccountState} (h : e.apply now a = some a')
    (ha : a.shared.Clean) (he : e.KeepsSecret) : a'.shared.Clean := by
  cases e with
  | setAccountActive active =>
      cases h
      refine ⟨ha.secret, ?_⟩
      intro hactive
      have hactive : active = true := hactive
      subst hactive
      rfl
  | setAccountCatalog catalog =>
      cases h
      exact ⟨ha.secret, ha.active⟩
  | setSystemDisabled disabled =>
      simp only [apply, AccountState.setSystemDisabled] at h
      split at h
      · cases h
      · split at h
        · cases h
        · cases h
          refine ⟨ha.secret, ?_⟩
          intro hactive
          have hdisabled : disabled = false := by
            simpa [AccountState.shared] using hactive
          subst hdisabled
          rfl
  | disableAfterAuthFailures maxSecs =>
      simp only [apply, AccountState.disableAfterAuthFailures] at h
      split at h
      · cases h
      · cases h
        refine ⟨ha.secret, ?_⟩
        intro hactive
        cases hactive
  | storeRefreshedCredentials oldRefresh rotated token expiresAt =>
      simp only [apply, AccountState.storeRefreshedCredentials] at h
      split at h
      · cases h
      · cases h
        exact ⟨ha.secret, ha.active⟩
  | updateAccount label clientId clientSecret refreshToken userId =>
      cases h
      have hshared : (a.updateAccount label clientId clientSecret refreshToken
            userId now).shared =
          { (AccountState.new a.id (label.getD a.label)
              (clientId.getD a.clientId) (clientSecret.getD a.clientSecret)
              (refreshToken.getD a.refreshToken) (userId.or a.userId) a.isActive
              a.notes).shared with
            isCatalog := a.isCatalog
            autoDisabled := a.autoDisabled
            disabledAt := a.disabledAt
            updatedAt := now } := by
        show { (AccountState.carryOver _ a).shared with updatedAt := now } = _
        rw [AccountState.carryOver_shared]
      rw [hshared]
      refine ⟨?_, ha.active⟩
      show normalizeClientSecret (normalizeClientSecret _) =
        normalizeClientSecret _
      cases clientSecret with
      | none =>
          have hsecret : normalizeClientSecret a.clientSecret = a.clientSecret :=
            ha.secret
          show normalizeClientSecret (normalizeClientSecret a.clientSecret) =
            normalizeClientSecret a.clientSecret
          rw [hsecret, hsecret]
      | some secret =>
          exact he

end HifiApi
