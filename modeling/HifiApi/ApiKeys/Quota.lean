import HifiApi.ApiKeys.Usage

/-!
# The quota over the life of a key

The update of an accepted call writes an absolute count, so the row ends at the
count written last rather than at the largest one.  A restart reads the row
back.  Over a life of calls and restarts the quota bounds the accepted calls as
long as every restart finds the row at the uses counted so far.
-/

namespace HifiApi
namespace KeyUse

/-- Over the life of a key on a single host, no more calls are accepted than
its quota allows. -/
def LifetimeQuota : Prop :=
  forall (d : NewKey) (now : I64) (actions : List UseAction) (s' : KeyUse),
    d.quota.val ≠ 0 -> useSystem.run (created d now) actions = some s' ->
      (created d now).accepted actions ≤ d.quota.val

/-- A restart finds the uses counted in memory, up to the quota, in the row,
and the quota as it was written; the counter in memory does not wrap. -/
def CountsSaved (s : KeyUse) : UseAction -> Prop
  | .consume _ => s.key.used.val + 1 < 18446744073709551616
  | .restart =>
      s.key.quota.val < 9223372036854775808 ∧
        ((min s.key.used.val s.key.quota.val : Nat) : Int) ≤ s.row.used.val
  | _ => True

instance (s : KeyUse) : (a : UseAction) -> Decidable (s.CountsSaved a)
  | .consume _ =>
      inferInstanceAs (Decidable
        (s.key.used.val + 1 < 18446744073709551616))
  | .restart =>
      inferInstanceAs (Decidable
        (s.key.quota.val < 9223372036854775808 ∧
          ((min s.key.used.val s.key.quota.val : Nat) : Int) ≤ s.row.used.val))
  | .save _ | .increment | .dropIncrement | .sync | .answer _ | .raise _
  | .adopt _ => isTrue trivial

/-!
## Uses of a key without Redis
-/

/-- Every accepted call, answered or not, is counted in memory within the
quota. -/
structure Within (quota : U64) (s : KeyUse)
    (log : List (Except AppError String)) : Prop where
  local_ : s.store = none
  metered : quota.val ≠ 0
  quota_key : s.key.quota = quota
  quota_row : s.row.quota = quota.toI64
  counted : log.countP isOk + s.saving.length ≤ min s.key.used.val quota.val

theorem within_created (d : NewKey) (now : I64) (hquota : d.quota.val ≠ 0) :
    Within d.quota (created d now) [] where
  local_ := rfl
  metered := hquota
  quota_key := rfl
  quota_row := rfl
  counted := by simp [created]

theorem within_consume {quota : U64} {s : KeyUse}
    {log : List (Except AppError String)} (h : Within quota s log)
    (hash : String)
    (hroom : s.key.used.val + 1 < 18446744073709551616) :
    Within quota (s.consume hash) (log ++ answers s (.consume hash)) := by
  have hused := U64.wrappingAdd_val_of_lt hroom
  have hcounted := h.counted
  rcases s.key.consume_cases hash with
    ⟨_, heq⟩ | ⟨_, hzero, _⟩ | ⟨_, _, hover, heq⟩ | ⟨_, _, hunder, heq⟩
  · refine ⟨?_, h.metered, ?_, ?_, ?_⟩
    · simpa [consume, heq] using h.local_
    · simpa [consume, heq] using h.quota_key
    · simpa [consume, heq] using h.quota_row
    · simpa [consume, answers, heq] using hcounted
  · rw [h.quota_key] at hzero
    exact absurd hzero h.metered
  · refine ⟨?_, h.metered, ?_, ?_, ?_⟩
    · simpa [consume, heq] using h.local_
    · simpa [consume, heq] using h.quota_key
    · simpa [consume, heq] using h.quota_row
    · simp [consume, answers, heq, hused]
      omega
  · rw [h.quota_key] at hunder
    refine ⟨?_, h.metered, ?_, ?_, ?_⟩
    · simpa [consume, heq] using h.local_
    · simpa [consume, heq] using h.quota_key
    · simpa [consume, heq] using h.quota_row
    · simp only [consume, answers, heq, List.append_nil, List.length_append,
        List.length_singleton, hused]
      omega

theorem within_save {quota : U64} {s s' : KeyUse}
    {log : List (Except AppError String)} (h : Within quota s log) {i : Nat}
    (hstep : s.save i = some s') :
    Within quota s' (log ++ [Except.ok s.key.label]) := by
  have hcounted := h.counted
  unfold save at hstep
  split at hstep
  · cases hstep
  · rename_i used hget
    cases hstep
    have hi := (List.getElem?_eq_some_iff.mp hget).choose
    have hlength := List.length_eraseIdx_of_lt hi
    refine ⟨by simp [h.local_], h.metered, h.quota_key, h.quota_row, ?_⟩
    simp [hlength]
    omega

theorem within_restart {quota : U64} {s s' : KeyUse}
    {log : List (Except AppError String)} (h : Within quota s log)
    (hsaved : s.CountsSaved .restart) (hstep : s.restart = some s') :
    Within quota s' log := by
  have hcounted := h.counted
  rcases hsaved with ⟨hquota, hrow⟩
  rw [h.quota_key] at hquota hrow
  unfold restart at hstep
  split at hstep
  · cases hstep
  · cases hstep
    refine ⟨by simp [h.local_], h.metered, ?_, h.quota_row, ?_⟩
    · show U64.ofColumn s.row.quota = quota
      rw [h.quota_row]
      exact U64.ofColumn_toI64 hquota
    · show log.countP isOk + s.saving.length ≤ min s.row.used.val.toNat quota.val
      omega

theorem within_step {quota : U64} {s s' : KeyUse}
    {log : List (Except AppError String)} {a : UseAction} (h : Within quota s log)
    (hsaved : s.CountsSaved a) (hstep : s.step a = some s') :
    Within quota s' (log ++ answers s a) := by
  have hlocal := h.local_
  cases a with
  | consume hash =>
      cases hstep
      exact within_consume h hash hsaved
  | save i =>
      exact within_save h hstep
  | increment =>
      simp [step, increment, hlocal] at hstep
  | dropIncrement =>
      simp [step, increment, hlocal] at hstep
  | sync =>
      have hsame : s' = s := by simpa [step, sync, hlocal] using hstep.symm
      simpa [answers, hsame] using h
  | answer i =>
      simp [step, answer, hlocal] at hstep
  | raise i =>
      simp [step, raise, hlocal] at hstep
  | adopt payload =>
      have hsame : s' = s := by
        simp only [step, adopt, hlocal] at hstep
        split at hstep
        · cases hstep
        · exact (Option.some.inj hstep).symm
      simpa [answers, hsame] using h
  | restart =>
      have hrestart := within_restart h hsaved hstep
      simpa [answers] using hrestart

/-!
## The bound
-/

/-- In a life whose restarts find every counted use in the row, the quota
bounds the accepted calls. -/
theorem accepted_le_quota {d : NewKey} {now : I64} {actions : List UseAction}
    {s' : KeyUse} (hquota : d.quota.val ≠ 0)
    (hsaved : useSystem.Along CountsSaved (created d now) actions)
    (hrun : useSystem.run (created d now) actions = some s') :
    (created d now).accepted actions ≤ d.quota.val := by
  have hwithin := System.run_history_invariant (I := Within d.quota)
    (fun s a s' log h hP hstep => within_step h hP hstep)
    (within_created d now hquota) hsaved hrun
  have hcounted := hwithin.counted
  rw [List.nil_append] at hcounted
  have hbound : (created d now).accepted actions ≤ min s'.key.used.val d.quota.val :=
    Nat.le_trans (Nat.le_add_right _ _) hcounted
  exact Nat.le_trans hbound (Nat.min_le_right _ _)

/-- A key with a quota of two. -/
def twoUses : NewKey :=
  ⟨"k", "app", "h", "hifi_abcdefg", ⟨2, by decide⟩⟩

/-- Two calls in order, a restart, and two more calls: the quota holds. -/
theorem accepted_le_quota_two_uses :
    (created twoUses 0).accepted
      [.consume "h", .save 0, .consume "h", .save 0, .restart, .consume "h",
        .consume "h"] ≤ 2 :=
  @accepted_le_quota twoUses 0 _ _ (by decide) (by decide) rfl

/-- Two counted calls write their counts in the other order, and a restart
gives the lost use back. -/
theorem not_lifetimeQuota : ¬ LifetimeQuota := by
  intro h
  have hbound := h twoUses 0
    [.consume "h", .consume "h", .save 1, .save 0, .restart, .consume "h",
      .save 0] _ (by decide) rfl
  revert hbound
  decide

end KeyUse
end HifiApi
