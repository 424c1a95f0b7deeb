import HifiApi.ApiKeys.Usage

/-!
# Counted uses and accepted calls

The counter in memory is incremented before it is compared with the quota, so
it counts the calls that the quota refuses; the row and the Redis counter count
accepted calls only.  A reconcile with a Redis counter that only this instance
increments changes nothing.  The counter in memory is therefore its initial
value, plus the accepted calls, plus the calls refused by the quota.
-/

namespace HifiApi
namespace KeyUse

/-- No call is running, and what Redis has counted, is about to count or has
answered stays within the counter in memory. -/
structure Settled (s : KeyUse) : Prop where
  idle : s.saving = []
  behind : forall r, s.store = some r ->
    (r.counter.getD 0).val.toNat + r.increments ≤ s.key.used.val
  answered : forall r c, s.store = some r ->
    .answered (some c) ∈ r.syncs -> c.val ≤ s.key.used.val

/-- The key keeps a quota, and the process keeps running. -/
def Metered (s : KeyUse) : UseAction -> Prop
  | .adopt payload =>
      forall k, k ∈ payload.bind (RemoteKey.adopt s.key) -> k.quota.val ≠ 0
  | .restart => False
  | _ => True

/-- The definition of the key stays as it is. -/
def Fixed (_ : KeyUse) : UseAction -> Prop
  | .adopt _ => False
  | .restart => False
  | _ => True

/-- No call comes when the quota is used up. -/
def NotExhausted (s : KeyUse) : UseAction -> Prop
  | .consume hash =>
      s.key.admits hash = true -> s.key.quota.val ≠ 0 ->
        s.key.used.val < s.key.quota.val
  | _ => True

/-- The counter in memory does not wrap. -/
def Room (s : KeyUse) : UseAction -> Prop
  | .consume hash =>
      s.key.admits hash = true -> s.key.quota.val ≠ 0 ->
        s.key.used.val + 1 < 18446744073709551616
  | _ => True

instance (s : KeyUse) : (a : UseAction) -> Decidable (s.Metered a)
  | .adopt payload =>
      inferInstanceAs (Decidable
        (forall k, k ∈ payload.bind (RemoteKey.adopt s.key) -> k.quota.val ≠ 0))
  | .restart => isFalse id
  | .consume _ | .save _ | .increment | .dropIncrement | .sync | .answer _
  | .raise _ => isTrue trivial

instance (s : KeyUse) : (a : UseAction) -> Decidable (s.Fixed a)
  | .adopt _ | .restart => isFalse id
  | .consume _ | .save _ | .increment | .dropIncrement | .sync | .answer _
  | .raise _ => isTrue trivial

instance (s : KeyUse) : (a : UseAction) -> Decidable (s.NotExhausted a)
  | .consume hash =>
      inferInstanceAs (Decidable
        (s.key.admits hash = true -> s.key.quota.val ≠ 0 ->
          s.key.used.val < s.key.quota.val))
  | .save _ | .increment | .dropIncrement | .sync | .answer _ | .raise _
  | .adopt _ | .restart => isTrue trivial

instance (s : KeyUse) : (a : UseAction) -> Decidable (s.Room a)
  | .consume hash =>
      inferInstanceAs (Decidable
        (s.key.admits hash = true -> s.key.quota.val ≠ 0 ->
          s.key.used.val + 1 < 18446744073709551616))
  | .save _ | .increment | .dropIncrement | .sync | .answer _ | .raise _
  | .adopt _ | .restart => isTrue trivial

/-- In every state without a running call the counter is its initial value plus
the accepted calls; and when a used-up quota is raised, as many further calls
are accepted as it was raised by, if as many come. -/
def CountsAcceptedOnly : Prop :=
  (forall (s : KeyUse) (actions : List UseAction) (s' : KeyUse), s.Settled ->
    s.key.quota.val ≠ 0 -> useSystem.Along Metered s actions ->
    useSystem.run s actions = some s' -> s'.saving = [] ->
      s'.key.used.val = s.key.used.val + s.accepted actions) ∧
  (forall (s : KeyUse) (before : List UseAction) (payload : Option Value)
    (mid raised : KeyUse) (after : List UseAction) (s' : KeyUse),
    s.Settled -> s.key.used = s.key.quota -> s.key.quota.val ≠ 0 ->
    useSystem.Along Fixed s before -> useSystem.run s before = some mid ->
    mid.adopt payload = some raised ->
    s.key.quota.val < raised.key.quota.val ->
    useSystem.Along Fixed raised after ->
    useSystem.run raised after = some s' -> s'.saving = [] ->
    raised.key.quota.val - s.key.quota.val ≤
      raised.accepted after + raised.exhausted after ->
      raised.accepted after = raised.key.quota.val - s.key.quota.val)

/-!
## The tally of a run
-/

/-- What the counters hold after the given answers, from an initial count. -/
structure Tallied (initial : Nat) (s : KeyUse)
    (log : List (Except AppError String)) : Prop where
  metered : s.key.quota.val ≠ 0
  behind : forall r, s.store = some r ->
    (r.counter.getD 0).val.toNat + r.increments + s.saving.length ≤
      s.key.used.val
  answered : forall r c, s.store = some r ->
    .answered (some c) ∈ r.syncs -> c.val ≤ s.key.used.val
  tally : s.key.used.val =
    initial + log.countP isOk + s.saving.length + log.countP isExhausted

theorem Settled.tallied {s : KeyUse} (h : s.Settled)
    (hquota : s.key.quota.val ≠ 0) : Tallied s.key.used.val s [] where
  metered := hquota
  behind := by
    intro r hr
    have hbehind := h.behind r hr
    simpa [h.idle] using hbehind
  answered := h.answered
  tally := by simp [h.idle]

theorem NotExhausted.room {s : KeyUse} {a : UseAction} (h : s.NotExhausted a) :
    s.Room a := by
  cases a with
  | consume hash =>
      intro hadmits hquota
      have hused := h hadmits hquota
      have hupper := s.key.quota.upper
      omega
  | _ =>
      trivial

theorem Fixed.metered {s : KeyUse} {a : UseAction} (h : s.Fixed a) :
    s.Metered a := by
  cases a with
  | adopt payload =>
      exact False.elim h
  | restart =>
      exact False.elim h
  | _ =>
      trivial

/-- A call is answered without a count, or the counter goes up by one; then
the call is counted when the quota has room and refused when it has none. -/
theorem consume_effect {s : KeyUse} {hash : String}
    (hquota : s.key.quota.val ≠ 0) (hroom : s.Room (.consume hash)) :
    (s.consume hash = s ∧ s.key.admits hash = false ∧
      s.answers (.consume hash) = [.error ApiKeyState.invalidKey]) ∨
    (exists used : U64, used.val = s.key.used.val + 1 ∧
      ((s.key.quota.val ≤ s.key.used.val ∧ s.key.admits hash = true ∧
          s.consume hash = { s with key := { s.key with used := used } } ∧
          s.answers (.consume hash) = [.error ApiKeyState.quotaExhausted]) ∨
        (s.key.used.val < s.key.quota.val ∧
          s.consume hash =
            { s with
              key := { s.key with used := used }
              saving := s.saving ++ [used] } ∧
          s.answers (.consume hash) = []))) := by
  rcases s.key.consume_cases hash with
    ⟨hadmits, heq⟩ | ⟨_, hzero, _⟩ | ⟨hadmits, _, hover, heq⟩ |
    ⟨hadmits, _, hunder, heq⟩
  · exact Or.inl ⟨by simp [consume, heq], hadmits, by simp [answers, heq]⟩
  · exact absurd hzero hquota
  · have hused := U64.wrappingAdd_val_of_lt (hroom hadmits hquota)
    refine Or.inr ⟨_, hused, Or.inl ⟨by omega, hadmits, ?_, ?_⟩⟩
    · simp [consume, heq]
    · simp [answers, heq]
  · have hused := U64.wrappingAdd_val_of_lt (hroom hadmits hquota)
    refine Or.inr ⟨_, hused, Or.inr ⟨by omega, ?_, ?_⟩⟩
    · simp [consume, heq]
    · simp [answers, heq]

theorem tallied_consume {initial : Nat} {s : KeyUse}
    {log : List (Except AppError String)} (h : Tallied initial s log)
    {hash : String} (hroom : s.Room (.consume hash)) :
    Tallied initial (s.consume hash) (log ++ s.answers (.consume hash)) := by
  have htally := h.tally
  rcases consume_effect h.metered hroom with
    ⟨hsame, _, hanswers⟩ |
    ⟨used, hused, ⟨_, _, heq, hanswers⟩ | ⟨_, heq, hanswers⟩⟩
  · rw [hsame, hanswers]
    exact ⟨h.metered, h.behind, h.answered, by simp; omega⟩
  · rw [heq, hanswers]
    refine ⟨h.metered, ?_, ?_, by simp; omega⟩
    · intro r hr
      have hbehind := h.behind r hr
      simp only [hused]
      omega
    · intro r c hr hc
      have hanswered := h.answered r c hr hc
      simp only [hused]
      omega
  · rw [heq, hanswers]
    refine ⟨h.metered, ?_, ?_, by simp; omega⟩
    · intro r hr
      have hbehind := h.behind r hr
      simp only [hused, List.length_append, List.length_singleton]
      omega
    · intro r c hr hc
      have hanswered := h.answered r c hr hc
      simp only [hused]
      omega

theorem tallied_save {initial : Nat} {s s' : KeyUse}
    {log : List (Except AppError String)} (h : Tallied initial s log) {i : Nat}
    (hstep : s.save i = some s') :
    Tallied initial s' (log ++ [Except.ok s.key.label]) := by
  have htally := h.tally
  unfold save at hstep
  split at hstep
  · cases hstep
  · rename_i used hget
    cases hstep
    have hi := (List.getElem?_eq_some_iff.mp hget).choose
    have hlength := List.length_eraseIdx_of_lt hi
    refine ⟨h.metered, ?_, ?_, by simp [hlength]; omega⟩
    · intro r hr
      rcases Option.map_eq_some_iff.mp hr with ⟨r₀, hr₀, hr'⟩
      have hbehind := h.behind r₀ hr₀
      subst hr'
      simp only [hlength]
      omega
    · intro r c hr hc
      rcases Option.map_eq_some_iff.mp hr with ⟨r₀, hr₀, hr'⟩
      subst hr'
      exact h.answered r₀ c hr₀ hc

theorem incrby_toNat_le (counter : Option I64) :
    ((UsageStore.incrby counter).getD 0).val.toNat ≤
      (counter.getD 0).val.toNat + 1 := by
  unfold UsageStore.incrby I64.ofInt?
  by_cases hfits : -9223372036854775808 ≤ (counter.getD 0).val + 1 ∧
      (counter.getD 0).val + 1 < 9223372036854775808
  · rw [dif_pos hfits]
    simp only [Option.getD_some]
    omega
  · rw [dif_neg hfits]
    simp

theorem tallied_increment {initial : Nat} {s s' : KeyUse}
    {log : List (Except AppError String)} (h : Tallied initial s log)
    {taken : Bool} (hstep : s.increment taken = some s') :
    Tallied initial s' log := by
  unfold increment at hstep
  split at hstep
  · cases hstep
  · rename_i r hr
    split at hstep
    · cases hstep
    · rename_i hpending
      cases hstep
      have hbehind := h.behind r hr
      refine ⟨h.metered, ?_, ?_, h.tally⟩
      · intro r' hr'
        cases hr'
        cases taken with
        | true =>
            have hcounter := incrby_toNat_le r.counter
            simp only [if_true]
            omega
        | false =>
            simp only [Bool.false_eq_true, if_false]
            omega
      · intro r' c hr' hc
        cases hr'
        exact h.answered r c hr hc

theorem tallied_sync {initial : Nat} {s : KeyUse}
    {log : List (Except AppError String)} (h : Tallied initial s log) :
    Tallied initial s.sync log := by
  unfold sync
  split
  · exact h
  · rename_i r hr
    split
    · exact h
    · refine ⟨h.metered, ?_, ?_, h.tally⟩
      · intro r' hr'
        cases hr'
        exact h.behind r hr
      · intro r' c hr' hc
        cases hr'
        rcases List.mem_append.mp hc with hold | hnew
        · exact h.answered r c hr hold
        · simp at hnew

theorem tallied_answer {initial : Nat} {s s' : KeyUse}
    {log : List (Except AppError String)} (h : Tallied initial s log) {i : Nat}
    (hstep : s.answer i = some s') : Tallied initial s' log := by
  unfold answer at hstep
  split at hstep
  · cases hstep
  · rename_i r hr
    split at hstep
    · cases hstep
      have hbehind := h.behind r hr
      refine ⟨h.metered, ?_, ?_, h.tally⟩
      · intro r' hr'
        cases hr'
        exact hbehind
      · intro r' c hr' hc
        cases hr'
        rcases List.mem_or_eq_of_mem_set hc with hold | hnew
        · exact h.answered r c hr hold
        · have hcount : r.counter.map U64.ofColumn = some c :=
            (UsageSync.answered.inj hnew).symm
          rcases Option.map_eq_some_iff.mp hcount with ⟨n, hn, hc'⟩
          subst hc'
          rw [hn] at hbehind
          show n.val.toNat ≤ s.key.used.val
          simp only [Option.getD_some] at hbehind
          omega
    · cases hstep

/-- A reconcile finds no count above the one in memory. -/
theorem tallied_raise {initial : Nat} {s s' : KeyUse}
    {log : List (Except AppError String)} (h : Tallied initial s log) {i : Nat}
    (hstep : s.raise i = some s') : Tallied initial s' log ∧ s'.key = s.key := by
  unfold raise at hstep
  split at hstep
  · cases hstep
  · rename_i r hr
    split at hstep
    · rename_i count hget
      cases hstep
      have hmem := List.mem_of_getElem? hget
      have hsame : (count.map s.key.raiseUsed).getD s.key = s.key := by
        cases count with
        | none =>
            rfl
        | some c =>
            exact ApiKeyState.raiseUsed_of_le (h.answered r c hr hmem)
      simp only [hsame]
      refine ⟨⟨h.metered, ?_, ?_, h.tally⟩, trivial⟩
      · intro r' hr'
        cases hr'
        exact h.behind r hr
      · intro r' c hr' hc
        cases hr'
        exact h.answered r c hr (List.mem_of_mem_eraseIdx hc)
    · cases hstep

/-- Taking over a definition leaves the uses alone. -/
theorem adopt_effect {s s' : KeyUse} {payload : Option Value}
    (hstep : s.adopt payload = some s') :
    s.saving = [] ∧ s'.key.used = s.key.used ∧ s'.saving = s.saving ∧
      s'.store = s.store ∧
      (s'.key = s.key ∨
        payload.bind (RemoteKey.adopt s.key) = some s'.key) := by
  unfold adopt at hstep
  split at hstep
  · cases hstep
  · rename_i hidle
    have hidle : s.saving = [] := not_not.mp hidle
    split at hstep
    · cases hstep
      exact ⟨hidle, rfl, rfl, rfl, Or.inl rfl⟩
    · split at hstep
      · cases hstep
        exact ⟨hidle, rfl, rfl, rfl, Or.inl rfl⟩
      · rename_i k hadopt
        cases hstep
        rcases Option.bind_eq_some_iff.mp hadopt with ⟨v, _, hv⟩
        have hk := (RemoteKey.adopt_spec hv).right.right
        exact ⟨hidle, by rw [hk], rfl, rfl, Or.inr hadopt⟩

theorem tallied_adopt {initial : Nat} {s s' : KeyUse}
    {log : List (Except AppError String)} (h : Tallied initial s log)
    {payload : Option Value} (hmetered : s.Metered (.adopt payload))
    (hstep : s.adopt payload = some s') : Tallied initial s' log := by
  rcases adopt_effect hstep with ⟨_, hused, hsaving, hstore, hkey⟩
  refine ⟨?_, ?_, ?_, ?_⟩
  · rcases hkey with hsame | hadopt
    · rw [hsame]
      exact h.metered
    · exact hmetered _ hadopt
  · intro r hr
    rw [hused, hsaving]
    exact h.behind r (hstore ▸ hr)
  · intro r c hr hc
    rw [hused]
    exact h.answered r c (hstore ▸ hr) hc
  · rw [hused, hsaving]
    exact h.tally

theorem tallied_step {initial : Nat} {s s' : KeyUse}
    {log : List (Except AppError String)} {a : UseAction}
    (h : Tallied initial s log) (hmetered : s.Metered a) (hroom : s.Room a)
    (hstep : s.step a = some s') :
    Tallied initial s' (log ++ s.answers a) := by
  cases a with
  | consume hash =>
      cases hstep
      exact tallied_consume h hroom
  | save i =>
      exact tallied_save h hstep
  | increment =>
      simpa [answers] using tallied_increment h hstep
  | dropIncrement =>
      simpa [answers] using tallied_increment h hstep
  | sync =>
      cases hstep
      simpa [answers] using tallied_sync h
  | answer i =>
      simpa [answers] using tallied_answer h hstep
  | raise i =>
      simpa [answers] using (tallied_raise h hstep).left
  | adopt payload =>
      simpa [answers] using tallied_adopt h hmetered hstep
  | restart =>
      exact False.elim hmetered

/-- The counter is its initial value, plus the accepted calls, plus the calls
that found the quota used up. -/
theorem tallied_run {s s' : KeyUse} {actions : List UseAction}
    (hs : s.Settled) (hquota : s.key.quota.val ≠ 0)
    (hmetered : useSystem.Along Metered s actions)
    (hroom : useSystem.Along Room s actions)
    (hrun : useSystem.run s actions = some s') :
    Tallied s.key.used.val s' (useSystem.history answers s actions) :=
  System.run_history_invariant (I := Tallied s.key.used.val)
    (fun _ _ _ _ h hP hstep => tallied_step h hP.left hP.right hstep)
    (hs.tallied hquota) (System.along_and.mpr ⟨hmetered, hroom⟩) hrun

/-!
## The tally under a fixed quota
-/

/-- From an initial count on, calls are accepted until the quota is used up. -/
structure Capped (initial quota : Nat) (s : KeyUse)
    (log : List (Except AppError String)) : Prop where
  tallied : Tallied initial s log
  quota_key : s.key.quota.val = quota
  capped : log.countP isOk + s.saving.length =
    min (s.key.used.val - initial) (quota - initial)

theorem capped_consume {initial quota : Nat} {s : KeyUse}
    {log : List (Except AppError String)} (h : Capped initial quota s log)
    {hash : String} (hroom : s.Room (.consume hash)) :
    Capped initial quota (s.consume hash)
      (log ++ s.answers (.consume hash)) := by
  have htallied := tallied_consume h.tallied hroom
  have htally := h.tallied.tally
  have hcapped := h.capped
  have hquota := h.quota_key
  rcases consume_effect h.tallied.metered hroom with
    ⟨hsame, _, hanswers⟩ |
    ⟨used, hused, ⟨hover, _, heq, hanswers⟩ | ⟨hunder, heq, hanswers⟩⟩
  · refine ⟨htallied, by rw [hsame]; exact hquota, ?_⟩
    rw [hsame, hanswers]
    simpa using hcapped
  · refine ⟨htallied, by rw [heq]; exact hquota, ?_⟩
    rw [heq, hanswers]
    simp [hused]
    omega
  · refine ⟨htallied, by rw [heq]; exact hquota, ?_⟩
    rw [heq, hanswers]
    simp [hused]
    omega

theorem capped_save {initial quota : Nat} {s s' : KeyUse}
    {log : List (Except AppError String)} (h : Capped initial quota s log)
    {i : Nat} (hstep : s.save i = some s') :
    Capped initial quota s' (log ++ [Except.ok s.key.label]) := by
  have htallied := tallied_save h.tallied hstep
  have hcapped := h.capped
  unfold save at hstep
  split at hstep
  · cases hstep
  · rename_i used hget
    cases hstep
    have hi := (List.getElem?_eq_some_iff.mp hget).choose
    have hlength := List.length_eraseIdx_of_lt hi
    refine ⟨htallied, h.quota_key, ?_⟩
    simp [hlength]
    omega

/-- Apart from calls, nothing touches the record while its definition stays. -/
theorem fixed_effect {initial : Nat} {s s' : KeyUse}
    {log : List (Except AppError String)} {a : UseAction}
    (h : Tallied initial s log) (hfixed : s.Fixed a)
    (hcall : forall hash, a ≠ .consume hash) (hsave : forall i, a ≠ .save i)
    (hstep : s.step a = some s') :
    s'.key = s.key ∧ s'.saving = s.saving ∧ s.answers a = [] := by
  have hincrement : forall taken, s.increment taken = some s' ->
      s'.key = s.key ∧ s'.saving = s.saving := by
    intro taken hstep
    unfold increment at hstep
    split at hstep
    · cases hstep
    · split at hstep
      · cases hstep
      · cases hstep
        exact ⟨rfl, rfl⟩
  cases a with
  | consume hash =>
      exact absurd rfl (hcall hash)
  | save i =>
      exact absurd rfl (hsave i)
  | increment =>
      exact ⟨(hincrement _ hstep).left, (hincrement _ hstep).right, rfl⟩
  | dropIncrement =>
      exact ⟨(hincrement _ hstep).left, (hincrement _ hstep).right, rfl⟩
  | sync =>
      cases hstep
      unfold sync
      split
      · exact ⟨rfl, rfl, rfl⟩
      · split <;> exact ⟨rfl, rfl, rfl⟩
  | answer i =>
      simp only [step, answer] at hstep
      split at hstep
      · cases hstep
      · split at hstep
        · cases hstep
          exact ⟨rfl, rfl, rfl⟩
        · cases hstep
  | raise i =>
      refine ⟨(tallied_raise h hstep).right, ?_, rfl⟩
      simp only [step, raise] at hstep
      split at hstep
      · cases hstep
      · split at hstep
        · cases hstep
          rfl
        · cases hstep
  | adopt payload =>
      exact False.elim hfixed
  | restart =>
      exact False.elim hfixed

theorem capped_step {initial quota : Nat} {s s' : KeyUse}
    {log : List (Except AppError String)} {a : UseAction}
    (h : Capped initial quota s log) (hfixed : s.Fixed a) (hroom : s.Room a)
    (hstep : s.step a = some s') :
    Capped initial quota s' (log ++ s.answers a) := by
  have htallied := tallied_step h.tallied hfixed.metered hroom hstep
  by_cases hcall : exists hash, a = .consume hash
  · rcases hcall with ⟨hash, ha⟩
    subst ha
    cases hstep
    exact capped_consume h hroom
  · by_cases hsave : exists i, a = .save i
    · rcases hsave with ⟨i, ha⟩
      subst ha
      exact capped_save h hstep
    · rcases fixed_effect h.tallied hfixed
          (fun hash ha => hcall ⟨hash, ha⟩) (fun i ha => hsave ⟨i, ha⟩) hstep with
        ⟨hkey, hsaving, hanswers⟩
      refine ⟨htallied, by rw [hkey]; exact h.quota_key, ?_⟩
      rw [hkey, hsaving, hanswers, List.append_nil]
      exact h.capped

theorem capped_run {s s' : KeyUse} {actions : List UseAction}
    {log : List (Except AppError String)} {initial quota : Nat}
    (hs : Capped initial quota s log) (hfixed : useSystem.Along Fixed s actions)
    (hroom : useSystem.Along Room s actions)
    (hrun : useSystem.run s actions = some s') :
    Capped initial quota s' (log ++ useSystem.history answers s actions) :=
  System.run_history_invariant (I := Capped initial quota)
    (fun _ _ _ _ h hP hstep => capped_step h hP.left hP.right hstep)
    hs (System.along_and.mpr ⟨hfixed, hroom⟩) hrun

/-!
## Calls refused by the quota
-/

theorem answers_exhausted_eq_zero {s : KeyUse} {a : UseAction}
    (hroom : s.Room a) :
    (s.answers a).countP isExhausted = 0 <-> s.NotExhausted a := by
  cases a with
  | consume hash =>
      rcases s.key.consume_cases hash with
        ⟨hadmits, heq⟩ | ⟨_, hzero, heq⟩ | ⟨hadmits, hquota, hover, heq⟩ |
        ⟨hadmits, hquota, hunder, heq⟩
      · simp [answers, heq, NotExhausted, hadmits]
      · simp [answers, heq, NotExhausted, hzero]
      · have hused := U64.wrappingAdd_val_of_lt (hroom hadmits (by omega))
        have hnot : ¬ s.NotExhausted (.consume hash) := by
          intro h
          have hlt := h hadmits (by omega)
          omega
        simp [answers, heq, hnot]
      · have hused := U64.wrappingAdd_val_of_lt (hroom hadmits (by omega))
        have hlt : s.key.used.val < s.key.quota.val := by omega
        simp [answers, heq, NotExhausted, hlt]
  | _ =>
      simp [answers, NotExhausted]

theorem exhausted_eq_zero {s s' : KeyUse} {actions : List UseAction}
    (hroom : useSystem.Along Room s actions)
    (hrun : useSystem.run s actions = some s') :
    s.exhausted actions = 0 <-> useSystem.Along NotExhausted s actions :=
  (System.countP_history_eq_zero hrun).trans
    (System.along_congr (fun _ _ h => answers_exhausted_eq_zero h) hroom)

/-- The counter is off by exactly the calls that found the quota used up. -/
theorem used_of_run {s s' : KeyUse} {actions : List UseAction}
    (hs : s.Settled) (hquota : s.key.quota.val ≠ 0)
    (hmetered : useSystem.Along Metered s actions)
    (hroom : useSystem.Along Room s actions)
    (hrun : useSystem.run s actions = some s') (hidle : s'.saving = []) :
    s'.key.used.val =
      s.key.used.val + s.accepted actions + s.exhausted actions := by
  have htally := (tallied_run hs hquota hmetered hroom hrun).tally
  simpa [accepted, exhausted, hidle] using htally

/-- After a raise of a used-up quota, calls are accepted until the raised quota
is used up; the calls refused before the raise are missing. -/
theorem accepted_after_raise {s mid raised s' : KeyUse}
    {before after : List UseAction} {payload : Option Value}
    (hs : s.Settled) (hfull : s.key.used = s.key.quota)
    (hquota : s.key.quota.val ≠ 0)
    (hfixed : useSystem.Along Fixed s before)
    (hroom : useSystem.Along Room s before)
    (hbefore : useSystem.run s before = some mid)
    (hadopt : mid.adopt payload = some raised)
    (hraise : s.key.quota.val < raised.key.quota.val)
    (hfixed' : useSystem.Along Fixed raised after)
    (hroom' : useSystem.Along Room raised after)
    (hafter : useSystem.run raised after = some s') (hidle : s'.saving = []) :
    raised.accepted after =
      min (raised.accepted after + raised.exhausted after)
        (raised.key.quota.val - s.key.quota.val - s.exhausted before) := by
  have hinitial : Capped s.key.used.val s.key.quota.val s [] :=
    ⟨hs.tallied hquota, rfl, by simp [hs.idle]⟩
  have hmid := capped_run hinitial hfixed hroom hbefore
  rw [List.nil_append] at hmid
  rcases adopt_effect hadopt with ⟨hmidIdle, hused, hsaving, hstore, _⟩
  have husedVal : raised.key.used.val = mid.key.used.val := by rw [hused]
  have hmidUsed : mid.key.used.val =
      s.key.quota.val + s.exhausted before := by
    have htally := hmid.tallied.tally
    have hcapped := hmid.capped
    rw [hmidIdle, hfull] at htally hcapped
    simp only [List.length_nil] at htally hcapped
    unfold exhausted
    omega
  have hraisedTally : Tallied raised.key.used.val raised [] := by
    refine ⟨by omega, ?_, ?_, by simp [hsaving, hmidIdle]⟩
    · intro r hr
      rw [hused, hsaving]
      exact hmid.tallied.behind r (hstore ▸ hr)
    · intro r c hr hc
      rw [hused]
      exact hmid.tallied.answered r c (hstore ▸ hr) hc
  have hraised : Capped raised.key.used.val raised.key.quota.val raised [] :=
    ⟨hraisedTally, rfl, by simp [hsaving, hmidIdle]⟩
  have hend := capped_run hraised hfixed' hroom' hafter
  rw [List.nil_append] at hend
  have htally := hend.tallied.tally
  have hcapped := hend.capped
  rw [hidle] at htally hcapped
  simp only [List.length_nil] at htally hcapped
  unfold accepted exhausted at *
  omega

/-!
## The counter against the accepted calls
-/

/-- A key with a quota of one that has been used up, next to its counter. -/
def usedUp : KeyUse where
  key := ⟨"k", "app", "h", "hifi_abcdefg", .ofNat 1, .ofNat 1, true, 0⟩
  row := ⟨"k", "app", "h", "hifi_abcdefg", .ofNat 1, .ofNat 1, 1, 0⟩
  saving := []
  store := some ⟨some (.ofNat 1), 0, []⟩

theorem usedUp_settled : usedUp.Settled where
  idle := rfl
  behind := by
    intro r hr
    cases hr
    decide
  answered := by
    intro r c hr hc
    cases hr
    simp at hc

/-- A definition that raises the quota to two. -/
def raisedQuota : Value :=
  keyToJson ⟨"k", "app", "h", "hifi_abcdefg", .ofNat 2, 0, true, .ofNat 1⟩

end KeyUse
end HifiApi
