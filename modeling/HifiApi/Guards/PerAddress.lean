import HifiApi.Guards.State

/-!
# One log for each address

The rule of a guard told for one address alone: the full log of its offences
and the end of its last block.  As long as the guard holds fewer addresses than
its bound, every answer is the one of this rule; what a guard forgets can no
longer matter.
-/

namespace HifiApi

/-- A call as it concerns one address. -/
inductive IpCall where
  | visit (counted : Bool) (now : Instant)
  | peek (now : Instant)
  | clear

/-- The offences of one address and the end of its last block. -/
structure IpLog where
  offences : List Instant
  blockEnd : Option Instant

namespace IpCall

/-- The clock reading of a call. -/
def now? : IpCall -> Option Instant
  | visit _ now | peek now => some now
  | clear => none

end IpCall

namespace GuardRule

/-- The block that is running. -/
def blocks (n : IpLog) (now : Instant) : Option Instant :=
  n.blockEnd.filter fun end_ => decide (now < end_)

/-- The offences that count: after the last block, within the window. -/
def recent (r : GuardRule) (n : IpLog) (now : Instant) : List Instant :=
  n.offences.filter fun hit =>
    (n.blockEnd.all fun end_ => decide (end_ ≤ hit)) &&
      decide (now - hit < r.window)

/-- The log with one more offence reaches the limit. -/
def reaches (r : GuardRule) (n : IpLog) (now : Instant) : Bool :=
  r.limit ≤ (r.recent { n with offences := n.offences ++ [now] } now).length

/-- The log after a call. -/
def logged (r : GuardRule) (n : IpLog) : IpCall -> IpLog
  | .visit false _ | .peek _ => n
  | .visit true now =>
      { offences := n.offences ++ [now]
        blockEnd :=
          if blocks n now = none ∧ r.reaches n now then some (now + r.duration)
          else n.blockEnd }
  | .clear => ⟨[], none⟩

/-- The answer to a call. -/
def answer (r : GuardRule) (n : IpLog) : IpCall -> Option Nat
  | .visit counted now =>
      match blocks n now with
      | some end_ => some (secondsLeft end_ now)
      | none =>
          if counted = true ∧ r.reaches n now then
            some (r.duration / nanosPerSec)
          else none
  | .peek now => (blocks n now).map fun end_ => secondsLeft end_ now
  | .clear => none

/-- The log of an address after all of its calls. -/
def logOf (r : GuardRule) (calls : List IpCall) : IpLog :=
  calls.foldl r.logged ⟨[], none⟩

end GuardRule

/-- A call to a guard; the order in which the map is visited should an address
have to give way. -/
structure GuardCall (Ip : Type) where
  ip : Ip
  call : IpCall
  order : Table.Iteration (Ip × IpActivity)

/-- A guard that an address can still join without another one giving way. -/
def GuardState.HasRoom {Ip : Type} (s : GuardState Ip) : Prop :=
  s.ips.rows.length < maxIps

theorem GuardState.HasRoom.cleanup {Ip : Type} {s : GuardState Ip}
    (h : s.HasRoom) (r : GuardRule) (now : Instant) :
    (r.cleanup now s).HasRoom := by
  unfold GuardRule.cleanup
  split
  · exact Nat.lt_of_le_of_lt (List.length_filter_le _ _) h
  · exact h

variable {Ip : Type} [DecidableEq Ip]

namespace GuardRule

/-- What a guard does with a call. -/
def apply (r : GuardRule) (s : GuardState Ip) (c : GuardCall Ip) :
    GuardState Ip × Option Nat :=
  match c.call with
  | .visit counted now => r.visit c.order c.ip counted now s
  | .peek now => AdminAuthGuard.check c.ip now s
  | .clear => (AdminAuthGuard.clear c.ip s, none)

/-- A guard as a step system. -/
def system (r : GuardRule) : System (GuardState Ip) (GuardCall Ip) :=
  ⟨fun s c => some (r.apply s c).1⟩

/-- The answers of a guard. -/
def answers (r : GuardRule) (s : GuardState Ip) (calls : List (GuardCall Ip)) :
    List (Option Nat) :=
  r.system.history (fun s c => [(r.apply s c).2]) s calls

/-- The calls of one address. -/
def callsOf (ip : Ip) (calls : List (GuardCall Ip)) : List IpCall :=
  (calls.filter fun c => decide (c.ip = ip)).map GuardCall.call

/-- The answers of the rule: each one reads the earlier calls of its address. -/
def naiveAnswers (r : GuardRule) :
    List (GuardCall Ip) -> List (GuardCall Ip) -> List (Option Nat)
  | _, [] => []
  | past, c :: rest =>
      r.answer (r.logOf (callsOf c.ip past)) c.call ::
        naiveAnswers r (past ++ [c]) rest

end GuardRule

/-!
## What each operation does to one address
-/

namespace GuardState

variable (s : GuardState Ip) (ip ip' : Ip)

theorem activity_delete :
    (GuardState.mk (s.ips.delete ip) s.lastCleanup).activity ip' =
      if ip' = ip then none else s.activity ip' := by
  show ((s.ips.delete ip).lookup ip').map Prod.snd = _
  rw [Table.lookup_delete]
  split <;> rfl

theorem activity_put (a : IpActivity) :
    (GuardState.mk (s.ips.put (ip, a)) s.lastCleanup).activity ip' =
      if ip' = ip then some a else s.activity ip' := by
  show ((s.ips.put (ip, a)).lookup ip').map Prod.snd = _
  rw [Table.lookup_put]
  split <;> rfl

theorem activity_cleanup (r : GuardRule) (now : Instant) :
    (r.cleanup now s).activity ip = s.activity ip ∨
    exists a, s.activity ip = some a ∧ a.blockedAt now = false ∧
      r.window ≤ now - a.lastSeen ∧ (r.cleanup now s).activity ip = none := by
  unfold GuardRule.cleanup
  split
  · show (Option.map Prod.snd (Table.lookup (Table.retain _ _) ip) = _) ∨ _
    unfold activity
    rw [Table.lookup_retain]
    cases hlookup : s.ips.lookup ip with
    | none =>
        exact Or.inl rfl
    | some e =>
        cases hkeep : e.2.blockedAt now || decide (now - e.2.lastSeen < r.window) with
        | true =>
            refine Or.inl ?_
            rw [Option.filter_some, if_pos hkeep]
        | false =>
            refine Or.inr ⟨e.2, rfl, ?_, ?_, ?_⟩
            · exact (Bool.or_eq_false_iff.mp hkeep).left
            · exact Nat.le_of_not_lt
                (of_decide_eq_false (Bool.or_eq_false_iff.mp hkeep).right)
            · rw [Option.filter_some, if_neg (by simp [hkeep])]
              rfl
  · exact Or.inl rfl

theorem activity_dropEnded :
    (s.dropEnded ip).activity ip' =
      if ip' = ip then (s.activity ip).filter fun a => a.blockedUntil.isNone
      else s.activity ip' := by
  unfold dropEnded
  split
  · rename_i hany
    rw [activity_delete]
    refine if_congr Iff.rfl ?_ rfl
    rcases (Option.any_eq_true _ _).mp hany with ⟨a, ha, hblocked⟩
    rw [ha, Option.filter_some, if_neg]
    cases hb : a.blockedUntil with
    | none => simp [hb] at hblocked
    | some until_ => exact Bool.false_ne_true
  · rename_i hany
    split
    · rename_i heq
      rw [heq]
      cases ha : s.activity ip with
      | none => rfl
      | some a =>
          rw [Option.filter_some, if_pos]
          cases hb : a.blockedUntil with
          | none => rfl
          | some until_ =>
              rw [ha] at hany
              exact absurd (by simp [hb]) hany
    · rfl

theorem makeRoom_of_hasRoom {s : GuardState Ip} (h : s.HasRoom)
    (order : Table.Iteration (Ip × IpActivity)) :
    s.makeRoom order ip = s := by
  unfold makeRoom
  exact if_neg fun hfull => Nat.not_lt.mpr hfull.right h

theorem HasRoom.dropEnded {s : GuardState Ip} (h : s.HasRoom) :
    (s.dropEnded ip).HasRoom := by
  unfold GuardState.dropEnded
  split
  · exact Nat.lt_of_le_of_lt (List.length_filter_le _ _) h
  · exact h

/-!
## What a guard remembers of an address
-/

/-- The block that is running. -/
def runs (now : Instant) : Option Instant :=
  ((s.activity ip).bind IpActivity.blockedUntil).filter
    fun until_ => decide (now < until_)

/-- The offences within the window, unless the address carries a block. -/
def recentHits (r : GuardRule) (now : Instant) : List Instant :=
  ((s.activity ip).filter fun a => a.blockedUntil.isNone).elim []
    fun a => a.hits.filter fun hit => decide (now - hit < r.window)

theorem runs_of_activity_eq {s s' : GuardState Ip}
    (h : s'.activity ip = s.activity ip) (now : Instant) :
    s'.runs ip now = s.runs ip now := by
  unfold runs
  rw [h]

theorem recentHits_of_activity_eq {s s' : GuardState Ip}
    (h : s'.activity ip = s.activity ip) (r : GuardRule) (now : Instant) :
    s'.recentHits ip r now = s.recentHits ip r now := by
  unfold recentHits
  rw [h]

theorem runs_eq {s : GuardState Ip} {ip : Ip} {a : IpActivity}
    (h : s.activity ip = some a) (now : Instant) :
    s.runs ip now = a.blockedUntil.filter fun until_ => decide (now < until_) := by
  unfold runs
  rw [h, Option.bind_some]

theorem recentHits_eq {s : GuardState Ip} {ip : Ip} {a : IpActivity}
    (h : s.activity ip = some a) (r : GuardRule) (now : Instant) :
    s.recentHits ip r now =
      if a.blockedUntil.isNone then
        a.hits.filter fun hit => decide (now - hit < r.window)
      else [] := by
  unfold recentHits
  rw [h, Option.filter_some]
  split <;> rfl

end GuardState

/-- Offences in order, the last one when the address was last seen. -/
structure IpActivity.Orderly (a : IpActivity) (last : Instant) : Prop where
  sorted : a.hits.Pairwise (· ≤ ·)
  hits_le : forall hit, hit ∈ a.hits -> hit ≤ a.lastSeen
  seen : a.lastSeen ≤ last

namespace GuardState

/-- Every address is in order. -/
def Tidy (s : GuardState Ip) (last : Instant) : Prop :=
  forall ip a, s.activity ip = some a -> a.Orderly last

/-- From an instant on two states answer alike. -/
structure Alike (r : GuardRule) (now : Instant) (s s' : GuardState Ip) :
    Prop where
  runs : forall ip later, now ≤ later -> s'.runs ip later = s.runs ip later
  recentHits : forall ip later, now ≤ later ->
    s'.recentHits ip r later = s.recentHits ip r later
  tidy : forall last, s.Tidy last -> s'.Tidy last

/-- An entry that the cleanup drops carries no running block and no offence
within the window, now or later. -/
theorem alike_cleanup (r : GuardRule) {now last : Instant} {s : GuardState Ip}
    (h : s.Tidy last) : Alike r now s (r.cleanup now s) where
  runs := by
    intro ip later hlater
    rcases activity_cleanup s ip r now with hsame | ⟨a, ha, hfree, _, hgone⟩
    · exact runs_of_activity_eq ip hsame later
    · unfold GuardState.runs
      rw [hgone, ha]
      cases hb : a.blockedUntil with
      | none =>
          rw [Option.bind_some, hb]
          rfl
      | some until_ =>
          have hended : ¬ now < until_ := by
            simpa [IpActivity.blockedAt, hb] using hfree
          have hlate : ¬ later < until_ :=
            fun hlt => hended (Nat.lt_of_le_of_lt hlater hlt)
          rw [Option.bind_some, hb, Option.filter_some, if_neg (by simpa using hlate)]
          rfl
  recentHits := by
    intro ip later hlater
    rcases activity_cleanup s ip r now with hsame | ⟨a, ha, _, hold, hgone⟩
    · exact recentHits_of_activity_eq ip hsame r later
    · unfold GuardState.recentHits
      rw [hgone, ha]
      have hempty : a.hits.filter (fun hit => decide (later - hit < r.window)) =
          [] := by
        rw [List.filter_eq_nil_iff]
        intro hit hhit
        have hle : now - a.lastSeen ≤ later - hit :=
          le_trans (Nat.sub_le_sub_right hlater _)
            (Nat.sub_le_sub_left ((h ip a ha).hits_le hit hhit) later)
        rw [decide_eq_true_eq]
        exact Nat.not_lt.mpr (Nat.le_trans hold hle)
      rw [Option.filter_some]
      split
      · exact hempty.symm
      · rfl
  tidy := by
    intro last' hlast ip a ha
    rcases activity_cleanup s ip r now with hsame | ⟨_, _, _, _, hgone⟩
    · exact hlast ip a (hsame ▸ ha)
    · rw [hgone] at ha
      cases ha

/-- So is the entry of an address whose block has ended. -/
theorem alike_dropEnded (r : GuardRule) {now : Instant} {s : GuardState Ip}
    {ip : Ip} (h : s.runs ip now = none) : Alike r now s (s.dropEnded ip) where
  runs := by
    intro ip' later hlater
    unfold GuardState.runs
    rw [activity_dropEnded]
    split
    · rename_i heq
      subst heq
      cases ha : s.activity ip' with
      | none => rfl
      | some a =>
          cases hb : a.blockedUntil with
          | none =>
              rw [Option.filter_some, if_pos (by rw [hb]; rfl)]
          | some until_ =>
              have hended : ¬ now < until_ := by
                simpa [GuardState.runs, ha, hb] using h
              have hlate : ¬ later < until_ :=
            fun hlt => hended (Nat.lt_of_le_of_lt hlater hlt)
              rw [Option.filter_some, if_neg (by simp [hb]), Option.bind_some, hb,
                Option.filter_some, if_neg (by simpa using hlate)]
              rfl
    · rfl
  recentHits := by
    intro ip' later _
    unfold GuardState.recentHits
    rw [activity_dropEnded]
    split
    · rename_i heq
      subst heq
      rw [Option.filter_filter]
      simp
    · rfl
  tidy := by
    intro last hlast ip' a ha
    rw [activity_dropEnded] at ha
    split at ha
    · exact hlast ip a (Option.filter_eq_some_iff.mp ha).left
    · exact hlast ip' a ha

theorem Alike.trans {r : GuardRule} {now : Instant} {s s' s'' : GuardState Ip}
    (h : Alike r now s s') (h' : Alike r now s' s'') : Alike r now s s'' where
  runs := fun ip later hlater =>
    (h'.runs ip later hlater).trans (h.runs ip later hlater)
  recentHits := fun ip later hlater =>
    (h'.recentHits ip later hlater).trans (h.recentHits ip later hlater)
  tidy := fun last hlast => h'.tidy last (h.tidy last hlast)

end GuardState

/-!
## Counting an offence
-/

namespace GuardRule

variable {r : GuardRule} {now last : Instant}

theorem dropWhile_eq_recent {hits : List Instant}
    (h : hits.Pairwise (· ≤ ·)) :
    (hits.dropWhile fun hit => decide (r.window ≤ now - hit)) =
      hits.filter fun hit => decide (now - hit < r.window) := by
  induction hits with
  | nil =>
      rfl
  | cons hit rest ih =>
      rw [List.pairwise_cons] at h
      rw [List.dropWhile_cons, List.filter_cons]
      by_cases hold : r.window ≤ now - hit
      · rw [if_pos (decide_eq_true hold), if_neg (by simpa using hold)]
        exact ih h.right
      · have hrecent : forall hit', hit' ∈ hit :: rest ->
            now - hit' < r.window := by
          intro hit' hhit'
          have hle : hit ≤ hit' := by
            rcases List.mem_cons.mp hhit' with heq | hrest
            · exact Nat.le_of_eq heq.symm
            · exact h.left hit' hrest
          exact Nat.lt_of_le_of_lt (Nat.sub_le_sub_left hle now)
            (Nat.lt_of_not_le hold)
        rw [if_neg (by simpa using hold), if_pos (by simpa using hold)]
        congr 1
        exact (List.filter_eq_self.mpr fun hit' hhit' =>
          decide_eq_true (hrecent hit' (List.mem_cons_of_mem _ hhit'))).symm

/-- The entry that counts an offence, as it is found or as it is created. -/
theorem record_of_free {a : IpActivity} (ha : a.Orderly last)
    (hfree : a.blockedUntil = none) :
    r.record now a =
      let hits := a.hits.filter fun hit => decide (now - hit < r.window)
      if r.limit ≤ hits.length + 1 then
        (⟨[], some (now + r.duration), now⟩, some (r.duration / nanosPerSec))
      else
        (⟨hits ++ [now], none, now⟩, none) := by
  unfold record
  dsimp only
  rw [dropWhile_eq_recent ha.sorted, List.length_append, List.length_singleton,
    hfree]

theorem orderly_record {a : IpActivity} (ha : a.Orderly last)
    (hlast : last ≤ now) : (r.record now a).1.Orderly now := by
  unfold record
  dsimp only
  split
  · exact ⟨List.Pairwise.nil, (fun _ hhit => by cases hhit), Nat.le_refl now⟩
  · refine ⟨?_, ?_, Nat.le_refl now⟩
    · rw [List.pairwise_append]
      refine ⟨ha.sorted.sublist (List.dropWhile_sublist _),
        List.pairwise_singleton _ _, ?_⟩
      intro hit hhit hit' hhit'
      rw [List.mem_singleton.mp hhit']
      exact le_trans (ha.hits_le hit (List.dropWhile_subset _ hhit))
        (le_trans ha.seen hlast)
    · intro hit hhit
      rcases List.mem_append.mp hhit with hold | hnew
      · exact le_trans (ha.hits_le hit (List.dropWhile_subset _ hold))
          (le_trans ha.seen hlast)
      · exact Nat.le_of_eq (List.mem_singleton.mp hnew)

end GuardRule

namespace GuardState

variable {r : GuardRule} {s : GuardState Ip} {ip ip' : Ip} {now last later : Instant}

/-- The entry that counts an offence of an address without a block. -/
theorem entry_of_free
    (hfree : forall a, s.activity ip = some a -> a.blockedUntil = none)
    (htidy : s.Tidy last) (hlast : last ≤ now) :
    let a := (s.activity ip).getD ⟨[], none, now⟩
    a.blockedUntil = none ∧ a.Orderly now ∧
      forall later, s.recentHits ip r later =
        a.hits.filter fun hit => decide (later - hit < r.window) := by
  unfold recentHits
  cases ha : s.activity ip with
  | none =>
      exact ⟨rfl, ⟨List.Pairwise.nil, (fun _ hhit => by cases hhit),
        Nat.le_refl now⟩, fun _ => rfl⟩
  | some a =>
      have hblocked := hfree a ha
      have horderly := htidy ip a ha
      refine ⟨hblocked, ⟨horderly.sorted, horderly.hits_le,
        le_trans horderly.seen hlast⟩, fun later => ?_⟩
      rw [Option.filter_some, if_pos (by rw [hblocked]; rfl)]
      rfl

/-- What counting an offence answers, and what it leaves of each address. -/
structure Counted (r : GuardRule) (s s' : GuardState Ip) (ip : Ip)
    (now : Instant) (answer : Option Nat) : Prop where
  answer : answer =
    if r.limit ≤ (s.recentHits ip r now).length + 1 then
      some (r.duration / nanosPerSec)
    else none
  runs : forall later, s'.runs ip later =
    if r.limit ≤ (s.recentHits ip r now).length + 1 then
      (some (now + r.duration)).filter fun until_ => decide (later < until_)
    else none
  recentHits : forall later, now ≤ later -> s'.recentHits ip r later =
    if r.limit ≤ (s.recentHits ip r now).length + 1 then []
    else (s.recentHits ip r later) ++
      [now].filter fun hit => decide (later - hit < r.window)
  others : forall ip', ip' ≠ ip -> s'.activity ip' = s.activity ip'
  tidy : s'.Tidy now

theorem counted_of_free (order : Table.Iteration (Ip × IpActivity))
    (hroom : s.HasRoom)
    (hfree : forall a, s.activity ip = some a -> a.blockedUntil = none)
    (htidy : s.Tidy last) (hlast : last ≤ now) :
    Counted r s (r.count order ip now s).1 ip now (r.count order ip now s).2 := by
  rcases entry_of_free (r := r) hfree htidy hlast with ⟨hblocked, horderly, hhits⟩
  have hnext := @GuardRule.record_of_free r now now _ horderly hblocked
  have htidyNext := GuardRule.orderly_record (r := r) horderly (Nat.le_refl now)
  unfold GuardRule.count
  rw [makeRoom_of_hasRoom ip hroom order]
  dsimp only at hnext ⊢
  rw [← hhits now] at hnext
  have hactivity := activity_put s ip
  have hown := (hactivity ip
    (r.record now ((s.activity ip).getD ⟨[], none, now⟩)).1).trans (if_pos rfl)
  constructor
  · rw [hnext]
    split <;> rfl
  · intro later
    rw [runs_eq hown, hnext]
    split <;> rfl
  · intro later hlater
    rw [recentHits_eq hown, hnext]
    split
    · rfl
    · -- What is out of the window at the count stays out of it.
      have hlate : (s.recentHits ip r now).filter
          (fun hit => decide (later - hit < r.window)) =
            s.recentHits ip r later := by
        rw [hhits now, hhits later, List.filter_filter]
        apply List.filter_congr
        intro hit _
        rw [Bool.and_eq_left_iff_imp]
        intro hlate
        rw [decide_eq_true_eq] at hlate ⊢
        exact Nat.lt_of_le_of_lt (Nat.sub_le_sub_right hlater hit) hlate
      rw [← hlate, ← List.filter_append]
      rfl
  · intro ip' hne
    rw [hactivity, if_neg hne]
  · intro ip' a ha
    rw [hactivity] at ha
    split at ha
    · cases ha
      exact htidyNext
    · have hold := htidy ip' a ha
      exact ⟨hold.sorted, hold.hits_le, le_trans hold.seen hlast⟩

end GuardState

/-!
## The guard and the rule
-/

namespace GuardRule

variable {r : GuardRule} {s s' : GuardState Ip} {ip : Ip} {n : IpLog}
  {now last later : Instant}

theorem blocks_mono (h : blocks n now = none) (hlater : now ≤ later) :
    blocks n later = none := by
  unfold blocks at h ⊢
  rw [Option.filter_eq_none_iff] at h ⊢
  intro end_ hend hlate
  apply h end_ hend
  rw [decide_eq_true_eq] at hlate ⊢
  exact Nat.lt_of_le_of_lt hlater hlate

theorem recent_append (h : blocks n now = none) (later : Instant) :
    r.recent { n with offences := n.offences ++ [now] } later =
      r.recent n later ++ [now].filter fun hit => decide (later - hit < r.window) := by
  have hafter : (n.blockEnd.all fun end_ => decide (end_ ≤ now)) = true := by
    rw [Option.all_eq_true]
    intro end_ hend
    have hended := Option.filter_eq_none_iff.mp h end_ hend
    rw [decide_eq_true_eq] at hended ⊢
    exact Nat.le_of_not_lt hended
  unfold recent
  rw [List.filter_append]
  congr 1
  apply List.filter_congr
  intro hit hhit
  rw [List.mem_singleton.mp hhit, hafter, Bool.true_and]

theorem reaches_eq (h : blocks n now = none) :
    r.reaches n now = decide (r.limit ≤ (r.recent n now).length + 1) := by
  have hwithin : decide (now - now < r.window) = true := by
    rw [decide_eq_true_eq, Nat.sub_self]
    exact r.window_pos
  have hone : [now].filter (fun hit => decide (now - hit < r.window)) = [now] :=
    List.filter_cons_of_pos hwithin
  unfold reaches
  rw [recent_append h, hone, List.length_append]
  rfl

/-- The guard remembers of an address what its log still has to say. -/
structure Matches (r : GuardRule) (s : GuardState Ip) (ip : Ip) (n : IpLog)
    (last : Instant) : Prop where
  bounded : forall hit, hit ∈ n.offences -> hit ≤ last
  runs : forall later, last ≤ later -> s.runs ip later = blocks n later
  recent : forall later, last ≤ later -> blocks n later = none ->
    s.recentHits ip r later = r.recent n later

theorem Matches.alike (h : Matches r s ip n last) (hlast : last ≤ now)
    (halike : GuardState.Alike r now s s') : Matches r s' ip n now where
  bounded := fun hit hhit => le_trans (h.bounded hit hhit) hlast
  runs := fun later hlater =>
    (halike.runs ip later hlater).trans (h.runs later (le_trans hlast hlater))
  recent := fun later hlater hfree =>
    (halike.recentHits ip later hlater).trans
      (h.recent later (le_trans hlast hlater) hfree)

theorem Matches.of_activity_eq (h : Matches r s ip n last)
    (hsame : s'.activity ip = s.activity ip) : Matches r s' ip n last where
  bounded := h.bounded
  runs := fun later hlater =>
    (GuardState.runs_of_activity_eq ip hsame later).trans (h.runs later hlater)
  recent := fun later hlater hfree =>
    (GuardState.recentHits_of_activity_eq ip hsame r later).trans
      (h.recent later hlater hfree)

/-- An offence during a block changes nothing that is remembered. -/
theorem Matches.blocked (h : Matches r s ip n now) {end_ : Instant}
    (hblocks : blocks n now = some end_) :
    Matches r s ip (r.logged n (.visit true now)) now := by
  have hrunning := Option.filter_eq_some_iff.mp hblocks
  have hlogged : r.logged n (.visit true now) =
      { n with offences := n.offences ++ [now] } := by
    unfold logged
    dsimp only
    rw [if_neg]
    intro hnone
    rw [hnone.left] at hblocks
    cases hblocks
  rw [hlogged]
  refine ⟨?_, h.runs, ?_⟩
  · intro hit hhit
    rcases List.mem_append.mp hhit with hold | hnew
    · exact h.bounded hit hold
    · exact Nat.le_of_eq (List.mem_singleton.mp hnew)
  · intro later hlater hfree
    rw [h.recent later hlater hfree]
    unfold GuardRule.recent
    rw [List.filter_append, List.filter_cons_of_neg, List.filter_nil,
      List.append_nil]
    intro hcounted
    have hbefore := (Bool.and_eq_true _ _ ▸ hcounted).left
    rw [hrunning.left] at hbefore
    exact Nat.not_lt.mpr (of_decide_eq_true hbefore)
      (of_decide_eq_true hrunning.right)

/-- An offence without a block. -/
theorem Matches.counted (h : Matches r s ip n now) {answer : Option Nat}
    (hblocks : blocks n now = none)
    (hcounted : GuardState.Counted r s s' ip now answer) :
    Matches r s' ip (r.logged n (.visit true now)) now ∧
      answer = r.answer n (.visit true now) := by
  have hrecent := h.recent now (Nat.le_refl now) hblocks
  have hreaches : (r.limit ≤ (s.recentHits ip r now).length + 1) <->
      r.reaches n now = true := by
    rw [reaches_eq hblocks, hrecent, decide_eq_true_eq]
  constructor
  · unfold logged
    dsimp only
    by_cases hlimit : r.reaches n now = true
    · rw [if_pos ⟨hblocks, hlimit⟩]
      have hbounded : forall hit, hit ∈ n.offences ++ [now] -> hit ≤ now := by
        intro hit hhit
        rcases List.mem_append.mp hhit with hold | hnew
        · exact h.bounded hit hold
        · exact Nat.le_of_eq (List.mem_singleton.mp hnew)
      refine ⟨hbounded, ?_, ?_⟩
      · intro later _
        rw [hcounted.runs later, if_pos (hreaches.mpr hlimit)]
        rfl
      · intro later hlater _
        rw [hcounted.recentHits later hlater, if_pos (hreaches.mpr hlimit)]
        unfold GuardRule.recent
        refine (List.filter_eq_nil_iff.mpr ?_).symm
        intro hit hhit hcounts
        have hafter : now + r.duration ≤ hit :=
          of_decide_eq_true (Bool.and_eq_true _ _ ▸ hcounts).left
        have hlt : now < now + r.duration := Nat.lt_add_of_pos_right r.duration_pos
        exact Nat.not_lt.mpr (le_trans hafter (hbounded hit hhit)) hlt
    · rw [if_neg fun hboth => hlimit hboth.right]
      refine ⟨?_, ?_, ?_⟩
      · intro hit hhit
        rcases List.mem_append.mp hhit with hold | hnew
        · exact h.bounded hit hold
        · exact Nat.le_of_eq (List.mem_singleton.mp hnew)
      · intro later hlater
        rw [hcounted.runs later, if_neg fun hle => hlimit (hreaches.mp hle)]
        exact (blocks_mono hblocks hlater).symm
      · intro later hlater hfree
        rw [hcounted.recentHits later hlater,
          if_neg fun hle => hlimit (hreaches.mp hle),
          h.recent later hlater (blocks_mono hblocks hlater)]
        exact (recent_append hblocks later).symm
  · rw [hcounted.answer]
    unfold GuardRule.answer
    dsimp only
    rw [hblocks]
    refine if_congr ?_ rfl rfl
    rw [hreaches]
    exact (and_iff_right rfl).symm

/-- The guard follows the logs of all addresses. -/
structure Follows (r : GuardRule) (s : GuardState Ip)
    (past : List (GuardCall Ip)) (last : Instant) : Prop where
  tidy : s.Tidy last
  logs : forall ip, Matches r s ip (r.logOf (callsOf ip past)) last

theorem logOf_snoc (past : List (GuardCall Ip)) (c : GuardCall Ip) (ip : Ip) :
    r.logOf (callsOf ip (past ++ [c])) =
      if c.ip = ip then r.logged (r.logOf (callsOf ip past)) c.call
      else r.logOf (callsOf ip past) := by
  unfold callsOf logOf
  rw [List.filter_append]
  split
  · rename_i hip
    have hone : [c].filter (fun c => decide (c.ip = ip)) = [c] :=
      List.filter_cons_of_pos (decide_eq_true hip)
    rw [hone, List.map_append, List.foldl_append]
    rfl
  · rename_i hip
    have hone : [c].filter (fun c => decide (c.ip = ip)) = [] :=
      List.filter_cons_of_neg (by simpa using hip)
    rw [hone, List.append_nil]

/-- Counting or not, a call of an address answers by its log. -/
theorem follows_visit {past : List (GuardCall Ip)} {counted : Bool}
    {order : Table.Iteration (Ip × IpActivity)} (h : Follows r s past last)
    (hroom : s.HasRoom) (hlast : last ≤ now) :
    (r.visit order ip counted now s).2 =
        r.answer (r.logOf (callsOf ip past)) (.visit counted now) ∧
      Follows r (r.visit order ip counted now s).1
        (past ++ [⟨ip, .visit counted now, order⟩]) now := by
  have halike := @GuardState.alike_cleanup _ _ r now last s h.tidy
  have hcleaned : Follows r (r.cleanup now s) past now :=
    ⟨fun ip a ha => (by
        have hold := halike.tidy last h.tidy ip a ha
        exact ⟨hold.sorted, hold.hits_le, le_trans hold.seen hlast⟩),
      fun ip => (h.logs ip).alike hlast halike⟩
  have hown := hcleaned.logs ip
  have hruns := hown.runs now (Nat.le_refl now)
  have hleft : (r.cleanup now s).left ip now =
      (blocks (r.logOf (callsOf ip past)) now).map
        fun end_ => secondsLeft end_ now := by
    rw [← hruns]
    rfl
  unfold visit
  dsimp only
  rw [hleft]
  cases hblocks : blocks (r.logOf (callsOf ip past)) now with
  | some end_ =>
      rw [Option.map_some]
      dsimp only
      constructor
      · unfold GuardRule.answer
        dsimp only
        rw [hblocks]
      · refine ⟨hcleaned.tidy, fun ip' => ?_⟩
        rw [logOf_snoc]
        split
        · rename_i hip
          subst hip
          cases counted with
          | true => exact hown.blocked hblocks
          | false => exact hown
        · exact hcleaned.logs ip'
  | none =>
      have hdropped := GuardState.alike_dropEnded r (hruns.trans hblocks)
      have hfresh : Follows r ((r.cleanup now s).dropEnded ip) past now :=
        ⟨hdropped.tidy now hcleaned.tidy,
          fun ip => (hcleaned.logs ip).alike (Nat.le_refl now) hdropped⟩
      rw [Option.map_none]
      dsimp only
      cases counted with
      | false =>
          rw [if_neg Bool.false_ne_true]
          constructor
          · unfold GuardRule.answer
            dsimp only
            rw [hblocks]
            rfl
          · refine ⟨hfresh.tidy, fun ip' => ?_⟩
            rw [logOf_snoc]
            split
            · rename_i hip
              subst hip
              exact hfresh.logs _
            · exact hfresh.logs ip'
      | true =>
          rw [if_pos rfl]
          have hfree : forall a, ((r.cleanup now s).dropEnded ip).activity ip =
              some a -> a.blockedUntil = none := by
            intro a ha
            rw [GuardState.activity_dropEnded, if_pos rfl] at ha
            exact Option.isNone_iff_eq_none.mp (Option.filter_eq_some_iff.mp ha).right
          have hcounted := GuardState.counted_of_free (r := r) order
            ((hroom.cleanup r now).dropEnded ip) hfree hfresh.tidy (Nat.le_refl now)
          rcases (hfresh.logs ip).counted hblocks hcounted with ⟨hnext, hanswer⟩
          refine ⟨hanswer, hcounted.tidy, fun ip' => ?_⟩
          rw [logOf_snoc]
          split
          · rename_i hip
            subst hip
            exact hnext
          · rename_i hne
            exact (hfresh.logs ip').of_activity_eq
              (hcounted.others ip' fun heq => hne heq.symm)

theorem follows_peek {past : List (GuardCall Ip)}
    {order : Table.Iteration (Ip × IpActivity)} (h : Follows r s past last)
    (hlast : last ≤ now) :
    (AdminAuthGuard.check ip now s).2 =
        r.answer (r.logOf (callsOf ip past)) (.peek now) ∧
      Follows r (AdminAuthGuard.check ip now s).1
        (past ++ [⟨ip, .peek now, order⟩]) now := by
  have hlogs : forall ip',
      r.logOf (callsOf ip' (past ++ [⟨ip, .peek now, order⟩])) =
        r.logOf (callsOf ip' past) := by
    intro ip'
    rw [logOf_snoc]
    exact ite_self _
  have hruns := (h.logs ip).runs now hlast
  have hleft : s.left ip now = (blocks (r.logOf (callsOf ip past)) now).map
      fun end_ => secondsLeft end_ now := by
    rw [← hruns]
    rfl
  have hlater : forall {s' : GuardState Ip}, GuardState.Alike r now s s' ->
      Follows r s' (past ++ [⟨ip, .peek now, order⟩]) now := by
    intro s' halike
    constructor
    · intro ip' a ha
      have hold := halike.tidy last h.tidy ip' a ha
      exact ⟨hold.sorted, hold.hits_le, le_trans hold.seen hlast⟩
    · intro ip'
      rw [hlogs]
      exact (h.logs ip').alike hlast halike
  unfold AdminAuthGuard.check
  rw [hleft]
  cases hblocks : blocks (r.logOf (callsOf ip past)) now with
  | some end_ =>
      refine ⟨?_, hlater ⟨fun _ _ _ => rfl, fun _ _ _ => rfl, fun _ h => h⟩⟩
      unfold GuardRule.answer
      dsimp only
      rw [hblocks]
      rfl
  | none =>
      refine ⟨?_, hlater (GuardState.alike_dropEnded r (hruns.trans hblocks))⟩
      unfold GuardRule.answer
      dsimp only
      rw [hblocks]
      rfl

theorem follows_clear {past : List (GuardCall Ip)}
    {order : Table.Iteration (Ip × IpActivity)} (h : Follows r s past last) :
    Follows r (AdminAuthGuard.clear ip s) (past ++ [⟨ip, .clear, order⟩]) last := by
  have hactivity := GuardState.activity_delete s ip
  constructor
  · intro ip' a ha
    rw [AdminAuthGuard.clear, hactivity] at ha
    split at ha
    · cases ha
    · exact h.tidy ip' a ha
  · intro ip'
    rw [logOf_snoc]
    split
    · rename_i hip
      subst hip
      have hgone := (hactivity ip).trans (if_pos rfl)
      refine ⟨fun _ hhit => (by cases hhit), fun later _ => ?_, fun later _ _ => ?_⟩
      · unfold GuardState.runs AdminAuthGuard.clear
        rw [hgone]
        rfl
      · unfold GuardState.recentHits AdminAuthGuard.clear
        rw [hgone]
        rfl
    · rename_i hne
      exact (h.logs ip').of_activity_eq
        ((hactivity ip').trans (if_neg fun heq => hne heq.symm))

/-- One call answers as the rule does, and leaves a guard that follows the
logs. -/
theorem follows_apply {past : List (GuardCall Ip)} {c : GuardCall Ip}
    (h : Follows r s past last) (hroom : s.HasRoom)
    (hlast : forall now, c.call.now? = some now -> last ≤ now) :
    (r.apply s c).2 = r.answer (r.logOf (callsOf c.ip past)) c.call ∧
      Follows r (r.apply s c).1 (past ++ [c]) (c.call.now?.getD last) := by
  rcases c with ⟨ip, call, order⟩
  cases call with
  | visit counted now =>
      exact follows_visit h hroom (hlast now rfl)
  | peek now =>
      exact follows_peek h (hlast now rfl)
  | clear =>
      exact ⟨rfl, follows_clear h⟩

/-- A whole run answers as the rule does. -/
theorem answers_eq_naive_of_follows {past calls : List (GuardCall Ip)}
    (h : Follows r s past last)
    (hordered : (calls.filterMap fun c => c.call.now?).Pairwise (· ≤ ·))
    (hlast : forall now, now ∈ calls.filterMap (fun c => c.call.now?) ->
      last ≤ now)
    (hroom : r.system.Along (fun s _ => s.HasRoom) s calls) :
    r.answers s calls = r.naiveAnswers past calls := by
  induction calls generalizing s past last with
  | nil =>
      rfl
  | cons c rest ih =>
      have hnow : forall now, c.call.now? = some now -> last ≤ now := by
        intro now hc
        exact hlast now (List.mem_filterMap.mpr ⟨c, List.mem_cons_self .., hc⟩)
      rcases follows_apply h hroom.left hnow with ⟨hanswer, hnext⟩
      have hrest : r.answers (r.apply s c).1 rest =
          r.naiveAnswers (past ++ [c]) rest := by
        cases hc : c.call.now? with
        | none =>
            rw [hc] at hnext
            rw [List.filterMap_cons, hc] at hordered hlast
            exact ih hnext hordered hlast (hroom.right _ rfl)
        | some now =>
            rw [hc] at hnext
            rw [List.filterMap_cons, hc] at hordered
            rcases List.pairwise_cons.mp hordered with ⟨hbefore, hordered⟩
            exact ih hnext hordered hbefore (hroom.right _ rfl)
      show [(r.apply s c).2] ++ r.answers (r.apply s c).1 rest = _
      rw [hanswer, hrest]
      rfl

theorem follows_new (start : Instant) :
    Follows r (GuardState.new start : GuardState Ip) [] 0 where
  tidy := fun _ _ ha => by cases ha
  logs := fun _ =>
    ⟨fun _ hhit => (by cases hhit), fun _ _ => rfl, fun _ _ _ => rfl⟩

theorem answers_eq_naive {start : Instant} {calls : List (GuardCall Ip)}
    (hordered : (calls.filterMap fun c => c.call.now?).Pairwise (· ≤ ·))
    (hroom : r.system.Along (fun s _ => s.HasRoom) (GuardState.new start) calls) :
    r.answers (GuardState.new start) calls = r.naiveAnswers [] calls :=
  answers_eq_naive_of_follows (follows_new start) hordered
    (fun now _ => Nat.zero_le now) hroom

/-- A call that leaves no trace in the log of another one does not change its
answer. -/
theorem naiveAnswers_filter (keep : GuardCall Ip -> Bool)
    (hkeep : forall c c', keep c = false -> keep c' = true -> c.ip = c'.ip ->
      forall n, r.logged n c.call = n)
    (past calls : List (GuardCall Ip)) :
    ((calls.zip (r.naiveAnswers past calls)).filter
        fun answered => keep answered.1).map Prod.snd =
      r.naiveAnswers (past.filter keep) (calls.filter keep) := by
  have hlog : forall c', keep c' = true -> forall past,
      r.logOf (callsOf c'.ip (past.filter keep)) =
        r.logOf (callsOf c'.ip past) := by
    intro c' hc' past
    induction past using List.reverseRecOn with
    | nil =>
        rfl
    | append_singleton past c ih =>
        rw [List.filter_append, logOf_snoc]
        cases hc : keep c with
        | true =>
            have hone : [c].filter keep = [c] := List.filter_cons_of_pos hc
            rw [hone, logOf_snoc, ih]
        | false =>
            have hone : [c].filter keep = [] :=
              List.filter_cons_of_neg (by rw [hc]; exact Bool.false_ne_true)
            rw [hone, List.append_nil, ih]
            split
            · rename_i hip
              exact (hkeep c c' hc hc' hip _).symm
            · rfl
  induction calls generalizing past with
  | nil =>
      rfl
  | cons c rest ih =>
      have hrest := ih (past ++ [c])
      rw [List.filter_append] at hrest
      rw [naiveAnswers, List.zip_cons_cons, List.filter_cons, List.filter_cons]
      cases hc : keep c with
      | true =>
          have hone : [c].filter keep = [c] := List.filter_cons_of_pos hc
          rw [hone] at hrest
          rw [if_pos rfl, if_pos rfl, List.map_cons, hrest, naiveAnswers,
            hlog c hc past]
      | false =>
          have hone : [c].filter keep = [] :=
            List.filter_cons_of_neg (by rw [hc]; exact Bool.false_ne_true)
          rw [hone, List.append_nil] at hrest
          rw [if_neg Bool.false_ne_true, if_neg Bool.false_ne_true]
          exact hrest

end GuardRule

end HifiApi
