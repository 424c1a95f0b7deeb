import HifiApi.Proxies.Failures
import HifiApi.Tokens.RefusalSteps

/-!
# Rotations that are earned

While the account has a binding, the refusals counted on it are its last
attempts, and all of them came through that binding, as long as the run is
steady.
-/

namespace HifiApi

open TokenManager

/-!
## Counted attempts
-/

/-- The last attempts, as many as are counted, were answered 403 through the
binding. -/
def Tallies (attempts : List AuthAttempt) (n binding : Nat) : Prop :=
  exists recent rest, attempts = recent ++ rest ∧ recent.length = n ∧
    forall a, a ∈ recent -> a.forbidden = true ∧ a.binding = some binding

theorem tallies_zero (attempts : List AuthAttempt) (binding : Nat) :
    Tallies attempts 0 binding := by
  refine ⟨[], attempts, rfl, rfl, ?_⟩
  intro a ha
  cases ha

theorem Tallies.cons {attempts : List AuthAttempt} {n binding : Nat}
    (h : Tallies attempts n binding) :
    Tallies (⟨some binding, true⟩ :: attempts) (n + 1) binding := by
  rcases h with ⟨recent, rest, hsplit, hlength, hall⟩
  refine ⟨⟨some binding, true⟩ :: recent, rest, ?_, ?_, ?_⟩
  · rw [hsplit, List.cons_append]
  · rw [List.length_cons, hlength]
  · intro a ha
    rcases List.mem_cons.mp ha with hnew | hold
    · rw [hnew]
      exact ⟨rfl, rfl⟩
    · exact hall a hold

/-- Four of them earn the change of the proxy. -/
theorem Tallies.earned {attempts : List AuthAttempt} {n binding : Nat}
    (h : Tallies attempts n binding) (hfour : authForbiddenRotateThreshold ≤ n) :
    (AuthRotation.mk binding attempts).Earned := by
  rcases h with ⟨recent, rest, hsplit, hlength, hall⟩
  refine ⟨recent.take authForbiddenRotateThreshold,
    recent.drop authForbiddenRotateThreshold ++ rest, ?_, ?_, ?_⟩
  · show attempts = _
    rw [← List.append_assoc, List.take_append_drop, hsplit]
  · rw [List.length_take, hlength, min_eq_left hfour]
  · intro a ha
    exact hall a (List.mem_of_mem_take ha)

/-- The last attempt came through the binding that goes. -/
theorem AuthRotation.Earned.last {rot : AuthRotation} (h : rot.Earned) :
    rot.attempts.head?.bind AuthAttempt.binding = some rot.binding := by
  rcases h with ⟨recent, rest, hsplit, hlength, hall⟩
  cases recent with
  | nil =>
      cases hlength
  | cons a recent =>
      rw [hsplit, List.cons_append, List.head?_cons, Option.bind_some]
      exact (hall a List.mem_cons_self).right

/-!
## The invariant
-/

namespace AuthStage

/-- A refresh that waits for {lit}`rotate_account` has found four refusals; a
cycle holds the account's record. -/
def Fits (p n : Nat) : AuthStage -> Prop
  | rotating _ => authForbiddenRotateThreshold ≤ n
  | attempting _ c => c.Holds p
  | noting _ _ r _ _ => r.pointer = p
  | _ => True

theorem fits_of_isEnded {p n : Nat} {stage : AuthStage}
    (h : stage.isEnded = true) : stage.Fits p n := by
  cases stage with
  | ended =>
      trivial
  | _ =>
      cases h

end AuthStage

namespace AuthWorld

/-- Only the last refresh is under way; the count is backed by attempts through
the binding the account has. -/
structure Tallied (acc : AuthAccount) (s : AuthWorld) : Prop where
  single : forall j stage, s.refreshes[j]? = some stage -> stage.isEnded = false ->
    j + 1 = s.refreshes.length
  fits : forall stage, stage ∈ s.refreshes -> stage.Fits acc.pointer (s.streak acc)
  tally : s.isBound acc = true ->
    Tallies s.attempts (s.streak acc) (s.binding acc)
  earned : forall rot, rot ∈ s.rotations -> rot.Earned

section Steps

variable {acc : AuthAccount} {s s' : AuthWorld}

theorem tallied_start (enabled : Bool) (proxies : List String) (m : Roster accounts) :
    (start enabled proxies m).Tallied acc where
  single := by
    intro j stage h
    cases h
  fits := by
    intro stage h
    cases h
  tally := by
    intro h
    cases h
  earned := by
    intro rot h
    cases h

/-- Next to a refresh under way all others have ended. -/
theorem Tallied.others (hs : s.Tallied acc) {j k : Nat} {stage other : AuthStage}
    (hj : s.refreshes[j]? = some stage) (hlive : stage.isEnded = false)
    (hk : s.refreshes[k]? = some other) (hne : k ≠ j) : other.isEnded = true := by
  cases hended : other.isEnded with
  | true =>
      rfl
  | false =>
      have hjLast := hs.single j stage hj hlive
      have hkLast := hs.single k other hk hended
      omega

/-- The refresh under way moves on: what it needs of the count and what the count
says are to be shown again. -/
theorem Tallied.moves (hs : s.Tallied acc) {j : Nat} {stage : AuthStage}
    (stage' : AuthStage) (hj : s.refreshes[j]? = some stage)
    (hlive : stage.isEnded = false)
    (hrefreshes : s'.refreshes = s.refreshes.set j stage')
    (hfits : stage'.Fits acc.pointer (s'.streak acc))
    (htally : s'.isBound acc = true ->
      Tallies s'.attempts (s'.streak acc) (s'.binding acc))
    (hrotations : s'.rotations = s.rotations) : s'.Tallied acc where
  single := by
    intro k other hk hother
    rw [hrefreshes, List.length_set]
    rw [hrefreshes, List.getElem?_set] at hk
    split at hk
    · rename_i heq
      rw [← heq]
      exact hs.single j stage hj hlive
    · exact hs.single k other hk hother
  fits := by
    intro other hmem
    rw [hrefreshes] at hmem
    rcases List.mem_iff_getElem?.mp hmem with ⟨k, hk⟩
    rw [List.getElem?_set] at hk
    split at hk
    · split at hk
      · cases hk
        exact hfits
      · cases hk
    · rename_i hne
      exact AuthStage.fits_of_isEnded (hs.others hj hlive hk (Ne.symm hne))
  tally := htally
  earned := by
    rw [hrotations]
    exact hs.earned

/-- Where neither the count nor the binding changes, the tally stays. -/
theorem Tallied.tally_of_same (hs : s.Tallied acc)
    (hattempts : s'.attempts = s.attempts) (hstreak : s'.streak acc = s.streak acc)
    (hbinding : s'.binding acc = s.binding acc)
    (hbound : s'.isBound acc = s.isBound acc) (h : s'.isBound acc = true) :
    Tallies s'.attempts (s'.streak acc) (s'.binding acc) := by
  rw [hattempts, hstreak, hbinding]
  rw [hbound] at h
  exact hs.tally h

theorem calls_binding (acc : AuthAccount) (s : AuthWorld) (c : ProxyCall)
    (now : Int) :
    (s.calls acc c now).binding acc = s.binding acc ∧
      (s.calls acc c now).isBound acc = s.isBound acc := by
  rcases ProxyWorld.called_binding acc.cfg s.proxies c now acc.id with ⟨hlog, hroute⟩
  constructor
  · exact hlog
  · exact congrArg Option.isSome hroute

/-- A refresh starts when no other one is under way. -/
theorem Tallied.begin (hs : s.Tallied acc) (hoff : acc.rotatesOnRefresh = false)
    (hended : s.refreshes.all AuthStage.isEnded = true) (now : Int) :
    (s.begin acc now).Tallied acc := by
  have hnew : forall (c : ProxyCall) (stage : AuthStage),
      stage.Fits acc.pointer (s.streak acc) ->
      Tallied acc
        { s.calls acc c now with refreshes := s.refreshes ++ [stage] } := by
    intro c stage hfits
    rcases calls_binding acc s c now with ⟨hbinding, hbound⟩
    constructor
    · intro j other hj hlive
      show j + 1 = (s.refreshes ++ [stage]).length
      rw [List.length_append, List.length_singleton]
      have hlt := (List.getElem?_eq_some_iff.mp hj).choose
      have hlength : j < (s.refreshes ++ [stage]).length := hlt
      rw [List.length_append, List.length_singleton] at hlength
      by_cases hold : j < s.refreshes.length
      · have hget : (s.refreshes ++ [stage])[j]? = some other := hj
        rw [List.getElem?_append_left hold] at hget
        have hother := List.all_eq_true.mp hended other (List.mem_of_getElem? hget)
        rw [hlive] at hother
        cases hother
      · omega
    · intro other hmem
      rcases List.mem_append.mp hmem with hold | hlast
      · exact AuthStage.fits_of_isEnded (List.all_eq_true.mp hended other hold)
      · rw [List.mem_singleton.mp hlast]
        exact hfits
    · exact hs.tally_of_same rfl rfl hbinding hbound
    · exact hs.earned
  unfold AuthWorld.begin
  dsimp only
  split
  · rename_i hrotates
    apply hnew
    rcases hrotates with hon | hfour
    · rw [hoff] at hon
      cases hon
    · exact hfour.right
  · exact hnew _ _ trivial

/-- A refresh that hears of its task is under way only if it was, and needs no
more of the count. -/
theorem hears_spec (p : ProxyWorld) (k : Nat) (x : Section) (stage : AuthStage) :
    ((acc.hears p k x stage).isEnded = false -> stage.isEnded = false) ∧
      forall q n, stage.Fits q n -> (acc.hears p k x stage).Fits q n := by
  cases stage with
  | rotating k' =>
      simp only [AuthAccount.hears]
      constructor
      · exact fun _ => rfl
      · intro q n hfits
        split
        · trivial
        · exact hfits
  | resolving k' =>
      constructor
      · exact fun _ => rfl
      · intro q n _
        simp only [AuthAccount.hears]
        split
        · split
          · trivial
          · split <;> trivial
        · trivial
  | rotated | resolved _ | unresolved _ | attempting _ _ | noting _ _ _ _ _ | ended =>
      constructor
      · exact fun h => h
      · exact fun _ _ h => h

theorem length_told (s : AuthWorld) (x : Section) (a : ProxyAction) :
    (s.told acc x a).length = s.refreshes.length := by
  cases a with
  | call c now =>
      rfl
  | go k o =>
      exact List.length_map _

theorem getElem?_told {x : Section} {a : ProxyAction} {j : Nat} {stage' : AuthStage}
    (h : (s.told acc x a)[j]? = some stage') :
    exists stage, s.refreshes[j]? = some stage ∧
      (stage'.isEnded = false -> stage.isEnded = false) ∧
      forall q n, stage.Fits q n -> stage'.Fits q n := by
  cases a with
  | call c now =>
      exact ⟨stage', h, fun hlive => hlive, fun _ _ hfits => hfits⟩
  | go k o =>
      have hmap : (s.refreshes.map (acc.hears s.proxies k x))[j]? = some stage' := h
      rw [List.getElem?_map] at hmap
      rcases Option.map_eq_some_iff.mp hmap with ⟨stage, hstage, heq⟩
      rw [← heq]
      exact ⟨stage, hstage, hears_spec s.proxies k x stage⟩

/-- A rotation that is noted takes away the binding while the refresh that has
asked for it waits. -/
theorem mem_rotated {x : Section} {a : ProxyAction} {rot : AuthRotation}
    (h : rot ∈ s.rotated acc x a) :
    rot ∈ s.rotations ∨
      rot = ⟨s.binding acc, s.attempts⟩ ∧
        (exists k, AuthStage.rotating k ∈ s.refreshes) ∧
        x.events.any (ProxyEvent.rotatesOff acc.id) = true := by
  cases a with
  | call c now =>
      exact Or.inl h
  | go k o =>
      simp only [AuthWorld.rotated] at h
      split at h
      · rename_i hboth
        rcases Bool.and_eq_true_iff.mp hboth with ⟨hwaits, hoff⟩
        rcases List.mem_append.mp h with hold | hnew
        · exact Or.inl hold
        · right
          refine ⟨List.mem_singleton.mp hnew, ?_, hoff⟩
          rcases List.any_eq_true.mp hwaits with ⟨stage, hmem, hrotates⟩
          cases stage with
          | rotating k' =>
              exact ⟨k', hmem⟩
          | _ =>
              cases hrotates
      · exact Or.inl h

theorem Tallied.proxy (hs : s.Tallied acc) {a : ProxyAction} {x : Section}
    (hsteady : s.streak acc ≠ 0 -> (s.proxies.stands a).rebinds acc.id = false)
    (hx : s.proxies.sectionOf acc.cfg a = some x) :
    Tallied acc
      { s with
        proxies := ⟨x.manager, s.proxies.moved x.task a, s.proxies.log ++ x.events⟩
        refreshes := s.told acc x a
        rotations := s.rotated acc x a } where
  single := by
    intro j stage' hj hlive
    rcases getElem?_told hj with ⟨stage, hstage, hwas, _⟩
    show j + 1 = (s.told acc x a).length
    rw [length_told]
    exact hs.single j stage hstage (hwas hlive)
  fits := by
    intro stage' hmem
    rcases List.mem_iff_getElem?.mp hmem with ⟨j, hj⟩
    rcases getElem?_told hj with ⟨stage, hstage, _, hkeeps⟩
    exact hkeeps _ _ (hs.fits stage (List.mem_of_getElem? hstage))
  tally := by
    intro hbound
    show Tallies s.attempts (s.streak acc)
      (ProxyEvent.bindings acc.id (s.proxies.log ++ x.events))
    by_cases hzero : s.streak acc = 0
    · rw [hzero]
      exact tallies_zero _ _
    · rcases ProxyWorld.keepsBinding_of_section hx (hsteady hzero) with
        ⟨hevents, hroute⟩
      have hsome : x.manager.routes.route acc.id ≠ none :=
        Option.isSome_iff_ne_none.mp hbound
      rw [ProxyEvent.bindings_append hevents]
      exact hs.tally (Option.isSome_iff_ne_none.mpr (hroute hsome))
  earned := by
    intro rot hrot
    rcases mem_rotated hrot with hold | ⟨heq, ⟨k, hk⟩, hoff⟩
    · exact hs.earned rot hold
    · have hbound : s.isBound acc = true :=
        Option.isSome_iff_ne_none.mpr (ProxyWorld.route_of_rotatesOff hx hoff)
      have hfour : authForbiddenRotateThreshold ≤ s.streak acc := hs.fits _ hk
      rw [heq]
      exact (hs.tally hbound).earned hfour

/-- A refresh is answered by the proxy manager. -/
theorem Tallied.resume (hs : s.Tallied acc) {j : Nat} {stage : AuthStage}
    {now : I64} {jitter : Nat} (hj : s.refreshes[j]? = some stage)
    (h : s.resume acc j now jitter stage = some s') : s'.Tallied acc := by
  cases stage with
  | rotated =>
      cases h
      refine hs.moves (.resolving s.proxies.tasks.length) hj rfl rfl trivial ?_ rfl
      intro _
      have hzero : (TokenWorld.rotateProxy s.roster acc.pointer true).streakAt
          acc.pointer = 0 := by
        rw [TokenWorld.rotateProxy, if_pos rfl, Roster.streakAt_rewrite]
      show Tallies s.attempts
        ((TokenWorld.rotateProxy s.roster acc.pointer true).streakAt acc.pointer) _
      rw [hzero]
      exact tallies_zero _ _
  | resolved binding =>
      cases h
      exact hs.moves
        (.attempting binding
          (firstAttempt acc.pointer (s.roster.memory.cells acc.pointer)))
        hj rfl rfl rfl (hs.tally_of_same rfl rfl rfl rfl) rfl
  | unresolved error =>
      cases h
      have hstreak := Roster.streakAt_failRefresh s.roster acc.pointer now jitter error
      exact hs.moves .ended hj rfl rfl trivial (hs.tally_of_same rfl hstreak rfl rfl)
        rfl
  | rotating _ | resolving _ | attempting _ _ | noting _ _ _ _ _ | ended =>
      cases h

/-- The cycle of a refresh has moved on, with the attempts there are then. -/
theorem Tallied.attempted (hs : s.Tallied acc) {j : Nat} {stage : AuthStage}
    {binding : Option Nat} {m : Roster accounts} {c : Cycle}
    (hj : s.refreshes[j]? = some stage) (hlive : stage.isEnded = false)
    (hholds : c.Holds acc.pointer) (attempts : List AuthAttempt)
    (htally : s.isBound acc = true ->
      Tallies attempts (m.streakAt acc.pointer) (s.binding acc)) :
    ({ s with attempts }.attempted j binding m c).Tallied acc := by
  have hfits : forall n, (AuthStage.ofCycle binding c).Fits acc.pointer n := by
    intro n
    cases c with
    | ended result =>
        trivial
    | _ =>
        exact hholds
  exact hs.moves (.ofCycle binding c) hj hlive rfl (hfits _) htally rfl

theorem Tallied.send (hs : s.Tallied acc) {j : Nat} {binding : Option Nat}
    {r : Refreshing} (hj : s.refreshes[j]? = some (.attempting binding (.sending r)))
    (oldRefresh : String) :
    (s.attempted j binding s.roster (.asking r oldRefresh)).Tallied acc := by
  have hholds : (Cycle.sending r).Holds acc.pointer :=
    hs.fits _ (List.mem_of_getElem? hj)
  exact hs.attempted (c := .asking r oldRefresh) hj rfl hholds s.attempts hs.tally

theorem Tallied.answer (hs : s.Tallied acc) {j : Nat} {binding : Option Nat}
    {r : Refreshing} {oldRefresh : String}
    (hj : s.refreshes[j]? = some (.attempting binding (.asking r oldRefresh)))
    (answer : AuthAnswer) (k : Option Nat) :
    (s.withStage j (.noting k binding r oldRefresh answer)).Tallied acc ∧
      forall c now, ((s.calls acc c now).withStage j
        (.noting k binding r oldRefresh answer)).Tallied acc := by
  have hholds : (Cycle.asking r oldRefresh).Holds acc.pointer :=
    hs.fits _ (List.mem_of_getElem? hj)
  constructor
  · exact hs.moves (.noting k binding r oldRefresh answer) hj rfl rfl hholds hs.tally
      rfl
  · intro c now
    rcases calls_binding acc s c now with ⟨hbinding, hbound⟩
    exact hs.moves (.noting k binding r oldRefresh answer) hj rfl rfl hholds
      (hs.tally_of_same rfl rfl hbinding hbound) rfl

/-- A refusal that is read came through the account's binding. -/
theorem Tallied.read (hs : s.Tallied acc) {j : Nat} {k binding : Option Nat}
    {r : Refreshing} {oldRefresh : String} {answer : AuthAnswer} {now : I64}
    {jitter : Nat}
    (hj : s.refreshes[j]? = some (.noting k binding r oldRefresh answer))
    (hsteady : answer.forbidden = true -> s.isBound acc = true ->
      binding = some (s.binding acc))
    (h : s.read j binding r oldRefresh answer now jitter = some s') :
    s'.Tallied acc := by
  have hpointer : r.pointer = acc.pointer := hs.fits _ (List.mem_of_getElem? hj)
  have hholds : (Cycle.asking r oldRefresh).Holds acc.pointer := hpointer
  simp only [AuthWorld.read] at h
  split at h
  · cases h
  · rename_i m r' old grant expires hstep
    cases h
    refine hs.attempted hj rfl (Cycle.holds_of_step hholds hstep) s.attempts ?_
    intro hbound
    rcases Cycle.streakAt_answer hstep with ⟨_, _, _, hstreak⟩ | ⟨hnot, _⟩
    · rw [← hpointer, hstreak, hpointer]
      exact hs.tally hbound
    · exact absurd rfl (hnot r' old grant expires)
  · rename_i m c hnot hstep
    cases h
    refine hs.attempted hj rfl (Cycle.holds_of_step hholds hstep)
      (⟨binding, answer.forbidden⟩ :: s.attempts) ?_
    intro hbound
    rcases Cycle.streakAt_answer hstep with ⟨grant, expires, hstoring, _⟩ |
      ⟨_, hstreak⟩
    · exact absurd hstoring (hnot r oldRefresh grant expires)
    · rw [← hpointer, hstreak, hpointer]
      split
      · rename_i hforbidden
        rw [hsteady hforbidden hbound, hforbidden]
        exact (hs.tally hbound).cons
      · exact tallies_zero _ _

theorem Tallied.store (hs : s.Tallied acc) {j : Nat} {binding : Option Nat}
    {r : Refreshing} {oldRefresh : String} {grant : Grant} {expires : Int}
    {now : I64} {jitter : Nat}
    (hj : s.refreshes[j]? =
      some (.attempting binding (.storing r oldRefresh grant expires)))
    (h : s.grant j binding (.storing r oldRefresh grant expires)
      (.store now jitter) = some s') : s'.Tallied acc := by
  have hholds : (Cycle.storing r oldRefresh grant expires).Holds acc.pointer :=
    hs.fits _ (List.mem_of_getElem? hj)
  have hpointer : r.pointer = acc.pointer := hholds
  simp only [AuthWorld.grant] at h
  split at h
  · cases h
  · rename_i m r' token expires' hstep
    cases h
    refine hs.attempted hj rfl (Cycle.holds_of_step hholds hstep) s.attempts ?_
    intro hbound
    rcases Cycle.streakAt_store hstep with ⟨_, _, _, hstreak⟩ | ⟨hnot, _⟩
    · rw [← hpointer, hstreak, hpointer]
      exact hs.tally hbound
    · exact absurd rfl (hnot r' token expires')
  · rename_i m c hnot hstep
    cases h
    refine hs.attempted hj rfl (Cycle.holds_of_step hholds hstep)
      (⟨binding, false⟩ :: s.attempts) ?_
    intro _
    rcases Cycle.streakAt_store hstep with ⟨token, expires', hpublishing, _⟩ |
      ⟨_, hstreak⟩
    · exact absurd hpublishing (hnot r token expires')
    · rw [← hpointer, hstreak]
      exact tallies_zero _ _

theorem Tallied.publish (hs : s.Tallied acc) {j : Nat} {binding : Option Nat}
    {r : Refreshing} {token : String} {expires : Int}
    (hj : s.refreshes[j]? =
      some (.attempting binding (.publishing r token expires)))
    (h : s.grant j binding (.publishing r token expires) .publish = some s') :
    s'.Tallied acc := by
  have hholds : (Cycle.publishing r token expires).Holds acc.pointer :=
    hs.fits _ (List.mem_of_getElem? hj)
  have hpointer : r.pointer = acc.pointer := hholds
  simp only [AuthWorld.grant] at h
  split at h
  · cases h
  · rename_i hstep
    cases hstep
  · rename_i m c _ hstep
    cases h
    refine hs.attempted hj rfl (Cycle.holds_of_step hholds hstep)
      (⟨binding, false⟩ :: s.attempts) ?_
    intro _
    rw [← hpointer, Cycle.streakAt_publish hstep]
    exact tallies_zero _ _

/-- No attempt goes with a refresh that is cut off while refusals are counted. -/
theorem cut_none_of_steady {j : Nat} {stage : AuthStage}
    (hj : s.refreshes[j]? = some stage)
    (hsteady : s.streak acc ≠ 0 -> s.isBound acc = true ->
      ((s.refreshes[j]?).bind AuthStage.cut).isNone = true)
    (hcounted : s.streak acc ≠ 0) (hbound : s.isBound acc = true) :
    stage.cut = none := by
  have hnone := hsteady hcounted hbound
  rw [hj] at hnone
  exact Option.isNone_iff_eq_none.mp hnone

/-- A refresh is cut off without an attempt, or while nothing is counted for the
account's binding. -/
theorem Tallied.cutOff (hs : s.Tallied acc) {j : Nat} {stage : AuthStage}
    {m : Roster accounts} (hj : s.refreshes[j]? = some stage)
    (hwaits : stage.waits = true)
    (hm : m.streakAt acc.pointer = s.streak acc)
    (hsteady : s.streak acc ≠ 0 -> s.isBound acc = true -> stage.cut = none) :
    Tallied acc { s.cutOff j stage with roster := m } := by
  have hlive : stage.isEnded = false := by
    cases stage with
    | ended =>
        cases hwaits
    | _ => rfl
  have hsame : (s.proxies.cancel stage.awaited).manager = s.proxies.manager ∧
      (s.proxies.cancel stage.awaited).log = s.proxies.log := by
    cases stage.awaited <;> exact ⟨rfl, rfl⟩
  refine hs.moves .ended hj hlive rfl trivial ?_ rfl
  intro hbound
  show Tallies (stage.cut.toList ++ s.attempts) (m.streakAt acc.pointer)
    (ProxyEvent.bindings acc.id (s.proxies.cancel stage.awaited).log)
  have hwas : s.isBound acc = true := by
    show (s.proxies.manager.routes.route acc.id).isSome = true
    rw [← hsame.left]
    exact hbound
  rw [hm, hsame.right]
  by_cases hzero : s.streak acc = 0
  · rw [hzero]
    exact tallies_zero _ _
  · rw [hsteady hzero hwas]
    exact hs.tally hwas

theorem Tallied.step (hs : s.Tallied acc) (hoff : acc.rotatesOnRefresh = false)
    {a : AuthAction} (hsteady : s.Steady acc a) (h : s.step acc a = some s') :
    s'.Tallied acc := by
  cases a with
  | proxy a =>
      rcases Option.map_eq_some_iff.mp h with ⟨x, hx, heq⟩
      rw [← heq]
      exact hs.proxy hsteady hx
  | begin now =>
      cases h
      exact hs.begin hoff hsteady now
  | resume j now jitter =>
      simp only [AuthWorld.step] at h
      split at h
      · rename_i stage hj
        exact hs.resume hj h
      · cases h
  | send j =>
      simp only [AuthWorld.step] at h
      split at h
      · rename_i hj
        cases h
        exact hs.send hj _
      · cases h
  | answer j answer now =>
      simp only [AuthWorld.step] at h
      split at h
      · rename_i binding r oldRefresh hj
        split at h
        · cases h
          exact (hs.answer hj answer _).right _ now
        · cases h
          exact (hs.answer hj answer none).left
      · cases h
  | read j now jitter =>
      simp only [AuthWorld.step] at h
      split at h
      · rename_i k binding r oldRefresh answer hj
        split at h
        · apply hs.read hj _ h
          intro hforbidden hbound
          apply hsteady hbound
          rw [hj, Option.bind_some, AuthStage.refusedThrough, if_pos hforbidden]
          rfl
        · cases h
      · cases h
  | store j now jitter =>
      simp only [AuthWorld.step] at h
      split at h
      · rename_i hj
        exact hs.store hj h
      · cases h
  | publish j =>
      simp only [AuthWorld.step] at h
      split at h
      · rename_i hj
        exact hs.publish hj h
      · cases h
  | deadline j now jitter =>
      simp only [AuthWorld.step] at h
      split at h
      · rename_i stage hj
        split at h
        · rename_i hwaits
          cases h
          exact hs.cutOff hj hwaits
            (Roster.streakAt_failRefresh s.roster acc.pointer now jitter .timeout)
            (cut_none_of_steady hj hsteady)
        · cases h
      · cases h
  | abandon j =>
      simp only [AuthWorld.step] at h
      split at h
      · rename_i stage hj
        split at h
        · rename_i hwaits
          cases h
          exact hs.cutOff hj hwaits rfl (cut_none_of_steady hj hsteady)
        · cases h
      · cases h

end Steps

end AuthWorld

open AuthWorld

/-- In a steady run a refresh takes the account off its proxy only after four
refusals in a row through that very binding. -/
theorem rotations_earned_of_steady (acc : AuthAccount)
    (hoff : acc.rotatesOnRefresh = false) (enabled : Bool) (proxies : List String)
    (m : Roster accounts) (actions : List AuthAction) (s' : AuthWorld)
    (hsteady : (authSystem acc).Along (Steady acc) (start enabled proxies m) actions)
    (hrun : (authSystem acc).run (start enabled proxies m) actions = some s') :
    forall rot, rot ∈ s'.rotations -> rot.Earned := by
  have htallied : s'.Tallied acc :=
    System.run_invariant_along (I := fun s => s.Tallied acc)
      (fun _ _ _ hs ha h => hs.step hoff ha h) (tallied_start enabled proxies m)
      hsteady hrun
  exact htallied.earned

/-!
## Two runs
-/

/-- The account with two proxies. -/
def refusedAccount : AuthAccount where
  cfg := twoProxies
  rotatesOnRefresh := false
  id := "a"
  pointer := 0

def bindsTwice : AuthWorld :=
  .start true ["p", "q"] oneTokenless

/-- An attempt of the first refresh is refused; the proxy manager is told in this
task. -/
def refusedAttempt (k : Nat) : List AuthAction :=
  [.send 0, .answer 0 (.ok (forbidden none)) 100,
    .proxy (ProxyAction.go k accepted), .read 0 0 0]

/-- The first refresh gets the first proxy and is refused four times. -/
def fourRefusals : List AuthAction :=
  [AuthAction.begin 100] ++ List.replicate 10 (.proxy (ProxyAction.go 0 accepted)) ++
    [AuthAction.resume 0 0 0] ++ refusedAttempt 1 ++ refusedAttempt 2 ++ refusedAttempt 3 ++
    refusedAttempt 4

/-- The next refresh takes the account off its proxy. -/
def rotatesNext (k : Nat) : List AuthAction :=
  .begin 200 :: List.replicate 2 (.proxy (ProxyAction.go k accepted))

theorem rotations_earned_of_steady_fourRefusals :
    exists s', (authSystem refusedAccount).run bindsTwice
        (fourRefusals ++ rotatesNext 5) = some s' ∧ s'.rotations.length = 1 ∧
      forall rot, rot ∈ s'.rotations -> rot.Earned := by
  refine ⟨_, rfl, ?_, ?_⟩
  · rfl
  · exact rotations_earned_of_steady refusedAccount rfl true ["p", "q"] oneTokenless
      (fourRefusals ++ rotatesNext 5) _ (by decide) rfl

/-- Traffic takes the account off the proxy it was refused through and gets it
another one. -/
def trafficMoves : List AuthAction :=
  (reportsFailure 5 ++ reportsFailure 6 ++ reportsFailure 7 ++
    List.replicate 3 (ProxyAction.go 7 accepted) ++ getsProxy 8).map .proxy

/-- The other proxy goes without a single attempt through it. -/
theorem not_rotatesWhenEarned : ¬ RotatesWhenEarned := by
  intro h
  have hrun := h refusedAccount true ["p", "q"] oneTokenless rfl rfl
    (fourRefusals ++ trafficMoves ++ rotatesNext 9) _ rfl
  have hlast := (hrun _ List.mem_cons_self).last
  cases hlast

end HifiApi
