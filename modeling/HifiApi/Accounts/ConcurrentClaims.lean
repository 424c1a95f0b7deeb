import HifiApi.Accounts.Selection
import HifiApi.Lib.System

/-!
# Concurrent claims of catalog slots

Claims of catalog slots and drops of slots, one access to shared memory at a time.  A
claim reads the accounts one by one, turns and sorts those that serve the catalog, and
then tries them: it reads the counter of an account and exchanges what it has read for
the next number, which may fail for no reason.  Whatever else happens to the accounts
happens between two steps.  The comparisons of the sort are reads as well; where
another step comes between them, the order is any one.
-/

namespace HifiApi

/-- What {lit}`claim_catalog_slot` reads next about an account. -/
inductive CatalogCheck where
  | isCatalog
  | isActive
  | pause
  | retryAt
  | token
  deriving DecidableEq

/-- Where a claim stands. -/
inductive ClaimStage where
  | scanning (now : I64) (catalog : List Nat) (check : CatalogCheck) (rest : List Nat)
  | counting (now : I64) (catalog : List Nat)
  /-- No other step has come between so far, or one has. -/
  | sorting (now : I64) (rotated : List Nat) (steady : Bool)
  | trying (rest : List Nat)
  | swapping (p : Nat) (current : Nat) (rest : List Nat)
  /-- The place is claimed, and the selection is to be noted. -/
  | noting (p : Nat)
  | done (result : CatalogClaim)
  deriving DecidableEq

/-- What a step is told from outside: the clock in milliseconds, whether an exchange
fails for no reason, and the outcome of a sort that was interfered with. -/
structure ClaimOutside where
  nowMs : Int
  spurious : Bool
  order : List Nat

structure ClaimWorld where
  cells : Nat -> AccountState
  clock : I64
  catalogRr : U64
  /-- The slots that have been handed out and not been dropped. -/
  slots : List Nat
  claims : List ClaimStage

inductive ClaimAction where
  | claim
  | advance (i : Nat) (o : ClaimOutside)
  | dropSlot (p : Nat)
  /-- An account is switched, paused, put on cooldown or used; its counter stays. -/
  | change (p : Nat) (record : AccountState)
  | tick (now : I64)

namespace CatalogCheck

/-- A check leads to the next one or to a verdict. -/
def read (now clock : I64) (a : AccountState) : CatalogCheck -> CatalogCheck ⊕ Bool
  | isCatalog => if a.isCatalog then .inl isActive else .inr false
  | isActive => if a.isActive then .inl pause else .inr false
  | pause =>
      if (AccountManager.rateLimitRemaining clock a).isNone then .inl retryAt
      else .inr false
  | retryAt => if a.healNextRetry ≤ now.val then .inr true else .inl token
  | token => .inr (a.hasUsableToken now)

end CatalogCheck

namespace ClaimStage

/-- Another step comes between the comparisons of a sort. -/
def disturbed : ClaimStage -> ClaimStage
  | sorting now rotated _ => sorting now rotated false
  | stage => stage

/-- A place on an account is claimed and not handed out yet. -/
def holds (p : Nat) : ClaimStage -> Bool
  | noting q => p == q
  | _ => false

/-- A number that is to be exchanged for the next one is below the limit. -/
def Fresh (limit : Nat) : ClaimStage -> Prop
  | swapping _ current _ => 0 < limit -> current < limit
  | _ => True

/-- {lit}`try_claim_catalog_slot` with the number it has read. -/
def attempt (limit p : Nat) (rest : List Nat) (current : Nat) : ClaimStage :=
  if 0 < limit ∧ limit ≤ current then trying rest else swapping p current rest

end ClaimStage

namespace ClaimWorld

/-- No slot is in use, and no claim has begun. -/
def start (cells : Nat -> AccountState) (clock : I64) (catalogRr : U64) : ClaimWorld where
  cells p := { cells p with catalogInflight := 0 }
  clock := clock
  catalogRr := catalogRr
  slots := []
  claims := []

/-- The record of an account with its counter set. -/
def setInflight (s : ClaimWorld) (p n : Nat) : ClaimWorld :=
  { s with
    cells := Function.update s.cells p { s.cells p with catalogInflight := n } }

variable (limit : Nat)

/-- The next step of a claim, in which it leaves the world and itself as they are
then. -/
def advance (s : ClaimWorld) (o : ClaimOutside) : ClaimStage ->
    Option (ClaimWorld × ClaimStage)
  | .scanning now catalog _ [] =>
      some (s, if catalog = [] then .done .unavailable else .counting now catalog)
  | .scanning now catalog check (p :: rest) =>
      match check.read now s.clock (s.cells p) with
      | .inl next => some (s, .scanning now catalog next (p :: rest))
      | .inr true => some (s, .scanning now (catalog ++ [p]) .isCatalog rest)
      | .inr false => some (s, .scanning now catalog .isCatalog rest)
  | .counting now catalog =>
      some ({ s with catalogRr := s.catalogRr.wrappingAdd 1 },
        .sorting now (catalog.rotate (s.catalogRr.val % catalog.length)) true)
  | .sorting now rotated steady =>
      if steady then
        some (s, .trying (rotated.insertionSort fun p q =>
          AccountManager.rateLimitHeat now (s.cells p) ≤
            AccountManager.rateLimitHeat now (s.cells q)))
      else if o.order.Perm rotated then some (s, .trying o.order)
      else none
  | .trying [] => some (s, .done .busy)
  | .trying (p :: rest) =>
      some (s, ClaimStage.attempt limit p rest (s.cells p).catalogInflight)
  | .swapping p current rest =>
      if (s.cells p).catalogInflight = current ∧ o.spurious = false then
        some (s.setInflight p (current + 1), .noting p)
      else some (s, ClaimStage.attempt limit p rest (s.cells p).catalogInflight)
  | .noting p =>
      some ({ s with
        cells := Function.update s.cells p ((s.cells p).noteSelection o.nowMs)
        slots := p :: s.slots }, .done (.slot p))
  | .done _ => none

/-- The sorts that a step comes between. -/
def disturb (s : ClaimWorld) : ClaimWorld :=
  { s with claims := s.claims.map ClaimStage.disturbed }

def step (roster : List Nat) (s : ClaimWorld) : ClaimAction -> Option ClaimWorld
  | .claim =>
      some { s.disturb with
        claims := s.disturb.claims ++ [ClaimStage.scanning s.clock [] .isCatalog roster] }
  | .advance i o =>
      match s.claims[i]? with
      | none => none
      | some stage =>
          (s.advance limit o stage).map fun next =>
            { next.1.disturb with claims := next.1.disturb.claims.set i next.2 }
  | .dropSlot p =>
      if p ∈ s.slots then
        some { s.disturb.setInflight p ((s.cells p).catalogInflight - 1) with
          slots := s.slots.erase p }
      else none
  | .change p record =>
      some { s.disturb with
        cells := Function.update s.cells p
          { record with catalogInflight := (s.cells p).catalogInflight } }
  | .tick now => some { s.disturb with clock := now }

/-- The claims and drops on a roster as a step system. -/
def system (roster : List Nat) : System ClaimWorld ClaimAction := ⟨step limit roster⟩

/-- The slots of an account: a slot lives from the exchange that claims its place to
the subtraction that gives it back. -/
def liveSlots (s : ClaimWorld) (p : Nat) : Nat :=
  s.slots.count p + s.claims.countP (ClaimStage.holds p)

/-!
## Counters
-/

/-- The counters are right and within the limit. -/
structure Counted (s : ClaimWorld) : Prop where
  slots : forall p, (s.cells p).catalogInflight = s.liveSlots p
  within : 0 < limit -> forall p, (s.cells p).catalogInflight ≤ limit
  fresh : forall stage, stage ∈ s.claims -> stage.Fresh limit

/-- What the step of a claim does to the counters. -/
structure Advances (s t : ClaimWorld) (stage stage' : ClaimStage) : Prop where
  claims : t.claims = s.claims
  balance : forall p, (t.cells p).catalogInflight +
      (s.slots.count p + (stage.holds p).toNat) =
    (s.cells p).catalogInflight + (t.slots.count p + (stage'.holds p).toNat)
  within : 0 < limit -> stage.Fresh limit ->
    (forall p, (s.cells p).catalogInflight ≤ limit) ->
      forall p, (t.cells p).catalogInflight ≤ limit
  fresh : stage'.Fresh limit

section Advance

variable {limit} {s t : ClaimWorld} {o : ClaimOutside} {stage stage' : ClaimStage}

theorem attempt_spec (limit p : Nat) (rest : List Nat) (current : Nat) :
    (ClaimStage.attempt limit p rest current).Fresh limit ∧
      forall q, (ClaimStage.attempt limit p rest current).holds q = false := by
  unfold ClaimStage.attempt
  split
  · exact ⟨trivial, fun _ => rfl⟩
  · rename_i hfree
    refine ⟨fun hlimit => ?_, fun _ => rfl⟩
    exact Nat.lt_of_not_le fun hle => hfree ⟨hlimit, hle⟩

theorem Advances.of_same (hfresh : stage'.Fresh limit) (hcells : t.cells = s.cells)
    (hslots : t.slots = s.slots) (hclaims : t.claims = s.claims)
    (hholds : forall p, stage.holds p = false) (hholds' : forall p, stage'.holds p = false) :
    Advances limit s t stage stage' where
  claims := hclaims
  balance p := by rw [hcells, hslots, hholds p, hholds' p]
  within _ _ hwithin := by
    rw [hcells]
    exact hwithin
  fresh := hfresh

theorem advances_of_advance (h : s.advance limit o stage = some (t, stage')) :
    Advances limit s t stage stage' := by
  cases stage with
  | scanning now catalog check rest =>
      cases rest with
      | nil =>
          cases h
          split
          · exact .of_same trivial rfl rfl rfl (fun _ => rfl) fun _ => rfl
          · exact .of_same trivial rfl rfl rfl (fun _ => rfl) fun _ => rfl
      | cons p rest =>
          rw [advance] at h
          split at h
          · cases h
            exact .of_same trivial rfl rfl rfl (fun _ => rfl) fun _ => rfl
          · cases h
            exact .of_same trivial rfl rfl rfl (fun _ => rfl) fun _ => rfl
          · cases h
            exact .of_same trivial rfl rfl rfl (fun _ => rfl) fun _ => rfl
  | counting now catalog =>
      cases h
      exact .of_same trivial rfl rfl rfl (fun _ => rfl) fun _ => rfl
  | sorting now rotated steady =>
      rw [advance] at h
      split at h
      · cases h
        exact .of_same trivial rfl rfl rfl (fun _ => rfl) fun _ => rfl
      · split at h
        · cases h
          exact .of_same trivial rfl rfl rfl (fun _ => rfl) fun _ => rfl
        · cases h
  | trying rest =>
      cases rest with
      | nil =>
          cases h
          exact .of_same trivial rfl rfl rfl (fun _ => rfl) fun _ => rfl
      | cons p rest =>
          cases h
          have hspec := attempt_spec limit p rest (s.cells p).catalogInflight
          exact .of_same hspec.left rfl rfl rfl (fun _ => rfl) hspec.right
  | swapping p current rest =>
      rw [advance] at h
      split at h
      · rename_i hswap
        cases h
        refine ⟨rfl, fun q => ?_, fun hlimit hfresh hwithin q => ?_, trivial⟩
        · by_cases hq : q = p
          · rw [hq]
            simp [setInflight, ClaimStage.holds, hswap.left]
            omega
          · simp [setInflight, ClaimStage.holds, hq]
        · by_cases hq : q = p
          · have hlt := hfresh hlimit
            rw [hq]
            simp only [setInflight, Function.update_self]
            omega
          · simp only [setInflight, Function.update_of_ne hq]
            exact hwithin q
      · cases h
        have hspec := attempt_spec limit p rest (s.cells p).catalogInflight
        exact .of_same hspec.left rfl rfl rfl (fun _ => rfl) hspec.right
  | noting p =>
      cases h
      have hcells : forall q, ((Function.update s.cells p
          ((s.cells p).noteSelection o.nowMs)) q).catalogInflight =
            (s.cells q).catalogInflight := by
        intro q
        by_cases hq : q = p
        · rw [hq, Function.update_self]
          rfl
        · rw [Function.update_of_ne hq]
      refine ⟨rfl, fun q => ?_, fun _ _ hwithin q => ?_, trivial⟩
      · rw [hcells, List.count_cons]
        by_cases hq : q = p
        · simp [ClaimStage.holds, hq]
        · simp [ClaimStage.holds, hq, Ne.symm hq]
      · rw [hcells]
        exact hwithin q
  | done result => cases h

end Advance

section Step

variable {limit} {roster : List Nat} {s s' : ClaimWorld} {a : ClaimAction}

theorem holds_disturbed (p : Nat) (stage : ClaimStage) :
    stage.disturbed.holds p = stage.holds p := by
  cases stage <;> rfl

theorem countP_disturbed (p : Nat) (claims : List ClaimStage) :
    (claims.map ClaimStage.disturbed).countP (ClaimStage.holds p) =
      claims.countP (ClaimStage.holds p) := by
  rw [List.countP_map]
  exact List.countP_congr fun stage _ => by rw [Function.comp, holds_disturbed]

theorem fresh_disturbed {claims : List ClaimStage}
    (h : forall stage, stage ∈ claims -> stage.Fresh limit) :
    forall stage, stage ∈ claims.map ClaimStage.disturbed -> stage.Fresh limit := by
  intro stage hstage
  rcases List.mem_map.mp hstage with ⟨before, hbefore, rfl⟩
  have hfresh := h before hbefore
  cases before with
  | swapping => exact hfresh
  | scanning | counting | sorting | trying | noting | done => exact trivial

theorem Counted.disturb (h : s.Counted limit) : s.disturb.Counted limit where
  slots p := by
    rw [liveSlots, ClaimWorld.disturb, countP_disturbed]
    exact h.slots p
  within := h.within
  fresh := fresh_disturbed h.fresh

theorem Advances.disturb {t : ClaimWorld} {stage stage' : ClaimStage}
    (h : Advances limit s t stage stage') :
    Advances limit s.disturb t.disturb stage.disturbed stage' where
  claims := congrArg (List.map ClaimStage.disturbed) h.claims
  balance p := by
    rw [holds_disturbed]
    exact h.balance p
  within hlimit hfresh := by
    apply h.within hlimit
    cases stage with
    | swapping => exact hfresh
    | scanning | counting | sorting | trying | noting | done => exact trivial
  fresh := h.fresh

/-- A step of a claim keeps the counters right. -/
theorem Counted.set (h : s.Counted limit) {i : Nat} {t : ClaimWorld}
    {stage stage' : ClaimStage} (hstage : s.claims[i]? = some stage)
    (hadvance : Advances limit s t stage stage') :
    Counted limit { t with claims := t.claims.set i stage' } := by
  rcases List.getElem?_eq_some_iff.mp hstage with ⟨hi, hget⟩
  have hmem : stage ∈ s.claims := List.mem_of_getElem? hstage
  refine ⟨fun p => ?_, fun hlimit => ?_, fun other hother => ?_⟩
  · have hslots := h.slots p
    have hbalance := hadvance.balance p
    have hcount := List.countP_set (p := ClaimStage.holds p) (a := stage') hi
    have hpos : (stage.holds p).toNat ≤ s.claims.countP (ClaimStage.holds p) := by
      cases hholds : stage.holds p with
      | false => exact Nat.zero_le _
      | true => exact List.countP_pos_iff.mpr ⟨stage, hmem, hholds⟩
    rw [liveSlots] at hslots ⊢
    dsimp only
    rw [hadvance.claims, hcount, hget]
    cases hholds : stage.holds p <;> cases hholds' : stage'.holds p <;>
      simp only [hholds, hholds', Bool.toNat_false, Bool.toNat_true, if_true,
        Bool.false_eq_true, if_false] at hbalance hpos ⊢ <;> omega
  · exact hadvance.within hlimit (h.fresh stage hmem) (h.within hlimit)
  · rw [hadvance.claims] at hother
    rcases List.mem_or_eq_of_mem_set hother with hin | heq
    · exact h.fresh other hin
    · rw [heq]
      exact hadvance.fresh

theorem Counted.drop (h : s.Counted limit) {p : Nat} (hp : p ∈ s.slots) :
    Counted limit { s.setInflight p ((s.cells p).catalogInflight - 1) with
      slots := s.slots.erase p } where
  slots q := by
    have hslots := h.slots q
    have hpos := List.count_pos_iff.mpr hp
    rw [liveSlots] at hslots ⊢
    by_cases hq : q = p
    · rw [hq] at hslots ⊢
      simp only [setInflight, Function.update_self, List.count_erase_self]
      omega
    · simp only [setInflight, Function.update_of_ne hq, List.count_erase_of_ne hq]
      exact hslots
  within hlimit q := by
    have hwithin := h.within hlimit q
    by_cases hq : q = p
    · rw [hq] at hwithin ⊢
      simp only [setInflight, Function.update_self]
      omega
    · simp only [setInflight, Function.update_of_ne hq]
      exact hwithin
  fresh := h.fresh

theorem Counted.cells (h : s.Counted limit) {cells : Nat -> AccountState}
    (hcells : forall p, (cells p).catalogInflight = (s.cells p).catalogInflight) :
    Counted limit { s with cells := cells } where
  slots p := by
    rw [hcells]
    exact h.slots p
  within hlimit p := by
    rw [hcells]
    exact h.within hlimit p
  fresh := h.fresh

theorem counted_step (h : s.Counted limit) (hstep : s.step limit roster a = some s') :
    s'.Counted limit := by
  have hdisturb := h.disturb
  cases a with
  | claim =>
      cases hstep
      refine ⟨fun p => ?_, hdisturb.within, fun stage hstage => ?_⟩
      · have hslots := hdisturb.slots p
        rw [liveSlots] at hslots ⊢
        rw [List.countP_append]
        exact hslots
      · rcases List.mem_append.mp hstage with hin | hnew
        · exact hdisturb.fresh stage hin
        · rw [List.mem_singleton.mp hnew]
          exact trivial
  | advance i o =>
      rw [step] at hstep
      cases hstage : s.claims[i]? with
      | none =>
          rw [hstage] at hstep
          cases hstep
      | some stage =>
          rw [hstage] at hstep
          rcases Option.map_eq_some_iff.mp hstep with ⟨⟨t, stage'⟩, hnext, hs'⟩
          have hstage' : s.disturb.claims[i]? = some stage.disturbed := by
            rw [ClaimWorld.disturb, List.getElem?_map, hstage]
            rfl
          rw [← hs']
          exact hdisturb.set hstage' (advances_of_advance hnext).disturb
  | dropSlot p =>
      rw [step] at hstep
      split at hstep
      · rename_i hp
        cases hstep
        exact hdisturb.drop hp
      · cases hstep
  | change p record =>
      cases hstep
      apply hdisturb.cells
      intro q
      by_cases hq : q = p
      · rw [hq, Function.update_self]
        rfl
      · rw [Function.update_of_ne hq]
        rfl
  | tick now =>
      cases hstep
      exact ⟨hdisturb.slots, hdisturb.within, hdisturb.fresh⟩

/-- The counters stay right in every run. -/
theorem counted_run {cells : Nat -> AccountState} {clock : I64} {catalogRr : U64}
    {actions : List ClaimAction}
    (hrun : (system limit roster).run (start cells clock catalogRr) actions = some s) :
    s.Counted limit := by
  refine System.run_invariant (fun _ _ _ => counted_step) ?_ hrun
  exact ⟨fun _ => rfl, fun _ _ => Nat.zero_le _, fun _ h => absurd h List.not_mem_nil⟩

end Step

/-!
## Why a claim finds every account busy
-/

/-- The claim reads now that an account does not serve the catalog. -/
def RulesOut (s : ClaimWorld) (i p : Nat) : Prop :=
  exists now catalog check rest,
    s.claims[i]? = some (.scanning now catalog check (p :: rest)) ∧
      check.read now s.clock (s.cells p) = .inr false

/-- The claim reads the counter of an account now, and it is at the limit. -/
def FindsFull (s : ClaimWorld) (i p : Nat) : Prop :=
  0 < limit ∧ limit ≤ (s.cells p).catalogInflight ∧
    ((exists rest, s.claims[i]? = some (.trying (p :: rest))) ∨
      exists current rest, s.claims[i]? = some (.swapping p current rest))

/-- The claim and the account that the findings of a step are about. -/
def passedOver (s : ClaimWorld) : ClaimAction -> List (Nat × Nat)
  | .advance i _ =>
      match s.claims[i]? with
      | some (.scanning now _ check (p :: _)) =>
          if check.read now s.clock (s.cells p) = .inr false then [(i, p)] else []
      | some (.trying (p :: _)) | some (.swapping p _ _) =>
          if 0 < limit ∧ limit ≤ (s.cells p).catalogInflight then [(i, p)] else []
      | _ => []
  | _ => []

end ClaimWorld

/-- The accounts that a claim may still give a slot of, as long as it has none. -/
def ClaimStage.pending : ClaimStage -> Option (List Nat)
  | scanning _ catalog _ rest => some (catalog ++ rest)
  | counting _ catalog => some catalog
  | sorting _ rotated _ => some rotated
  | trying rest => some rest
  | swapping p _ rest => some (p :: rest)
  | noting _ => none
  | done (.slot _) => none
  | done _ => some []

namespace ClaimWorld

section Passed

variable {limit : Nat} {roster : List Nat} {s s' : ClaimWorld} {a : ClaimAction}

theorem mem_passedOver {i p : Nat} (h : (i, p) ∈ s.passedOver limit a) :
    exists o, a = .advance i o ∧ (s.RulesOut i p ∨ s.FindsFull limit i p) := by
  unfold passedOver at h
  split at h
  · rename_i j o
    split at h
    · rename_i now catalog check q rest hstage
      split at h
      · rename_i hread
        cases List.mem_singleton.mp h
        exact ⟨o, rfl, Or.inl ⟨now, catalog, check, rest, hstage, hread⟩⟩
      · cases h
    · rename_i q rest hstage
      split at h
      · rename_i hfull
        cases List.mem_singleton.mp h
        exact ⟨o, rfl, Or.inr ⟨hfull.left, hfull.right, Or.inl ⟨rest, hstage⟩⟩⟩
      · cases h
    · rename_i q current rest hstage
      split at h
      · rename_i hfull
        cases List.mem_singleton.mp h
        exact ⟨o, rfl, Or.inr ⟨hfull.left, hfull.right, Or.inr ⟨current, rest, hstage⟩⟩⟩
      · cases h
    · cases h
  · cases h

/-- A claim has every account of the roster before it, or has passed it over. -/
def Explained (roster : List Nat) (passed : List (Nat × Nat)) (i : Nat)
    (stage : ClaimStage) : Prop :=
  forall pending, stage.pending = some pending ->
    forall p, p ∈ roster -> p ∈ pending ∨ (i, p) ∈ passed

theorem explained_disturbed {passed : List (Nat × Nat)} {i : Nat} {stage : ClaimStage}
    (h : Explained roster passed i stage) : Explained roster passed i stage.disturbed := by
  cases stage with
  | sorting => exact h
  | scanning | counting | swapping | trying | noting | done => exact h

theorem Explained.mono {passed later : List (Nat × Nat)} {i : Nat} {stage : ClaimStage}
    (h : Explained roster passed i stage) :
    Explained roster (passed ++ later) i stage := by
  intro pending hpending p hp
  exact (h pending hpending p hp).imp id fun hin => List.mem_append_left _ hin

theorem pending_of_attempt {p current : Nat} {rest pending' : List Nat}
    (h : (ClaimStage.attempt limit p rest current).pending = some pending') :
    pending' = p :: rest ∨ pending' = rest ∧ 0 < limit ∧ limit ≤ current := by
  unfold ClaimStage.attempt at h
  split at h
  · rename_i hfull
    cases h
    exact Or.inr ⟨rfl, hfull⟩
  · cases h
    exact Or.inl rfl

/-- Only the account that is tried goes, and that only if it is full. -/
theorem mem_pending_of_attempt {i q current : Nat} {rest pending' : List Nat}
    {passed : List (Nat × Nat)}
    (hpending : (ClaimStage.attempt limit q rest current).pending = some pending')
    (hpassed : 0 < limit ∧ limit ≤ current -> (i, q) ∈ passed) :
    forall p, p ∈ q :: rest -> p ∈ pending' ∨ (i, p) ∈ passed := by
  intro p hp
  rcases pending_of_attempt hpending with heq | ⟨heq, hfull⟩
  · rw [heq]
    exact Or.inl hp
  · rcases List.mem_cons.mp hp with hq | hin
    · rw [hq]
      exact Or.inr (hpassed hfull)
    · rw [heq]
      exact Or.inl hin

/-- What a step takes off the accounts before a claim it passes over. -/
theorem pending_of_advance {i : Nat} {o : ClaimOutside} {t : ClaimWorld}
    {stage stage' : ClaimStage} (hstage : s.claims[i]? = some stage)
    (h : s.advance limit o stage = some (t, stage')) {pending' : List Nat}
    (hpending : stage'.pending = some pending') :
    exists pending, stage.pending = some pending ∧ forall p, p ∈ pending ->
      p ∈ pending' ∨ (i, p) ∈ s.passedOver limit (.advance i o) := by
  cases stage with
  | scanning now catalog check rest =>
      refine ⟨_, rfl, fun p hp => ?_⟩
      cases rest with
      | nil =>
          rw [List.append_nil] at hp
          cases h
          split at hpending
          · rename_i hnil
            rw [hnil] at hp
            cases hp
          · cases hpending
            exact Or.inl hp
      | cons q rest =>
          rw [advance] at h
          split at h
          · cases h
            cases hpending
            exact Or.inl hp
          · cases h
            cases hpending
            rw [List.append_assoc, List.singleton_append]
            exact Or.inl hp
          · rename_i hread
            cases h
            cases hpending
            rcases List.mem_append.mp hp with hin | hin
            · exact Or.inl (List.mem_append_left _ hin)
            · rcases List.mem_cons.mp hin with heq | hin
              · right
                rw [heq, passedOver, hstage]
                dsimp only
                rw [if_pos hread]
                exact List.mem_singleton_self _
              · exact Or.inl (List.mem_append_right _ hin)
  | counting now catalog =>
      cases h
      cases hpending
      exact ⟨_, rfl, fun p hp => Or.inl (List.mem_rotate.mpr hp)⟩
  | sorting now rotated steady =>
      refine ⟨_, rfl, fun p hp => Or.inl ?_⟩
      rw [advance] at h
      split at h
      · cases h
        cases hpending
        exact (List.mem_insertionSort _).mpr hp
      · split at h
        · rename_i hperm
          cases h
          cases hpending
          exact hperm.mem_iff.mpr hp
        · cases h
  | trying rest =>
      cases rest with
      | nil =>
          cases h
          cases hpending
          exact ⟨_, rfl, fun p hp => Or.inl hp⟩
      | cons q rest =>
          cases h
          refine ⟨_, rfl, mem_pending_of_attempt hpending fun hfull => ?_⟩
          rw [passedOver, hstage]
          dsimp only
          rw [if_pos hfull]
          exact List.mem_singleton_self _
  | swapping q current rest =>
      rw [advance] at h
      split at h
      · cases h
        cases hpending
      · cases h
        refine ⟨_, rfl, mem_pending_of_attempt hpending fun hfull => ?_⟩
        rw [passedOver, hstage]
        dsimp only
        rw [if_pos hfull]
        exact List.mem_singleton_self _
  | noting q =>
      cases h
      cases hpending
  | done result => cases h

/-- Every claim has its accounts before it, or has passed them over. -/
def AllExplained (roster : List Nat) (passed : List (Nat × Nat)) (s : ClaimWorld) : Prop :=
  forall i stage, s.claims[i]? = some stage -> Explained roster passed i stage

theorem AllExplained.disturb {passed : List (Nat × Nat)} (later : List (Nat × Nat))
    (h : s.AllExplained roster passed) :
    s.disturb.AllExplained roster (passed ++ later) := by
  intro i stage hstage
  rw [ClaimWorld.disturb, List.getElem?_map] at hstage
  rcases Option.map_eq_some_iff.mp hstage with ⟨before, hbefore, hstage⟩
  rw [← hstage]
  exact explained_disturbed (h i before hbefore).mono

theorem allExplained_step {passed : List (Nat × Nat)} (h : s.AllExplained roster passed)
    (hstep : s.step limit roster a = some s') :
    s'.AllExplained roster (passed ++ s.passedOver limit a) := by
  have hdisturb := h.disturb (s.passedOver limit a)
  cases a with
  | claim =>
      cases hstep
      intro i stage hstage
      by_cases hi : i < s.disturb.claims.length
      · rw [List.getElem?_append_left hi] at hstage
        exact hdisturb i stage hstage
      · rw [List.getElem?_append_right (Nat.le_of_not_lt hi)] at hstage
        rw [List.mem_singleton.mp (List.mem_of_getElem? hstage)]
        intro pending hpending p hp
        cases hpending
        exact Or.inl hp
  | advance i o =>
      rw [step] at hstep
      cases hstage : s.claims[i]? with
      | none =>
          rw [hstage] at hstep
          cases hstep
      | some stage =>
          rw [hstage] at hstep
          rcases Option.map_eq_some_iff.mp hstep with ⟨⟨t, stage'⟩, hnext, hs'⟩
          have hclaims := (advances_of_advance hnext).disturb.claims
          rw [← hs']
          intro j other hother
          dsimp only at hother
          rw [hclaims] at hother
          by_cases hj : i = j
          · have hi : i < s.disturb.claims.length := by
              rw [ClaimWorld.disturb, List.length_map]
              exact (List.getElem?_eq_some_iff.mp hstage).choose
            rw [← hj, List.getElem?_set_self hi] at hother
            cases hother
            intro pending' hpending p hp
            rcases pending_of_advance hstage hnext hpending with
              ⟨pending, hbefore, hpassed⟩
            rw [← hj]
            rcases h i stage hstage pending hbefore p hp with hin | hin
            · exact (hpassed p hin).imp id fun hin => List.mem_append_right _ hin
            · exact Or.inr (List.mem_append_left _ hin)
          · rw [List.getElem?_set_ne hj] at hother
            exact hdisturb j other hother
  | dropSlot p =>
      rw [step] at hstep
      split at hstep
      · cases hstep
        exact hdisturb
      · cases hstep
  | change p record =>
      cases hstep
      exact hdisturb
  | tick now =>
      cases hstep
      exact hdisturb

/-- A claim that is busy has passed every account over, at some moment of its run. -/
theorem passed_of_busy {cells : Nat -> AccountState} {clock : I64} {catalogRr : U64}
    {actions : List ClaimAction}
    (hrun : (system limit roster).run (start cells clock catalogRr) actions = some s)
    {i : Nat} (hbusy : s.claims[i]? = some (.done .busy)) {p : Nat} (hp : p ∈ roster) :
    exists before o after t, actions = before ++ ClaimAction.advance i o :: after ∧
      (system limit roster).run (start cells clock catalogRr) before = some t ∧
      (t.RulesOut i p ∨ t.FindsFull limit i p) := by
  have hstart : (start cells clock catalogRr).AllExplained roster [] :=
    fun i stage hstage => absurd hstage (by simp [start])
  have hexplained : s.AllExplained roster ([] ++ (system limit roster).history
      (passedOver limit) (start cells clock catalogRr) actions) :=
    System.run_history_invariant (P := fun _ _ => True)
      (I := fun s passed => s.AllExplained roster passed)
      (fun _ _ _ _ h _ hstep => allExplained_step h hstep) hstart
      (System.along_of_forall_mem fun _ _ => trivial) hrun
  rcases hexplained i _ hbusy [] rfl p hp with hnil | hpassed
  · cases hnil
  · rcases System.exists_step_of_mem_history hrun hpassed with
      ⟨before, a, after, t, t', hactions, hbefore, hfound, -, -⟩
    rcases mem_passedOver hfound with ⟨o, ha, hfinding⟩
    exact ⟨before, o, after, t, by rw [hactions, ha], hbefore, hfinding⟩

end Passed

end ClaimWorld

end HifiApi
