import Mathlib.Data.List.Basic
import Mathlib.Tactic.Common

/-!
# Paced tasks

A task that is taken up only when the time kept of its last turn lies far enough
back.  The decision, the start and the record of a turn are apart, and others may
record turns of their own whose time lies up to a delay behind the clock.  Starts
keep their distance all the same, and what is kept stays fresh.
-/

namespace HifiApi

/-- Where a paced task is: a decision keeps the time it was taken at, a turn the
time it was started at. -/
inductive Pacing where
  | resting
  | decided (now : Int)
  | started (since : Int)

namespace Pacing

/-- The starts so far keep their distance, and the kept time accounts for them. -/
structure Paced (gap delay clock : Int) (kept : Option Int) (phase : Pacing)
    (starts : List Int) : Prop where
  apart : starts.Pairwise fun t t' => t + gap ≤ t' + delay
  past : forall t, t ∈ starts -> t ≤ clock
  known : (forall t, phase ≠ started t) -> forall t, t ∈ starts ->
    exists last, kept = some last ∧ t ≤ last + delay
  decision : forall n, phase = decided n -> n ≤ clock ∧
    forall t, t ∈ starts -> t + gap ≤ n + delay
  running : forall t₀, phase = started t₀ -> t₀ ≤ clock ∧ forall t, t ∈ starts -> t ≤ t₀

section Paced

variable {gap delay clock clock' : Int} {kept : Option Int} {phase : Pacing}
  {starts : List Int}

theorem paced_nil (kept : Option Int) : Paced gap delay clock kept resting [] := by
  constructor
  · exact List.Pairwise.nil
  · exact fun t ht => nomatch ht
  · exact fun _ t ht => nomatch ht
  · exact fun n hn => nomatch hn
  · exact fun t ht => nomatch ht

theorem Paced.elapse (h : Paced gap delay clock kept phase starts)
    (hclock : clock ≤ clock') : Paced gap delay clock' kept phase starts := by
  constructor
  · exact h.apart
  · exact fun t ht => Int.le_trans (h.past t ht) hclock
  · exact h.known
  · intro n hn
    rcases h.decision n hn with ⟨hpast, hall⟩
    exact ⟨Int.le_trans hpast hclock, hall⟩
  · intro t ht
    rcases h.running t ht with ⟨hpast, hall⟩
    exact ⟨Int.le_trans hpast hclock, hall⟩

/-- The task is due: the kept time lies the gap back. -/
theorem Paced.decide {n : Int} (h : Paced gap delay clock kept phase starts)
    (hphase : forall t, phase ≠ started t) (hn : n ≤ clock)
    (hdue : forall last, kept = some last -> last + gap ≤ n) :
    Paced gap delay clock kept (decided n) starts := by
  constructor
  · exact h.apart
  · exact h.past
  · exact fun _ => h.known hphase
  · intro n' hn'
    cases hn'
    refine ⟨hn, ?_⟩
    intro t ht
    rcases h.known hphase t ht with ⟨last, hlast, hle⟩
    have hfar := hdue last hlast
    omega
  · exact fun t ht => nomatch ht

theorem Paced.rest (h : Paced gap delay clock kept phase starts)
    (hphase : forall t, phase ≠ started t) : Paced gap delay clock kept resting starts := by
  constructor
  · exact h.apart
  · exact h.past
  · exact fun _ => h.known hphase
  · exact fun n hn => nomatch hn
  · exact fun t ht => nomatch ht

theorem Paced.start {n : Int} (h : Paced gap delay clock kept (decided n) starts) :
    Paced gap delay clock kept (started clock) (starts ++ [clock]) := by
  rcases h.decision n rfl with ⟨hn, hfar⟩
  have hall : forall t, t ∈ starts ++ [clock] -> t ≤ clock := by
    intro t ht
    rcases List.mem_append.mp ht with hold | hnew
    · exact h.past t hold
    · exact Int.le_of_eq (List.mem_singleton.mp hnew)
  constructor
  · rw [List.pairwise_append]
    refine ⟨h.apart, List.pairwise_singleton _ _, ?_⟩
    intro t ht t' ht'
    rw [List.mem_singleton.mp ht']
    have hle := hfar t ht
    omega
  · exact hall
  · exact fun hnot => absurd rfl (hnot clock)
  · exact fun n hn => nomatch hn
  · intro t₀ ht₀
    cases ht₀
    exact ⟨Int.le_refl clock, hall⟩

/-- The turn is kept under a time since its start. -/
theorem Paced.record {t₀ t : Int} (h : Paced gap delay clock kept (started t₀) starts)
    (hdelay : 0 ≤ delay) (ht : t₀ ≤ t) : Paced gap delay clock (some t) resting starts := by
  constructor
  · exact h.apart
  · exact h.past
  · intro _ u hu
    have hle := (h.running t₀ rfl).right u hu
    exact ⟨t, rfl, by omega⟩
  · exact fun n hn => nomatch hn
  · exact fun u hu => nomatch hu

/-- Somebody else's turn is kept. -/
theorem Paced.recordOther {t : Int} (h : Paced gap delay clock kept phase starts)
    (ht : clock ≤ t + delay) : Paced gap delay clock (some t) phase starts := by
  constructor
  · exact h.apart
  · exact h.past
  · intro _ u hu
    exact ⟨t, rfl, Int.le_trans (h.past u hu) ht⟩
  · exact h.decision
  · exact h.running

end Paced

/-- A paced task together with the times as of which it has been tended to: what is
kept of it is no older than an age at any of them, counted from the beginning where
nothing is kept. -/
structure Tended (gap age delay begun clock : Int) (kept : Option Int) (phase : Pacing)
    (starts seen : List Int) : Prop where
  paced : Paced gap delay clock kept phase starts
  past : forall n, n ∈ seen -> n ≤ clock
  fresh : forall n, n ∈ seen -> n ≤ kept.getD begun + age + delay
  running : forall t, phase = started t -> forall n, n ∈ seen -> n ≤ t

section Tended

variable {gap age delay begun clock clock' : Int} {kept : Option Int} {phase : Pacing}
  {starts seen seen' : List Int}

theorem tended_nil (kept : Option Int) :
    Tended gap age delay begun clock kept resting [] [] :=
  ⟨paced_nil kept, fun _ hn => (nomatch hn), fun _ hn => (nomatch hn),
    fun _ _ _ hn => (nomatch hn)⟩

theorem Tended.mono (h : Tended gap age delay begun clock kept phase starts seen)
    (hseen : forall n, n ∈ seen' -> n ∈ seen) :
    Tended gap age delay begun clock kept phase starts seen' :=
  ⟨h.paced, fun n hn => h.past n (hseen n hn), fun n hn => h.fresh n (hseen n hn),
    fun t ht n hn => h.running t ht n (hseen n hn)⟩

theorem Tended.elapse (h : Tended gap age delay begun clock kept phase starts seen)
    (hclock : clock ≤ clock') :
    Tended gap age delay begun clock' kept phase starts seen :=
  ⟨h.paced.elapse hclock, fun n hn => Int.le_trans (h.past n hn) hclock, h.fresh,
    h.running⟩

theorem Tended.decide {n : Int} (h : Tended gap age delay begun clock kept phase starts seen)
    (hphase : forall t, phase ≠ started t) (hn : n ≤ clock)
    (hdue : forall last, kept = some last -> last + gap ≤ n) :
    Tended gap age delay begun clock kept (decided n) starts seen :=
  ⟨h.paced.decide hphase hn hdue, h.past, h.fresh, fun _ ht => nomatch ht⟩

theorem Tended.rest (h : Tended gap age delay begun clock kept phase starts seen)
    (hphase : forall t, phase ≠ started t) :
    Tended gap age delay begun clock kept resting starts seen :=
  ⟨h.paced.rest hphase, h.past, h.fresh, fun _ ht => nomatch ht⟩

theorem Tended.start {n : Int}
    (h : Tended gap age delay begun clock kept (decided n) starts seen) :
    Tended gap age delay begun clock kept (started clock) (starts ++ [clock]) seen := by
  refine ⟨h.paced.start, h.past, h.fresh, ?_⟩
  intro t ht n hn
  cases ht
  exact h.past n hn

theorem Tended.record {t₀ t : Int}
    (h : Tended gap age delay begun clock kept (started t₀) starts seen) (hage : 0 ≤ age)
    (hdelay : 0 ≤ delay) (ht : t₀ ≤ t) :
    Tended gap age delay begun clock (some t) resting starts seen := by
  refine ⟨h.paced.record hdelay ht, h.past, ?_, fun _ ht => nomatch ht⟩
  intro n hn
  have hle := h.running t₀ rfl n hn
  show n ≤ t + age + delay
  omega

theorem Tended.recordOther {t : Int}
    (h : Tended gap age delay begun clock kept phase starts seen) (hage : 0 ≤ age)
    (ht : clock ≤ t + delay) :
    Tended gap age delay begun clock (some t) phase starts seen := by
  refine ⟨h.paced.recordOther ht, h.past, ?_, h.running⟩
  intro n hn
  have hle := h.past n hn
  show n ≤ t + age + delay
  omega

/-- The task has been tended to as of one more time. -/
theorem Tended.see {n : Int} (h : Tended gap age delay begun clock kept phase starts seen)
    (hphase : forall t, phase ≠ started t) (hn : n ≤ clock)
    (hfresh : n ≤ kept.getD begun + age + delay) :
    Tended gap age delay begun clock kept phase starts (seen ++ [n]) := by
  refine ⟨h.paced, ?_, ?_, fun t ht => absurd ht (hphase t)⟩
  · intro m hm
    rcases List.mem_append.mp hm with hold | hnew
    · exact h.past m hold
    · rw [List.mem_singleton.mp hnew]
      exact hn
  · intro m hm
    rcases List.mem_append.mp hm with hold | hnew
    · exact h.fresh m hold
    · rw [List.mem_singleton.mp hnew]
      exact hfresh

end Tended

end Pacing

end HifiApi
