import Mathlib.Data.List.Basic
import Mathlib.Tactic.Common

/-!
# Locks kept in a cache

One lock for each key, kept in a cache that drops an entry some time after its
insertion or when it holds too many.  A caller looks the lock of its key up,
waits for it, and works inside until it leaves; it keeps the lock it has found,
whatever becomes of the entry.  No lock has two callers inside.  No key has, as
long as no second lock is made for a key while a caller with an earlier one has
not left.
-/

namespace HifiApi

/-- How long a cache keeps an entry, and how many it keeps. -/
structure CachePolicy where
  timeToLive : Nat
  capacity : Nat

structure LockEntry (Key : Type) where
  key : Key
  lock : Nat
  insertedAt : Nat

/-- Where a caller is; inside, its work has stages of its own. -/
inductive Stage (Inner : Type) where
  | waiting
  | inside (inner : Inner)
  | left

/-- What a caller wants with the lock is its job. -/
structure LockCaller (Key Job Inner : Type) where
  key : Key
  job : Job
  lock : Nat
  stage : Stage Inner

structure LockCache (Key Job Inner : Type) where
  clock : Nat
  entries : List (LockEntry Key)
  fresh : Nat
  callers : List (LockCaller Key Job Inner)

namespace Stage

variable {Inner : Type}

def isInside : Stage Inner -> Bool
  | .inside _ => true
  | _ => false

def isOpen : Stage Inner -> Bool
  | .left => false
  | _ => true

end Stage

namespace LockCache

variable {Key Job Inner : Type}

/-- Nobody has called yet. -/
def start : LockCache Key Job Inner :=
  ⟨0, [], 0, []⟩

/-- An entry is found until its time is over. -/
def live (policy : CachePolicy) (g : LockCache Key Job Inner) (e : LockEntry Key) :
    Bool :=
  decide (g.clock < e.insertedAt + policy.timeToLive)

section Operations

variable [DecidableEq Key]

def find? (policy : CachePolicy) (g : LockCache Key Job Inner) (key : Key) :
    Option (LockEntry Key) :=
  g.entries.find? fun e => decide (e.key = key) && g.live policy e

/-- Look up the lock of a key, or make one. -/
def join (policy : CachePolicy) (g : LockCache Key Job Inner) (key : Key)
    (job : Job) : LockCache Key Job Inner :=
  match g.find? policy key with
  | some e => { g with callers := g.callers ++ [⟨key, job, e.lock, .waiting⟩] }
  | none =>
      { g with
        entries :=
          ⟨key, g.fresh, g.clock⟩ ::
            g.entries.filter fun e => decide (e.key ≠ key)
        fresh := g.fresh + 1
        callers := g.callers ++ [⟨key, job, g.fresh, .waiting⟩] }

/-- The cache drops an entry whose time is over, or one of too many. -/
def drop (policy : CachePolicy) (g : LockCache Key Job Inner) (key : Key) :
    Option (LockCache Key Job Inner) :=
  if policy.capacity < g.entries.length ∨ g.find? policy key = none then
    some
      { g with entries := g.entries.filter fun e => decide (e.key ≠ key) }
  else none

end Operations

def tick (g : LockCache Key Job Inner) (d : Nat) : LockCache Key Job Inner :=
  { g with clock := g.clock + d }

/-- No caller is inside with the lock. -/
def free (g : LockCache Key Job Inner) (lock : Nat) : Bool :=
  g.callers.all fun c => !(decide (c.lock = lock) && c.stage.isInside)

/-- A caller moves on with the lock it has. -/
def move (g : LockCache Key Job Inner) (i : Nat) (c : LockCaller Key Job Inner)
    (stage : Stage Inner) : LockCache Key Job Inner :=
  { g with callers := g.callers.set i { c with stage } }

/-- A waiting caller gets its lock. -/
def enter (g : LockCache Key Job Inner) (i : Nat) (inner : Inner) :
    Option (LockCache Key Job Inner) :=
  match g.callers[i]? with
  | some c =>
      match c.stage with
      | .waiting =>
          if g.free c.lock then some (g.move i c (.inside inner)) else none
      | _ => none
  | none => none

/-- The work inside reaches its next stage. -/
def advance (g : LockCache Key Job Inner) (i : Nat) (inner : Inner) :
    Option (LockCache Key Job Inner) :=
  match g.callers[i]? with
  | some c =>
      match c.stage with
      | .inside _ => some (g.move i c (.inside inner))
      | _ => none
  | none => none

/-- A caller leaves: its work is done, or it has given up waiting. -/
def leave (g : LockCache Key Job Inner) (i : Nat) : Option (LockCache Key Job Inner) :=
  match g.callers[i]? with
  | some c => some (g.move i c .left)
  | none => none

/-!
## What the rules say
-/

/-- No lock has two callers inside. -/
def Exclusive (g : LockCache Key Job Inner) : Prop :=
  forall (i j : Nat) (c c' : LockCaller Key Job Inner), g.callers[i]? = some c ->
    g.callers[j]? = some c' -> c.stage.isInside = true ->
    c'.stage.isInside = true -> c.lock = c'.lock -> i = j

/-- All callers that have not left have the lock of the cache. -/
structure OneLock (g : LockCache Key Job Inner) : Prop where
  callers : forall c c', c ∈ g.callers -> c' ∈ g.callers -> c.key = c'.key ->
    c.stage.isOpen = true -> c'.stage.isOpen = true -> c.lock = c'.lock
  entries : forall e c, e ∈ g.entries -> c ∈ g.callers -> e.key = c.key ->
    c.stage.isOpen = true -> e.lock = c.lock
  distinct : forall e e', e ∈ g.entries -> e' ∈ g.entries -> e.key = e'.key ->
    e.lock = e'.lock

/-- What the steps of a run with one lock for each key keep. -/
structure Sound (g : LockCache Key Job Inner) : Prop where
  exclusive : g.Exclusive
  oneLock : g.OneLock

/-- A lock is made for a key only when every caller for it has left. -/
def MakesNoSecond [DecidableEq Key] (policy : CachePolicy)
    (g : LockCache Key Job Inner) (key : Key) : Prop :=
  g.find? policy key = none ->
    forall c, c ∈ g.callers -> c.key = key -> c.stage.isOpen = false

instance [DecidableEq Key] (policy : CachePolicy) (g : LockCache Key Job Inner)
    (key : Key) : Decidable (g.MakesNoSecond policy key) :=
  if h : (g.find? policy key).isNone then
    decidable_of_iff
      (forall c, c ∈ g.callers -> c.key = key -> c.stage.isOpen = false)
      (by simp [MakesNoSecond, Option.isNone_iff_eq_none.mp h])
  else
    isTrue fun hnone => absurd (Option.isNone_iff_eq_none.mpr hnone) h

theorem isOpen_of_isInside {stage : Stage Inner} (h : stage.isInside = true) :
    stage.isOpen = true := by
  cases stage with
  | inside _ => rfl
  | _ => cases h

theorem exclusive_start : (start : LockCache Key Job Inner).Exclusive := by
  intro i j c c' hi
  cases hi

theorem oneLock_start : (start : LockCache Key Job Inner).OneLock where
  callers := by
    intro c c' hc
    cases hc
  entries := by
    intro e c he
    cases he
  distinct := by
    intro e e' he
    cases he

theorem sound_start : (start : LockCache Key Job Inner).Sound :=
  ⟨exclusive_start, oneLock_start⟩

/-- A key has at most one caller inside. -/
theorem Sound.of_key {g : LockCache Key Job Inner} (h : g.Sound) {i j : Nat}
    {c c' : LockCaller Key Job Inner} (hi : g.callers[i]? = some c)
    (hj : g.callers[j]? = some c') (hc : c.stage.isInside = true)
    (hc' : c'.stage.isInside = true) (hkey : c.key = c'.key) : i = j := by
  have hlock : c.lock = c'.lock :=
    h.oneLock.callers c c' (List.mem_of_getElem? hi) (List.mem_of_getElem? hj) hkey
      (isOpen_of_isInside hc) (isOpen_of_isInside hc')
  exact h.exclusive i j c c' hi hj hc hc' hlock

/-!
## Callers that come and move on
-/

section Moves

variable {g g' : LockCache Key Job Inner} {i j : Nat} {c : LockCaller Key Job Inner}

theorem getElem?_move {stage : Stage Inner} (hi : g.callers[i]? = some c) :
    (g.move i c stage).callers[j]? =
      if i = j then some { c with stage } else g.callers[j]? := by
  have hlt : i < g.callers.length := (List.getElem?_eq_some_iff.mp hi).choose
  rw [move, List.getElem?_set]
  by_cases hij : i = j
  · rw [if_pos hij, if_pos hij, if_pos (hij ▸ hlt)]
  · rw [if_neg hij, if_neg hij]

theorem mem_move {stage : Stage Inner} {c' : LockCaller Key Job Inner}
    (h : c' ∈ (g.move i c stage).callers) :
    c' ∈ g.callers ∨ c' = { c with stage } :=
  List.mem_or_eq_of_mem_set h

/-- A caller that does not enter keeps the locks apart. -/
theorem Exclusive.move (h : g.Exclusive) (hi : g.callers[i]? = some c)
    {stage : Stage Inner}
    (hstage : stage.isInside = true ->
      c.stage.isInside = true ∨ g.free c.lock = true) :
    (g.move i c stage).Exclusive := by
  have hother : forall {j d}, stage.isInside = true -> g.callers[j]? = some d ->
      d.stage.isInside = true -> c.lock = d.lock -> i = j := by
    intro j d hin hj hd hlock
    rcases hstage hin with hwas | hfree
    · exact h i j c d hi hj hwas hd hlock
    · have hnone := List.all_eq_true.mp hfree d (List.mem_of_getElem? hj)
      rw [hd, decide_eq_true hlock.symm] at hnone
      cases hnone
  intro j k d d' hj hk hd hd' hlock
  rw [getElem?_move hi] at hj hk
  by_cases hij : i = j
  · by_cases hik : i = k
    · rw [← hij, ← hik]
    · rw [if_pos hij] at hj
      rw [if_neg hik] at hk
      cases hj
      exact absurd (hother hd hk hd' hlock) hik
  · rw [if_neg hij] at hj
    by_cases hik : i = k
    · rw [if_pos hik] at hk
      cases hk
      exact absurd (hother hd' hj hd hlock.symm) hij
    · rw [if_neg hik] at hk
      exact h j k d d' hj hk hd hd' hlock

theorem OneLock.move (h : g.OneLock) (hi : g.callers[i]? = some c)
    {stage : Stage Inner} (hopen : c.stage.isOpen = true) :
    (g.move i c stage).OneLock := by
  have hmem : c ∈ g.callers := List.mem_of_getElem? hi
  constructor
  · intro d d' hd hd' hkey hdOpen hdOpen'
    rcases mem_move hd with hold | hnew
    · rcases mem_move hd' with hold' | hnew'
      · exact h.callers d d' hold hold' hkey hdOpen hdOpen'
      · rw [hnew'] at hkey ⊢
        exact h.callers d c hold hmem hkey hdOpen hopen
    · rw [hnew] at hkey ⊢
      rcases mem_move hd' with hold' | hnew'
      · exact h.callers c d' hmem hold' hkey hopen hdOpen'
      · rw [hnew']
  · intro e d he hd hkey hdOpen
    rcases mem_move hd with hold | hnew
    · exact h.entries e d he hold hkey hdOpen
    · rw [hnew] at hkey ⊢
      exact h.entries e c he hmem hkey hopen
  · exact h.distinct

/-- Leaving twice changes nothing; leaving once ends the interest in the
lock. -/
theorem OneLock.leaveMove (h : g.OneLock) :
    (g.move i c .left).OneLock := by
  constructor
  · intro d d' hd hd' hkey hdOpen hdOpen'
    rcases mem_move hd with hold | hnew
    · rcases mem_move hd' with hold' | hnew'
      · exact h.callers d d' hold hold' hkey hdOpen hdOpen'
      · rw [hnew'] at hdOpen'
        cases hdOpen'
    · rw [hnew] at hdOpen
      cases hdOpen
  · intro e d he hd hkey hdOpen
    rcases mem_move hd with hold | hnew
    · exact h.entries e d he hold hkey hdOpen
    · rw [hnew] at hdOpen
      cases hdOpen
  · exact h.distinct

/-- What a caller that enters, works on or leaves does. -/
inductive Moved (g : LockCache Key Job Inner) (i : Nat) :
    LockCache Key Job Inner -> Prop
  | enters {c : LockCaller Key Job Inner} {inner : Inner}
      (hi : g.callers[i]? = some c) (hwaits : c.stage = .waiting)
      (hfree : g.free c.lock = true) : Moved g i (g.move i c (.inside inner))
  | advances {c : LockCaller Key Job Inner} {inner inner' : Inner}
      (hi : g.callers[i]? = some c)
      (hinside : c.stage = .inside inner) :
      Moved g i (g.move i c (.inside inner'))
  | leaves {c : LockCaller Key Job Inner} (hi : g.callers[i]? = some c) :
      Moved g i (g.move i c .left)

theorem enter_eq_some {inner : Inner} (h : g.enter i inner = some g') :
    exists c, g.callers[i]? = some c ∧ c.stage = .waiting ∧
      g.free c.lock = true ∧ g' = g.move i c (.inside inner) := by
  unfold enter at h
  split at h
  · rename_i c hi
    split at h
    · rename_i hwaits
      split at h
      · rename_i hfree
        cases h
        exact ⟨c, hi, hwaits, hfree, rfl⟩
      · cases h
    · cases h
  · cases h

theorem advance_eq_some {inner : Inner} (h : g.advance i inner = some g') :
    exists c was, g.callers[i]? = some c ∧ c.stage = .inside was ∧
      g' = g.move i c (.inside inner) := by
  unfold advance at h
  split at h
  · rename_i c hi
    split at h
    · rename_i was hinside
      cases h
      exact ⟨c, was, hi, hinside, rfl⟩
    · cases h
  · cases h

theorem leave_eq_some (h : g.leave i = some g') :
    exists c, g.callers[i]? = some c ∧ g' = g.move i c .left := by
  unfold leave at h
  split at h
  · rename_i c hi
    cases h
    exact ⟨c, hi, rfl⟩
  · cases h

theorem moved_of_enter {inner : Inner} (h : g.enter i inner = some g') :
    g.Moved i g' := by
  rcases enter_eq_some h with ⟨c, hi, hwaits, hfree, heq⟩
  rw [heq]
  exact .enters hi hwaits hfree

theorem moved_of_advance {inner : Inner} (h : g.advance i inner = some g') :
    g.Moved i g' := by
  rcases advance_eq_some h with ⟨c, was, hi, hinside, heq⟩
  rw [heq]
  exact .advances hi hinside

theorem moved_of_leave (h : g.leave i = some g') : g.Moved i g' := by
  rcases leave_eq_some h with ⟨c, hi, heq⟩
  rw [heq]
  exact .leaves hi

theorem Moved.exclusive (hmove : g.Moved i g') (h : g.Exclusive) :
    g'.Exclusive := by
  cases hmove with
  | enters hi _ hfree =>
      exact h.move hi fun _ => Or.inr hfree
  | advances hi hinside =>
      exact h.move hi fun _ => Or.inl (by rw [hinside]; rfl)
  | leaves hi =>
      exact h.move hi fun hin => by cases hin

theorem Moved.oneLock (hmove : g.Moved i g') (h : g.OneLock) : g'.OneLock := by
  cases hmove with
  | enters hi hwaits _ =>
      exact h.move hi (by rw [hwaits]; rfl)
  | advances hi hinside =>
      exact h.move hi (by rw [hinside]; rfl)
  | leaves _ =>
      exact h.leaveMove

theorem Moved.sound (hmove : g.Moved i g') (h : g.Sound) : g'.Sound :=
  ⟨hmove.exclusive h.exclusive, hmove.oneLock h.oneLock⟩

end Moves

/-!
## The cache
-/

theorem Sound.tick {g : LockCache Key Job Inner} (h : g.Sound) (d : Nat) :
    (g.tick d).Sound where
  exclusive := h.exclusive
  oneLock := ⟨h.oneLock.callers, h.oneLock.entries, h.oneLock.distinct⟩

section Cache

variable [DecidableEq Key] {policy : CachePolicy} {g g' : LockCache Key Job Inner}
  {key : Key}

theorem find?_eq_some {e : LockEntry Key} (h : g.find? policy key = some e) :
    e ∈ g.entries ∧ e.key = key := by
  constructor
  · exact List.mem_of_find?_eq_some h
  · have hfound := List.find?_some h
    rw [Bool.and_eq_true] at hfound
    exact of_decide_eq_true hfound.left

/-- A caller that joins waits. -/
theorem join_callers (policy : CachePolicy) (g : LockCache Key Job Inner)
    (key : Key) (job : Job) : exists lock,
      (g.join policy key job).callers =
        g.callers ++ [⟨key, job, lock, .waiting⟩] := by
  unfold join
  split
  · exact ⟨_, rfl⟩
  · exact ⟨_, rfl⟩

theorem Exclusive.join (h : g.Exclusive) (policy : CachePolicy) (key : Key)
    (job : Job) : (g.join policy key job).Exclusive := by
  rcases join_callers policy g key job with ⟨lock, hcallers⟩
  have hold : forall {i : Nat} {c : LockCaller Key Job Inner}, 
      (g.join policy key job).callers[i]? = some c -> c.stage.isInside = true ->
        g.callers[i]? = some c := by
    intro i c hi hc
    rw [hcallers, List.getElem?_append] at hi
    split at hi
    · exact hi
    · have hmem := List.mem_of_getElem? hi
      rw [List.mem_singleton.mp hmem] at hc
      cases hc
  intro i j c c' hi hj hc hc' hlock
  exact h i j c c' (hold hi hc) (hold hj hc') hc hc' hlock

theorem OneLock.join (h : g.OneLock) (hsecond : g.MakesNoSecond policy key)
    (job : Job) : (g.join policy key job).OneLock := by
  unfold LockCache.join
  split
  · rename_i e hfind
    rcases find?_eq_some hfind with ⟨hmem, hkey⟩
    have hsame : forall c, c ∈ g.callers -> key = c.key ->
        c.stage.isOpen = true -> e.lock = c.lock :=
      fun c hc hk => h.entries e c hmem hc (hkey.trans hk)
    constructor
    · intro c c' hc hc' hk hopen hopen'
      rcases List.mem_append.mp hc with hold | hnew
      · rcases List.mem_append.mp hc' with hold' | hnew'
        · exact h.callers c c' hold hold' hk hopen hopen'
        · rw [List.mem_singleton.mp hnew'] at hk ⊢
          exact (hsame c hold hk.symm hopen).symm
      · rw [List.mem_singleton.mp hnew] at hk ⊢
        rcases List.mem_append.mp hc' with hold' | hnew'
        · exact hsame c' hold' hk hopen'
        · rw [List.mem_singleton.mp hnew']
    · intro e' c he' hc hk hopen
      rcases List.mem_append.mp hc with hold | hnew
      · exact h.entries e' c he' hold hk hopen
      · rw [List.mem_singleton.mp hnew] at hk ⊢
        exact h.distinct e' e he' hmem (hk.trans hkey.symm)
    · exact h.distinct
  · rename_i hfind
    have hgone := hsecond hfind
    constructor
    · intro c c' hc hc' hk hopen hopen'
      rcases List.mem_append.mp hc with hold | hnew
      · rcases List.mem_append.mp hc' with hold' | hnew'
        · exact h.callers c c' hold hold' hk hopen hopen'
        · rw [List.mem_singleton.mp hnew'] at hk
          rw [hgone c hold hk] at hopen
          cases hopen
      · rw [List.mem_singleton.mp hnew] at hk ⊢
        rcases List.mem_append.mp hc' with hold' | hnew'
        · rw [hgone c' hold' hk.symm] at hopen'
          cases hopen'
        · rw [List.mem_singleton.mp hnew']
    · intro e c he hc hk hopen
      rcases List.mem_append.mp hc with hold | hnew
      · rcases List.mem_cons.mp he with hfresh | hrest
        · rw [hfresh] at hk
          rw [hgone c hold hk.symm] at hopen
          cases hopen
        · exact h.entries e c (List.mem_of_mem_filter hrest) hold hk hopen
      · rw [List.mem_singleton.mp hnew] at hk ⊢
        rcases List.mem_cons.mp he with hfresh | hrest
        · rw [hfresh]
        · have hne := of_decide_eq_true (List.mem_filter.mp hrest).right
          exact absurd hk hne
    · intro e e' he he' hk
      rcases List.mem_cons.mp he with hfresh | hrest
      · rcases List.mem_cons.mp he' with hfresh' | hrest'
        · rw [hfresh, hfresh']
        · rw [hfresh] at hk
          exact absurd hk.symm (of_decide_eq_true (List.mem_filter.mp hrest').right)
      · rcases List.mem_cons.mp he' with hfresh' | hrest'
        · rw [hfresh'] at hk
          exact absurd hk (of_decide_eq_true (List.mem_filter.mp hrest).right)
        · exact h.distinct e e' (List.mem_of_mem_filter hrest)
            (List.mem_of_mem_filter hrest') hk

theorem Sound.join (h : g.Sound) (hsecond : g.MakesNoSecond policy key)
    (job : Job) : (g.join policy key job).Sound :=
  ⟨h.exclusive.join policy key job, h.oneLock.join hsecond job⟩

theorem Sound.drop (h : g.Sound) (hdrop : g.drop policy key = some g') :
    g'.Sound := by
  unfold LockCache.drop at hdrop
  split at hdrop
  · cases hdrop
    constructor
    · exact h.exclusive
    · constructor
      · exact h.oneLock.callers
      · exact fun e c he => h.oneLock.entries e c (List.mem_of_mem_filter he)
      · exact fun e e' he he' => h.oneLock.distinct e e'
          (List.mem_of_mem_filter he) (List.mem_of_mem_filter he')
  · cases hdrop

/-- What one step of a program does to its locks: nothing, a caller joins with
the key it wants, moves on or leaves, or the cache itself changes. -/
inductive Stepped (policy : CachePolicy) (g : LockCache Key Job Inner)
    (wanted : Option Key) : LockCache Key Job Inner -> Prop
  | stays : Stepped policy g wanted g
  | joins {key : Key} {job : Job} (hwanted : wanted = some key) :
      Stepped policy g wanted (g.join policy key job)
  | moves {i : Nat} {g' : LockCache Key Job Inner} (hmove : g.Moved i g') :
      Stepped policy g wanted g'
  | drops {key : Key} {g' : LockCache Key Job Inner}
      (hdrop : g.drop policy key = some g') : Stepped policy g wanted g'
  | waits {d : Nat} : Stepped policy g wanted (g.tick d)

/-- Callers stay, and new ones come after them. -/
theorem Stepped.length_le {wanted : Option Key} (h : Stepped policy g wanted g') :
    g.callers.length ≤ g'.callers.length := by
  cases h with
  | stays =>
      exact Nat.le_refl _
  | @joins key job _ =>
      rcases join_callers policy g key job with ⟨lock, hcallers⟩
      rw [hcallers, List.length_append]
      exact Nat.le_add_right _ _
  | moves hmove =>
      cases hmove <;> exact Nat.le_of_eq List.length_set.symm
  | drops hdrop =>
      unfold LockCache.drop at hdrop
      split at hdrop
      · cases hdrop
        exact Nat.le_refl _
      · cases hdrop
  | waits =>
      exact Nat.le_refl _

theorem Stepped.sound {wanted : Option Key}
    (h : Stepped policy g wanted g') (hg : g.Sound)
    (hsecond : forall key, wanted = some key -> g.MakesNoSecond policy key) :
    g'.Sound := by
  cases h with
  | stays =>
      exact hg
  | joins hwanted =>
      exact hg.join (hsecond _ hwanted) _
  | moves hmove =>
      exact hmove.sound hg
  | drops hdrop =>
      exact hg.drop hdrop
  | waits =>
      exact hg.tick _

end Cache

/-!
## What callers do inside
-/

/-- What every caller inside does fits its job. -/
def Fits (g : LockCache Key Job Inner) (P : Job -> Inner -> Prop) : Prop :=
  forall c inner, c ∈ g.callers -> c.stage = .inside inner -> P c.job inner

section Fits

variable {P Q : Job -> Inner -> Prop} {g g' : LockCache Key Job Inner} {i : Nat}

theorem fits_start : (start : LockCache Key Job Inner).Fits P := by
  intro c inner hc
  cases hc

theorem Fits.mono (h : g.Fits P) (hPQ : forall job inner, P job inner -> Q job inner) :
    g.Fits Q :=
  fun c inner hc hstage => hPQ c.job inner (h c inner hc hstage)

theorem Fits.move {c : LockCaller Key Job Inner} {stage : Stage Inner}
    (h : g.Fits P)
    (hstage : forall inner, stage = .inside inner -> P c.job inner) :
    (g.move i c stage).Fits P := by
  intro d inner hd hinside
  rcases mem_move hd with hold | hnew
  · exact h d inner hold hinside
  · rw [hnew] at hinside ⊢
    exact hstage inner hinside

theorem Fits.enter {inner : Inner} (h : g.Fits P) (henter : g.enter i inner = some g')
    (hP : forall c, g.callers[i]? = some c -> P c.job inner) : g'.Fits P := by
  rcases enter_eq_some henter with ⟨c, hi, _, _, heq⟩
  rw [heq]
  apply h.move
  intro inner' hinner
  cases hinner
  exact hP c hi

theorem Fits.advance {inner : Inner} (h : g.Fits P)
    (hadvance : g.advance i inner = some g')
    (hP : forall c, g.callers[i]? = some c -> P c.job inner) : g'.Fits P := by
  rcases advance_eq_some hadvance with ⟨c, _, hi, _, heq⟩
  rw [heq]
  apply h.move
  intro inner' hinner
  cases hinner
  exact hP c hi

theorem Fits.leave (h : g.Fits P) (hleave : g.leave i = some g') : g'.Fits P := by
  rcases leave_eq_some hleave with ⟨c, _, heq⟩
  rw [heq]
  apply h.move
  intro inner hinner
  cases hinner

theorem Fits.join [DecidableEq Key] (h : g.Fits P) (policy : CachePolicy) (key : Key)
    (job : Job) : (g.join policy key job).Fits P := by
  rcases join_callers policy g key job with ⟨lock, hcallers⟩
  intro c inner hc hinside
  rw [hcallers] at hc
  rcases List.mem_append.mp hc with hold | hnew
  · exact h c inner hold hinside
  · rw [List.mem_singleton.mp hnew] at hinside
    cases hinside

theorem Fits.drop [DecidableEq Key] {policy : CachePolicy} {key : Key}
    (h : g.Fits P) (hdrop : g.drop policy key = some g') : g'.Fits P := by
  unfold LockCache.drop at hdrop
  split at hdrop
  · cases hdrop
    exact h
  · cases hdrop

theorem Fits.tick (h : g.Fits P) (d : Nat) : (g.tick d).Fits P :=
  h

end Fits

end LockCache

end HifiApi
