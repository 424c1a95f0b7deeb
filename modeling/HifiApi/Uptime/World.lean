import HifiApi.Uptime.Timeline
import Mathlib.Logic.Function.Basic

/-!
# All histories and their table

The histories of all accounts in memory and their common table.  As long as
the rows of an account come in the order of their times, the queries on the
table are prunings of a log.
-/

namespace HifiApi

structure UptimeWorld (Id : Type) where
  memory : Id -> AccountUptime
  table : UptimeTable Id

inductive UptimeAction (Id : Type) where
  | observe (id : Id) (o : Observation) (now : Int) (commits : Bool)
  | summary (id : Id) (now : Int)
  | reset (id : Id) (commits : Bool)
  /-- The history of an account is loaded again. -/
  | restart (id : Id) (now : Int)

namespace UptimeAction

variable {Id : Type}

def account : UptimeAction Id -> Id
  | observe id _ _ _ => id
  | summary id _ => id
  | reset id _ => id
  | restart id _ => id

/-- The clock reading of a call; {lit}`reset` takes none. -/
def now : UptimeAction Id -> Option Int
  | observe _ _ now _ => some now
  | summary _ now => some now
  | reset _ _ => none
  | restart _ now => some now

def commits : UptimeAction Id -> Bool
  | observe _ _ _ commits => commits
  | reset _ commits => commits
  | _ => true

end UptimeAction

variable {Id : Type} [DecidableEq Id]

namespace UptimeWorld

/-- No account has a history yet. -/
def new : UptimeWorld Id where
  memory := fun _ => AccountUptime.new
  table := UptimeTable.empty

def setMemory (w : UptimeWorld Id) (id : Id) (u : AccountUptime) : UptimeWorld Id :=
  { w with memory := Function.update w.memory id u }

def step (w : UptimeWorld Id) : UptimeAction Id -> UptimeWorld Id
  | .observe id o now commits =>
      let answer := (w.memory id).observe w.table id o now commits
      { w.setMemory id answer.1 with table := answer.2.1 }
  | .summary id now => w.setMemory id ((w.memory id).summary now).1
  | .reset id commits =>
      let answer := (w.memory id).reset w.table id commits
      { w.setMemory id answer.1 with table := answer.2.1 }
  | .restart id now => w.setMemory id (AccountUptime.load w.table id now)

def run (w : UptimeWorld Id) (actions : List (UptimeAction Id)) : UptimeWorld Id :=
  actions.foldl step w

/-- The events of an account in the table, in the order of their rows. -/
def stored (w : UptimeWorld Id) (id : Id) : List UptimeEvent :=
  (w.table.rowsOf id).map UptimeRow.event

theorem run_append (w : UptimeWorld Id) (first second : List (UptimeAction Id)) :
    w.run (first ++ second) = (w.run first).run second :=
  List.foldl_append

end UptimeWorld

/-!
## The table
-/

namespace UptimeTable

theorem rowsOf_insert (t : UptimeTable Id) (id : Id) (e : UptimeEvent) :
    (t.insert id e).rowsOf id = t.rowsOf id ++ [⟨t.lastId + 1, id, e⟩] := by
  unfold rowsOf insert
  rw [List.filter_append]
  congr 1
  exact List.filter_cons_of_pos (decide_eq_true rfl)

theorem rowsOf_insert_other (t : UptimeTable Id) {id other : Id} (e : UptimeEvent)
    (h : other ≠ id) : (t.insert other e).rowsOf id = t.rowsOf id := by
  have hnone : [UptimeRow.mk (t.lastId + 1) other e].filter
      (fun r => decide (r.accountId = id)) = [] :=
    List.filter_cons_of_neg fun heq => h (of_decide_eq_true heq)
  unfold rowsOf insert
  rw [List.filter_append, hnone, List.append_nil]

theorem rowsOf_deleteWhere (t : UptimeTable Id) (p : UptimeRow Id -> Bool) (id : Id) :
    (t.deleteWhere p).rowsOf id = (t.rowsOf id).filter fun r => !p r := by
  unfold rowsOf deleteWhere
  rw [List.filter_comm]

theorem mem_rowsOf {t : UptimeTable Id} {id : Id} {r : UptimeRow Id} :
    r ∈ t.rowsOf id <-> r ∈ t.rows ∧ r.accountId = id := by
  unfold rowsOf
  rw [List.mem_filter, decide_eq_true_eq]

theorem rowsOf_deleteOld_other (t : UptimeTable Id) {id other : Id} (cutoff : Int)
    (h : other ≠ id) : (t.deleteOld other cutoff).rowsOf id = t.rowsOf id := by
  unfold deleteOld
  rw [rowsOf_deleteWhere, List.filter_eq_self]
  intro r hr
  rw [(mem_rowsOf.mp hr).right, decide_eq_false h.symm]
  rfl

theorem rowsOf_deleteAccount (t : UptimeTable Id) (id : Id) :
    (t.deleteAccount id).rowsOf id = [] := by
  unfold deleteAccount
  rw [rowsOf_deleteWhere, List.filter_eq_nil_iff]
  intro r hr
  rw [(mem_rowsOf.mp hr).right, decide_eq_true rfl]
  exact Bool.false_ne_true

theorem rowsOf_deleteAccount_other (t : UptimeTable Id) {id other : Id}
    (h : other ≠ id) : (t.deleteAccount other).rowsOf id = t.rowsOf id := by
  unfold deleteAccount
  rw [rowsOf_deleteWhere, List.filter_eq_self]
  intro r hr
  rw [(mem_rowsOf.mp hr).right, decide_eq_false h.symm]
  rfl

theorem rowsOf_ascending (t : UptimeTable Id) (id : Id) :
    (t.rowsOf id).Pairwise fun r r' => r.id < r'.id :=
  t.ascending.filter _

theorem rowsOf_ids_nodup (t : UptimeTable Id) (id : Id) :
    ((t.rowsOf id).map UptimeRow.id).Nodup :=
  List.pairwise_map.mpr ((t.rowsOf_ascending id).imp fun h => Nat.ne_of_lt h)

/-- The rows of an account have come in the order of their times. -/
def InOrder (t : UptimeTable Id) (id : Id) : Prop :=
  Log.InOrder (fun r => r.event.observedAt) (t.rowsOf id)

theorem inOrder_iff {t : UptimeTable Id} {id : Id} :
    t.InOrder id <->
      Log.InOrder UptimeEvent.observedAt ((t.rowsOf id).map UptimeRow.event) := by
  unfold InOrder Log.InOrder
  rw [List.pairwise_map]

/-- Rows in order are listed by number as {lit}`ORDER BY` lists them. -/
theorem InOrder.sorted {t : UptimeTable Id} {id : Id} (h : t.InOrder id) :
    (t.rowsOf id).Pairwise UptimeRow.before := by
  apply List.Pairwise.imp₂ _ h (t.rowsOf_ascending id)
  intro r r' hle hlt
  rcases lt_or_eq_of_le hle with hbefore | hsame
  · exact Or.inl hbefore
  · exact Or.inr ⟨hsame, le_of_lt hlt⟩

theorem InOrder.newestBefore {t : UptimeTable Id} {id : Id} (h : t.InOrder id)
    (cutoff : Int) :
    t.newestBefore id cutoff =
      ((t.rowsOf id).filter fun r =>
        decide (r.event.observedAt < cutoff)).getLast?.map UptimeRow.id := by
  unfold UptimeTable.newestBefore
  rw [List.Pairwise.insertionSort_eq (h.sorted.filter _)]

/-- The query of {lit}`load` is a pruning. -/
theorem InOrder.selectFrom {t : UptimeTable Id} {id : Id} (h : t.InOrder id)
    (cutoff : Int) :
    t.selectFrom id cutoff =
      Log.prune (fun r => r.event.observedAt) cutoff (t.rowsOf id) := by
  unfold UptimeTable.selectFrom
  rw [List.Pairwise.insertionSort_eq (h.sorted.filter _), h.newestBefore]
  exact Log.filter_eq_prune h (t.rowsOf_ids_nodup id) cutoff

/-- The {lit}`DELETE` of {lit}`observe` is a pruning. -/
theorem InOrder.deleteOld {t : UptimeTable Id} {id : Id} (h : t.InOrder id)
    (cutoff : Int) :
    (t.deleteOld id cutoff).rowsOf id =
      Log.prune (fun r => r.event.observedAt) cutoff (t.rowsOf id) := by
  rw [<- Log.filter_eq_prune h (t.rowsOf_ids_nodup id) cutoff]
  unfold UptimeTable.deleteOld
  rw [rowsOf_deleteWhere, h.newestBefore]
  apply List.filter_congr
  intro r hr
  rw [(mem_rowsOf.mp hr).right, decide_eq_true rfl, Bool.true_and]
  by_cases hold : r.event.observedAt < cutoff
  · have hsome : r ∈ (t.rowsOf id).filter fun r =>
        decide (r.event.observedAt < cutoff) :=
      List.mem_filter.mpr ⟨hr, decide_eq_true hold⟩
    cases hlast : ((t.rowsOf id).filter fun r =>
        decide (r.event.observedAt < cutoff)).getLast? with
    | none =>
        rw [List.getLast?_eq_none_iff.mp hlast] at hsome
        cases hsome
    | some newest =>
        simp [hold, not_le.mpr hold, eq_comm]
  · simp [hold, not_lt.mp hold]

/-- The transaction of {lit}`observe`, for an event that is not older than the
rows of the account. -/
theorem InOrder.add {t : UptimeTable Id} {id : Id} (h : t.InOrder id)
    {e : UptimeEvent}
    (hlate : forall r, r ∈ t.rowsOf id -> r.event.observedAt ≤ e.observedAt)
    (cutoff : Int) :
    (((t.insert id e).deleteOld id cutoff).rowsOf id).map UptimeRow.event =
      Log.prune UptimeEvent.observedAt cutoff
        ((t.rowsOf id).map UptimeRow.event ++ [e]) := by
  have hinsert : (t.insert id e).InOrder id := by
    unfold InOrder
    rw [rowsOf_insert]
    exact Log.InOrder.snoc h hlate
  rw [hinsert.deleteOld, rowsOf_insert, <- Log.prune_map, List.map_append]
  rfl

end UptimeTable

namespace UptimeWorld

@[simp] theorem setMemory_memory_self (w : UptimeWorld Id) (id : Id)
    (u : AccountUptime) : (w.setMemory id u).memory id = u :=
  Function.update_self ..

theorem setMemory_memory_other (w : UptimeWorld Id) {id other : Id}
    (u : AccountUptime) (h : other ≠ id) :
    (w.setMemory other u).memory id = w.memory id :=
  Function.update_of_ne h.symm _ _

/-- A call for another account leaves the history of this one. -/
theorem step_other (w : UptimeWorld Id) {id : Id} {a : UptimeAction Id}
    (h : a.account ≠ id) :
    (w.step a).memory id = w.memory id ∧
      (w.step a).table.rowsOf id = w.table.rowsOf id := by
  cases a with
  | observe other o now commits =>
      have hother : other ≠ id := h
      constructor
      · exact setMemory_memory_other w _ h
      · show ((w.memory other).observe w.table other o now commits).2.1.rowsOf id = _
        unfold AccountUptime.observe
        split
        · rfl
        · split
          · show ((w.table.insert other _).deleteOld other _).rowsOf id = _
            rw [UptimeTable.rowsOf_deleteOld_other _ _ hother,
              UptimeTable.rowsOf_insert_other _ _ hother]
          · rfl
  | summary other now =>
      exact ⟨setMemory_memory_other w _ h, rfl⟩
  | reset other commits =>
      constructor
      · exact setMemory_memory_other w _ h
      · show ((w.memory other).reset w.table other commits).2.1.rowsOf id = _
        unfold AccountUptime.reset
        split
        · exact UptimeTable.rowsOf_deleteAccount_other _ h
        · rfl
  | restart other now =>
      exact ⟨setMemory_memory_other w _ h, rfl⟩

end UptimeWorld

namespace AccountUptime

/-- {lit}`observe` with a database, when the clock has not gone back. -/
theorem observe_cases (u : AccountUptime) (t : UptimeTable Id) (id : Id)
    (o : Observation) {now : Int} (commits : Bool)
    (h : forall e, e ∈ u.events -> e.observedAt ≤ now) :
    (u.observe t id o now commits = (u.prune now, t, .ok ()) ∧
      u.events.getLast?.map UptimeEvent.seen = some o.normal) ∨
    (u.observe t id o now commits =
        ({ events := (u.prune now).events ++ [⟨now, o.normal⟩] },
          if commits then
            ((t.insert id ⟨now, o.normal⟩).deleteOld id (now - windowSecs), .ok ())
          else
            (t, .error .failed)) ∧
      u.events.getLast?.map UptimeEvent.seen ≠ some o.normal) := by
  unfold observe
  rcases u.note_cases o h with ⟨hnote, hlast⟩ | ⟨hnote, hlast⟩
  · left
    rw [hnote]
    exact ⟨rfl, hlast⟩
  · right
    rw [hnote]
    cases commits with
    | false =>
        exact ⟨rfl, hlast⟩
    | true =>
        exact ⟨rfl, hlast⟩

end AccountUptime

/-!
## Runs whose clock does not go back
-/

/-- The clock reading of a call for an account. -/
def readingOf (id : Id) (a : UptimeAction Id) : Option Int :=
  if a.account = id then a.now else none

/-- An invariant with a ghost and the time of the last reading holds after every
run whose readings do not go back. -/
theorem UptimeWorld.run_invariant {Ghost : Type} {id : Id}
    {P : UptimeAction Id -> Prop} {next : Ghost -> UptimeAction Id -> Ghost}
    {I : Ghost -> Int -> UptimeWorld Id -> Prop}
    (hlater : forall {g before now w}, I g before w -> before ≤ now -> I g now w)
    (hstep : forall {g now w a}, I g now w -> P a ->
      (forall t, readingOf id a = some t -> t = now) -> I (next g a) now (w.step a))
    {actions : List (UptimeAction Id)} (hactions : forall a, a ∈ actions -> P a)
    (hclock : (actions.filterMap (readingOf id)).Pairwise (· ≤ ·))
    {g : Ghost} {before now : Int} {w : UptimeWorld Id} (h : I g before w)
    (hafter : forall t, t ∈ actions.filterMap (readingOf id) -> before ≤ t)
    (hnow : forall t, t ∈ actions.filterMap (readingOf id) -> t ≤ now)
    (hle : before ≤ now) : I (actions.foldl next g) now (w.run actions) := by
  induction actions generalizing g before w with
  | nil =>
      exact hlater h hle
  | cons a rest ih =>
      have ha := hactions a (List.mem_cons_self ..)
      have hrest : forall a', a' ∈ rest -> P a' :=
        fun a' ha' => hactions a' (List.mem_cons_of_mem _ ha')
      cases hreading : readingOf id a with
      | none =>
          rw [List.filterMap_cons_none hreading] at hafter hnow hclock
          apply ih hrest hclock _ hafter hnow hle
          apply hstep h ha
          intro t ht
          rw [hreading] at ht
          cases ht
      | some t =>
          rw [List.filterMap_cons_some hreading] at hafter hnow hclock
          rw [List.pairwise_cons] at hclock
          have ht : before ≤ t := hafter t (List.mem_cons_self ..)
          apply ih hrest hclock.right _ hclock.left
          · exact fun t' ht' => hnow t' (List.mem_cons_of_mem _ ht')
          · exact hnow t (List.mem_cons_self ..)
          · apply hstep (hlater h ht) ha
            intro t' ht'
            rw [hreading] at ht'
            exact (Option.some.inj ht').symm

/-- The rule for runs from the start, where no reading has been made. -/
theorem UptimeWorld.run_invariant_of_new {Ghost : Type} {id : Id}
    {P : UptimeAction Id -> Prop} {next : Ghost -> UptimeAction Id -> Ghost}
    {I : Ghost -> Int -> UptimeWorld Id -> Prop}
    (hlater : forall {g before now w}, I g before w -> before ≤ now -> I g now w)
    (hstep : forall {g now w a}, I g now w -> P a ->
      (forall t, readingOf id a = some t -> t = now) -> I (next g a) now (w.step a))
    {g : Ghost} (h : forall t, I g t UptimeWorld.new)
    {actions : List (UptimeAction Id)} (hactions : forall a, a ∈ actions -> P a)
    (hclock : (actions.filterMap (readingOf id)).Pairwise (· ≤ ·)) {now : Int}
    (hnow : forall t, t ∈ actions.filterMap (readingOf id) -> t ≤ now) :
    I (actions.foldl next g) now (UptimeWorld.new.run actions) := by
  have hrun := @UptimeWorld.run_invariant _ _ _ id P next I hlater hstep actions
    hactions hclock g
  cases hreadings : actions.filterMap (readingOf id) with
  | nil =>
      apply hrun (h now) _ hnow (le_refl _)
      intro t ht
      rw [hreadings] at ht
      cases ht
  | cons first rest =>
      -- the run starts at its first reading
      rw [hreadings, List.pairwise_cons] at hclock
      have hfirst : first ∈ actions.filterMap (readingOf id) := by
        rw [hreadings]
        exact List.mem_cons_self ..
      apply hrun (h first) _ hnow (hnow first hfirst)
      intro t ht
      rw [hreadings] at ht
      rcases List.mem_cons.mp ht with heq | hrest
      · exact le_of_eq heq.symm
      · exact hclock.left t hrest

end HifiApi
