import Mathlib.Data.List.Induction
import Mathlib.Data.List.Sort
import Mathlib.Data.List.TakeWhile
import Mathlib.Tactic.Common

/-!
# Logs with a horizon

A log lists entries with the times from which they are in force.  Pruning at a
cutoff keeps the last entry before it, so that what is in force at the cutoff
and later stays the same; pruning twice is pruning once at the later cutoff.
-/

namespace HifiApi

namespace Log

variable {Entry : Type} (stamp : Entry -> Int)

/-- The number of leading entries before a cutoff. -/
def older (cutoff : Int) (log : List Entry) : Nat :=
  (log.takeWhile fun e => decide (stamp e < cutoff)).length

/-- Drop the entries before the cutoff, except for the last one of them. -/
def prune (cutoff : Int) (log : List Entry) : List Entry :=
  log.drop (older stamp cutoff log - 1)

/-- The entry in force at a time, starting from an earlier one. -/
def current : Option Entry -> List Entry -> Int -> Option Entry
  | earlier, [], _ => earlier
  | earlier, e :: rest, t =>
      if stamp e ≤ t then current (some e) rest t else earlier

/-- Times that do not go back. -/
def InOrder (log : List Entry) : Prop :=
  log.Pairwise fun e e' => stamp e ≤ stamp e'

variable {stamp}

/-!
## The entry in force
-/

theorem current_append {first second : List Entry} {t : Int}
    (h : forall e, e ∈ first -> stamp e ≤ t) (earlier : Option Entry) :
    current stamp earlier (first ++ second) t =
      current stamp (first.getLast?.or earlier) second t := by
  induction first generalizing earlier with
  | nil =>
      rfl
  | cons e rest ih =>
      have he : stamp e ≤ t := h e (List.mem_cons_self ..)
      have hrest := ih (fun e' he' => h e' (List.mem_cons_of_mem _ he')) (some e)
      rw [List.cons_append, current, if_pos he, hrest]
      congr 1
      cases rest with
      | nil =>
          rfl
      | cons e' rest' =>
          rw [List.getLast?_cons_cons, List.getLast?_cons]
          rfl

theorem current_snoc {log : List Entry} {e : Entry}
    (h : InOrder stamp (log ++ [e])) (earlier : Option Entry) (t : Int) :
    current stamp earlier (log ++ [e]) t =
      if stamp e ≤ t then some e else current stamp earlier log t := by
  induction log generalizing earlier with
  | nil =>
      rfl
  | cons e' rest ih =>
      rw [InOrder, List.cons_append, List.pairwise_cons] at h
      have hle : stamp e' ≤ stamp e :=
        h.left e (List.mem_append_right _ (List.mem_singleton_self e))
      rw [List.cons_append, current, current]
      split
      · exact ih h.right (some e')
      · rename_i hnot
        rw [if_neg fun he => hnot (le_trans hle he)]

/-- In an ordered log the entry in force is the last one up to the time. -/
theorem current_eq_getLast? {log : List Entry} (h : InOrder stamp log) (t : Int) :
    current stamp none log t =
      (log.filter fun e => decide (stamp e ≤ t)).getLast? := by
  induction log using List.reverseRecOn with
  | nil =>
      rfl
  | append_singleton log e ih =>
      have hlog : InOrder stamp log := (List.pairwise_append.mp h).left
      rw [current_snoc h, List.filter_append]
      split
      · rename_i he
        have hone : [e].filter (fun e => decide (stamp e ≤ t)) = [e] :=
          List.filter_cons_of_pos (decide_eq_true he)
        rw [hone, List.getLast?_concat]
      · rename_i he
        have hone : [e].filter (fun e => decide (stamp e ≤ t)) = [] :=
          List.filter_cons_of_neg (by simpa using he)
        rw [hone, List.append_nil]
        exact ih hlog

/-!
## Pruning
-/

theorem older_le_length (cutoff : Int) (log : List Entry) :
    older stamp cutoff log ≤ log.length :=
  (List.takeWhile_sublist _).length_le

/-- A log splits into the entries before the cutoff and the rest. -/
theorem split_at_older (cutoff : Int) (log : List Entry) :
    exists before after, log = before ++ after ∧
      older stamp cutoff log = before.length ∧
      (forall e, e ∈ before -> stamp e < cutoff) ∧
      forall e, after.head? = some e -> cutoff ≤ stamp e := by
  refine ⟨log.takeWhile fun e => decide (stamp e < cutoff),
    log.dropWhile fun e => decide (stamp e < cutoff),
    (List.takeWhile_append_dropWhile ..).symm, rfl, ?_, ?_⟩
  · intro e he
    have hlt := @List.mem_takeWhile_imp _ (fun e => decide (stamp e < cutoff)) _ _ he
    exact of_decide_eq_true hlt
  · intro e he
    have hnot := List.head?_dropWhile_not (fun e => decide (stamp e < cutoff)) log
    rw [he] at hnot
    simpa using hnot

theorem older_drop {cutoff : Int} {log : List Entry} {n : Nat}
    (h : n ≤ older stamp cutoff log) :
    older stamp cutoff (log.drop n) = older stamp cutoff log - n := by
  induction log generalizing n with
  | nil =>
      rw [List.drop_nil]
      exact (Nat.sub_eq_zero_of_le (Nat.zero_le n)).symm
  | cons e rest ih =>
      cases n with
      | zero =>
          rfl
      | succ n =>
          unfold older at h ⊢
          rw [List.takeWhile_cons] at h ⊢
          split at h
          · rename_i he
            rw [if_pos he, List.length_cons, Nat.add_sub_add_right]
            exact ih (Nat.le_of_succ_le_succ h)
          · exact absurd h (Nat.not_succ_le_zero n)

theorem older_mono {cutoff cutoff' : Int} (h : cutoff ≤ cutoff')
    (log : List Entry) : older stamp cutoff log ≤ older stamp cutoff' log := by
  induction log with
  | nil =>
      exact Nat.le_refl _
  | cons e rest ih =>
      unfold older
      rw [List.takeWhile_cons, List.takeWhile_cons]
      split
      · rename_i he
        rw [if_pos (decide_eq_true (lt_of_lt_of_le (of_decide_eq_true he) h))]
        exact Nat.succ_le_succ ih
      · exact Nat.zero_le _

theorem prune_prune {cutoff cutoff' : Int} (h : cutoff ≤ cutoff')
    (log : List Entry) :
    prune stamp cutoff' (prune stamp cutoff log) = prune stamp cutoff' log := by
  have hmono := @older_mono _ stamp _ _ h log
  unfold prune
  rw [older_drop (le_trans (Nat.sub_le _ 1) hmono), List.drop_drop]
  congr 1
  omega

theorem current_prune {cutoff t : Int} (h : cutoff ≤ t) (log : List Entry) :
    current stamp none (prune stamp cutoff log) t = current stamp none log t := by
  rcases @split_at_older _ stamp cutoff log with
    ⟨before, after, hlog, hlength, hbefore, _⟩
  have hle : forall e, e ∈ before -> stamp e ≤ t :=
    fun e he => le_of_lt (lt_of_lt_of_le (hbefore e he) h)
  unfold prune
  rw [hlength, hlog, current_append hle]
  cases before using List.reverseRecOn with
  | nil =>
      rfl
  | append_singleton first e =>
      rw [List.length_append, List.length_singleton, Nat.add_sub_cancel,
        List.append_assoc, List.drop_left, List.getLast?_concat,
        @current_append _ _ [e]]
      · rfl
      · intro e' he'
        exact hle e' (List.mem_append_right _ he')

theorem older_map {Row : Type} (f : Row -> Entry) (cutoff : Int) (rows : List Row) :
    older stamp cutoff (rows.map f) = older (fun r => stamp (f r)) cutoff rows := by
  unfold older
  rw [List.takeWhile_map, List.length_map]
  rfl

theorem prune_map {Row : Type} (f : Row -> Entry) (cutoff : Int) (rows : List Row) :
    prune stamp cutoff (rows.map f) =
      (prune (fun r => stamp (f r)) cutoff rows).map f := by
  unfold prune
  rw [older_map, List.map_drop]

/-- An entry from the cutoff on is added after pruning as well as before. -/
theorem prune_snoc {cutoff : Int} {e : Entry} (h : cutoff ≤ stamp e)
    (log : List Entry) :
    prune stamp cutoff (log ++ [e]) = prune stamp cutoff log ++ [e] := by
  have holder : older stamp cutoff (log ++ [e]) = older stamp cutoff log := by
    unfold older
    rw [List.takeWhile_append]
    split
    · rename_i hall
      rw [List.takeWhile_cons_of_neg (by simpa using h), List.append_nil]
      exact hall.symm
    · rfl
  unfold prune
  rw [holder, List.drop_append_of_le_length]
  exact le_trans (Nat.sub_le _ 1) (older_le_length cutoff log)

theorem getLast?_prune (cutoff : Int) (log : List Entry) :
    (prune stamp cutoff log).getLast? = log.getLast? := by
  unfold prune
  have hle := @older_le_length _ stamp cutoff log
  cases log with
  | nil =>
      rw [List.drop_nil]
  | cons e rest =>
      rw [List.getLast?_drop, if_neg]
      rw [List.length_cons] at hle ⊢
      omega

theorem InOrder.prune {log : List Entry} (h : InOrder stamp log) (cutoff : Int) :
    InOrder stamp (prune stamp cutoff log) :=
  h.sublist (List.drop_sublist _ _)

theorem mem_of_mem_prune {cutoff : Int} {log : List Entry} {e : Entry}
    (h : e ∈ prune stamp cutoff log) : e ∈ log :=
  List.mem_of_mem_drop h

theorem InOrder.snoc {log : List Entry} (h : InOrder stamp log) {e : Entry}
    (hle : forall e', e' ∈ log -> stamp e' ≤ stamp e) :
    InOrder stamp (log ++ [e]) := by
  refine List.pairwise_append.mpr ⟨h, List.pairwise_singleton _ _, ?_⟩
  intro e' he' e'' he''
  rw [List.mem_singleton.mp he'']
  exact hle e' he'

/-- Pruning as a query: entries from the cutoff on, and the newest one before
it by its key. -/
theorem filter_eq_prune {Key : Type} [DecidableEq Key] {key : Entry -> Key}
    {log : List Entry} (horder : InOrder stamp log) (hkeys : (log.map key).Nodup)
    (cutoff : Int) :
    (log.filter fun e => decide (cutoff ≤ stamp e ∨
        ((log.filter fun e => decide (stamp e < cutoff)).getLast?.map key) =
          some (key e))) = prune stamp cutoff log := by
  rcases @split_at_older _ stamp cutoff log with
    ⟨before, after, hlog, hlength, hbefore, hafter⟩
  have hlate : forall e, e ∈ after -> cutoff ≤ stamp e := by
    intro e he
    rw [hlog] at horder
    have hafterOrder := (List.pairwise_append.mp horder).right.left
    cases after with
    | nil =>
        cases he
    | cons e' rest =>
        have hhead := hafter e' rfl
        rcases List.mem_cons.mp he with heq | hrest
        · rw [heq]
          exact hhead
        · exact le_trans hhead ((List.pairwise_cons.mp hafterOrder).left e hrest)
  have hnewest : (log.filter fun e => decide (stamp e < cutoff)) = before := by
    rw [hlog, List.filter_append, List.filter_eq_self.mpr, List.filter_eq_nil_iff.mpr,
      List.append_nil]
    · intro e he hlt
      exact not_lt.mpr (hlate e he) (of_decide_eq_true hlt)
    · exact fun e he => decide_eq_true (hbefore e he)
  rw [hnewest]
  unfold prune
  rw [hlength, hlog, List.filter_append]
  have hkeepAfter : (after.filter fun e => decide (cutoff ≤ stamp e ∨
      before.getLast?.map key = some (key e))) = after :=
    List.filter_eq_self.mpr fun e he => decide_eq_true (Or.inl (hlate e he))
  rw [hkeepAfter]
  cases before using List.reverseRecOn with
  | nil =>
      rfl
  | append_singleton first last =>
      rw [List.length_append, List.length_singleton, Nat.add_sub_cancel,
        List.append_assoc, List.drop_left, List.getLast?_concat, List.filter_append]
      have hfirst : (first.filter fun e => decide (cutoff ≤ stamp e ∨
          (some last).map key = some (key e))) = [] := by
        rw [List.filter_eq_nil_iff]
        intro e he hkeep
        rcases of_decide_eq_true hkeep with hle | hkey
        · exact not_lt.mpr hle (hbefore e (List.mem_append_left _ he))
        · rw [hlog, List.append_assoc, List.map_append, List.nodup_append] at hkeys
          refine hkeys.right.right (key e) (List.mem_map_of_mem he) (key last) ?_
            (Option.some.inj hkey).symm
          exact List.mem_map_of_mem (List.mem_cons_self ..)
      have hlast : ([last].filter fun e => decide (cutoff ≤ stamp e ∨
          (some last).map key = some (key e))) = [last] :=
        List.filter_eq_self.mpr fun e he =>
          decide_eq_true (Or.inr (by rw [List.mem_singleton.mp he]; rfl))
      rw [hfirst, hlast]
      rfl

end Log

end HifiApi
