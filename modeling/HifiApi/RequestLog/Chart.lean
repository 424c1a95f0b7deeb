import HifiApi.RequestLog.State
import Mathlib.Data.Finset.Lattice.Fold
import Mathlib.Order.Lattice.Nat

/-!
# The chart of the request rates

Which of the sixty seconds of the chart are still there when it is read.  The
recorder keeps what is younger than sixty seconds at the last entry, and the chart
begins sixty seconds before the current second: as soon as something has been
recorded in the current second, the first second of the chart is gone.
-/

namespace HifiApi

open Buckets RateScan

/-- The classes of requests with a rate of their own; the first one is what is sent
on to Tidal. -/
inductive RateClass where
  | all
  | playback
  | search
  | catalog
  | cached

namespace SecondCounts

def count (c : RateClass) (counts : SecondCounts) : Nat :=
  match c with
  | .all => counts.upstream
  | .playback => counts.playback
  | .search => counts.search
  | .catalog => counts.catalog
  | .cached => counts.cached

theorem count_zero (c : RateClass) : count c 0 = 0 := by
  cases c <;> rfl

theorem count_add (c : RateClass) (a b : SecondCounts) :
    count c (a + b) = count c a + count c b := by
  cases c with
  | all =>
      show a.playback + b.playback + (a.search + b.search) +
          (a.catalog + b.catalog) =
        a.playback + a.search + a.catalog + (b.playback + b.search + b.catalog)
      omega
  | _ => rfl

end SecondCounts

def RequestRates.rate (rates : RequestRates) : RateClass -> RequestRate
  | .all => rates.all
  | .playback => rates.playback
  | .search => rates.search
  | .catalog => rates.catalog
  | .cached => rates.cached

/-- An entry counts for a class. -/
def LogEntry.isOf (c : RateClass) (e : LogEntry) : Bool :=
  decide ((SecondCounts.of e).count c = 1)

/-- The entries of a class whose times meet a condition. -/
def numberOf (entries : List LogEntry) (c : RateClass) (p : Int -> Bool) : Nat :=
  entries.countP fun e => p e.ts && e.isOf c

/-- The entries of a class in one second. -/
def numberAt (entries : List LogEntry) (c : RateClass) (second : Int) : Nat :=
  numberOf entries c fun t => decide (t = second)

/-- The throttled entries whose times meet a condition. -/
def throttledOf (entries : List LogEntry) (p : Int -> Bool) : Nat :=
  entries.countP fun e => p e.ts && decide ((SecondCounts.of e).throttled = 1)

/-- The chart, the peaks and the windows count every entry of their seconds. -/
structure ChartExact (entries : List LogEntry) (now : Int) (rates : RequestRates) :
    Prop where
  length : rates.history.length = 60
  history : forall i : Nat, i < 60 -> rates.history[i]? =
    some (numberAt entries .playback (now - 60 + i),
      numberAt entries .search (now - 60 + i),
      numberAt entries .catalog (now - 60 + i))
  peaks : forall c, (rates.rate c).peak60s =
    (Finset.range 60).sup fun i => numberAt entries c (now - 60 + i)
  windows : forall c, (rates.rate c).window =
    numberOf entries c fun t => decide (now - 60 < t ∧ t ≤ now)
  throttled : rates.throttled60s =
    throttledOf entries fun t => decide (now - 60 < t ∧ t ≤ now)

/-- When something has been recorded in the current second, there is nothing of
the first second of the chart, or only cached answers, and not more of them than in
a later one. -/
def NothingDropped (entries : List LogEntry) (now : Int) : Prop :=
  (exists e, e ∈ entries ∧ e.ts = now) ->
    numberAt entries .all (now - 60) = 0 ∧
      numberAt entries .cached (now - 60) ≤
        (Finset.range 59).sup fun i => numberAt entries .cached (now - 59 + i)

/-!
## Entries as counts
-/

/-- What an entry adds, at its time. -/
def LogEntry.counted (e : LogEntry) : Int × SecondCounts := (e.ts, .of e)

theorem Traffic.sent_le (traffic : Traffic) (sent : Bool) :
    (sent && decide (traffic = .playback)).toNat +
      (sent && decide (traffic = .search)).toNat +
      (sent && decide (traffic = .catalog)).toNat ≤ 1 := by
  cases traffic <;> cases sent <;> decide

/-- An entry counts once for a class, or not at all. -/
theorem count_of_le (c : RateClass) (e : LogEntry) :
    (SecondCounts.of e).count c ≤ 1 := by
  cases c with
  | all => exact Traffic.sent_le _ _
  | _ => exact Bool.toNat_le _

/-- A sum of counts is the number of the entries that count. -/
theorem read_sumWhere (read : SecondCounts -> Nat) (hzero : read 0 = 0)
    (hadd : forall a b, read (a + b) = read a + read b)
    (hle : forall e, read (.of e) ≤ 1) (p : Int -> Bool) (entries : List LogEntry) :
    read (sumWhere p (entries.map LogEntry.counted)) =
      entries.countP fun e => p e.ts && decide (read (.of e) = 1) := by
  induction entries with
  | nil =>
      exact hzero
  | cons e rest ih =>
      rw [List.map_cons, sumWhere_cons, hadd, ih, List.countP_cons, Nat.add_comm]
      congr 1
      show read (if p e.ts = true then SecondCounts.of e else 0) = _
      cases p e.ts with
      | false =>
          exact hzero
      | true =>
          rw [if_pos rfl, Bool.true_and]
          rcases Nat.le_one_iff_eq_zero_or_eq_one.mp (hle e) with hnone | hone
          · rw [hnone]
            rfl
          · rw [hone]
            rfl

theorem count_sumWhere (c : RateClass) (p : Int -> Bool) (entries : List LogEntry) :
    (sumWhere p (entries.map LogEntry.counted)).count c = numberOf entries c p :=
  read_sumWhere (SecondCounts.count c) (SecondCounts.count_zero c)
    (SecondCounts.count_add c) (count_of_le c) p entries

/-- The buckets of a log. -/
theorem requestsPerSecond_recorded (entries : List LogEntry) :
    (RequestLog.recorded entries).requestsPerSecond =
      recordAll rateWindowSeconds (entries.map LogEntry.counted) := by
  induction entries using List.reverseRecOn with
  | nil =>
      rfl
  | append_singleton rest e ih =>
      rw [List.map_append, List.map_singleton, recordAll_concat, ← ih,
        RequestLog.recorded, List.foldl_append]
      rfl

/-!
## What a scan of the buckets reads
-/

section Scan

variable {now : Int} {buckets : List (Int × SecondCounts)} {scan : RateScan}

theorem window_scan :
    (buckets.foldl (RateScan.bucket now) scan).window =
      scan.window + sumWhere (averaged now) buckets := by
  induction buckets generalizing scan with
  | nil =>
      exact (add_zero scan.window).symm
  | cons b rest ih =>
      rw [List.foldl_cons, ih, sumWhere_cons, ← add_assoc]
      congr 1
      show (if averaged now b.1 = true then scan.window + b.2 else scan.window) = _
      split
      · rfl
      · exact (add_zero scan.window).symm

/-- A bound of the peak of a class is one of all its charted buckets. -/
theorem peak_scan_le_iff (read : RateScan -> Nat) {c : RateClass} {bound : Nat}
    (hread : forall scan b, read (RateScan.bucket now scan b) =
      if charted now b.1 = true then max (read scan) (b.2.count c) else read scan) :
    read (buckets.foldl (RateScan.bucket now) scan) ≤ bound <->
      read scan ≤ bound ∧
        forall b, b ∈ buckets -> charted now b.1 = true -> b.2.count c ≤ bound := by
  induction buckets generalizing scan with
  | nil =>
      simp
  | cons b rest ih =>
      rw [List.foldl_cons, ih, hread, List.forall_mem_cons]
      split
      · rename_i hcharted
        rw [Nat.max_le]
        simp [hcharted, and_assoc]
      · rename_i hother
        simp [hother]

theorem length_history_scan :
    (buckets.foldl (RateScan.bucket now) scan).history.length =
      scan.history.length := by
  induction buckets generalizing scan with
  | nil =>
      rfl
  | cons b rest ih =>
      rw [List.foldl_cons, ih]
      show (if charted now b.1 = true then scan.history.set _ _
        else scan.history).length = _
      split
      · exact List.length_set
      · rfl

/-- The bucket of a second of the chart is written into its place. -/
theorem getElem?_bucket {b : Int × SecondCounts} {i : Nat} (hi : i < 60)
    (hlength : scan.history.length = 60) :
    (RateScan.bucket now scan b).history[i]? =
      if b.1 = now - 60 + i then some (triple b.2) else scan.history[i]? := by
  show (if charted now b.1 = true then
    scan.history.set (b.1 - (now - rateWindowSeconds)).toNat (triple b.2)
    else scan.history)[i]? = _
  by_cases hcharted : charted now b.1 = true
  · have hbounds : now - 60 ≤ b.1 ∧ b.1 < now := of_decide_eq_true hcharted
    rw [if_pos hcharted, List.getElem?_set, rateWindowSeconds]
    by_cases hslot : b.1 = now - 60 + i
    · rw [if_pos hslot, if_pos (by omega), if_pos (by omega)]
    · rw [if_neg hslot, if_neg (by omega)]
  · have hslot : ¬ b.1 = now - 60 + i := by
      intro heq
      apply hcharted
      apply decide_eq_true
      rw [rateWindowSeconds]
      omega
    rw [if_neg hcharted, if_neg hslot]

theorem history_scan {i : Nat} (hi : i < 60) (hlength : scan.history.length = 60)
    (hdistinct : (buckets.map Prod.fst).Nodup) :
    (buckets.foldl (RateScan.bucket now) scan).history[i]? =
      if now - 60 + i ∈ buckets.map Prod.fst then
        some (triple (sumWhere (fun t => decide (t = now - 60 + i)) buckets))
      else scan.history[i]? := by
  induction buckets generalizing scan with
  | nil =>
      rfl
  | cons b rest ih =>
      rw [List.map_cons, List.nodup_cons] at hdistinct
      have hnext : (RateScan.bucket now scan b).history.length = 60 := by
        rw [← hlength]
        exact @length_history_scan now [b] scan
      rw [List.foldl_cons, ih hnext hdistinct.right, getElem?_bucket hi hlength,
        sumWhere_cons, List.map_cons]
      by_cases hslot : b.1 = now - 60 + i
      · have hrest : sumWhere (fun t => decide (t = now - 60 + i)) rest = 0 := by
          apply sumWhere_eq_zero
          intro d hd
          apply decide_eq_false
          intro htime
          apply hdistinct.left
          rw [hslot, ← htime]
          exact List.mem_map_of_mem hd
        have hgone : now - 60 + i ∉ rest.map Prod.fst := by
          rw [← hslot]
          exact hdistinct.left
        have hhere : now - 60 + i ∈ b.1 :: rest.map Prod.fst := by
          rw [hslot]
          exact List.mem_cons_self
        rw [if_neg hgone, if_pos hslot, if_pos hhere, if_pos (decide_eq_true hslot),
          hrest, add_zero]
      · have hzero : (if decide (b.1 = now - 60 + i) = true then b.2 else 0) = 0 :=
          if_neg fun h => hslot (of_decide_eq_true h)
        rw [if_neg hslot, hzero, zero_add]
        by_cases hmem : now - 60 + i ∈ rest.map Prod.fst
        · rw [if_pos hmem, if_pos (List.mem_cons_of_mem b.1 hmem)]
        · have hnone : now - 60 + i ∉ b.1 :: rest.map Prod.fst := by
            rw [List.mem_cons, not_or]
            exact ⟨fun h => hslot h.symm, hmem⟩
          rw [if_neg hmem, if_neg hnone]

/-- The peaks of the classes other than the first one. -/
theorem peak_bucket {c : RateClass} (hc : c ≠ .all) (b : Int × SecondCounts) :
    (RateScan.bucket now scan b).peak.count c =
      if charted now b.1 = true then max (scan.peak.count c) (b.2.count c)
      else scan.peak.count c := by
  show (if charted now b.1 = true then peaked scan.peak b.2 else scan.peak).count c = _
  split
  · cases c with
    | all => exact absurd rfl hc
    | _ => rfl
  · rfl

end Scan

section Rates

variable {entries : List LogEntry} {now : Int}

/-- The buckets at a reading. -/
def bucketsOf (entries : List LogEntry) : List (Int × SecondCounts) :=
  (RequestLog.recorded entries).requestsPerSecond

/-- What the buckets hold of a second. -/
def heldAt (entries : List LogEntry) (second : Int) : SecondCounts :=
  sumWhere (fun t => decide (t = second)) (bucketsOf entries)

theorem nodup_bucketsOf (entries : List LogEntry) :
    ((bucketsOf entries).map Prod.fst).Nodup := by
  rw [bucketsOf, requestsPerSecond_recorded]
  exact nodup_recordAll _ _

theorem heldAt_of_not_mem {second : Int}
    (h : second ∉ (bucketsOf entries).map Prod.fst) : heldAt entries second = 0 := by
  apply sumWhere_eq_zero
  intro b hb
  apply decide_eq_false
  intro htime
  apply h
  rw [← htime]
  exact List.mem_map_of_mem hb

theorem requestRatesAt_history :
    ((RequestLog.recorded entries).requestRatesAt now).history =
      ((bucketsOf entries).foldl (RateScan.bucket now) .start).history := rfl

theorem history_requestRatesAt {i : Nat} (hi : i < 60) :
    ((RequestLog.recorded entries).requestRatesAt now).history[i]? =
      some (triple (heldAt entries (now - 60 + i))) := by
  have hlength : RateScan.start.history.length = 60 := List.length_replicate
  rw [requestRatesAt_history, history_scan hi hlength (nodup_bucketsOf entries)]
  split
  · rfl
  · rename_i hnone
    rw [heldAt_of_not_mem hnone, RateScan.start]
    exact (List.getElem?_replicate_of_lt hi)

/-- A peak is the largest count that is held of one of the sixty seconds. -/
theorem peak_requestRatesAt (c : RateClass) :
    (((RequestLog.recorded entries).requestRatesAt now).rate c).peak60s =
      (Finset.range 60).sup fun i => (heldAt entries (now - 60 + i)).count c := by
  apply eq_of_forall_ge_iff
  intro bound
  rw [Finset.sup_le_iff]
  have hscan : (((RequestLog.recorded entries).requestRatesAt now).rate c).peak60s ≤
      bound <->
      forall b, b ∈ bucketsOf entries -> charted now b.1 = true ->
        b.2.count c ≤ bound := by
    by_cases hc : c = .all
    · rw [hc]
      refine Iff.trans (peak_scan_le_iff RateScan.peakUpstream (c := .all)
        fun _ _ => rfl) ?_
      simp [RateScan.start, bucketsOf]
    · have hrate : (((RequestLog.recorded entries).requestRatesAt now).rate c).peak60s =
          ((bucketsOf entries).foldl (RateScan.bucket now) .start).peak.count c := by
        cases c with
        | all => exact absurd rfl hc
        | _ => rfl
      rw [hrate]
      refine Iff.trans (peak_scan_le_iff (fun s => s.peak.count c)
        fun _ b => peak_bucket hc b) ?_
      have hstart : RateScan.start.peak.count c = 0 := SecondCounts.count_zero c
      rw [hstart]
      simp
  rw [hscan]
  constructor
  · intro h i hi
    by_cases hmem : now - 60 + (i : Int) ∈ (bucketsOf entries).map Prod.fst
    · rcases List.mem_map.mp hmem with ⟨b, hb, htime⟩
      rw [heldAt, ← htime, sumWhere_of_mem (nodup_bucketsOf entries) hb]
      apply h b hb
      have hlt := Finset.mem_range.mp hi
      apply decide_eq_true
      rw [rateWindowSeconds]
      omega
    · rw [heldAt_of_not_mem hmem, SecondCounts.count_zero]
      exact Nat.zero_le _
  · intro h b hb hcharted
    have hbounds : now - 60 ≤ b.1 ∧ b.1 < now := of_decide_eq_true hcharted
    have hslot : now - 60 + ((b.1 - (now - 60)).toNat : Int) = b.1 := by omega
    have hle := h (b.1 - (now - 60)).toNat (Finset.mem_range.mpr (by omega))
    rw [hslot, heldAt, sumWhere_of_mem (nodup_bucketsOf entries) hb] at hle
    exact hle

theorem counted_le {last : Int} (h : forall e, e ∈ entries -> e.ts ≤ last) :
    forall x, x ∈ entries.map LogEntry.counted -> x.1 ≤ last := by
  intro x hx
  rcases List.mem_map.mp hx with ⟨e, he, heq⟩
  rw [← heq]
  exact h e he

theorem window_scan_recorded (hnow : forall e, e ∈ entries -> e.ts ≤ now) :
    ((bucketsOf entries).foldl (RateScan.bucket now) .start).window =
      sumWhere (averaged now) (entries.map LogEntry.counted) := by
  have hstart : RateScan.start.window = 0 := rfl
  rw [window_scan, hstart, zero_add, bucketsOf, requestsPerSecond_recorded,
    sumWhere_recordAll (counted_le hnow)]
  intro t ht
  exact (of_decide_eq_true ht).left

theorem window_requestRatesAt (hnow : forall e, e ∈ entries -> e.ts ≤ now)
    (c : RateClass) :
    (((RequestLog.recorded entries).requestRatesAt now).rate c).window =
      numberOf entries c fun t => decide (now - 60 < t ∧ t ≤ now) := by
  have hread : (((RequestLog.recorded entries).requestRatesAt now).rate c).window =
      (((bucketsOf entries).foldl (RateScan.bucket now) .start).window).count c := by
    cases c <;> rfl
  rw [hread, window_scan_recorded hnow, count_sumWhere]
  rfl

theorem throttled_requestRatesAt (hnow : forall e, e ∈ entries -> e.ts ≤ now) :
    ((RequestLog.recorded entries).requestRatesAt now).throttled60s =
      throttledOf entries fun t => decide (now - 60 < t ∧ t ≤ now) := by
  show ((bucketsOf entries).foldl (RateScan.bucket now) .start).window.throttled = _
  rw [window_scan_recorded hnow]
  exact read_sumWhere SecondCounts.throttled rfl (fun _ _ => rfl)
    (fun _ => Bool.toNat_le _) (averaged now) entries

/-- What is held of a second that is younger than the width. -/
theorem count_heldAt {last second : Int} (hlast : forall e, e ∈ entries -> e.ts ≤ last)
    (hrecent : last - 60 < second) (c : RateClass) :
    (heldAt entries second).count c = numberAt entries c second := by
  rw [heldAt, bucketsOf, requestsPerSecond_recorded,
    sumWhere_recordAll (counted_le hlast), count_sumWhere]
  · rfl
  · intro t ht
    rw [of_decide_eq_true ht]
    exact hrecent

/-- Nothing is held of the first second once the current one has an entry. -/
theorem heldAt_first (hsorted : entries.Pairwise fun a b => a.ts ≤ b.ts)
    (hnow : forall e, e ∈ entries -> e.ts ≤ now)
    (hcurrent : exists e, e ∈ entries ∧ e.ts = now) :
    heldAt entries (now - 60) = 0 := by
  rcases hcurrent with ⟨e, he, hts⟩
  induction entries using List.reverseRecOn with
  | nil =>
      cases he
  | append_singleton rest last _ =>
      have hlast : last.ts = now := by
        apply le_antisymm (hnow last (by simp))
        rcases List.mem_append.mp he with hrest | hsame
        · rw [← hts]
          exact (List.pairwise_append.mp hsorted).right.right e hrest last (by simp)
        · rw [← List.mem_singleton.mp hsame, hts]
      apply sumWhere_eq_zero
      intro b hb
      rw [bucketsOf, requestsPerSecond_recorded, List.map_append,
        List.map_singleton] at hb
      have hyounger : last.ts - 60 < b.1 := width_of_mem_recordAll (by decide) hb
      apply decide_eq_false
      omega

/-- The requests sent on to Tidal are those of three classes. -/
theorem numberAt_all (second : Int) :
    numberAt entries .all second =
      numberAt entries .playback second + numberAt entries .search second +
        numberAt entries .catalog second := by
  unfold numberAt
  rw [← count_sumWhere, ← count_sumWhere, ← count_sumWhere, ← count_sumWhere]
  rfl

theorem sup_shift (f : Int -> Nat) (i : Nat) (hi : i < 60) (hpos : i ≠ 0) :
    f (now - 60 + i) ≤ (Finset.range 59).sup fun i => f (now - 59 + i) := by
  have hslot : now - 60 + (i : Int) = now - 59 + ((i - 1 : Nat) : Int) := by omega
  rw [hslot]
  exact Finset.le_sup (f := fun i : Nat => f (now - 59 + i))
    (Finset.mem_range.mpr (by omega))

theorem history_heldAt {i : Nat} {second : Int}
    (h : forall c, c ≠ .cached -> (heldAt entries second).count c =
      numberAt entries c second) (hi : i < 60) (hslot : second = now - 60 + i) :
    ((RequestLog.recorded entries).requestRatesAt now).history[i]? =
      some (numberAt entries .playback second, numberAt entries .search second,
        numberAt entries .catalog second) := by
  rw [history_requestRatesAt hi, ← hslot, ← h .playback (fun e => nomatch e),
    ← h .search (fun e => nomatch e), ← h .catalog (fun e => nomatch e)]
  rfl

theorem length_requestRatesAt :
    ((RequestLog.recorded entries).requestRatesAt now).history.length = 60 := by
  rw [requestRatesAt_history, length_history_scan]
  exact List.length_replicate

/-- What is never more than the count of what is sent on. -/
theorem numberAt_eq_zero {c : RateClass} {second : Int} (hc : c ≠ .cached)
    (h : numberAt entries .all second = 0) : numberAt entries c second = 0 := by
  have hsum := @numberAt_all entries second
  cases c with
  | cached => exact absurd rfl hc
  | all => exact h
  | _ => omega

/-- The largest count of the cached answers, when the first second does not matter. -/
theorem sup_cached (hfirst : heldAt entries (now - 60) = 0)
    (hlater : forall (i : Nat), i ≠ 0 -> forall c,
      (heldAt entries (now - 60 + i)).count c = numberAt entries c (now - 60 + i))
    (h : numberAt entries .cached (now - 60) ≤
      (Finset.range 59).sup fun i => numberAt entries .cached (now - 59 + i)) :
    ((Finset.range 60).sup fun i => (heldAt entries (now - 60 + i)).count .cached) =
      (Finset.range 60).sup fun i => numberAt entries .cached (now - 60 + i) := by
  apply le_antisymm
  · apply Finset.sup_mono_fun
    intro i _
    by_cases hi0 : i = 0
    · rw [hi0, Int.natCast_zero, add_zero, hfirst, SecondCounts.count_zero]
      exact Nat.zero_le _
    · exact (hlater i hi0 .cached).le
  · have hshifted : ((Finset.range 59).sup fun i =>
        numberAt entries .cached (now - 59 + i)) ≤
        (Finset.range 60).sup fun i => (heldAt entries (now - 60 + i)).count .cached := by
      apply Finset.sup_le
      intro i hi
      have hslot : now - 59 + (i : Int) = now - 60 + ((i + 1 : Nat) : Int) := by omega
      have hlt := Finset.mem_range.mp hi
      rw [hslot, ← hlater (i + 1) (Nat.succ_ne_zero i) .cached]
      exact Finset.le_sup
        (f := fun i : Nat => (heldAt entries (now - 60 + i)).count .cached)
        (Finset.mem_range.mpr (by omega))
    apply Finset.sup_le
    intro i hi
    apply le_trans _ hshifted
    by_cases hi0 : i = 0
    · rw [hi0, Int.natCast_zero, add_zero]
      exact h
    · exact sup_shift (numberAt entries .cached) i (Finset.mem_range.mp hi) hi0

end Rates

/-- The chart is exact exactly when nothing has been dropped that it shows. -/
theorem requestRatesAt_exact_iff (entries : List LogEntry) (now : Int)
    (hsorted : entries.Pairwise fun a b => a.ts ≤ b.ts)
    (hnow : forall e, e ∈ entries -> e.ts ≤ now) :
    ChartExact entries now ((RequestLog.recorded entries).requestRatesAt now) <->
      NothingDropped entries now := by
  have hlater : forall (i : Nat), i ≠ 0 -> forall c,
      (heldAt entries (now - 60 + i)).count c = numberAt entries c (now - 60 + i) := by
    intro i hi c
    exact count_heldAt hnow (by omega) c
  have hzero : now - 60 + ((0 : Nat) : Int) = now - 60 := by omega
  by_cases hcurrent : exists e, e ∈ entries ∧ e.ts = now
  · have hfirst := heldAt_first hsorted hnow hcurrent
    constructor
    · intro h _
      constructor
      · -- the three counts of the first second that is shown are zero
        have hshown := (@history_requestRatesAt entries now 0
          (by omega)).symm.trans (h.history 0 (by omega))
        rw [hzero, hfirst] at hshown
        have htriple := Prod.ext_iff.mp (Option.some.inj hshown)
        have hplayback : 0 = numberAt entries .playback (now - 60) := htriple.left
        have hrest := Prod.ext_iff.mp htriple.right
        have hsearch : 0 = numberAt entries .search (now - 60) := hrest.left
        have hcatalog : 0 = numberAt entries .catalog (now - 60) := hrest.right
        rw [numberAt_all, ← hplayback, ← hsearch, ← hcatalog]
      · have hle : numberAt entries .cached (now - 60 + (0 : Nat)) ≤
            (((RequestLog.recorded entries).requestRatesAt now).rate .cached).peak60s := by
          rw [h.peaks .cached]
          exact Finset.le_sup
            (f := fun i : Nat => numberAt entries .cached (now - 60 + i))
            (Finset.mem_range.mpr (by omega : 0 < 60))
        rw [hzero, peak_requestRatesAt] at hle
        apply le_trans hle
        apply Finset.sup_le
        intro i hi
        by_cases hi0 : i = 0
        · rw [hi0, hzero, hfirst, SecondCounts.count_zero]
          exact Nat.zero_le _
        · rw [hlater i hi0]
          exact sup_shift (numberAt entries .cached) i (Finset.mem_range.mp hi) hi0
    · intro h
      have hsent := (h hcurrent).left
      have hsame : forall (i : Nat) c, c ≠ .cached ->
          (heldAt entries (now - 60 + i)).count c = numberAt entries c (now - 60 + i) := by
        intro i c hc
        by_cases hi0 : i = 0
        · rw [hi0, hzero, hfirst, SecondCounts.count_zero, numberAt_eq_zero hc hsent]
        · exact hlater i hi0 c
      constructor
      · exact length_requestRatesAt
      · intro i hi
        exact history_heldAt (hsame i) hi rfl
      · intro c
        rw [peak_requestRatesAt]
        by_cases hc : c = .cached
        · rw [hc]
          exact sup_cached hfirst hlater (h hcurrent).right
        · exact Finset.sup_congr rfl fun i _ => hsame i c hc
      · exact window_requestRatesAt hnow
      · exact throttled_requestRatesAt hnow
  · -- nothing has been recorded after the last completed second
    have hcompleted : forall e, e ∈ entries -> e.ts ≤ now - 1 := by
      intro e he
      have hle := hnow e he
      have hne : e.ts ≠ now := fun heq => hcurrent ⟨e, he, heq⟩
      omega
    have hsame : forall (i : Nat) c,
        (heldAt entries (now - 60 + i)).count c = numberAt entries c (now - 60 + i) := by
      intro i c
      exact count_heldAt hcompleted (by omega) c
    constructor
    · intro _ hany
      exact absurd hany hcurrent
    · intro _
      constructor
      · exact length_requestRatesAt
      · intro i hi
        exact history_heldAt (fun c _ => hsame i c) hi rfl
      · intro c
        rw [peak_requestRatesAt]
        exact Finset.sup_congr rfl fun i _ => hsame i c
      · exact window_requestRatesAt hnow
      · exact throttled_requestRatesAt hnow

/-- A track request that was sent with an account. -/
def trackRequest (second : Int) : LogEntry :=
  ⟨second, "/track/1", 200, "", [⟨"1", "Main", "playback"⟩], false, ""⟩

theorem requestRatesAt_exact_iff_seconds :
    ChartExact [trackRequest 41, trackRequest 100] 100
        ((RequestLog.recorded [trackRequest 41, trackRequest 100]).requestRatesAt 100) <->
      NothingDropped [trackRequest 41, trackRequest 100] 100 := by
  apply requestRatesAt_exact_iff
  · simp [trackRequest]
  · simp [trackRequest]

/-- A request of the first second of the chart is gone after one in the current
second. -/
theorem not_chartExact_first :
    ¬ forall (entries : List LogEntry) (now : Int),
      (entries.Pairwise fun a b => a.ts ≤ b.ts) ->
      (forall e, e ∈ entries -> e.ts ≤ now) ->
      ChartExact entries now ((RequestLog.recorded entries).requestRatesAt now) := by
  intro h
  have hexact := h [trackRequest 40, trackRequest 100] 100
    (by simp [trackRequest]) (by simp [trackRequest])
  have hfirst := hexact.history 0 (by omega)
  revert hfirst
  decide

end HifiApi
