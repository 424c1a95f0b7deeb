import HifiApi.Lib.OrderStatistics
import HifiApi.RequestLog.State

/-!
# Latency percentiles of the request log

The overview and the metrics read percentiles from the same bounded log.  One
takes the nearest rank, the other one truncates a product; they report the same
latency unless exactly that share of the requests is at most some latency.  The
positions are computed in exact arithmetic.
-/

namespace HifiApi

/-- An entry with its latency in milliseconds. -/
structure TimedEntry extends LogEntry where
  latencyMs : Nat

/-- The entries of a log after one more of them. -/
def recordTimed (entries : List TimedEntry) (entry : TimedEntry) : List TimedEntry :=
  (if maxEntries ≤ entries.length then entries.tail else entries) ++ [entry]

/-- The latencies stand beside the entries that the log counts. -/
theorem map_recordTimed {log : RequestLog} {entries : List TimedEntry}
    (h : log.entries = entries.map TimedEntry.toLogEntry) (entry : TimedEntry) :
    (log.record entry.toLogEntry).entries =
      (recordTimed entries entry).map TimedEntry.toLogEntry := by
  unfold RequestLog.record recordTimed
  dsimp only
  rw [h, List.length_map, List.map_append, List.map_singleton]
  split
  · rw [List.map_tail]
  · rfl

/-- {lit}`sort_unstable` -/
def sortedLatencies (entries : List TimedEntry) : List Nat :=
  (entries.map TimedEntry.latencyMs).insertionSort fun a b => a ≤ b

/-- Nearest-rank percentile of an ascending list. -/
def percentile (sorted : List Nat) (p : ℚ) : Option Nat :=
  if sorted = [] then none else sorted[OrderStatistics.nearestRank p sorted.length]?

/-- p95 of the bounded recent request log. -/
def recentP95Ms (entries : List TimedEntry) : Option Nat :=
  percentile (sortedLatencies entries) (19 / 20)

/-- The closure {lit}`pct` of the overview. -/
def pct (latencies : List Nat) (p : ℚ) : Nat :=
  if latencies = [] then 0
  else latencies[OrderStatistics.truncated p latencies.length]?.getD 0

/-- The fields of {lit}`summary` that are about errors and latencies. -/
structure LatencySummary where
  total : Nat
  errors : Nat
  userErrors : Nat
  upstreamErrors : Nat
  p50Ms : Nat
  p95Ms : Nat
  deriving DecidableEq

def isUpstreamError (entry : TimedEntry) : Bool :=
  decide (entry.status = 429 ∨ 500 ≤ entry.status)

def summary (entries : List TimedEntry) : LatencySummary where
  total := entries.length
  errors := entries.countP fun e => decide (400 ≤ e.status)
  userErrors := entries.countP fun e => decide (400 ≤ e.status) && !isUpstreamError e
  upstreamErrors := entries.countP fun e => decide (400 ≤ e.status) && isUpstreamError e
  p50Ms := pct (sortedLatencies entries) (1 / 2)
  p95Ms := pct (sortedLatencies entries) (19 / 20)

/-!
## Two percentiles of one list
-/

theorem pairwise_sortedLatencies (entries : List TimedEntry) :
    (sortedLatencies entries).Pairwise (· ≤ ·) :=
  List.pairwise_insertionSort _ _

theorem length_sortedLatencies (entries : List TimedEntry) :
    (sortedLatencies entries).length = entries.length := by
  rw [sortedLatencies, List.length_insertionSort, List.length_map]

theorem countP_sortedLatencies (entries : List TimedEntry) (bound : Nat) :
    (sortedLatencies entries).countP (fun ms => decide (ms ≤ bound)) =
      entries.countP fun e => decide (e.latencyMs ≤ bound) := by
  have hperm := List.perm_insertionSort (fun a b : Nat => a ≤ b)
    (entries.map TimedEntry.latencyMs)
  rw [sortedLatencies, hperm.countP_eq, List.countP_map]
  rfl

theorem sortedLatencies_ne_nil {entries : List TimedEntry} (h : entries ≠ []) :
    sortedLatencies entries ≠ [] := by
  intro hnil
  have hlength := length_sortedLatencies entries
  rw [hnil] at hlength
  exact h (List.length_eq_zero_iff.mp hlength.symm)

theorem percentile_eq_pct_iff {sorted : List Nat} (h : sorted.Pairwise (· ≤ ·))
    (hne : sorted ≠ []) {p : ℚ} (hpos : 0 < p) (hlt : p < 1) :
    percentile sorted p = some (pct sorted p) <->
      forall bound, (sorted.countP (fun ms => decide (ms ≤ bound)) : ℚ) ≠
        p * sorted.length := by
  have hlength : 0 < sorted.length := List.length_pos_iff.mpr hne
  have hin : OrderStatistics.truncated p sorted.length < sorted.length := by
    unfold OrderStatistics.truncated
    omega
  have hpct : some (pct sorted p) =
      sorted[OrderStatistics.truncated p sorted.length]? := by
    rw [pct, if_neg hne, List.getElem?_eq_getElem hin]
    rfl
  rw [hpct, percentile, if_neg hne]
  exact OrderStatistics.getElem?_positions_eq_iff h hne hpos hlt

/-- The p50 and p95 of the overview are those of the nearest rank, and the p95
is the one of the metrics. -/
def PercentilesAgree (entries : List TimedEntry) : Prop :=
  percentile (sortedLatencies entries) (1 / 2) = some (summary entries).p50Ms ∧
    percentile (sortedLatencies entries) (19 / 20) = some (summary entries).p95Ms ∧
    recentP95Ms entries = some (summary entries).p95Ms

instance (entries : List TimedEntry) : Decidable (PercentilesAgree entries) :=
  inferInstanceAs (Decidable (_ ∧ _ ∧ _))

end HifiApi
