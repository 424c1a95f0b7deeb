import HifiApi.Playback.Results

/-!
# Cached answers over whole runs

An answer from the cache is the result that the last operation under the same key came
to, less than two minutes ago, with nothing in between that took it away.  Only where
there is no such result does a request go on to a slot or a job.
-/

namespace HifiApi

/-!
## Keys and requests
-/

namespace PlaybackOp

/-- Requests that the routes build and that share a key want the same answer, if the
first one is free of bars. -/
theorem sameAnswer_of_key {unprintable : Char -> Bool} {a b : PlaybackOp}
    {p q : Preferences} {key : String} (ha : Built a) (hfree : FreeOfBars a)
    (hk : a.key unprintable p = some key) (hk' : b.key unprintable q = some key) :
    SameAnswer a b p q := by
  have hinitial : a.initial = b.initial :=
    Option.some.inj ((head_key hk).symm.trans (head_key hk'))
  cases a with
  | track id quality immersive =>
      have hbar : '|' ∉ quality.toList := by
        rw [ha.track_quality]
        decide
      cases b with
      | track id' quality' immersive' =>
          rcases key_track_inj hk hk' hbar with ⟨rfl, rfl, rfl, hformat, hendpoint⟩
          exact ⟨rfl, hformat, fun _ => hendpoint⟩
      | _ =>
          simp only [initial] at hinitial
          exact absurd hinitial (by decide)
  | manifest trackId params query host =>
      exact sameAnswer_of_manifest hfree hk hk' hinitial
  | dash trackId atmos =>
      cases b with
      | dash trackId' atmos' =>
          rcases key_dash_inj hk hk' with ⟨rfl, rfl, hformat, hendpoint⟩
          exact ⟨rfl, hformat, fun _ => hendpoint⟩
      | _ =>
          simp only [initial] at hinitial
          exact absurd hinitial (by decide)
  | video id quality mode presentation =>
      cases hk
  | widevine method contentType body =>
      cases hk

end PlaybackOp

/-!
## What warrants an answer
-/

namespace AnswerMark

variable (unprintable : Char -> Bool)

/-- An answer is put under the key. -/
def Stores (key : String) : AnswerMark -> Prop
  | stored _ a _ _ => a.key unprintable = some key
  | _ => False

/-- What is kept under the key is taken away. -/
def Removes (key : String) : AnswerMark -> Prop
  | evicted key' => key' = key
  | cleared => True
  | _ => False

/-- What has to stand before a mark: before an answer that is served, the same one as
it was stored, before a search in vain no answer that is still good. -/
def Warrant (before : List AnswerMark) : AnswerMark -> Prop
  | served _ b answer now =>
      exists first j a since between key,
        before = first ++ AnswerMark.stored j a answer since :: between ∧
        a.key unprintable = some key ∧ b.key unprintable = some key ∧
        since ≤ now ∧ now < since + trackCacheMs ∧
        forall m, m ∈ between -> ¬ m.Stores unprintable key ∧ ¬ m.Removes key
  | missed _ b now =>
      forall first j a answer since between key,
        before = first ++ AnswerMark.stored j a answer since :: between ->
        a.key unprintable = some key -> b.key unprintable = some key ->
        since + trackCacheMs ≤ now ∨ exists m, m ∈ between ∧ m.Removes key
  | _ => True

variable {unprintable} {m : AnswerMark} {key : String}

theorem event_stored {k : Nat} {a : Question} {answer : JobResult} {since : Nat}
    (hkey : a.key unprintable = some key) :
    (stored k a answer since).event unprintable = some (.kept key ⟨answer, since⟩) := by
  simp only [event]
  rw [hkey]
  rfl

theorem spares_of_event
    (h : forall e, m.event unprintable = some e -> ¬ e.Puts key ∧ ¬ e.Removes key) :
    ¬ m.Stores unprintable key ∧ ¬ m.Removes key := by
  cases m with
  | stored k a answer since =>
      refine ⟨fun hkey => ?_, id⟩
      exact (h _ (event_stored hkey)).left rfl
  | evicted key' =>
      exact ⟨id, (h _ rfl).right⟩
  | cleared =>
      exact absurd trivial (h _ rfl).right
  | _ =>
      exact ⟨id, id⟩

theorem removes_of_event {e : CacheEvent String JobResult}
    (h : m.event unprintable = some e) (hremoves : e.Removes key) : m.Removes key := by
  cases m with
  | stored k a answer since =>
      rcases Option.map_eq_some_iff.mp h with ⟨key', _, heq⟩
      rw [<- heq] at hremoves
      exact hremoves
  | evicted key' =>
      rw [<- Option.some.inj h] at hremoves
      exact hremoves
  | cleared =>
      trivial
  | _ =>
      cases h

theorem exists_stored_of_event {entry : KeptEntry JobResult}
    (h : m.event unprintable = some (.kept key entry)) :
    exists k a, m = .stored k a entry.value entry.since ∧ a.key unprintable = some key := by
  cases m with
  | stored k a answer since =>
      rcases Option.map_eq_some_iff.mp h with ⟨key', hkey, heq⟩
      cases heq
      exact ⟨k, a, rfl, hkey⟩
  | _ =>
      cases h

end AnswerMark

namespace CachedPlayback

variable {Id : Type} {unprintable : Char -> Bool}

/-- The marks as events of the cache. -/
def events (unprintable : Char -> Bool) (log : List AnswerMark) :
    List (CacheEvent String JobResult) :=
  log.filterMap (AnswerMark.event unprintable)

/-- The cache is what the marks say of it, and everything in them is warranted. -/
structure Accounted (unprintable : Char -> Bool) (s : CachedPlayback Id)
    (log : List AnswerMark) : Prop where
  results : s.results = .after (events unprintable log)
  ordered : ((events unprintable log).filterMap CacheEvent.since?).Pairwise (· ≤ ·)
  past : forall t, t ∈ (events unprintable log).filterMap CacheEvent.since? -> t ≤ s.clock
  hits : s.cacheHits = log.countP AnswerMark.isServed
  grounded : Grounded (AnswerMark.Warrant unprintable) log

namespace Accounted

variable {s : CachedPlayback Id} {log : List AnswerMark}

theorem new : Accounted unprintable (CachedPlayback.new : CachedPlayback Id) [] :=
  ⟨rfl, List.Pairwise.nil, fun _ ht => absurd ht List.not_mem_nil, rfl, Grounded.nil⟩

theorem warrant_served (h : Accounted unprintable s log) {k : Nat} {b : Question}
    {answer : JobResult} (hfound : s.found unprintable b = some answer) :
    AnswerMark.Warrant unprintable log (.served k b answer s.clock) := by
  rcases Option.bind_eq_some_iff.mp hfound with ⟨key, hkey, hget⟩
  rcases ExpiringCache.get_eq_some hget with ⟨since, hsome, hlive⟩
  rw [h.results] at hsome
  rcases ExpiringCache.exists_kept_of_after hsome with ⟨before, later, heq, hlater⟩
  have hsince : since ≤ s.clock := by
    apply h.past
    rw [heq, List.filterMap_append]
    exact List.mem_append_right _ List.mem_cons_self
  rcases List.filterMap_eq_append_iff.mp heq with ⟨first, rest, hlog, _, hrest⟩
  rcases List.filterMap_eq_cons_iff.mp hrest with ⟨quiet, m, between, hsplit, _, hm, hbetween⟩
  rcases AnswerMark.exists_stored_of_event hm with ⟨j, a, hstored, hakey⟩
  refine ⟨first ++ quiet, j, a, since, between, key, ?_, hakey, hkey, hsince, hlive, ?_⟩
  · rw [hlog, hsplit, hstored, List.append_assoc]
  · intro m' hm'
    apply AnswerMark.spares_of_event
    intro e he
    apply hlater e
    rw [<- hbetween]
    exact List.mem_filterMap.mpr ⟨m', hm', he⟩

theorem warrant_missed (h : Accounted unprintable s log) {k : Nat} {b : Question}
    (hfound : s.found unprintable b = none) :
    AnswerMark.Warrant unprintable log (.missed k b s.clock) := by
  intro first j a answer since between key hlog hakey hkey
  have hget : s.results.get trackCacheMs s.clock key = none := by
    rw [found, hkey] at hfound
    exact hfound
  have hevents : events unprintable log = events unprintable first ++
      CacheEvent.kept key ⟨answer, since⟩ :: events unprintable between := by
    rw [hlog, events, List.filterMap_append,
      List.filterMap_cons_some (AnswerMark.event_stored hakey)]
    rfl
  have hordered := h.ordered
  rw [hevents, List.filterMap_append, List.pairwise_append] at hordered
  have hlater := (List.pairwise_cons.mp hordered.right.left).left
  have hkept := @ExpiringCache.removed_or_kept _ _ _ (events unprintable first) _ key
    ⟨answer, since⟩ hlater
  rcases hkept with ⟨e, he, hremoves⟩ | ⟨newest, hnewest, hle⟩
  · right
    rcases List.mem_filterMap.mp he with ⟨m, hm, hevent⟩
    exact ⟨m, hm, AnswerMark.removes_of_event hevent hremoves⟩
  · left
    rw [<- hevents, <- h.results] at hnewest
    have hold := ExpiringCache.le_of_get_eq_none hget hnewest
    exact Nat.le_trans (Nat.add_le_add_right hle trackCacheMs) hold

/-- Nothing is noted, and the cache stays as it is. -/
theorem keep_log (h : Accounted unprintable s log) {s' : CachedPlayback Id}
    (hresults : s'.results = s.results) (hclock : s.clock ≤ s'.clock)
    (hhits : s'.cacheHits = s.cacheHits) : Accounted unprintable s' (log ++ []) := by
  rw [List.append_nil]
  refine ⟨hresults.trans h.results, h.ordered, ?_, hhits.trans h.hits, h.grounded⟩
  exact fun t ht => Nat.le_trans (h.past t ht) hclock

/-- A mark that says nothing of the cache. -/
theorem note_silent (h : Accounted unprintable s log) {s' : CachedPlayback Id}
    {m : AnswerMark} (hresults : s'.results = s.results) (hclock : s'.clock = s.clock)
    (hhits : s'.cacheHits = s.cacheHits + [m].countP AnswerMark.isServed)
    (hevent : m.event unprintable = none) (hwarrant : m.Warrant unprintable log) :
    Accounted unprintable s' (log ++ [m]) := by
  have hevents : events unprintable (log ++ [m]) = events unprintable log := by
    rw [events, List.filterMap_append, List.filterMap_cons_none hevent]
    exact List.append_nil _
  constructor
  · rw [hevents]
    exact hresults.trans h.results
  · rw [hevents]
    exact h.ordered
  · rw [hevents, hclock]
    exact h.past
  · rw [hhits, h.hits, List.countP_append]
  · exact h.grounded.snoc hwarrant

/-- A mark that says something of the cache, at the present time if at any. -/
theorem note_event (h : Accounted unprintable s log) {s' : CachedPlayback Id}
    {m : AnswerMark} {e : CacheEvent String JobResult}
    (hevent : m.event unprintable = some e) (hresults : s'.results = s.results.apply e)
    (hclock : s'.clock = s.clock) (hhits : s'.cacheHits = s.cacheHits)
    (htime : forall t, e.since? = some t -> t = s.clock) :
    Accounted unprintable s' (log ++ [m]) := by
  have hevents : events unprintable (log ++ [m]) = events unprintable log ++ [e] := by
    rw [events, List.filterMap_append, List.filterMap_cons_some hevent]
    rfl
  have hlast : forall t, t ∈ [e].filterMap CacheEvent.since? -> t = s.clock := by
    intro t ht
    rcases List.mem_filterMap.mp ht with ⟨e', he', hsince⟩
    rw [List.mem_singleton.mp he'] at hsince
    exact htime t hsince
  have hshape : m.isServed = false ∧ m.Warrant unprintable log := by
    cases m with
    | served k b answer now =>
        cases hevent
    | missed k b now =>
        cases hevent
    | _ =>
        exact ⟨rfl, trivial⟩
  constructor
  · rw [hevents, ExpiringCache.after_snoc, <- h.results]
    exact hresults
  · rw [hevents, List.filterMap_append, List.pairwise_append]
    refine ⟨h.ordered, ?_, ?_⟩
    · cases htime? : e.since? with
      | none =>
          rw [List.filterMap_cons_none htime?]
          exact List.Pairwise.nil
      | some t =>
          rw [List.filterMap_cons_some htime?]
          exact List.pairwise_singleton _ t
    · intro t ht t' ht'
      rw [hlast t' ht']
      exact h.past t ht
  · intro t ht
    rw [hevents, List.filterMap_append] at ht
    rw [hclock]
    rcases List.mem_append.mp ht with hold | hnew
    · exact h.past t hold
    · exact Nat.le_of_eq (hlast t hnew)
  · rw [hhits, h.hits, List.countP_append, List.countP_singleton, hshape.left]
    rfl
  · exact h.grounded.snoc hshape.right

end Accounted

/-!
## Steps and runs
-/

theorem keep_eq (unprintable : Char -> Bool) (s : CachedPlayback Id) (k : Nat)
    (out : JobOutcome) :
    s.keep unprintable k out = [] ∨ exists a answer key,
      s.keep unprintable k out = [.stored k a answer s.clock] ∧
        a.key unprintable = some key := by
  unfold keep
  split
  · rename_i answer
    split
    · exact Or.inl rfl
    · rename_i a _
      split
      · rename_i hkey
        rcases Option.isSome_iff_exists.mp hkey with ⟨key, hkey⟩
        exact Or.inr ⟨a, answer, key, rfl, hkey⟩
      · exact Or.inl rfl
  · exact Or.inl rfl
  · exact Or.inl rfl

/-- What an action does to the cache and to what is noted. -/
inductive Notes (unprintable : Char -> Bool) (s s' : CachedPlayback Id) :
    List AnswerMark -> Prop where
  | nothing (hresults : s'.results = s.results) (hclock : s.clock ≤ s'.clock)
      (hhits : s'.cacheHits = s.cacheHits) : Notes unprintable s s' []
  | answer (k : Nat) {b : Question} {answer : JobResult}
      (hfound : s.found unprintable b = some answer) (hresults : s'.results = s.results)
      (hclock : s'.clock = s.clock) (hhits : s'.cacheHits = s.cacheHits + 1) :
      Notes unprintable s s' [.served k b answer s.clock]
  | search (k : Nat) {b : Question} (hfound : s.found unprintable b = none)
      (hresults : s'.results = s.results) (hclock : s'.clock = s.clock)
      (hhits : s'.cacheHits = s.cacheHits) : Notes unprintable s s' [.missed k b s.clock]
  | change {m : AnswerMark} {e : CacheEvent String JobResult}
      (hevent : m.event unprintable = some e)
      (htime : forall t, e.since? = some t -> t = s.clock)
      (hresults : s'.results = s.results.apply e) (hclock : s'.clock = s.clock)
      (hhits : s'.cacheHits = s.cacheHits) : Notes unprintable s s' [m]

theorem Accounted.notes {s s' : CachedPlayback Id} {log more : List AnswerMark}
    (h : Accounted unprintable s log) (hnotes : Notes unprintable s s' more) :
    Accounted unprintable s' (log ++ more) := by
  cases hnotes with
  | nothing hresults hclock hhits =>
      exact h.keep_log hresults hclock hhits
  | answer k hfound hresults hclock hhits =>
      exact h.note_silent hresults hclock hhits rfl (h.warrant_served hfound)
  | search k hfound hresults hclock hhits =>
      exact h.note_silent hresults hclock hhits rfl (h.warrant_missed hfound)
  | change hevent htime hresults hclock hhits =>
      exact h.note_event hevent hresults hclock hhits htime

variable [DecidableEq Id]

/-- All that an action can do: the queue takes a step of its own or stays as it is, and
the cache changes by what is noted. -/
theorem notes_of_step {s s' : CachedPlayback Id} {a : CachedAction Id}
    (hstep : (system unprintable Id).step s a = some s') :
    (s'.base = s.base ∨ exists b, (playback Id).step s.base b = some s'.base) ∧
      Notes unprintable s s' (s.marks unprintable a) := by
  cases a with
  | arrive op =>
      simp only [system, CachedPlayback.step] at hstep
      rcases Option.map_eq_some_iff.mp hstep with ⟨base, hbase, rfl⟩
      exact ⟨Or.inr ⟨.arrive, hbase⟩, .nothing rfl (Nat.le_refl _) rfl⟩
  | sweep k now p =>
      rcases Option.map_eq_some_iff.mp hstep with ⟨base, hbase, rfl⟩
      exact ⟨Or.inr ⟨.resume k (.prune now), hbase⟩, .nothing rfl (Nat.le_refl _) rfl⟩
  | hit k =>
      simp only [system, CachedPlayback.step] at hstep
      split at hstep
      · cases hstep
      · rename_i b hb
        split at hstep
        · cases hstep
        · rename_i answer hfound
          rcases Option.map_eq_some_iff.mp hstep with ⟨base, hbase, rfl⟩
          simp only [marks, hb, hfound]
          exact ⟨Or.inr ⟨.resume k (.hit answer), hbase⟩, .answer k hfound rfl rfl rfl⟩
  | miss k accounts perAccount =>
      simp only [system, CachedPlayback.step] at hstep
      split at hstep
      · rename_i b _ hb
        split at hstep
        · rename_i hfound
          rcases Option.map_eq_some_iff.mp hstep with ⟨base, hbase, rfl⟩
          simp only [marks, hb]
          exact ⟨Or.inr ⟨.resume k (.measure accounts perAccount), hbase⟩,
            .search k hfound rfl rfl rfl⟩
        · cases hstep
      · cases hstep
  | outcome k out accounts =>
      rcases Option.map_eq_some_iff.mp hstep with ⟨base, hbase, rfl⟩
      refine ⟨Or.inr ⟨.resume k (.outcome out accounts), hbase⟩, ?_⟩
      simp only [marks]
      rcases keep_eq unprintable s k out with hnone | ⟨a, answer, key, hone, hkey⟩
      · rw [hnone]
        exact .nothing rfl (Nat.le_refl _) rfl
      · rw [hone]
        have hevent : (AnswerMark.stored k a answer s.clock).event unprintable =
            some (.kept key ⟨answer, s.clock⟩) := AnswerMark.event_stored hkey
        have hresults : s.noting unprintable [.stored k a answer s.clock] =
            s.results.apply (.kept key ⟨answer, s.clock⟩) := by
          simp only [noting, List.filterMap_cons_some hevent]
          rfl
        exact .change hevent (fun t ht => (Option.some.inj ht).symm) hresults rfl rfl
  | other b =>
      simp only [system, CachedPlayback.step] at hstep
      split at hstep
      · rcases Option.map_eq_some_iff.mp hstep with ⟨base, hbase, rfl⟩
        exact ⟨Or.inr ⟨b, hbase⟩, .nothing rfl (Nat.le_refl _) rfl⟩
      · cases hstep
  | evict key =>
      cases hstep
      have htime : forall t, (CacheEvent.dropped key : CacheEvent String JobResult).since? =
          some t -> t = s.clock := by
        intro t ht
        cases ht
      exact ⟨Or.inl rfl, .change rfl htime rfl rfl rfl⟩
  | clearCache =>
      cases hstep
      have htime : forall t, (CacheEvent.cleared : CacheEvent String JobResult).since? =
          some t -> t = s.clock := by
        intro t ht
        cases ht
      exact ⟨Or.inl rfl, .change rfl htime rfl rfl rfl⟩
  | elapse ms =>
      cases hstep
      exact ⟨Or.inl rfl, .nothing rfl (Nat.le_add_right _ _) rfl⟩

theorem accounted_of_run {actions : List (CachedAction Id)} {s : CachedPlayback Id}
    (hrun : (system unprintable Id).run .new actions = some s) :
    Accounted unprintable s
      ((system unprintable Id).history (marks unprintable) .new actions) := by
  have hend : Accounted unprintable s
      ([] ++ (system unprintable Id).history (marks unprintable) .new actions) := by
    refine System.run_history_invariant (P := fun _ _ => True)
      (I := Accounted unprintable) ?_ Accounted.new
      (System.along_of_forall_mem fun _ _ => trivial) hrun
    exact fun _ _ _ _ h _ hstep => h.notes (notes_of_step hstep).right
  rw [List.nil_append] at hend
  exact hend

/-- With its cache, the queue does what it can do without. -/
theorem playback_of_run {actions : List (CachedAction Id)} {s : CachedPlayback Id}
    (hrun : (system unprintable Id).run .new actions = some s) :
    exists queued, (playback Id).run .new queued = some s.base := by
  refine System.run_invariant
    (I := fun t : CachedPlayback Id =>
      exists queued, (playback Id).run .new queued = some t.base) ?_ ⟨[], rfl⟩ hrun
  rintro t a t' ⟨queued, hqueued⟩ hstep
  rcases (notes_of_step hstep).left with hsame | ⟨b, hb⟩
  · rw [hsame]
    exact ⟨queued, hqueued⟩
  · refine ⟨queued ++ [b], System.run_append_some.mpr ⟨t.base, hqueued, ?_⟩⟩
    exact System.run_cons_some.mpr ⟨t'.base, hb, rfl⟩

/-- Two requests for one track, a minute apart. -/
def twice : List (CachedAction Nat) :=
  let op : PlaybackOp := .dash "5" none
  let p := PlaybackOp.offPreferences
  [.arrive op, .sweep 0 100 p, .miss 0 1 1, .other (.resume 0 (.load 0)),
    .other (.resume 0 .swap), .outcome 0 (.done (.redirect "u")) [],
    .other (.resume 0 .leave), .elapse 60000, .arrive op, .sweep 1 160 p, .hit 1]

end CachedPlayback

end HifiApi
