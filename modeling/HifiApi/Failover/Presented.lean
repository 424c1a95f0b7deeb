import HifiApi.Failover.Presentations

/-!
# PREVIEW answers are settled by a FULL one

A request to the pool keeps to the watch of its presentations: between two accounts
the answers are the PREVIEW ones of the accounts it has left, and no counter has been
touched.
-/

namespace HifiApi

open Prog TidalCall PresentationJournal

/-!
## Settling
-/

section Settle

variable {kind : LeaseKind} {g : PresentationJournal} {α : Type}
  {post : PresentationJournal -> α -> Prop}

/-- A call that leaves no trace in the journal. -/
theorem keeps_silent {c : TidalCall} {next : Answer c -> TidalProg α}
    (hnote : forall answer, g.note c answer = g)
    (h : forall answer, (PresentationJournal.watch kind).Keeps g (next answer) post) :
    (PresentationJournal.watch kind).Keeps g (.call c next) post := by
  constructor
  · intro hsound answer _ _
    rw [hnote answer]
    exact hsound
  · intro answer _
    show (PresentationJournal.watch kind).Keeps (g.note c answer) _ _
    rw [hnote answer]
    exact h answer

/-- A call on a counter. -/
theorem keeps_op {c : TidalCall} {next : Answer c -> TidalProg α}
    (hsound : forall answer, (g.note c answer).Sound kind)
    (h : forall answer,
      (PresentationJournal.watch kind).Keeps (g.note c answer) (next answer) post) :
    (PresentationJournal.watch kind).Keeps g (.call c next) post :=
  ⟨fun _ answer _ _ => hsound answer, fun answer _ => h answer⟩

/-- A FULL answer of an account, after the PREVIEW answers of some others. -/
structure Full (f : AccountRef) (previews : List AccountRef)
    (g : PresentationJournal) : Prop where
  answers : g.answers = previewsOf previews ++ [(f, Presentation.full)]
  once : (g.answers.map fun e => e.1.id).Nodup

/-- It has been settled with regard to some of them. -/
def SettledTo (f : AccountRef) (settled : List AccountRef) (g : PresentationJournal) :
    Prop :=
  exists noted, g.ops = .reset f :: noted ∧ Noted settled noted

variable {f p : AccountRef} {previews settled rest : List AccountRef}

theorem Full.sound (h : Full f previews g) (hsettling : Settling f previews g.ops) :
    g.Sound .playback :=
  ⟨h.once, Or.inr ⟨rfl, previews, f, h.answers, hsettling⟩⟩

theorem Full.wrote (h : Full f previews g) (op : Option StreakOp) :
    Full f previews (g.wrote op) := by
  cases op with
  | none => exact h
  | some op => exact ⟨h.answers, h.once⟩

theorem recordFull_keeps (f : AccountRef) (now : Int) :
    (PresentationJournal.watch kind).Keeps g (recordFull f now) fun g' _ => g' = g := by
  apply Watch.keeps_of_only _ (recordFull_only f now)
  intro g c hc
  have hnote : forall answer, g.note c answer = g := by
    intro answer
    cases c with
    | setPremiumStatus a status =>
        show g.wrote (if status = premiumStatusPreview then _ else _) = g
        rw [if_neg (by rw [show status = premiumStatusFull from hc]; decide)]
        rfl
    | premiumCheckedAt | premiumStatus | setPremiumCheckedAt | swapPreviewStreak
    | savePreviewStreak => rfl
    | _ => exact hc.elim
  constructor
  · intro hsound answer _ _
    rw [hnote answer]
    exact hsound
  · exact hnote

theorem confirmFull_keeps (h : Full f previews g) (hnone : g.ops = []) :
    (PresentationJournal.watch .playback).Keeps g (confirmFull f) fun g' _ =>
      Full f previews g' ∧ SettledTo f [] g' := by
  have hreset : (g.note (resetTrafficStreak f) ()).ops = [.reset f] := by
    show g.ops ++ [_] = _
    rw [hnone]
    rfl
  have hfull : Full f previews (g.note (resetTrafficStreak f) ()) :=
    h.wrote (some (.reset f))
  apply keeps_silent
  · exact fun _ => rfl
  · intro now
    apply keeps_op
    · intro _
      exact hfull.sound ⟨[], previews, [], [], rfl, hreset, .nil, .idle previews⟩
    · intro _
      apply (recordFull_keeps f now).mono
      intro g' _ hsame
      rw [hsame]
      exact ⟨hfull, [], hreset, .nil⟩

/-- The steps of a mark: a counter that has reached the threshold is reset, and the
account is marked. -/
theorem markPreviewOnly_keeps (h : Full f previews g) {noted : List StreakOp}
    {before : Nat} (hops : g.ops = .reset f :: (noted ++ [StreakOp.add p before]))
    (hnoted : Noted settled noted) (hprevious : previews = settled ++ p :: rest)
    (hreached : trafficPreviewsBeforePreviewOnly ≤ before + 1) :
    (PresentationJournal.watch .playback).Keeps g (do
      ask (resetTrafficStreak p)
      ask (setPremiumStatus p premiumStatusPreview)
      let now ← ask clock
      ask (setPremiumCheckedAt p now)
      return true) fun g' _ => Full f previews g' ∧ SettledTo f (settled ++ [p]) g' := by
  have hreset : (g.wrote (some (.reset p))).ops =
      .reset f :: (noted ++ [StreakOp.add p before, .reset p]) := by
    show g.ops ++ [_] = _
    rw [hops, List.cons_append, List.append_assoc]
    rfl
  have hmark : ((g.wrote (some (.reset p))).wrote (some (.mark p))).ops =
      .reset f :: (noted ++ previewOps p before) := by
    show (g.wrote (some (.reset p))).ops ++ [_] = _
    rw [hreset, List.cons_append, List.append_assoc, previewOps,
      if_neg (not_lt.mpr hreached)]
    rfl
  have hfull : Full f previews ((g.wrote (some (.reset p))).wrote (some (.mark p))) :=
    (h.wrote _).wrote _
  have hassoc : previews = (settled ++ [p]) ++ rest := by
    rw [hprevious, List.append_assoc]
    rfl
  apply keeps_op
  · intro _
    apply (h.wrote (some (.reset p))).sound
    exact ⟨settled, p :: rest, noted, _, hprevious, hreset, hnoted, .reset hreached⟩
  · intro _
    apply keeps_op
    · intro _
      exact hfull.sound ⟨settled ++ [p], rest, noted ++ previewOps p before, [], hassoc,
        by rw [List.append_nil]; exact hmark, .snoc p before hnoted, .idle rest⟩
    · intro _
      apply keeps_silent
      · exact fun _ => rfl
      · intro now
        apply keeps_silent
        · exact fun _ => rfl
        · exact fun _ => ⟨hfull, noted ++ previewOps p before, hmark, .snoc p before hnoted⟩

theorem noteTrafficPreview_keeps (h : Full f previews g)
    (hsettled : SettledTo f settled g) (hprevious : previews = settled ++ p :: rest) :
    (PresentationJournal.watch .playback).Keeps g (noteTrafficPreview p) fun g' _ =>
      Full f previews g' ∧ SettledTo f (settled ++ [p]) g' := by
  rcases hsettled with ⟨noted, hops, hnoted⟩
  have hadded : forall before, (g.wrote (some (.add p before))).ops =
      .reset f :: (noted ++ [StreakOp.add p before]) := by
    intro before
    show g.ops ++ [_] = _
    rw [hops]
    rfl
  have hassoc : previews = (settled ++ [p]) ++ rest := by
    rw [hprevious, List.append_assoc]
    rfl
  apply keeps_op
  · intro before
    apply (h.wrote (some (.add p before))).sound
    by_cases hbelow : before + 1 < trafficPreviewsBeforePreviewOnly
    · have hcounted : previewOps p before = [.add p before] := if_pos hbelow
      have hnext := Noted.snoc p before hnoted
      rw [hcounted] at hnext
      exact ⟨settled ++ [p], rest, noted ++ [StreakOp.add p before], [], hassoc,
        by rw [hadded, List.append_nil], hnext, .idle rest⟩
    · exact ⟨settled, p :: rest, noted, _, hprevious, hadded before, hnoted,
        .added (not_lt.mp hbelow)⟩
  · intro before
    show (PresentationJournal.watch .playback).Keeps (g.wrote (some (.add p before)))
      (if before + 1 < trafficPreviewsBeforePreviewOnly then _ else _) _
    split
    · rename_i hbelow
      have hcounted : previewOps p before = [.add p before] := if_pos hbelow
      have hnext := Noted.snoc p before hnoted
      rw [hcounted] at hnext
      exact ⟨h.wrote _, noted ++ [StreakOp.add p before], hadded before, hnext⟩
    · rename_i hreached
      exact markPreviewOnly_keeps (h.wrote _) (hadded before) hnoted hprevious
        (not_lt.mp hreached)

/-- The loop over the accounts that answered PREVIEW. -/
theorem noteTrafficPreviews_keeps (h : Full f previews g)
    (hsettled : SettledTo f settled g) (hprevious : previews = settled ++ rest) :
    (PresentationJournal.watch .playback).Keeps g (noteTrafficPreviews rest) fun g' _ =>
      Full f previews g' ∧ SettledTo f previews g' := by
  induction rest generalizing settled g with
  | nil =>
      rw [List.append_nil] at hprevious
      rw [← hprevious] at hsettled
      exact ⟨h, hsettled⟩
  | cons p rest ih =>
      unfold noteTrafficPreviews
      rw [Watch.keeps_bind']
      apply (noteTrafficPreview_keeps h hsettled hprevious).mono
      intro g' _ hnext
      apply ih hnext.left hnext.right
      rw [hprevious, List.append_assoc]
      rfl

end Settle

/-!
## The rules of the pool
-/

/-- No answer is FULL and PREVIEW at once. -/
theorem OnePresentation.not_both {data : Value} (h : OnePresentation data)
    (hfull : isFull data = true) : isPreview data = false := by
  unfold isFull hasPresentation at hfull
  unfold isPreview hasPresentation
  rcases h with hnone | hnone
  · rw [hnone] at hfull ⊢
    have htrack : trackPresentation data = some "FULL" := by simpa using hfull
    rw [htrack]
    decide
  · rw [hnone] at hfull ⊢
    have hasset : assetPresentation data = some "FULL" := by simpa using hfull
    rw [hasset]
    decide

/-- Between two accounts. -/
structure Unsettled (s : PoolTry) (g : PresentationJournal) : Prop where
  answers : g.answers = previewsOf s.previewed
  ops : g.ops = []
  once : (s.previewed.map AccountRef.id).Nodup
  excluded : forall p, p ∈ s.previewed -> p.id ∈ s.failedIds

/-- On an account that has not answered yet. -/
structure UnsettledOn (a : AccountRef) (s : PoolTry) (g : PresentationJournal) :
    Prop extends Unsettled s g where
  fresh : a.id ∉ s.previewed.map AccountRef.id

section Rules

variable {q : PoolRequest} {s : PoolTry} {f : Failover} {a : AccountRef} {n : Nat}
  {e : AppError} {g : PresentationJournal} {kind : LeaseKind}

theorem ids_previewsOf (previews : List AccountRef) :
    ((previewsOf previews).map fun e => e.1.id) = previews.map AccountRef.id := by
  unfold previewsOf
  rw [List.map_map]
  rfl

theorem Unsettled.sound (h : Unsettled s g) : g.Sound kind := by
  constructor
  · rw [h.answers, ids_previewsOf]
    exact h.once
  · exact Or.inl h.ops

theorem Unsettled.ended (h : Unsettled s g) : g.Ended kind := by
  constructor
  · rw [h.answers, ids_previewsOf]
    exact h.once
  · exact ⟨s.previewed, Or.inl ⟨h.answers, h.ops⟩⟩

/-- More accounts are excluded. -/
theorem Unsettled.excluding (h : Unsettled s g) {ids : List String}
    (hids : f.failedIds = s.failedIds ++ ids) (consumed : Bool) :
    Unsettled ⟨f, s.previewed, consumed⟩ g where
  answers := h.answers
  ops := h.ops
  once := h.once
  excluded p hp := by
    rw [hids]
    exact List.mem_append_left _ (h.excluded p hp)

theorem schedule_failedIds (h : s.schedule n a.id e = .ok f) :
    f.failedIds = s.failedIds ++ [a.id] := by
  unfold Failover.schedule at h
  dsimp only at h
  split at h
  · cases h
  · cases h
    rfl

/-- A lease goes to an account that has not answered yet. -/
theorem Unsettled.leased (h : Unsettled s g) (ha : a.id ∉ s.failedIds) :
    UnsettledOn a s g := by
  constructor
  · exact h
  · intro hmem
    rcases List.mem_map.mp hmem with ⟨p, hp, hid⟩
    have hexcluded := h.excluded p hp
    rw [hid] at hexcluded
    exact ha hexcluded

/-- The account has answered. -/
theorem UnsettledOn.once_append (h : UnsettledOn a s g) (p : Presentation) :
    ((g.answers ++ [(a, p)]).map fun e => e.1.id).Nodup := by
  rw [List.map_append, h.answers, ids_previewsOf]
  apply List.nodup_append.mpr
  constructor
  · exact h.once
  · constructor
    · exact List.nodup_singleton _
    · intro id hid id' hid'
      rw [List.mem_singleton.mp hid']
      rintro rfl
      exact h.fresh hid

/-- A FULL answer. -/
theorem UnsettledOn.full (h : UnsettledOn a s g) :
    Full a s.previewed { g with answers := g.answers ++ [(a, Presentation.full)] } where
  answers := by
    show g.answers ++ _ = _
    rw [h.answers]
  once := h.once_append .full

/-- A PREVIEW answer, after which the account is left. -/
theorem UnsettledOn.preview (h : UnsettledOn a s g) :
    Unsettled (s.preview a) { g with answers := g.answers ++ [(a, .preview)] } where
  answers := by
    show g.answers ++ _ = previewsOf (s.previewed ++ [a])
    unfold previewsOf
    rw [h.answers, List.map_append]
    rfl
  ops := h.ops
  once := by
    have honce := h.once_append .preview
    rw [List.map_append, h.answers, ids_previewsOf] at honce
    show ((s.previewed ++ [a]).map AccountRef.id).Nodup
    rw [List.map_append]
    exact honce
  excluded p hp := by
    show p.id ∈ s.failedIds ++ [a.id]
    rw [List.mem_append]
    rcases List.mem_append.mp hp with hold | hnew
    · exact Or.inl (h.excluded p hold)
    · rw [List.mem_singleton.mp hnew]
      exact Or.inr List.mem_cons_self

theorem presented_some (hasked : g.asked = some a) (p : Presentation) :
    g.presented (some p) = { g with answers := g.answers ++ [(a, p)] } := by
  cases g
  cases hasked
  rfl

theorem presented_none (g : PresentationJournal) : g.presented none = g := by
  unfold presented
  cases g.asked <;> rfl

/-- What the answer of an account comes to. -/
theorem settleFull_presented (h : UnsettledOn a s g) (hasked : g.asked = some a)
    {data : Value} (hone : OnePresentation data) :
    (PresentationJournal.watch q.kind).Keeps (g.presented (presentationOf data))
      (settleFull q a s data) fun g' _ =>
        g'.Ended q.kind ∧ (isPreview data = true -> Unsettled (s.preview a) g') := by
  unfold presentationOf settleFull
  cases hfull : isFull data with
  | true =>
      have hother : ¬ isPreview data = true := by
        rw [hone.not_both hfull]
        exact Bool.false_ne_true
      rw [if_pos rfl, presented_some hasked]
      cases hkind : q.kind with
      | playback =>
          rw [if_pos ⟨rfl, rfl⟩, Watch.keeps_bind']
          apply (confirmFull_keeps h.full h.ops).mono
          intro confirmed _ hconfirmed
          apply (noteTrafficPreviews_keeps hconfirmed.left hconfirmed.right rfl).mono
          rintro g' _ ⟨hanswers, hsettled⟩
          constructor
          · exact ⟨hanswers.once, s.previewed,
              Or.inr ⟨a, hanswers.answers, Or.inr ⟨rfl, hsettled⟩⟩⟩
          · exact fun hpreview => absurd hpreview hother
      | metadata =>
          rw [if_neg fun hboth => nomatch hboth.right]
          constructor
          · exact ⟨h.full.once, s.previewed,
              Or.inr ⟨a, h.full.answers, Or.inl ⟨rfl, h.ops⟩⟩⟩
          · exact fun hpreview => absurd hpreview hother
  | false =>
      have hidle : ¬ (false = true ∧ q.kind = .playback) :=
        fun hboth => Bool.false_ne_true hboth.left
      rw [if_neg Bool.false_ne_true, if_neg hidle]
      cases hpreview : isPreview data with
      | true =>
          rw [if_pos rfl, presented_some hasked]
          exact ⟨h.preview.ended, fun _ => h.preview⟩
      | false =>
          rw [if_neg Bool.false_ne_true, presented_none]
          exact ⟨h.ended, fun hpreviewed => nomatch hpreviewed⟩

/-- An answer, before it is settled. -/
theorem presented_sound (h : UnsettledOn a s g) (hasked : g.asked = some a)
    (p : Option Presentation) : (g.presented p).Sound kind := by
  cases p with
  | none =>
      rw [presented_none]
      exact h.sound
  | some p =>
      rw [presented_some hasked]
      exact ⟨h.once_append p, Or.inl h.ops⟩

/-- What the presentations say of a request. -/
def presentedRules (q : PoolRequest) (count : Nat) :
    PoolRules (PresentationJournal.watch q.kind) q count where
  Ready _ s g := Unsettled s g
  Holding _ _ a s g := UnsettledOn a s g
  Asked _ _ a s g := UnsettledOn a s g ∧ g.asked = some a
  Done g := g.Ended q.kind
  met g := g
  sent a g := { g with asked := some a }
  quiet g c hc := by
    cases c with
    | healthyCount | alertAllDown | alert403 | workingClientFor | rejectRefreshedToken
    | jitter | noteSuccessFor | noteFailureFor | markAccountError | pauseAccount =>
        exact ⟨fun hsound _ _ _ => hsound, fun _ => rfl⟩
    | _ => exact hc.elim
  pauses g c hc := by
    cases c with
    | rateLimitRemaining | getToken | refreshAfterUnauthorized =>
        exact ⟨fun hsound _ _ _ => hsound, fun _ => (ite_self g).symm⟩
    | _ => exact hc.elim
  ended h := ⟨h.ended, h.ended⟩
  left h := ⟨h.ended, h.ended⟩
  later h := h
  asked h := h.left
  failed h e := h.toUnsettled.excluding rfl _
  scheduled h hschedule := h.toUnsettled.excluding (schedule_failedIds hschedule) _
  lease h _ _ := by
    constructor
    · exact fun hsound answer _ _ => hsound
    · intro answer hanswer
      cases answer with
      | ok a => exact h.leased hanswer.left.not_mem
      | error e => exact h.ended
  preferred a h _ _ hnone := by
    constructor
    · exact fun hsound _ _ _ => hsound
    · apply h.leased
      rw [hnone]
      exact List.not_mem_nil
  diverted a h _ _ _ hschedule := by
    have hleft := h.excluding (schedule_failedIds hschedule) true
    constructor
    · exact fun hsound _ _ _ => hsound
    · intro answer hanswer
      cases answer with
      | ok b => exact hleft.leased hanswer.left.not_mem
      | error e => exact h.ended
  send h _ _ _ _ := by
    constructor
    · exact fun hsound _ _ _ => ⟨hsound.once, hsound.settling⟩
    · constructor
      · exact ⟨⟨⟨h.answers, h.ops, h.once, h.excluded⟩, h.fresh⟩, rfl⟩
      · exact fun _ => (ite_self _).symm
  read {n i a s g} h := by
    rcases h with ⟨hheld, hasked⟩
    constructor
    · intro _ answer _ _
      show (g.read answer).Sound q.kind
      unfold PresentationJournal.read
      split
      · exact presented_sound hheld hasked _
      · exact hheld.sound
    · intro answer hanswer
      constructor
      · intro hnone
        show (g.read answer).Ended q.kind
        unfold PresentationJournal.read
        rw [hnone]
        exact hheld.ended
      · intro data hdata
        show (PresentationJournal.watch q.kind).Keeps (g.read answer) _ _
        unfold PresentationJournal.read
        rw [hdata]
        exact settleFull_presented hheld hasked (hanswer.right data hdata)

end Rules

/-- A request keeps to the watch of its presentations. -/
theorem makeRequestWithLimit_presents (q : PoolRequest) :
    (PresentationJournal.watch q.kind).Keeps .start (makeRequestWithLimit q) fun g' _ =>
      g'.Ended q.kind := by
  apply (PoolRules.makeRequestWithLimit_keeps (presentedRules q) _ _).mono
  · rintro g' result ⟨count, hended⟩
    exact hended
  · exact fun hsound _ _ _ => hsound
  · intro count _
    exact ⟨rfl, rfl, List.nodup_nil, fun _ hp => nomatch hp⟩

end HifiApi
