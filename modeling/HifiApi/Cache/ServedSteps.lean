import HifiApi.Cache.Served

/-!
# The cache serves what was answered

Every step keeps what both caches hold, what requests carry on their way and
what has been sent traced back to answers of the handler.
-/

namespace HifiApi

open ResponseCache

namespace ServingWorld

/-!
## What a step keeps
-/

/-- Nothing stored or answered is lost, and time goes on. -/
structure Grows (s s' : ServingWorld) : Prop where
  stored : forall st, st ∈ s.stored -> st ∈ s'.stored
  answers : forall x, x ∈ s.answers -> x ∈ s'.answers
  now : s.now ≤ s'.now

section Growth

variable {codec : QueryCodec} {s s' : ServingWorld}

theorem Grows.backs (h : Grows s s') {key : String} {time time' : Int} {kept : Kept}
    (hback : s.Backs codec key time kept) (hle : time ≤ time') :
    s'.Backs codec key time' kept := by
  rcases hback with ⟨st, hst, hkey, hby, hkept⟩
  exact ⟨st, h.stored st hst, hkey, Int.le_trans hby hle, hkept⟩

theorem Grows.lookingFits (h : Grows s s') {r : MetadataRequest} {stage : Looking}
    (hfits : s.LookingFits codec r stage) : s'.LookingFits codec r stage := by
  cases stage with
  | atCache =>
      trivial
  | found hit =>
      exact h.backs hfits h.now
  | foundAgain hit first =>
      exact h.backs hfits (Int.le_refl first)
  | atNegative =>
      trivial
  | foundNegative neg =>
      exact h.backs hfits h.now

theorem Grows.stageFits (h : Grows s s') {job : ServingJob} {stage : ServingStage}
    (hfits : s.StageFits codec job stage) : s'.StageFits codec job stage := by
  cases stage with
  | looking stage =>
      exact ⟨h.lookingFits hfits.left, hfits.right⟩
  | running =>
      trivial
  | keeping response =>
      exact h.answers _ hfits
  | storing response kept =>
      exact ⟨h.answers _ hfits.left, hfits.right.left, hfits.right.right.mono h.now⟩

theorem Grows.carries (h : Grows s s') {x : Served} {status secs : Nat}
    (hcarries : x.Carries codec carriesUnframed s.stored status secs) :
    x.Carries codec carriesUnframed s'.stored status secs := by
  rcases hcarries with ⟨st, hst, hrest⟩
  exact ⟨st, h.stored st hst, hrest⟩

theorem Grows.justified (h : Grows s s') {x : Served}
    (hx : x.Justified codec carriesUnframed s.stored) :
    x.Justified codec carriesUnframed s'.stored := by
  unfold Served.Justified at hx ⊢
  split at hx
  · exact h.carries hx
  · exact h.carries hx
  · rcases hx with hnotFound | ⟨status, hstatus, herror⟩
    · exact Or.inl (h.carries hnotFound)
    · exact Or.inr ⟨status, hstatus, h.carries herror⟩
  · rcases hx with ⟨status, hmiss⟩
    exact ⟨status, h.carries hmiss⟩

/-- A world that grows stays honest if what is new in it is. -/
theorem Honest.of_grows (h : s.Honest codec) (hgrows : Grows s s')
    (hcached : forall key entry, s'.cache key = some entry ->
      s.cache key = some entry ∨ s'.Backs codec key s'.now (.cached entry))
    (hnegative : forall key entry, s'.negative key = some entry ->
      s.negative key = some entry ∨ s'.Backs codec key s'.now (.negative entry))
    (harriving : s'.arriving = s.arriving) (hinflight : s'.inflight = s.inflight)
    (hstored : forall st, st ∈ s'.stored ->
      st ∈ s.stored ∨ st.Proper s'.answers ∧ st.storedAt ≤ s'.now)
    (hserved : s'.served = s.served) : s'.Honest codec := by
  constructor
  · intro key entry hentry
    rcases hcached key entry hentry with hold | hnew
    · exact hgrows.backs (h.cached key entry hold) hgrows.now
    · exact hnew
  · intro key entry hentry
    rcases hnegative key entry hentry with hold | hnew
    · exact hgrows.backs (h.negative key entry hold) hgrows.now
    · exact hnew
  · intro r stage hmem
    rw [harriving] at hmem
    exact hgrows.lookingFits (h.arriving r stage hmem)
  · rw [hinflight]
    exact h.inside.mono fun _ _ => hgrows.stageFits
  · intro st hst
    rcases hstored st hst with hold | hnew
    · rcases h.stored st hold with ⟨⟨hanswer, hrest⟩, hby⟩
      exact ⟨⟨hgrows.answers _ hanswer, hrest⟩, Int.le_trans hby hgrows.now⟩
    · exact hnew
  · intro x hx
    rw [hserved] at hx
    exact hgrows.justified (h.served x hx)

end Growth

section Steps

variable {codec : QueryCodec} {s s' : ServingWorld}

theorem honest_start : start.Honest codec where
  cached := by
    intro key entry h
    cases h
  negative := by
    intro key entry h
    cases h
  arriving := by
    intro r stage h
    cases h
  inside := LockCache.fits_start
  stored := by
    intro st h
    cases h
  served := by
    intro x h
    cases h

theorem Honest.withGuards (h : s.Honest codec)
    {g : LockCache String ServingJob ServingStage} (hg : g.Fits (s.StageFits codec)) :
    (s.withGuards g).Honest codec :=
  ⟨h.cached, h.negative, h.arriving, hg, h.stored, h.served⟩

theorem Honest.serve (h : s.Honest codec) {x : Served}
    (hx : x.Justified codec carriesUnframed s.stored) :
    (s.serve x).Honest codec := by
  refine ⟨h.cached, h.negative, h.arriving, h.inside, h.stored, ?_⟩
  intro y hy
  rcases List.mem_append.mp hy with hold | hnew
  · exact h.served y hold
  · rw [List.mem_singleton.mp hnew]
    exact hx

theorem caller_eq_some {i : Nat} {job : ServingJob} {stage : Stage ServingStage}
    (h : s.caller i = some (job, stage)) :
    exists c, s.inflight.callers[i]? = some c ∧ c.job = job ∧ c.stage = stage := by
  rcases Option.map_eq_some_iff.mp h with ⟨c, hc, heq⟩
  injection heq with hjob hstage
  exact ⟨c, hc, hjob, hstage⟩

/-- What a caller inside does fits its job. -/
theorem Honest.caller (h : s.Honest codec) {i : Nat} {job : ServingJob}
    {stage : ServingStage} (hcaller : s.caller i = some (job, .inside stage)) :
    s.StageFits codec job stage := by
  rcases caller_eq_some hcaller with ⟨c, hc, hjob, hstage⟩
  rw [← hjob]
  exact h.inside c stage (List.mem_of_getElem? hc) hstage

theorem Honest.enter (h : s.Honest codec) {i : Nat} {job : ServingJob}
    {was : Stage ServingStage} {stage : ServingStage}
    (hcaller : s.caller i = some (job, was)) (hfits : s.StageFits codec job stage)
    (henter : (s.inflight.enter i stage).map s.withGuards = some s') :
    s'.Honest codec := by
  rcases Option.map_eq_some_iff.mp henter with ⟨g, hg, heq⟩
  rcases caller_eq_some hcaller with ⟨c, hc, hjob, _⟩
  rw [← heq]
  apply h.withGuards
  apply h.inside.enter hg
  intro d hd
  rw [hc] at hd
  cases hd
  rw [hjob]
  exact hfits

theorem Honest.advance (h : s.Honest codec) {i : Nat} {job : ServingJob}
    {was : Stage ServingStage} {stage : ServingStage}
    (hcaller : s.caller i = some (job, was)) (hfits : s.StageFits codec job stage)
    (hadvance : (s.inflight.advance i stage).map s.withGuards = some s') :
    s'.Honest codec := by
  rcases Option.map_eq_some_iff.mp hadvance with ⟨g, hg, heq⟩
  rcases caller_eq_some hcaller with ⟨c, hc, hjob, _⟩
  rw [← heq]
  apply h.withGuards
  apply h.inside.advance hg
  intro d hd
  rw [hc] at hd
  cases hd
  rw [hjob]
  exact hfits

theorem Honest.leave (h : s.Honest codec) {i : Nat}
    (hleave : (s.inflight.leave i).map s.withGuards = some s') : s'.Honest codec := by
  rcases Option.map_eq_some_iff.mp hleave with ⟨g, hg, heq⟩
  rw [← heq]
  exact h.withGuards (h.inside.leave hg)

/-- A request has looked before the guard. -/
theorem Honest.looked (h : s.Honest codec) {k : Nat} {r : MetadataRequest}
    {looked : Looked} (hfits : s.LookedFits codec r looked) :
    (s.looked k r looked).Honest codec := by
  cases looked with
  | goesOn stage =>
      refine ⟨h.cached, h.negative, ?_, h.inside, h.stored, h.served⟩
      intro r' stage' hmem
      rcases List.mem_or_eq_of_mem_set hmem with hold | hnew
      · exact h.arriving r' stage' hold
      · cases hnew
        exact hfits
  | serves x refresh =>
      have hserved := h.serve hfits
      refine ⟨hserved.cached, hserved.negative, ?_, hserved.inside, hserved.stored,
        hserved.served⟩
      intro r' stage' hmem
      exact hserved.arriving r' stage' (List.mem_of_mem_eraseIdx hmem)
  | misses =>
      refine ⟨h.cached, h.negative, ?_, h.inside, h.stored, h.served⟩
      intro r' stage' hmem
      exact h.arriving r' stage' (List.mem_of_mem_eraseIdx hmem)

/-- A request has looked under the guard. -/
theorem Honest.lookedInside (h : s.Honest codec) {i : Nat} {job : ServingJob}
    {stage : Looking} (hcaller : s.caller i = some (job, .inside (.looking stage)))
    (hstep : s.lookedInside i (s.lookInside codec job.request stage) = some s') :
    s'.Honest codec := by
  rcases h.caller hcaller with ⟨hlooking, hunexpired⟩
  have hfits := h.lookInside hlooking hunexpired
  cases hlooked : s.lookInside codec job.request stage with
  | goesOn next =>
      rw [hlooked] at hstep hfits
      have hstage : s.StageFits codec job (.looking next) :=
        ⟨hfits, unexpired_of_lookInside hlooked⟩
      exact h.advance hcaller hstage hstep
  | serves x refresh =>
      rw [hlooked] at hstep hfits
      exact (h.serve hfits).leave hstep
  | misses =>
      rw [hlooked] at hstep
      have hstage : s.StageFits codec job .running := trivial
      exact h.advance hcaller hstage hstep

theorem grows_answered (s : ServingWorld) (answer : InnerAnswer) :
    Grows s (s.answered answer) where
  stored := fun _ hst => hst
  answers := fun _ hx => List.mem_append_left _ hx
  now := Int.le_refl _

theorem Honest.answered (h : s.Honest codec) (answer : InnerAnswer) :
    (s.answered answer).Honest codec :=
  h.of_grows (grows_answered s answer) (fun _ _ => Or.inl) (fun _ _ => Or.inl) rfl rfl
    (fun _ => Or.inl) rfl

/-!
## Storing an answer
-/

/-- What a key has after an insertion it had before, or it is the one inserted. -/
theorem eq_some_of_update {Entry : Type} {held : String -> Option Entry}
    {key key' : String} {new entry : Entry}
    (h : Function.update held key' (some new) key = some entry) :
    held key = some entry ∨ key = key' ∧ new = entry := by
  by_cases hkey : key = key'
  · rw [hkey, Function.update_self] at h
    injection h with hnew
    exact Or.inr ⟨hkey, hnew⟩
  · rw [Function.update_of_ne hkey] at h
    exact Or.inl h

theorem eq_some_of_forget {Entry : Type} {held : String -> Option Entry}
    {key key' : String} {entry : Entry}
    (h : Function.update held key' none key = some entry) : held key = some entry := by
  by_cases hkey : key = key'
  · rw [hkey, Function.update_self] at h
    cases h
  · rw [Function.update_of_ne hkey] at h
    exact h

theorem grows_insertNoted (s : ServingWorld) (key : String) (st : StoredAnswer)
    (kept : Kept) : Grows s (s.insertNoted key st kept) := by
  constructor
  · exact fun _ hst => List.mem_append_left _ hst
  · intro x hx
    cases kept <;> exact hx
  · cases kept <;> exact Int.le_refl _

theorem backs_insertNoted (codec : QueryCodec) (s : ServingWorld)
    (st : StoredAnswer) {kept : Kept} {time : Int}
    (hby : st.storedAt ≤ time) (hkept : KeptFrom st.answer.response st.storedAt kept) :
    (s.insertNoted (st.answer.request.key codec) st kept).Backs codec
      (st.answer.request.key codec) time kept :=
  ⟨st, List.mem_append_right _ (List.mem_singleton.mpr rfl), rfl, hby, hkept⟩

theorem Honest.insertNoted (h : s.Honest codec) {answer : InnerAnswer} {kept : Kept}
    (hanswer : answer ∈ s.answers) (hsome : kept ≠ .nothing)
    (hkept : KeptFrom answer.response s.now kept) :
    (s.insertNoted (answer.request.key codec) ⟨answer, s.now⟩ kept).Honest codec := by
  have hgrows := grows_insertNoted s (answer.request.key codec) ⟨answer, s.now⟩ kept
  have hback := backs_insertNoted codec s ⟨answer, s.now⟩ hgrows.now hkept
  apply h.of_grows hgrows
  · intro key entry hentry
    cases kept with
    | cached new =>
        rcases eq_some_of_update hentry with hold | ⟨hkey, hnew⟩
        · exact Or.inl hold
        · rw [hkey, ← hnew]
          exact Or.inr hback
    | negative new =>
        exact Or.inl hentry
    | nothing =>
        exact Or.inl hentry
  · intro key entry hentry
    cases kept with
    | cached new =>
        exact Or.inl hentry
    | negative new =>
        rcases eq_some_of_update hentry with hold | ⟨hkey, hnew⟩
        · exact Or.inl hold
        · rw [hkey, ← hnew]
          exact Or.inr hback
    | nothing =>
        exact Or.inl hentry
  · cases kept <;> rfl
  · cases kept <;> rfl
  · intro st hst
    rcases List.mem_append.mp hst with hold | hnew
    · exact Or.inl hold
    · rw [List.mem_singleton.mp hnew]
      refine Or.inr ⟨⟨hgrows.answers _ hanswer, hkept.proper hsome⟩, hgrows.now⟩
  · cases kept <;> rfl

/-- The answer a miss is given carries the answer it has kept. -/
theorem carriesUnframed_of_reply {response : Streamed} {now : Int} {kept : Kept}
    {label : CacheLabel} {reply : Reply} (hkept : KeptFrom response now kept)
    (hreply : kept.reply label = some reply) (r : MetadataRequest) (readAt : Int) :
    carriesUnframed response ⟨r, label, readAt, reply⟩ := by
  cases kept with
  | cached entry =>
      cases hreply
      exact carriesUnframed_of_copyOf hkept.right.left r label readAt
  | negative entry =>
      cases hreply
      rcases hkept with ⟨_, _, hcopy, _⟩
      exact carriesUnframed_of_copyOf hcopy r label readAt
  | nothing =>
      cases hreply

theorem Honest.store (h : s.Honest codec) {job : ServingJob} {response : Streamed}
    {kept : Kept} (hfits : s.StageFits codec job (.storing response kept)) :
    (s.store codec job response kept).Honest codec := by
  rcases hfits with ⟨hanswer, hsome, hkept⟩
  have hstored := h.insertNoted hanswer hsome hkept
  simp only [ServingWorld.store]
  split
  · rename_i reply hreply
    split
    · exact hstored
    · apply hstored.serve
      refine ⟨response.status, ⟨⟨job.request, response⟩, s.now⟩,
        List.mem_append_right _ (List.mem_singleton.mpr rfl), ?_, rfl,
        carriesUnframed_of_reply hkept hreply job.request s.now, Int.le_refl _, ?_⟩
      · exact MetadataRequest.alike_of_key rfl
      · rw [Int.sub_self]
        exact Int.zero_lt_one
  · exact hstored

theorem store_inflight (s : ServingWorld) (job : ServingJob) (response : Streamed)
    (kept : Kept) : (s.store codec job response kept).inflight = s.inflight := by
  have hinsert : forall key, (s.insert key kept).inflight = s.inflight := by
    intro key
    cases kept <;> rfl
  simp only [ServingWorld.store]
  split
  · split <;> exact hinsert _
  · exact hinsert _

/-- What a request has collected is kept for it until it is stored. -/
theorem Honest.collect (h : s.Honest codec) {i : Nat} {job : ServingJob}
    {response : Streamed} {kept : Kept}
    (hcaller : s.caller i = some (job, .inside (.keeping response)))
    (hkept : KeptFrom response s.now kept) (hsome : kept ≠ .nothing)
    (hadvance : (s.inflight.advance i (.storing response kept)).map s.withGuards =
      some s') : s'.Honest codec := by
  have hanswer : ⟨job.request, response⟩ ∈ s.answers := h.caller hcaller
  have hstage : s.StageFits codec job (.storing response kept) :=
    ⟨hanswer, hsome, hkept⟩
  exact h.advance hcaller hstage hadvance

theorem Honest.forget (h : s.Honest codec) (key : String) :
    Honest codec { s with cache := Function.update s.cache key none } :=
  ⟨fun key' entry hentry => h.cached key' entry (eq_some_of_forget hentry),
    h.negative, h.arriving, h.inside, h.stored, h.served⟩

theorem Honest.forgetNegative (h : s.Honest codec) (key : String) :
    Honest codec { s with negative := Function.update s.negative key none } :=
  ⟨h.cached, fun key' entry hentry => h.negative key' entry (eq_some_of_forget hentry),
    h.arriving, h.inside, h.stored, h.served⟩

theorem Honest.readClock (h : s.Honest codec) {now : Int} (hle : s.now ≤ now) :
    Honest codec { s with now } :=
  h.of_grows ⟨fun _ hst => hst, fun _ hx => hx, hle⟩ (fun _ _ => Or.inl)
    (fun _ _ => Or.inl) rfl rfl (fun _ => Or.inl) rfl

theorem Honest.step (h : s.Honest codec) {a : ServingAction}
    (hstep : s.step codec a = some s') : s'.Honest codec := by
  cases a with
  | request r =>
      simp only [ServingWorld.step] at hstep
      split at hstep
      · cases hstep
        refine ⟨h.cached, h.negative, ?_, h.inside, h.stored, h.served⟩
        intro r' stage hmem
        rcases List.mem_append.mp hmem with hold | hnew
        · exact h.arriving r' stage hold
        · cases List.mem_singleton.mp hnew
          trivial
      · cases hstep
        exact h
  | look k =>
      simp only [ServingWorld.step] at hstep
      split at hstep
      · rename_i r stage hk
        cases hstep
        exact h.looked (h.look (h.arriving r stage (List.mem_of_getElem? hk)))
      · cases hstep
  | lookUp k =>
      simp only [ServingWorld.step] at hstep
      split at hstep
      · cases hstep
      · rename_i job _
        cases hstep
        have hjoined := h.inside.join inflightPolicy (job.request.key codec) job
        exact ⟨h.cached, h.negative, h.arriving, hjoined, h.stored, h.served⟩
  | lock i =>
      simp only [ServingWorld.step] at hstep
      split at hstep
      · rename_i job hcaller
        split at hstep
        · cases hstep
        · have hstage : s.StageFits codec job (.looking .atCache) := ⟨trivial, trivial⟩
          exact h.enter hcaller hstage hstep
      · cases hstep
  | tryLock i =>
      simp only [ServingWorld.step] at hstep
      split at hstep
      · rename_i job hcaller
        split at hstep
        · split at hstep
          · rename_i g hg
            have hstage : s.StageFits codec job .running := trivial
            apply h.enter hcaller hstage
            rw [hg]
            exact hstep
          · exact h.leave hstep
        · cases hstep
      · cases hstep
  | lookInside i =>
      simp only [ServingWorld.step] at hstep
      split at hstep
      · rename_i job stage hcaller
        exact h.lookedInside hcaller hstep
      · cases hstep
  | answer i response =>
      simp only [ServingWorld.step] at hstep
      split at hstep
      · rename_i job hcaller
        have hstage : (s.answered ⟨job.request, response⟩).StageFits codec job
            (.keeping response) :=
          List.mem_append_right _ (List.mem_singleton.mpr rfl)
        exact (h.answered ⟨job.request, response⟩).advance hcaller hstage hstep
      · cases hstep
  | collect i =>
      simp only [ServingWorld.step] at hstep
      split at hstep
      · rename_i job response hcaller
        split at hstep
        · exact h.leave hstep
        · rename_i hsome
          apply h.collect hcaller _ hsome hstep
          split
          · exact keptFrom_keepRefresh s.now response
          · exact keptFrom_keepMiss s.now response
      · cases hstep
  | store i =>
      simp only [ServingWorld.step] at hstep
      split at hstep
      · rename_i job response kept hcaller
        rw [← store_inflight s job response kept] at hstep
        exact (h.store (h.caller hcaller)).leave hstep
      · cases hstep
  | hangUpEarly k =>
      cases hstep
      refine ⟨h.cached, h.negative, ?_, h.inside, h.stored, h.served⟩
      intro r stage hmem
      exact h.arriving r stage (List.mem_of_mem_eraseIdx hmem)
  | hangUpCalled k =>
      simp only [ServingWorld.step] at hstep
      split at hstep
      · split at hstep
        · cases hstep
        · cases hstep
          exact ⟨h.cached, h.negative, h.arriving, h.inside, h.stored, h.served⟩
      · cases hstep
  | hangUp i =>
      simp only [ServingWorld.step] at hstep
      split at hstep
      · split at hstep
        · cases hstep
        · exact h.leave hstep
      · cases hstep
  | forget key =>
      cases hstep
      exact h.forget key
  | forgetNegative key =>
      cases hstep
      exact h.forgetNegative key
  | dropGuard key =>
      rcases Option.map_eq_some_iff.mp hstep with ⟨g, hg, heq⟩
      rw [← heq]
      exact h.withGuards (h.inside.drop hg)
  | wait ms =>
      cases hstep
      exact h.withGuards (h.inside.tick ms)
  | readClock now =>
      simp only [ServingWorld.step] at hstep
      split at hstep
      · rename_i hle
        cases hstep
        exact h.readClock hle
      · cases hstep

/-- An honest world serves only what it may. -/
theorem Honest.servesOnly (h : s.Honest codec) :
    s.ServesOnly codec carriesUnframed := by
  constructor
  · exact h.served
  · exact fun st hst => (h.stored st hst).left
  · intro key entry hentry
    rcases h.cached key entry hentry with ⟨st, hst, hkey, _, hstatus, hcopy, _⟩
    exact ⟨st, hst, hkey, hstatus, hcopy.complete⟩
  · intro key entry hentry
    rcases h.negative key entry hentry with ⟨st, hst, hkey, _, ttl, httl, hcopy, _⟩
    refine ⟨st, hst, hkey, ?_, hcopy.complete⟩
    rcases negativeTtl_eq_some httl with ⟨hstatus, _⟩ | ⟨hstatus, _⟩
    · rw [hstatus]
      exact List.mem_cons_self
    · exact List.mem_cons_of_mem _ hstatus

end Steps

end ServingWorld

open ServingWorld

/-- Whatever requests come, in whatever order their steps are taken, the cache
serves only what was answered, with the headers that do not frame a body. -/
theorem servesOnly_unframed (codec : QueryCodec) (actions : List ServingAction)
    (s' : ServingWorld) (hrun : (servingSystem codec).run .start actions = some s') :
    s'.ServesOnly codec carriesUnframed := by
  have hhonest : s'.Honest codec :=
    System.run_invariant (I := fun s => s.Honest codec)
      (fun _ _ _ hs hstep => hs.step hstep) honest_start hrun
  exact hhonest.servesOnly

/-- Queries as they are form-encoded. -/
def formUrlencoded : QueryCodec where
  parse := FormUrlencoded.parse
  serialize := FormUrlencoded.serialize
  parse_serialize := FormUrlencoded.parse_serialize

def albumRequest : MetadataRequest where
  method := "GET"
  path := "/album/"
  query := some "id=1"
  path_plain := by decide

/-- A miss, answered after three looks. -/
def answeredMiss (response : Streamed) : List ServingAction :=
  [.request albumRequest, .look 0, .look 0, .lookUp 0, .lock 0, .lookInside 0,
    .lookInside 0, .answer 0 response, .collect 0, .store 0]

/-- The same request an hour later. -/
def hitAfterMiss (response : Streamed) : List ServingAction :=
  answeredMiss response ++
    [ServingAction.readClock 3600, .request albumRequest, .look 0, .look 0]

/-- An answer that says how long its body is. -/
def framedAnswer : Streamed where
  status := 200
  headers := [⟨"content-type", some "application/json"⟩, ⟨"content-length", some "2"⟩]
  chunks := [some [91, 93]]

/-- The world after the hit. -/
def hitWorld : ServingWorld :=
  ((servingSystem formUrlencoded).run .start (hitAfterMiss framedAnswer)).getD .start

theorem run_hitAfterMiss :
    (servingSystem formUrlencoded).run .start (hitAfterMiss framedAnswer) =
      some hitWorld := by
  have hruns : ((servingSystem formUrlencoded).run .start
      (hitAfterMiss framedAnswer)).isSome = true := by decide
  rcases Option.isSome_iff_exists.mp hruns with ⟨s, hs⟩
  rw [hitWorld, hs, Option.getD_some]

theorem servesOnly_unframed_hit :
    hitWorld.served.map (fun x => (x.label, x.reply.status, x.reply.body)) =
        [(.miss, 200, [91, 93]), (.hit, 200, [91, 93])] ∧
      hitWorld.ServesOnly formUrlencoded carriesUnframed := by
  constructor
  · decide
  · exact servesOnly_unframed formUrlencoded (hitAfterMiss framedAnswer) hitWorld
      run_hitAfterMiss

/-- The length is not among the headers of the hit: the body is framed anew. -/
theorem not_mayServeOnly_whole : ¬ MayServeOnly formUrlencoded carriesWhole := by
  intro h
  have honly := h (hitAfterMiss framedAnswer) hitWorld run_hitAfterMiss
  have hlengths : forall st, st ∈ hitWorld.stored ->
      exists header, header ∈ st.answer.response.headers ∧
        header.name = "content-length" := by
    have hall : hitWorld.stored.all (fun st => st.answer.response.headers.any
        fun header => decide (header.name = "content-length")) = true := by
      decide
    intro st hst
    rcases List.any_eq_true.mp (List.all_eq_true.mp hall st hst) with
      ⟨header, hmem, hname⟩
    exact ⟨header, hmem, of_decide_eq_true hname⟩
  have hhit : exists x, x ∈ hitWorld.served ∧ x.label = .hit ∧
      forall header, header ∈ x.reply.headers -> header.1 ≠ "content-length" := by
    have hany : hitWorld.served.any (fun x => decide (x.label = .hit) &&
        x.reply.headers.all fun header => decide (header.1 ≠ "content-length")) =
          true := by decide
    rcases List.any_eq_true.mp hany with ⟨x, hx, hboth⟩
    rcases Bool.and_eq_true_iff.mp hboth with ⟨hlabel, hnone⟩
    exact ⟨x, hx, of_decide_eq_true hlabel, fun header hmem =>
      of_decide_eq_true (List.all_eq_true.mp hnone header hmem)⟩
  rcases hhit with ⟨x, hx, hlabel, hnone⟩
  have hjustified := honly.served x hx
  rw [Served.Justified, hlabel] at hjustified
  rcases hjustified with ⟨st, hst, _, _, ⟨_, _, hheaders⟩, _⟩
  rcases hlengths st hst with ⟨header, hmem, hname⟩
  rcases hheaders header hmem with ⟨text, _, hcarried⟩
  exact hnone _ hcarried hname

end HifiApi
