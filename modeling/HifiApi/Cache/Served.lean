import HifiApi.Cache.Serving

/-!
# What a served answer was

A labelled answer carries an answer of the inner handler to a request with the
same path and the same pairs: a {lit}`HIT` or a {lit}`STALE` one that was
answered with 200, a {lit}`NEGATIVE` one that was answered with an error kept for
a short while.  Its age is taken at the reading of the clock that has decided on
serving it.
-/

namespace HifiApi

open ResponseCache

/-- The chunks of a body, none of them missing, are these bytes. -/
def Streamed.CompleteBody (response : Streamed) (body : Bytes) : Prop :=
  exists chunks : List Bytes,
    response.chunks = chunks.map some ∧ chunks.flatten = body

/-- How an answer of the handler is carried over into a labelled one. -/
abbrev Carrying := Streamed -> Served -> Prop

/-- With its status, its body and all of its headers. -/
def carriesWhole : Carrying := fun response served =>
  served.reply.status = response.status ∧
    response.CompleteBody served.reply.body ∧
    forall h, h ∈ response.headers ->
      exists text, h.text = some text ∧ (h.name, text) ∈ served.reply.headers

/-- With its status, its body, and of its headers those that can be read as text
and do not frame the body; the label comes last. -/
def carriesUnframed : Carrying := fun response served =>
  served.reply.status = response.status ∧
    response.CompleteBody served.reply.body ∧
    served.reply.headers =
      unframed (textHeaders response.headers) ++ [("x-cache", served.label.text)]

/-- One of the answers stored so far, with this status and less than so many
seconds old, is carried over. -/
def Served.Carries (codec : QueryCodec) (carries : Carrying)
    (stored : List StoredAnswer) (served : Served) (status secs : Nat) : Prop :=
  exists st, st ∈ stored ∧ st.answer.request.Alike codec served.request ∧
    st.answer.response.status = status ∧ carries st.answer.response served ∧
    st.storedAt ≤ served.readAt ∧ served.readAt - st.storedAt < secs

/-- What the label says. -/
def Served.Justified (codec : QueryCodec) (carries : Carrying)
    (stored : List StoredAnswer) (served : Served) : Prop :=
  match served.label with
  | .hit =>
      served.Carries codec carries stored 200 (freshSecs served.request.path)
  | .stale =>
      served.Carries codec carries stored 200
        (freshSecs served.request.path + staleSecs served.request.path)
  | .negative =>
      served.Carries codec carries stored 404 60 ∨
        exists status, status ∈ [429, 500, 502, 503, 504] ∧
          served.Carries codec carries stored status 15
  | .miss => exists status, served.Carries codec carries stored status 1

/-- An answer that may be stored: of a status that is kept, complete and not too
large. -/
def StoredAnswer.Proper (answers : List InnerAnswer) (st : StoredAnswer) : Prop :=
  st.answer ∈ answers ∧
    st.answer.response.status ∈ [200, 404, 429, 500, 502, 503, 504] ∧
    exists body, st.answer.response.CompleteBody body ∧ body.length ≤ maxBodyBytes

/-- What is served and what is stored. -/
structure ServingWorld.ServesOnly (codec : QueryCodec) (carries : Carrying)
    (s : ServingWorld) : Prop where
  served : forall x, x ∈ s.served -> x.Justified codec carries s.stored
  stored : forall st, st ∈ s.stored -> st.Proper s.answers
  cached : forall key entry, s.cache key = some entry ->
    exists st, st ∈ s.stored ∧ st.answer.request.key codec = key ∧
      st.answer.response.status = 200 ∧
      st.answer.response.CompleteBody entry.body
  negative : forall key entry, s.negative key = some entry ->
    exists st, st ∈ s.stored ∧ st.answer.request.key codec = key ∧
      st.answer.response.status ∈ [404, 429, 500, 502, 503, 504] ∧
      st.answer.response.CompleteBody entry.body

/-- In every run the cache serves only what it may. -/
def MayServeOnly (codec : QueryCodec) (carries : Carrying) : Prop :=
  forall actions s', (servingSystem codec).run .start actions = some s' ->
    s'.ServesOnly codec carries

/-!
## Keys
-/

theorem append_cons_inj_of_plain {sep : Char} :
    forall {xs ys u v : List Char}, sep ∉ xs -> sep ∉ ys ->
      xs ++ sep :: u = ys ++ sep :: v -> xs = ys ∧ u = v
  | [], [], _, _, _, _, h => by
      injection h with _ huv
      exact ⟨rfl, huv⟩
  | [], y :: _, _, _, _, hys, h => by
      injection h with hhead _
      exact absurd (hhead ▸ List.mem_cons_self) hys
  | x :: _, [], _, _, hxs, _, h => by
      injection h with hhead _
      exact absurd (hhead ▸ List.mem_cons_self) hxs
  | x :: xs, y :: ys, u, v, hxs, hys, h => by
      injection h with hhead htail
      have hrest := append_cons_inj_of_plain
        (fun hmem => hxs (List.mem_cons_of_mem _ hmem))
        (fun hmem => hys (List.mem_cons_of_mem _ hmem)) htail
      exact ⟨by rw [hhead, hrest.left], hrest.right⟩

section Keys

variable {codec : QueryCodec}

/-- The canonical query has the pairs of the query it was made from. -/
theorem parse_normalizeQuery (query : Option String) :
    (codec.parse (normalizeQuery codec query)).Perm
      (codec.parse (query.getD "")) := by
  unfold normalizeQuery
  dsimp only
  split
  · rename_i hempty
    rw [hempty]
  · split
    · rw [codec.parse_serialize]
    · rw [codec.parse_serialize]
      exact List.mergeSort_perm _ _

/-- Requests that share a key ask for the same. -/
theorem MetadataRequest.alike_of_key {r r' : MetadataRequest}
    (h : r.key codec = r'.key codec) : r.Alike codec r' := by
  have hchars := congrArg String.toList h
  simp only [key, String.toList_append, List.append_assoc] at hchars
  rcases append_cons_inj_of_plain r.path_plain r'.path_plain hchars with
    ⟨hpath, hquery⟩
  constructor
  · exact String.toList_injective hpath
  · have hsame : (codec.parse (normalizeQuery codec r.query)).Perm _ :=
      parse_normalizeQuery r.query
    rw [String.toList_injective hquery] at hsame
    exact hsame.symm.trans (parse_normalizeQuery r'.query)

end Keys

/-!
## What is kept of an answer
-/

/-- Status, headers and body as they are read from an answer. -/
structure CopyOf (response : Streamed) (status : Nat)
    (headers : List (String × String)) (body : Bytes) : Prop where
  status : status = response.status
  headers : headers = textHeaders response.headers
  complete : response.CompleteBody body
  small : body.length ≤ maxBodyBytes

theorem readChunks_eq_ok {response : Streamed} {rest : List (Option Bytes)}
    {total : Nat} {taken : List Bytes} {body : Bytes}
    (htotal : total = taken.flatten.length) (hsmall : total ≤ maxBodyBytes)
    (h : readChunks response total taken rest = .ok body) :
    body.length ≤ maxBodyBytes ∧
      exists chunks : List Bytes, rest = chunks.map some ∧
        (taken ++ chunks).flatten = body := by
  induction rest generalizing total taken with
  | nil =>
      injection h with hbody
      rw [← hbody]
      constructor
      · rw [← htotal]
        exact hsmall
      · exact ⟨[], rfl, by rw [List.append_nil]⟩
  | cons chunk rest ih =>
      cases chunk with
      | none =>
          injection h
      | some chunk =>
          simp only [readChunks] at h
          split at h
          · injection h
          · rename_i hfits
            have hlength :
                total + chunk.length = (taken ++ [chunk]).flatten.length := by
              rw [htotal, List.flatten_append, List.length_append,
                List.flatten_singleton]
            rcases ih hlength (Nat.le_of_not_lt hfits) h with
              ⟨hbody, chunks, hrest, hflat⟩
            refine ⟨hbody, chunk :: chunks, ?_, ?_⟩
            · rw [hrest, List.map_cons]
            · rw [← hflat, List.append_assoc, List.singleton_append]

theorem collectParts_eq_ok {response : Streamed} {status : Nat}
    {headers : List (String × String)} {body : Bytes}
    (h : collectParts response = .ok (status, headers, body)) :
    CopyOf response status headers body := by
  unfold collectParts at h
  cases hread : readChunks response 0 [] response.chunks with
  | error _ =>
      rw [hread] at h
      cases h
  | ok whole =>
      rw [hread] at h
      cases h
      have hempty : 0 = ([] : List Bytes).flatten.length := rfl
      rcases readChunks_eq_ok hempty (Nat.zero_le _) hread with ⟨hsmall, hchunks⟩
      exact ⟨rfl, rfl, hchunks, hsmall⟩

/-- What may be kept of an answer at a time. -/
def KeptFrom (response : Streamed) (now : Int) : Kept -> Prop
  | .cached entry =>
      response.status = 200 ∧
        CopyOf response entry.status entry.headers entry.body ∧
        entry.fetchedAt ≤ now
  | .negative entry =>
      exists ttl, negativeTtl response.status = some ttl ∧
        CopyOf response entry.status entry.headers entry.body ∧
        entry.expiresAt ≤ now + ttl
  | .nothing => True

theorem keptFrom_keepMiss (now : Int) (response : Streamed) :
    KeptFrom response now (keepMiss now response) := by
  unfold keepMiss
  split
  · rename_i hstatus
    split
    · trivial
    · split
      · rename_i hparts
        exact ⟨hstatus, collectParts_eq_ok hparts, Int.le_refl _⟩
      · trivial
  · split
    · trivial
    · rename_i ttl httl
      split
      · trivial
      · split
        · rename_i hparts
          have hcopy := collectParts_eq_ok hparts
          exact ⟨ttl, httl, ⟨rfl, hcopy.headers, hcopy.complete, hcopy.small⟩,
            Int.le_refl _⟩
        · trivial

theorem keptFrom_keepRefresh (now : Int) (response : Streamed) :
    KeptFrom response now (keepRefresh now response) := by
  unfold keepRefresh
  split
  · rename_i hstatus
    split
    · rename_i hparts
      exact ⟨hstatus, collectParts_eq_ok hparts, Int.le_refl _⟩
    · trivial
  · trivial

theorem KeptFrom.mono {response : Streamed} {now now' : Int} {kept : Kept}
    (h : KeptFrom response now kept) (hle : now ≤ now') :
    KeptFrom response now' kept := by
  cases kept with
  | cached entry =>
      exact ⟨h.left, h.right.left, Int.le_trans h.right.right hle⟩
  | negative entry =>
      rcases h with ⟨ttl, httl, hcopy, hexpires⟩
      exact ⟨ttl, httl, hcopy,
        Int.le_trans hexpires (Int.add_le_add_right hle _)⟩
  | nothing =>
      trivial

theorem negativeTtl_eq_some {status ttl : Nat} (h : negativeTtl status = some ttl) :
    status = 404 ∧ ttl = 60 ∨ status ∈ [429, 500, 502, 503, 504] ∧ ttl = 15 := by
  unfold negativeTtl at h
  split at h
  · rename_i hstatus
    cases h
    exact Or.inl ⟨hstatus, rfl⟩
  · split at h
    · rename_i hstatus
      cases h
      exact Or.inr ⟨List.contains_iff_mem.mp hstatus, rfl⟩
    · cases h

/-- An answer of which something is kept has a proper status and body. -/
theorem KeptFrom.proper {response : Streamed} {now : Int} {kept : Kept}
    (h : KeptFrom response now kept) (hkept : kept ≠ .nothing) :
    response.status ∈ [200, 404, 429, 500, 502, 503, 504] ∧
      exists body, response.CompleteBody body ∧ body.length ≤ maxBodyBytes := by
  cases kept with
  | cached entry =>
      rcases h with ⟨hstatus, hcopy, _⟩
      constructor
      · rw [hstatus]
        exact List.mem_cons_self
      · exact ⟨entry.body, hcopy.complete, hcopy.small⟩
  | negative entry =>
      rcases h with ⟨ttl, httl, hcopy, _⟩
      constructor
      · rcases negativeTtl_eq_some httl with ⟨hstatus, _⟩ | ⟨hstatus, _⟩
        · rw [hstatus]
          exact List.mem_cons_of_mem _ List.mem_cons_self
        · exact List.mem_cons_of_mem _ (List.mem_cons_of_mem _ hstatus)
      · exact ⟨entry.body, hcopy.complete, hcopy.small⟩
  | nothing =>
      exact absurd rfl hkept

/-!
## What is served
-/

theorem lt_freshSecs {path : String} {age : Int} (h : freshness path age = .fresh) :
    age < freshSecs path := by
  unfold freshness at h
  split at h
  · assumption
  · split at h <;> cases h

theorem lt_staleSecs {path : String} {age : Int} (h : freshness path age ≠ .expired) :
    age < (freshSecs path + staleSecs path : Nat) := by
  unfold freshness at h
  split at h
  · rename_i hfresh
    omega
  · split at h
    · rename_i hstale
      omega
    · exact absurd rfl h

namespace ServingWorld

/-- An answer stored by some time is what is kept under a key. -/
def Backs (codec : QueryCodec) (s : ServingWorld) (key : String) (time : Int)
    (kept : Kept) : Prop :=
  exists st, st ∈ s.stored ∧ st.answer.request.key codec = key ∧ st.storedAt ≤ time ∧
    KeptFrom st.answer.response st.storedAt kept

def LookingFits (codec : QueryCodec) (s : ServingWorld) (r : MetadataRequest) :
    Looking -> Prop
  | .found hit => s.Backs codec (r.key codec) s.now (.cached hit)
  | .foundAgain hit first => s.Backs codec (r.key codec) first (.cached hit)
  | .foundNegative neg => s.Backs codec (r.key codec) s.now (.negative neg)
  | .atCache => True
  | .atNegative => True

/-- Under the guard the first reading has found the answer unexpired. -/
def Unexpired (r : MetadataRequest) : Looking -> Prop
  | .foundAgain hit first => freshness r.path (first - hit.fetchedAt) ≠ .expired
  | _ => True

def StageFits (codec : QueryCodec) (s : ServingWorld) (job : ServingJob) :
    ServingStage -> Prop
  | .looking stage =>
      s.LookingFits codec job.request stage ∧ Unexpired job.request stage
  | .running => True
  | .keeping response => ⟨job.request, response⟩ ∈ s.answers
  | .storing response kept =>
      ⟨job.request, response⟩ ∈ s.answers ∧ kept ≠ .nothing ∧
        KeptFrom response s.now kept

/-- What a lookup leads to is fit for the request. -/
def LookedFits (codec : QueryCodec) (s : ServingWorld) (r : MetadataRequest) :
    Looked -> Prop
  | .goesOn stage => s.LookingFits codec r stage
  | .serves served _ => served.Justified codec carriesUnframed s.stored
  | .misses => True

/-- Both caches, the requests on their way and the answers sent come from
answers of the handler. -/
structure Honest (codec : QueryCodec) (s : ServingWorld) : Prop where
  cached : forall key entry, s.cache key = some entry ->
    s.Backs codec key s.now (.cached entry)
  negative : forall key entry, s.negative key = some entry ->
    s.Backs codec key s.now (.negative entry)
  arriving : forall r stage, (r, stage) ∈ s.arriving -> s.LookingFits codec r stage
  inside : s.inflight.Fits (s.StageFits codec)
  stored : forall st, st ∈ s.stored -> st.Proper s.answers ∧ st.storedAt ≤ s.now
  served : forall x, x ∈ s.served -> x.Justified codec carriesUnframed s.stored

section Looks

variable {codec : QueryCodec} {s : ServingWorld} {r : MetadataRequest}

/-- Everything stored has been stored by now. -/
theorem Honest.backs_now (h : s.Honest codec) {key : String} {time : Int}
    {kept : Kept} (hback : s.Backs codec key time kept) :
    s.Backs codec key s.now kept := by
  rcases hback with ⟨st, hst, hkey, _, hkept⟩
  exact ⟨st, hst, hkey, (h.stored st hst).right, hkept⟩

theorem carriesUnframed_of_copyOf {response : Streamed} {status : Nat}
    {headers : List (String × String)} {body : Bytes}
    (h : CopyOf response status headers body) (r : MetadataRequest)
    (label : CacheLabel) (readAt : Int) :
    carriesUnframed response
      ⟨r, label, readAt, buildResponse status headers body label⟩ := by
  refine ⟨h.status, h.complete, ?_⟩
  rw [← h.headers]
  rfl

/-- A cached answer of a known age, served under any label. -/
theorem carries_serveHit {hit : CachedResponse} {readAt : Int} {secs : Nat}
    (hback : s.Backs codec (r.key codec) readAt (.cached hit))
    (hage : readAt - hit.fetchedAt < secs) (label : CacheLabel) :
    (serveHit r hit label readAt).Carries codec carriesUnframed s.stored 200 secs := by
  rcases hback with ⟨st, hst, hkey, hby, hstatus, hcopy, hfetched⟩
  refine ⟨st, hst, MetadataRequest.alike_of_key hkey, hstatus,
    carriesUnframed_of_copyOf hcopy r label readAt, hby, ?_⟩
  show readAt - st.storedAt < secs
  omega

theorem justified_hit {hit : CachedResponse} {readAt : Int}
    (hback : s.Backs codec (r.key codec) readAt (.cached hit))
    (hfresh : freshness r.path (readAt - hit.fetchedAt) = .fresh) :
    (serveHit r hit .hit readAt).Justified codec carriesUnframed s.stored :=
  carries_serveHit hback (lt_freshSecs hfresh) .hit

theorem justified_stale {hit : CachedResponse} {readAt : Int}
    (hback : s.Backs codec (r.key codec) readAt (.cached hit))
    (hstale : freshness r.path (readAt - hit.fetchedAt) ≠ .expired) :
    (serveHit r hit .stale readAt).Justified codec carriesUnframed s.stored :=
  carries_serveHit hback (lt_staleSecs hstale) .stale

theorem justified_negative {neg : NegativeEntry}
    (hback : s.Backs codec (r.key codec) s.now (.negative neg))
    (hexpires : s.now < neg.expiresAt) :
    Served.Justified codec carriesUnframed s.stored
      ⟨r, .negative, s.now,
        buildResponse neg.status neg.headers neg.body .negative⟩ := by
  rcases hback with ⟨st, hst, hkey, hby, ttl, httl, hcopy, hentry⟩
  have hage : s.now - st.storedAt < ttl := by omega
  have hcarries := carriesUnframed_of_copyOf hcopy r .negative s.now
  have halike := MetadataRequest.alike_of_key hkey
  rcases negativeTtl_eq_some httl with ⟨hstatus, hsecs⟩ | ⟨hstatus, hsecs⟩
  · rw [hsecs] at hage
    exact Or.inl ⟨st, hst, halike, hstatus, hcarries, hby, hage⟩
  · rw [hsecs] at hage
    exact Or.inr ⟨_, hstatus, st, hst, halike, rfl, hcarries, hby, hage⟩

/-- The lookups before the guard. -/
theorem Honest.look (h : s.Honest codec) {stage : Looking}
    (hfits : s.LookingFits codec r stage) :
    s.LookedFits codec r (s.look codec r stage) := by
  cases stage with
  | atCache =>
      simp only [ServingWorld.look]
      split
      · rename_i hit hcache
        exact h.cached _ hit hcache
      · trivial
  | found hit =>
      simp only [ServingWorld.look]
      split
      · rename_i hfresh
        exact justified_hit hfits hfresh
      · exact hfits
  | foundAgain hit first =>
      simp only [ServingWorld.look]
      split
      · rename_i hstale
        exact justified_stale (h.backs_now hfits)
          (by rw [hstale]; exact Freshness.noConfusion)
      · trivial
  | atNegative =>
      simp only [ServingWorld.look]
      split
      · rename_i neg hnegative
        exact h.negative _ neg hnegative
      · trivial
  | foundNegative neg =>
      simp only [ServingWorld.look]
      split
      · rename_i hexpires
        exact justified_negative hfits hexpires
      · trivial

/-- The lookups under the guard. -/
theorem Honest.lookInside (h : s.Honest codec) {stage : Looking}
    (hfits : s.LookingFits codec r stage) (hunexpired : Unexpired r stage) :
    s.LookedFits codec r (s.lookInside codec r stage) := by
  cases stage with
  | atCache =>
      exact h.look hfits
  | found hit =>
      simp only [ServingWorld.lookInside]
      split
      · trivial
      · exact hfits
  | foundAgain hit first =>
      simp only [ServingWorld.lookInside]
      split
      · rename_i hfresh
        exact justified_hit (h.backs_now hfits) hfresh
      · exact justified_stale hfits hunexpired
  | atNegative =>
      exact h.look hfits
  | foundNegative neg =>
      exact h.look hfits

theorem unexpired_of_lookInside {stage next : Looking}
    (h : s.lookInside codec r stage = .goesOn next) : Unexpired r next := by
  cases stage with
  | atCache =>
      simp only [ServingWorld.lookInside, ServingWorld.look] at h
      split at h <;> cases h <;> trivial
  | found hit =>
      simp only [ServingWorld.lookInside] at h
      split at h
      · cases h
        trivial
      · rename_i hunexpired
        cases h
        exact hunexpired
  | foundAgain hit first =>
      simp only [ServingWorld.lookInside] at h
      split at h <;> cases h
  | atNegative =>
      simp only [ServingWorld.lookInside, ServingWorld.look] at h
      split at h <;> cases h
      trivial
  | foundNegative neg =>
      simp only [ServingWorld.lookInside, ServingWorld.look] at h
      split at h <;> cases h

end Looks

end ServingWorld

end HifiApi
