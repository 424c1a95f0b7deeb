import HifiApi.Lib.Separated
import HifiApi.Lib.System
import HifiApi.Lib.Threads
import HifiApi.Routes.Tracks

/-!
# Never another track

Tidal answers some ids with the audio of another one.  Such an answer is served only if
the metadata of both ids name one recording, and the verdict is kept for a while under
the two ids.  Any number of fetches run at once and share the verdicts.
-/

namespace HifiApi

namespace Tracks

/-- What stays the same when a recording gets a new id. -/
structure Recording where
  isrc : String
  seconds : I64
  deriving DecidableEq

def sameRecordingSeconds : Int := 2

namespace Recording

/-- From the metadata of a track. -/
def of (track : Value) : Option Recording := do
  let isrc ← (track.get "isrc").bind Value.asStr
  let upper := String.ofList ((AccountState.trim isrc.toList).map Char.toUpper)
  let seconds ← (track.get "duration").bind Value.asI64
  if upper ≠ "" then some ⟨upper, seconds⟩ else none

/-- The difference of two lengths and its absolute value wrap at the ends of the type. -/
def gap (a b : I64) : Int := I64.wrap (I64.wrap (a.val - b.val)).natAbs

/-- Why another recording is not this one. -/
def difference (a b : Recording) : Option String :=
  if a.isrc ≠ b.isrc then some s!"ISRC {a.isrc} ≠ {b.isrc}"
  else if sameRecordingSeconds < gap a.seconds b.seconds then
    some s!"length {a.seconds.val} s ≠ {b.seconds.val} s"
  else none

/-- One recording: the same ISRC, and lengths that are close. -/
def Same (a b : Recording) : Prop :=
  a.isrc = b.isrc ∧ (0 ≤ a.seconds.val -> 0 ≤ b.seconds.val ->
    a.seconds.val - b.seconds.val ≤ 2 ∧ b.seconds.val - a.seconds.val ≤ 2)

theorem wrap_of_lt {n : Int} (hlow : -9223372036854775808 ≤ n)
    (hhigh : n < 9223372036854775808) : I64.wrap n = n := by
  unfold I64.wrap
  omega

theorem same_of_difference {a b : Recording} (h : a.difference b = none) : a.Same b := by
  unfold difference at h
  split at h
  · cases h
  · rename_i hisrc
    refine ⟨not_not.mp hisrc, fun ha hb => ?_⟩
    split at h
    · cases h
    · rename_i hclose
      have hupperA := a.seconds.upper
      have hupperB := b.seconds.upper
      unfold gap sameRecordingSeconds at hclose
      rw [wrap_of_lt (n := a.seconds.val - b.seconds.val) (by omega) (by omega),
        wrap_of_lt (by omega) (by omega)] at hclose
      omega

end Recording

/-!
## Fetches and the verdicts they share
-/

def replacementTtlSecs : Nat := 6 * 3600

/-- A verdict: why the id must be refused, if it must, and when it was put in. -/
structure Verdict where
  reason : Option String
  at_ : Nat

/-- {lit}`requested:seen` -/
def verdictKey (requested seen : String) : String :=
  String.ofList (AccountState.trim requested.toList) ++ ":" ++ seen

/-- Where a fetch stands. -/
inductive Stage where
  /-- Tidal has been asked. -/
  | asked
  /-- The answer names another track. -/
  | looking (result : Value) (seen : String)
  /-- The metadata of both ids have been asked for. -/
  | comparing (result : Value) (seen : String)
  | saving (result : Value) (seen : String) (wanted got : Recording)

structure Task where
  fetch : Fetch
  stage : Stage

structure Playing where
  verdicts : String -> Option Verdict
  tasks : List Task

/-- How a fetch ended, and the answer of Tidal it was made from. -/
structure Ended where
  fetch : Fetch
  result : Option Value
  answer : Except AppError Payload
  at_ : Nat

/-- A comparison whose verdict was put in. -/
structure Compared where
  requested : String
  seen : String
  wanted : Recording
  got : Recording
  at_ : Nat

inductive Action where
  | start (fetch : Fetch)
  | answered (i : Nat) (upstream : Except AppError Value) (now : Nat)
  | look (i : Nat) (now : Nat)
  /-- Both answers with metadata have come; each may be an error. -/
  | compare (i : Nat) (wanted got : Except AppError Value) (now : Nat)
  | save (i : Nat) (now : Nat)
  /-- A verdict makes room for others. -/
  | evict (key : String)
  /-- {lit}`invalidate_all` -/
  | clear

namespace Playing

def new : Playing := ⟨fun _ => none, []⟩

/-- The verdict that is found at a time. -/
def get (s : Playing) (key : String) (now : Nat) : Option Verdict :=
  (s.verdicts key).filter fun v => decide (now < v.at_ + replacementTtlSecs)

def put (s : Playing) (key : String) (v : Verdict) : Playing :=
  { s with verdicts := fun k => if k = key then some v else s.verdicts k }

def moveTo (s : Playing) (i : Nat) (stage : Stage) : Playing :=
  { s with tasks := s.tasks.modify i fun t => { t with stage := stage } }

def leave (s : Playing) (i : Nat) : Playing := { s with tasks := s.tasks.eraseIdx i }

end Playing

def notCompared : String := "could not compare ISRC and length"

/-- The metadata of one id. -/
def recording (track : Except AppError Value) : Option Recording :=
  track.toOption.bind Recording.of

section Runs

variable (p : Parsers)

/-- The end of a fetch after a verdict. -/
def decided (f : Fetch) (result : Value) (seen : String) (reason : Option String) (now : Nat) :
    Ended where
  fetch := f
  result := some result
  answer :=
    match reason with
    | some reason => .error (f.refused seen reason)
    | none => f.finish p result
  at_ := now

/-- What an answer of Tidal is refused for at once, or the other track that it names. -/
def received (f : Fetch) (result : Value) : Except AppError (Option String) :=
  match f.preview result with
  | some e => .error e
  | none =>
      match f.incomplete result with
      | some e => .error e
      | none => .ok (f.strange result)

/-- A step of one fetch: the state, or the fetch has ended. -/
def Task.step (s : Playing) (i : Nat) (t : Task) : Action -> Option (Playing × List Ended)
  | .answered _ upstream now =>
      match t.stage with
      | .asked =>
          match upstream with
          | .error e => some (s.leave i, [⟨t.fetch, none, .error e, now⟩])
          | .ok result =>
              match received t.fetch result with
              | .error e => some (s.leave i, [⟨t.fetch, some result, .error e, now⟩])
              | .ok none => some (s.leave i, [⟨t.fetch, some result, t.fetch.finish p result, now⟩])
              | .ok (some seen) => some (s.moveTo i (.looking result seen), [])
      | _ => none
  | .look _ now =>
      match t.stage with
      | .looking result seen =>
          match s.get (verdictKey t.fetch.requested seen) now with
          | some v => some (s.leave i, [decided p t.fetch result seen v.reason now])
          | none => some (s.moveTo i (.comparing result seen), [])
      | _ => none
  | .compare _ wanted got now =>
      match t.stage with
      | .comparing result seen =>
          match recording wanted, recording got with
          | some wanted, some got => some (s.moveTo i (.saving result seen wanted got), [])
          | _, _ =>
              some (s.leave i, [decided p t.fetch result seen (some notCompared) now])
      | _ => none
  | .save _ now =>
      match t.stage with
      | .saving result seen wanted got =>
          let reason := wanted.difference got
          some ((s.put (verdictKey t.fetch.requested seen) ⟨reason, now⟩).leave i,
            [decided p t.fetch result seen reason now])
      | _ => none
  | .start _ | .evict _ | .clear => none

/-- A step and the fetches it ends. -/
def turn (s : Playing) (a : Action) : Option (Playing × List Ended) :=
  match a with
  | .start fetch => some ({ s with tasks := s.tasks ++ [⟨fetch, .asked⟩] }, [])
  | .evict key =>
      some ({ s with verdicts := fun k => if k = key then none else s.verdicts k }, [])
  | .clear => some ({ s with verdicts := fun _ => none }, [])
  | .answered i _ _ | .look i _ | .compare i _ _ _ | .save i _ =>
      s.tasks[i]?.bind fun t => t.step p s i a

/-- The fetches as a step system. -/
def system : System Playing Action := ⟨fun s a => (turn p s a).map Prod.fst⟩

def ended (s : Playing) (a : Action) : List Ended := ((turn p s a).map Prod.snd).getD []

end Runs

/-- The verdict that a step puts in, and what it was made from. -/
def compared (s : Playing) : Action -> List Compared
  | .save i now =>
      match s.tasks[i]? with
      | some ⟨fetch, .saving _ seen wanted got⟩ =>
          [⟨String.ofList (AccountState.trim fetch.requested.toList), seen, wanted, got, now⟩]
      | _ => []
  | _ => []

/-- The ids that Tidal names are without colons, as numbers are. -/
def plainIds (s : Playing) : Action -> Bool
  | .answered i (.ok result) _ =>
      (s.tasks[i]?.bind fun t => t.fetch.strange result).all fun seen => !seen.toList.contains ':'
  | _ => true

/-!
## What the state says about comparisons
-/

/-- The key of a comparison. -/
def Compared.key (c : Compared) : String := c.requested ++ ":" ++ c.seen

/-- The comparison found one recording. -/
def Compared.Agrees (c : Compared) : Prop := c.wanted.difference c.got = none

/-- The ids of a key, when the second one is without a colon. -/
theorem key_inj {a b c d : String} (hb : ':' ∉ b.toList) (hd : ':' ∉ d.toList)
    (h : a ++ ":" ++ b = c ++ ":" ++ d) : a = c ∧ b = d := by
  have hchars := congrArg String.toList h
  have hcolon : (":" : String).toList = [':'] := rfl
  rw [String.toList_append, String.toList_append, String.toList_append, String.toList_append,
    hcolon, List.append_assoc, List.append_assoc, List.singleton_append,
    List.singleton_append] at hchars
  rcases Separated.append_cons_inj_right hb hd hchars with ⟨hfirst, hsecond⟩
  exact ⟨String.toList_inj.mp hfirst, String.toList_inj.mp hsecond⟩

/-- A fetch under way holds an answer that is no preview and names another track. -/
def Task.Fits (t : Task) : Prop :=
  match t.stage with
  | .asked => True
  | .looking result seen | .comparing result seen | .saving result seen _ _ =>
      t.fetch.preview result = none ∧ t.fetch.strange result = some seen ∧ ':' ∉ seen.toList

/-- Every verdict in favour, and every fetch under way, goes back to what happened. -/
structure Founded (s : Playing) (log : List Compared) : Prop where
  verdicts : forall key v, s.verdicts key = some v -> v.reason = none ->
    exists c, c ∈ log ∧ c.key = key ∧ c.Agrees ∧ c.at_ = v.at_
  tasks : forall t, t ∈ s.tasks -> t.Fits
  plain : forall c, c ∈ log -> ':' ∉ c.seen.toList

/-- An answer that is sent is for the requested track, or for one that a recent
comparison has found to be the same recording. -/
def Ended.Honest (log : List Compared) (e : Ended) : Prop :=
  forall payload, e.answer = .ok payload ->
    exists result, e.result = some result ∧ e.fetch.preview result = none ∧
      (e.fetch.strange result = none ∨
        exists c, c ∈ log ∧ e.fetch.strange result = some c.seen ∧
          c.requested = String.ofList (AccountState.trim e.fetch.requested.toList) ∧
          c.Agrees ∧ e.at_ < c.at_ + replacementTtlSecs)

section Steps

variable {p : Parsers} {s s' : Playing} {log : List Compared} {i : Nat} {t : Task}

theorem Founded.mono {log' : List Compared} (h : Founded s log)
    (hplain : forall c, c ∈ log' -> ':' ∉ c.seen.toList) : Founded s (log ++ log') where
  verdicts := by
    intro key v hv hreason
    rcases h.verdicts key v hv hreason with ⟨c, hc, hrest⟩
    exact ⟨c, List.mem_append_left _ hc, hrest⟩
  tasks := h.tasks
  plain := by
    intro c hc
    rcases List.mem_append.mp hc with hold | hnew
    · exact h.plain c hold
    · exact hplain c hnew

theorem Founded.leave (h : Founded s log) (i : Nat) : Founded (s.leave i) log :=
  ⟨h.verdicts, Threads.forall_eraseIdx h.tasks, h.plain⟩

theorem Founded.moveTo (h : Founded s log) {stage : Stage}
    (hfits : forall t, s.tasks[i]? = some t -> Task.Fits { t with stage := stage }) :
    Founded (s.moveTo i stage) log :=
  ⟨h.verdicts, Threads.forall_modify h.tasks hfits, h.plain⟩

theorem founded_drop (h : Founded s log) (keep : String -> Bool) :
    Founded { s with verdicts := fun k => if keep k then s.verdicts k else none } log := by
  refine ⟨?_, h.tasks, h.plain⟩
  intro key v hv hreason
  dsimp only at hv
  split at hv
  · exact h.verdicts key v hv hreason
  · cases hv

theorem honest_of_error {f : Fetch} {result : Option Value} {e : AppError} {now : Nat} :
    Ended.Honest log ⟨f, result, .error e, now⟩ := by
  intro payload hpayload
  cases hpayload

/-- The end of a fetch by a verdict that a comparison stands behind. -/
theorem honest_decided {f : Fetch} {result : Value} {seen : String} {reason : Option String}
    {now : Nat} (hpreview : f.preview result = none)
    (hstrange : f.strange result = some seen)
    (hnone : reason = none -> exists c, c ∈ log ∧ c.seen = seen ∧
      c.requested = String.ofList (AccountState.trim f.requested.toList) ∧ c.Agrees ∧
      now < c.at_ + replacementTtlSecs) :
    (decided p f result seen reason now).Honest log := by
  intro payload hpayload
  refine ⟨result, rfl, hpreview, Or.inr ?_⟩
  cases hreason : reason with
  | some text =>
      rw [hreason] at hpayload
      cases hpayload
  | none =>
      rcases hnone hreason with ⟨c, hc, hseen, hrequested, hagrees, hlate⟩
      exact ⟨c, hc, hseen ▸ hstrange, hrequested, hagrees, hlate⟩

/-- What passes the first checks is no preview. -/
theorem received_ok {f : Fetch} {result : Value} {other : Option String}
    (h : received f result = .ok other) :
    f.preview result = none ∧ f.strange result = other := by
  unfold received at h
  split at h
  · cases h
  · rename_i hpreview
    split at h
    · cases h
    · exact ⟨hpreview, Except.ok.inj h⟩

theorem step_answered {upstream : Except AppError Value} {now : Nat} {es : List Ended}
    (h : Founded s log) (hget : s.tasks[i]? = some t)
    (hplain : plainIds s (.answered i upstream now) = true)
    (hstep : t.step p s i (.answered i upstream now) = some (s', es)) :
    Founded s' log ∧ forall e, e ∈ es -> e.Honest log := by
  unfold Task.step at hstep
  dsimp only at hstep
  split at hstep
  · cases upstream with
    | error e =>
        cases hstep
        exact ⟨h.leave i, fun e he => List.mem_singleton.mp he ▸ honest_of_error⟩
    | ok result =>
        dsimp only at hstep
        cases hreceived : received t.fetch result with
        | error e =>
            rw [hreceived] at hstep
            cases hstep
            exact ⟨h.leave i, fun e he => List.mem_singleton.mp he ▸ honest_of_error⟩
        | ok other =>
            rw [hreceived] at hstep
            rcases received_ok hreceived with ⟨hpreview, hother⟩
            cases other with
            | none =>
                cases hstep
                refine ⟨h.leave i, fun e he => ?_⟩
                rw [List.mem_singleton.mp he]
                exact fun payload _ => ⟨result, rfl, hpreview, Or.inl hother⟩
            | some seen =>
                cases hstep
                have hcolon : ':' ∉ seen.toList := by
                  have hall : ((s.tasks[i]?.bind fun t => t.fetch.strange result).all
                      fun seen => !seen.toList.contains ':') = true := hplain
                  rw [hget, Option.bind_some, hother, Option.all_some] at hall
                  simpa using hall
                refine ⟨h.moveTo ?_, fun e he => by cases he⟩
                intro u hu
                rw [hget] at hu
                cases hu
                exact ⟨hpreview, hother, hcolon⟩
  · cases hstep

theorem step_look {now : Nat} {es : List Ended} (h : Founded s log)
    (hget : s.tasks[i]? = some t) (hstep : t.step p s i (.look i now) = some (s', es)) :
    Founded s' log ∧ forall e, e ∈ es -> e.Honest log := by
  have hfits := h.tasks t (List.mem_of_getElem? hget)
  unfold Task.step at hstep
  dsimp only at hstep
  split at hstep
  · rename_i result seen hstage
    unfold Task.Fits at hfits
    rw [hstage] at hfits
    cases hfound : s.get (verdictKey t.fetch.requested seen) now with
    | none =>
        rw [hfound] at hstep
        cases hstep
        refine ⟨h.moveTo ?_, fun e he => by cases he⟩
        intro u hu
        rw [hget] at hu
        cases hu
        exact hfits
    | some v =>
        rw [hfound] at hstep
        cases hstep
        rcases Option.filter_eq_some_iff.mp hfound with ⟨hv, hfresh⟩
        refine ⟨h.leave i, fun e he => ?_⟩
        rw [List.mem_singleton.mp he]
        refine honest_decided hfits.left hfits.right.left fun hreason => ?_
        rcases h.verdicts _ v hv hreason with ⟨c, hc, hkey, hagrees, hat⟩
        have hsame := key_inj (h.plain c hc) hfits.right.right hkey
        refine ⟨c, hc, hsame.right, hsame.left, hagrees, ?_⟩
        rw [hat]
        exact of_decide_eq_true hfresh
  · cases hstep

theorem step_compare {wanted got : Except AppError Value} {now : Nat} {es : List Ended}
    (h : Founded s log) (hget : s.tasks[i]? = some t)
    (hstep : t.step p s i (.compare i wanted got now) = some (s', es)) :
    Founded s' log ∧ forall e, e ∈ es -> e.Honest log := by
  have hfits := h.tasks t (List.mem_of_getElem? hget)
  unfold Task.step at hstep
  dsimp only at hstep
  split at hstep
  · rename_i result seen hstage
    unfold Task.Fits at hfits
    rw [hstage] at hfits
    split at hstep
    · cases hstep
      refine ⟨h.moveTo ?_, fun e he => by cases he⟩
      intro u hu
      rw [hget] at hu
      cases hu
      exact hfits
    · cases hstep
      refine ⟨h.leave i, fun e he => ?_⟩
      rw [List.mem_singleton.mp he]
      refine honest_decided hfits.left hfits.right.left fun hreason => ?_
      cases hreason
  · cases hstep

theorem step_save {now : Nat} {es : List Ended} (h : Founded s log)
    (hget : s.tasks[i]? = some t) (hstep : t.step p s i (.save i now) = some (s', es)) :
    Founded s' (log ++ compared s (.save i now)) ∧
      forall e, e ∈ es -> e.Honest (log ++ compared s (.save i now)) := by
  have hfits := h.tasks t (List.mem_of_getElem? hget)
  unfold Task.step at hstep
  dsimp only at hstep
  rcases t with ⟨fetch, stage⟩
  dsimp only at hstep
  split at hstep
  · rename_i result seen wanted got
    cases hstep
    have hcompared : compared s (.save i now) =
        [⟨String.ofList (AccountState.trim fetch.requested.toList), seen, wanted, got, now⟩] := by
      unfold compared
      dsimp only
      rw [hget]
    rw [hcompared]
    have hnew := @Founded.mono _ _
      [⟨String.ofList (AccountState.trim fetch.requested.toList), seen, wanted, got, now⟩]
      h (fun c hc => List.mem_singleton.mp hc ▸ hfits.right.right)
    have hlast : forall (c : Compared) (l : List Compared), c ∈ l ++ [c] :=
      fun c l => List.mem_append_right l List.mem_cons_self
    refine ⟨⟨?_, Threads.forall_eraseIdx hnew.tasks, hnew.plain⟩, fun e he => ?_⟩
    · intro key v hv hreason
      have hv' : (if key = verdictKey fetch.requested seen then
          some ⟨wanted.difference got, now⟩ else s.verdicts key) = some v := hv
      split at hv'
      · rename_i hkey
        cases hv'
        exact ⟨_, hlast _ _, hkey.symm, hreason, rfl⟩
      · exact hnew.verdicts key v hv' hreason
    · rw [List.mem_singleton.mp he]
      refine honest_decided hfits.left hfits.right.left fun hreason => ?_
      refine ⟨_, hlast _ _, rfl, rfl, hreason, ?_⟩
      have hpos : 0 < replacementTtlSecs := by decide
      exact Nat.lt_add_of_pos_right hpos
  · cases hstep

/-- Every step keeps what is known to be founded, and ends fetches honestly. -/
theorem founded_turn {a : Action} {es : List Ended} (h : Founded s log)
    (hplain : plainIds s a = true) (hstep : turn p s a = some (s', es)) :
    Founded s' (log ++ compared s a) ∧ forall e, e ∈ es -> e.Honest (log ++ compared s a) := by
  cases a with
  | start fetch =>
      cases hstep
      show Founded _ (log ++ []) ∧ _
      rw [List.append_nil]
      exact ⟨⟨h.verdicts, Threads.forall_concat h.tasks trivial, h.plain⟩,
        fun e he => by cases he⟩
  | evict key =>
      cases hstep
      show Founded _ (log ++ []) ∧ _
      rw [List.append_nil]
      refine ⟨?_, fun e he => by cases he⟩
      have hdrop := founded_drop h fun k => !decide (k = key)
      simpa using hdrop
  | clear =>
      cases hstep
      show Founded _ (log ++ []) ∧ _
      rw [List.append_nil]
      exact ⟨founded_drop h fun _ => false, fun e he => by cases he⟩
  | answered i upstream now =>
      rcases Option.bind_eq_some_iff.mp hstep with ⟨t, hget, ht⟩
      show Founded _ (log ++ []) ∧ forall e, e ∈ es -> e.Honest (log ++ [])
      rw [List.append_nil]
      exact step_answered h hget hplain ht
  | look i now =>
      rcases Option.bind_eq_some_iff.mp hstep with ⟨t, hget, ht⟩
      show Founded _ (log ++ []) ∧ forall e, e ∈ es -> e.Honest (log ++ [])
      rw [List.append_nil]
      exact step_look h hget ht
  | compare i wanted got now =>
      rcases Option.bind_eq_some_iff.mp hstep with ⟨t, hget, ht⟩
      show Founded _ (log ++ []) ∧ forall e, e ∈ es -> e.Honest (log ++ [])
      rw [List.append_nil]
      exact step_compare h hget ht
  | save i now =>
      rcases Option.bind_eq_some_iff.mp hstep with ⟨t, hget, ht⟩
      exact step_save h hget ht

end Steps

/-!
## Whole runs
-/

theorem founded_new : Founded Playing.new [] where
  verdicts := by
    intro key v hv
    cases hv
  tasks := by
    intro t ht
    cases ht
  plain := by
    intro c hc
    cases hc

theorem founded_of_run {p : Parsers} {actions : List Action} {s' : Playing}
    (hplain : (system p).Along (fun s a => plainIds s a = true) Playing.new actions)
    (hrun : (system p).run Playing.new actions = some s') :
    Founded s' ((system p).history compared Playing.new actions) := by
  have hend : Founded s' ([] ++ (system p).history compared Playing.new actions) :=
    System.run_history_invariant (fun s a s' log h hP hstep => by
      rcases Option.map_eq_some_iff.mp hstep with ⟨⟨t, es⟩, hturn, heq⟩
      cases heq
      exact (founded_turn h hP hturn).left)
    founded_new hplain hrun
  rwa [List.nil_append] at hend

/-- In every run, whatever is sent was made from an answer that is no preview, and that
names no other track than the requested one, unless the metadata of both have been
compared within six hours and told one recording. -/
theorem never_another_track {p : Parsers} {actions : List Action} {s' : Playing} {e : Ended}
    {payload : Payload}
    (hplain : (system p).Along (fun s a => plainIds s a = true) Playing.new actions)
    (hrun : (system p).run Playing.new actions = some s')
    (he : e ∈ (system p).history (ended p) Playing.new actions)
    (hok : e.answer = .ok payload) :
    exists result, e.result = some result ∧ e.fetch.preview result = none ∧
      (e.fetch.strange result = none ∨
        exists before after c, actions = before ++ after ∧
          c ∈ (system p).history compared Playing.new before ∧
          e.fetch.strange result = some c.seen ∧
          c.requested = String.ofList (AccountState.trim e.fetch.requested.toList) ∧
          c.wanted.Same c.got ∧ e.at_ < c.at_ + replacementTtlSecs) := by
  rcases System.exists_step_of_mem_history hrun he with
    ⟨before, a, after, s, t, heq, hbefore, hended, hstep, hafter⟩
  rw [heq] at hplain
  have hsplit := (System.along_append hbefore).mp hplain
  have hfounded := founded_of_run hsplit.left hbefore
  rcases Option.map_eq_some_iff.mp hstep with ⟨⟨u, es⟩, hturn, hu⟩
  have hhonest := (founded_turn hfounded hsplit.right.left hturn).right
  have hmem : e ∈ es := by
    unfold ended at hended
    rw [hturn] at hended
    exact hended
  rcases hhonest e hmem payload hok with ⟨result, hresult, hpreview, hstrange⟩
  refine ⟨result, hresult, hpreview, ?_⟩
  rcases hstrange with hnone | ⟨c, hc, hseen, hrequested, hagrees, hlate⟩
  · exact Or.inl hnone
  · refine Or.inr ⟨before ++ [a], after, c, ?_, ?_, hseen, hrequested,
      Recording.same_of_difference hagrees, hlate⟩
    · rw [heq, List.append_assoc]
      rfl
    · rw [System.history_append hbefore]
      have hlast : (system p).history compared s [a] = compared s a := by
        unfold System.history
        rw [hstep]
        exact List.append_nil _
      rw [hlast]
      exact hc

/-- An answer that names a track. -/
def audioOf (trackId : Int) : Value :=
  .object [("data", .object [("trackId", .number trackId),
    ("assetPresentation", .string "FULL")])]

def metadata (isrc : String) (seconds : Int) : Value :=
  .object [("isrc", .string isrc), ("duration", .number seconds)]

def sampleParsers : Parsers := ⟨fun _ => none, fun _ => none⟩

/-- A retired id is answered with its re-release, which is compared once and served twice. -/
def replacedTrack : List Action :=
  [.start (.track (I64.ofNat 3686705) "HIGH" false), .answered 0 (.ok (audioOf 360563532)) 10,
    .look 0 10,
    .compare 0 (.ok (metadata "ITB009800123" 213)) (.ok (metadata " itb009800123" 215)) 11,
    .save 0 12, .start (.track (I64.ofNat 3686705) "HIGH" false),
    .answered 0 (.ok (audioOf 360563532)) 20, .look 0 20]

theorem never_another_track_replaced :
    exists result, some (audioOf 360563532) = some result ∧
      Fetch.preview (.track (I64.ofNat 3686705) "HIGH" false) result = none ∧
      (Fetch.strange (.track (I64.ofNat 3686705) "HIGH" false) result = none ∨
        exists before after c, replacedTrack = before ++ after ∧
          c ∈ (system sampleParsers).history compared Playing.new before ∧
          Fetch.strange (.track (I64.ofNat 3686705) "HIGH" false) result = some c.seen ∧
          c.requested = String.ofList (AccountState.trim
            (Fetch.requested (.track (I64.ofNat 3686705) "HIGH" false)).toList) ∧
          c.wanted.Same c.got ∧ 20 < c.at_ + replacementTtlSecs) :=
  @never_another_track sampleParsers replacedTrack _
    ⟨.track (I64.ofNat 3686705) "HIGH" false, some (audioOf 360563532),
      .ok (.json (audioOf 360563532)), 20⟩ (.json (audioOf 360563532)) (by decide) rfl
    (List.mem_cons_of_mem _ List.mem_cons_self) rfl

end Tracks

end HifiApi
