import HifiApi.Routes.Substitutes

/-!
# Manifests on their way to the player

A manifest of Tidal is sent on with three fields of its own: whether it has a rendition in
Dolby Atmos, and the two addresses for licenses, which lead through this server.  All else
stays as Tidal sent it.
-/

namespace HifiApi

namespace Value

/-!
## Changes at a path
-/

/-- A change of what a path through objects leads to. -/
def modifyAt (v : Value) : List String -> (Value -> Value) -> Value
  | [], f => f v
  | k :: rest, f => v.modifyField k fun w => w.modifyAt rest f

/-- Neither path lies on the other. -/
def Diverge (p q : List String) : Prop := ¬ p <+: q ∧ ¬ q <+: p

instance (p q : List String) : Decidable (Diverge p q) :=
  inferInstanceAs (Decidable (_ ∧ _))

theorem Diverge.tail {k : String} {p q : List String} (h : Diverge (k :: p) (k :: q)) :
    Diverge p q :=
  ⟨fun hpq => h.left (List.cons_prefix_cons.mpr ⟨rfl, hpq⟩),
    fun hqp => h.right (List.cons_prefix_cons.mpr ⟨rfl, hqp⟩)⟩

theorem get_modifyField (v : Value) (k k' : String) (f : Value -> Value) :
    (v.modifyField k f).get k' = if k' = k then (v.get k').map f else v.get k' := by
  cases v with
  | object fields =>
      unfold modifyField get
      dsimp only
      rw [List.find?_map, Option.map_map]
      have hkeys : (fun field : String × Value => decide (field.1 = k')) ∘
          (fun field => if field.1 = k then (k, f field.2) else field) =
          fun field => decide (field.1 = k') := by
        funext field
        rw [Function.comp]
        split
        · rename_i heq
          rw [heq]
        · rfl
      rw [hkeys]
      cases hfind : fields.find? fun field => decide (field.1 = k') with
      | none =>
          split <;> rfl
      | some field =>
          have hname : field.1 = k' := by simpa using List.find?_some hfind
          rw [Option.map_some, Option.map_some, Function.comp, hname]
          split <;> rfl
  | _ => split <;> rfl

/-- A field of another name is not touched. -/
theorem child_modifyField_ne (v : Value) {k k' : String} (h : k' ≠ k) (f : Value -> Value) :
    (v.modifyField k f).child k' = v.child k' := by
  cases v with
  | object fields => exact (get_modifyField (.object fields) k k' f).trans (if_neg h)
  | _ => rfl

/-- The field itself is changed, or stays missing; a name is no index. -/
theorem child_modifyField (v : Value) {k : String} (hk : arrayIndex k = none)
    (f : Value -> Value) : (v.modifyField k f).child k = (v.child k).map f := by
  cases v with
  | object fields => exact (get_modifyField (.object fields) k k f).trans (if_pos rfl)
  | array items =>
      show (arrayIndex k).bind (items[·]?) = ((arrayIndex k).bind (items[·]?)).map f
      rw [hk]
      rfl
  | _ => rfl

theorem get_insert_ne (v : Value) {k k' : String} (h : k' ≠ k) (x : Value) :
    (v.insert k x).get k' = v.get k' := by
  cases v with
  | object fields =>
      unfold insert get
      dsimp only
      rw [List.find?_cons_of_neg (by simpa using Ne.symm h), List.find?_filter]
      refine congrArg (Option.map _) (congrFun (congrArg _ ?_) fields)
      funext field
      by_cases hname : field.1 = k'
      · rw [hname]
        simp [h]
      · simp [hname]
  | _ => rfl

theorem child_insert_ne (v : Value) {k k' : String} (h : k' ≠ k) (x : Value) :
    (v.insert k x).child k' = v.child k' := by
  cases v with
  | object fields => exact get_insert_ne (.object fields) h x
  | _ => rfl

theorem child_insert_self {v : Value} (hv : v.isObject = true) (k : String) (x : Value) :
    (v.insert k x).child k = some x := by
  cases v with
  | object fields => exact get_insert_self fields k x
  | _ => cases hv

theorem isObject_insert {v : Value} (hv : v.isObject = true) (k : String) (x : Value) :
    (v.insert k x).isObject = true := by
  cases v with
  | object fields => rfl
  | _ => cases hv

/-- Paths apart from a change lead where they led. -/
theorem pointer_modifyAt_apart (v : Value) (p path : List String) (f : Value -> Value)
    (h : Diverge path p) : (v.modifyAt p f).pointer path = v.pointer path := by
  induction p generalizing v path with
  | nil => exact absurd (List.nil_prefix) h.right
  | cons k rest ih =>
      cases path with
      | nil => exact absurd (List.nil_prefix) h.left
      | cons k' path =>
          by_cases hname : k' = k
          · rw [hname] at h ⊢
            cases v with
            | object fields =>
                have hchild := (get_modifyField (.object fields) k k fun w =>
                  w.modifyAt rest f).trans (if_pos rfl)
                show ((modifyField (.object fields) k fun w => w.modifyAt rest f).get k).bind
                  (fun w => w.pointer path) = ((Value.object fields).get k).bind _
                rw [hchild]
                cases (Value.object fields).get k with
                | none => rfl
                | some w => exact ih w path h.tail
            | _ => rfl
          · show ((v.modifyField k fun w => w.modifyAt rest f).child k').bind _ = _
            rw [child_modifyField_ne v hname]
            rfl

/-- A path through the change reads what it made. -/
theorem pointer_modifyAt_append (v : Value) {p : List String} (q : List String)
    (f : Value -> Value) (hp : forall k, k ∈ p -> arrayIndex k = none) :
    (v.modifyAt p f).pointer (p ++ q) = (v.pointer p).bind fun w => (f w).pointer q := by
  induction p generalizing v with
  | nil => rfl
  | cons k rest ih =>
      show ((v.modifyField k fun w => w.modifyAt rest f).child k).bind _ =
        ((v.child k).bind fun w => w.pointer rest).bind _
      rw [child_modifyField v (hp k List.mem_cons_self)]
      cases v.child k with
      | none => rfl
      | some w => exact ih w fun k hk => hp k (List.mem_cons_of_mem _ hk)

theorem pointer_append (v : Value) (p q : List String) :
    v.pointer (p ++ q) = (v.pointer p).bind fun w => w.pointer q := by
  induction p generalizing v with
  | nil => rfl
  | cons k rest ih =>
      show (v.child k).bind _ = ((v.child k).bind _).bind _
      rw [Option.bind_assoc]
      exact congrArg _ (funext fun w => ih w)

end Value

namespace Tracks

open Value

/-!
## What is changed in a manifest
-/

def drmPath : List String := ["data", "data", "attributes", "drmData"]

def proxyUrl (host : String) : Value := .string s!"https://{host}/widevine"

/-- The fields that the server writes. -/
def ownFields : List (List String) :=
  [["atmos_available"], drmPath ++ ["licenseUrl"], drmPath ++ ["certificateUrl"]]

def withUrls (host : String) (drm : Value) : Value :=
  (drm.insert "licenseUrl" (proxyUrl host)).insert "certificateUrl" (proxyUrl host)

theorem withProxy_eq (host : String) (v : Value) :
    Fetch.withProxy host v = v.modifyAt drmPath (withUrls host) := rfl

theorem pointer_withUrls_ne (host : String) (drm : Value) {k : String} {q : List String}
    (hlicense : k ≠ "licenseUrl") (hcertificate : k ≠ "certificateUrl") :
    (withUrls host drm).pointer (k :: q) = drm.pointer (k :: q) := by
  show ((withUrls host drm).child k).bind _ = (drm.child k).bind _
  unfold withUrls
  rw [child_insert_ne _ hcertificate, child_insert_ne _ hlicense]

theorem drmPath_names : forall k, k ∈ drmPath -> arrayIndex k = none := by decide

/-- A path that leaves the addresses aside is not touched by them. -/
theorem pointer_withProxy (host : String) (v : Value) {path : List String}
    (hlicense : Diverge path (drmPath ++ ["licenseUrl"]))
    (hcertificate : Diverge path (drmPath ++ ["certificateUrl"])) :
    (Fetch.withProxy host v).pointer path = v.pointer path := by
  rw [withProxy_eq]
  by_cases hbelow : drmPath <+: path
  · rcases hbelow with ⟨q, hq⟩
    cases q with
    | nil =>
        rw [List.append_nil] at hq
        exact absurd (hq ▸ List.prefix_append drmPath ["licenseUrl"]) hlicense.left
    | cons k q =>
        have hne : forall name, Diverge path (drmPath ++ [name]) -> k ≠ name := by
          intro name hname heq
          apply hname.right
          rw [← hq, heq]
          exact (List.prefix_append_right_inj drmPath).mpr
            (List.cons_prefix_cons.mpr ⟨rfl, List.nil_prefix⟩)
        rw [← hq, pointer_modifyAt_append v _ _ drmPath_names, pointer_append]
        exact congrArg _ (funext fun drm =>
          pointer_withUrls_ne host drm (hne _ hlicense) (hne _ hcertificate))
  · refine pointer_modifyAt_apart v drmPath path _ ⟨?_, hbelow⟩
    intro habove
    exact hlicense.left (habove.trans (List.prefix_append _ _))

/-- A manifest with the license addresses of Tidal. -/
def drmManifest : Value :=
  .object [("data", .object [("data", .object [("id", .string "1"), ("attributes",
    .object [("formats", .array [.string "EAC3_JOC"]), ("drmData",
      .object [("licenseUrl", .string "https://license.tidal.com"),
        ("drmSystem", .string "WIDEVINE")])])])])]

end Tracks

end HifiApi
