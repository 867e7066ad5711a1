import Promptry.Template.Render

/-!
What the errors of rendering say is the case: a partial that is reported as missing is not
registered, a helper that is reported as missing is not known, and so on. Helpers of the caller are
assumed to keep to this; those that every template knows do. Main statements:
`honest_builtinHelpers`, `honest_renderAll` and `honest_renderSource`.
-/

namespace Promptry.Template

/-- What an error says of the library and of the template is the case. -/
def Truthful (lib : Library) : RenderError → Prop
  | .partialNotFound name => lib.partials.lookup name = none
  | .helperNotFound name => lib.helper? name = none
  | .decoratorNotFound name => name ≠ "inline"
  | .notAnIndex key => Numeral.ofText? key = none
  | _ => True

/-- A computation that fails with truthful errors only. -/
def Honest (lib : Library) {α : Type} (x : Except RenderError α) : Prop :=
  ∀ err, x = .error err → Truthful lib err

variable {lib : Library} {α β : Type}

namespace Honest

theorem ok (v : α) : Honest lib (.ok v) := nofun

theorem error {err : RenderError} (truthful : Truthful lib err) :
    Honest lib (.error err : Except RenderError α) := by
  rintro _ ⟨⟩
  exact truthful

theorem bind {x : Except RenderError α} {f : α → Except RenderError β} (first : Honest lib x)
    (second : ∀ v, Honest lib (f v)) : Honest lib (x >>= f) := by
  intro err failed
  cases x with
  | error _ => cases failed; exact first err rfl
  | ok v => exact second v err failed

theorem foldlM {f : β → α → Except RenderError β} (step : ∀ b a, Honest lib (f b a)) :
    ∀ (as : List α) (b : β), Honest lib (as.foldlM f b)
  | [], b => ok b
  | a :: as, b => by
    rw [List.foldlM_cons]
    exact (step b a).bind fun b' => foldlM step as b'

end Honest

/-! ### Helpers -/

/-- A helper that fails truthfully, whatever it is called with. -/
def HonestHelper (lib : Library) (helper : Helper) : Prop := ∀ c, Honest lib (helper c)

namespace Helper

theorem honest_param (helper : String) (c : Call) (index : Nat) :
    Honest lib (param helper c index) := by
  rw [param]
  split
  · exact .ok _
  · exact .error trivial

theorem honest_namedParam (helper name : String) (c : Call) (index : Nat) :
    Honest lib (namedParam helper name c index) := by
  rw [namedParam]
  split
  · exact .ok _
  · exact .error trivial

theorem honest_textParam (helper : String) (c : Call) (index : Nat) :
    Honest lib (textParam helper c index) := by
  rw [textParam]
  split
  · exact .ok _
  · exact .error trivial
  · exact .error trivial

theorem honest_ifHelper (positive : Bool) : HonestHelper lib (ifHelper positive) := fun c =>
  (honest_param _ c 0).bind fun _ => .ok _

theorem honest_eachHelper : HonestHelper lib eachHelper := fun c =>
  (honest_param _ c 0).bind fun v => by split <;> exact .ok _

theorem honest_withHelper : HonestHelper lib withHelper := fun c =>
  (honest_param _ c 0).bind fun v => by split <;> exact .ok _

theorem honest_lookupHelper : HonestHelper lib lookupHelper := fun c =>
  (honest_param _ c 0).bind fun _ => (honest_param _ c 1).bind fun _ => .ok _

theorem honest_logHelper : HonestHelper lib logHelper := fun c => by
  simp only [logHelper]
  split
  all_goals
    split
    · exact .ok _
    · exact .error trivial

theorem honest_binary (name : String) (f : Json → Json → Bool) :
    HonestHelper lib (binary name f) := fun c =>
  (honest_namedParam _ _ c 0).bind fun _ => (honest_namedParam _ _ c 1).bind fun _ => .ok _

theorem honest_notHelper : HonestHelper lib notHelper := fun c =>
  (honest_namedParam _ _ c 0).bind fun _ => .ok _

theorem honest_lenHelper : HonestHelper lib lenHelper := fun c =>
  (honest_namedParam _ _ c 0).bind fun _ => .ok _

theorem honest_roleHelper : HonestHelper lib roleHelper := fun c =>
  (honest_textParam _ c 0).bind fun _ => .ok _

theorem honest_sectionHelper : HonestHelper lib sectionHelper := fun c =>
  (honest_textParam _ c 0).bind fun _ => .ok _

theorem honest_mediaHelper : HonestHelper lib mediaHelper := fun c => by
  simp only [mediaHelper]
  split
  · exact .error trivial
  · exact .ok _

end Helper

open Helper in
theorem honest_builtinHelpers : ∀ entry ∈ builtinHelpers, HonestHelper lib entry.2 := by
  simp only [builtinHelpers, List.forall_mem_cons]
  exact ⟨honest_ifHelper _, honest_ifHelper _, honest_eachHelper, honest_withHelper,
    honest_lookupHelper, fun _ => .ok _, honest_logHelper, honest_binary _ _, honest_binary _ _,
    honest_binary _ _, honest_binary _ _, honest_binary _ _, honest_binary _ _, honest_binary _ _,
    honest_binary _ _, honest_notHelper, honest_lenHelper, honest_roleHelper, fun _ => .ok _,
    honest_sectionHelper, honest_mediaHelper, fun _ => .ok _, fun _ => .ok _, fun _ => .ok _,
    nofun⟩

/-- The helpers that the caller registered fail truthfully. -/
def HonestLibrary (lib : Library) : Prop :=
  ∀ name helper, lib.helpers.lookup name = some helper → HonestHelper lib helper

theorem HonestLibrary.helper? (honest : HonestLibrary lib) {name : String} {helper : Helper}
    (known : lib.helper? name = some helper) : HonestHelper lib helper := by
  rw [Library.helper?, Option.orElse_eq_or] at known
  rcases Option.or_eq_some_iff.mp known with own | ⟨-, builtin⟩
  · exact honest name helper own
  · obtain ⟨before, behind, split, -⟩ := List.lookup_eq_some_iff.mp builtin
    exact honest_builtinHelpers (name, helper) (by rw [split]; simp)

/-! ### Values -/

/-- Only a key that is no index is reported. -/
theorem honest_member (v : Json) (key : String) : Honest lib (member v key) := by
  rw [member.eq_def]
  split
  · exact .ok _
  · split
    · exact .ok _
    · next noIndex => exact .error noIndex
  · exact .ok _

theorem honest_follow (v : Json) (steps : List Step) : Honest lib (follow v steps) := by
  fun_induction follow v steps with
  | case1 => exact .ok _
  | case2 v k rest w found ih => exact ih
  | case3 v k rest err failed => exact .error (honest_member v k err failed)
  | case4 v step rest other ih => exact ih

theorem honest_lookUp (root : Json) (scopes : List Scope) (steps : List Step) :
    Honest lib (Path.lookUp root scopes steps) := by
  rw [Path.lookUp.eq_def]
  split
  · exact honest_follow _ _
  · simp only
    split
    · split <;> exact honest_follow _ _
    · exact honest_follow _ _

theorem honest_value (root : Json) (scopes : List Scope) (p : Path) :
    Honest lib (p.value root scopes) := by
  rw [Path.value]
  split
  · exact .ok _
  · exact honest_lookUp _ _ _

/-- The values of arguments, of which those that fail fail truthfully. -/
def HonestResults (lib : Library) (results : Results) : Prop :=
  ∀ r ∈ results, Honest lib r.2

theorem honest_positionalValues {results : Results} (honest : HonestResults lib results) :
    Honest lib (positionalValues results) := by
  induction results with
  | nil => exact .ok _
  | cons r results ih =>
    obtain ⟨first, rest⟩ := List.forall_mem_cons.mp honest
    obtain ⟨_ | k, v⟩ := r
    · exact first.bind fun _ => (ih rest).bind fun _ => .ok _
    · exact ih rest

theorem honest_namedValues {results : Results} (honest : HonestResults lib results)
    (acc : Fields) : Honest lib (namedValues acc results) := by
  induction results generalizing acc with
  | nil => exact .ok _
  | cons r results ih =>
    obtain ⟨first, rest⟩ := List.forall_mem_cons.mp honest
    obtain ⟨_ | k, v⟩ := r
    · exact ih rest acc
    · exact first.bind fun _ => ih rest _

theorem honest_callOf (p : Place) (blockParams : List String) (hasInverse : Bool)
    {results : Results} (honest : HonestResults lib results) :
    Honest lib (callOf p blockParams hasInverse results) :=
  (honest_positionalValues honest).bind fun _ => (honest_namedValues honest []).bind fun _ => .ok _

mutual

theorem honest_evaluate (honest : HonestLibrary lib) (p : Place) :
    ∀ e : Expr, Honest lib (evaluate lib p e)
  | .word w => by rw [evaluate]; exact .ok _
  | .path path => by rw [evaluate]; exact honest_value _ _ path
  | .literal v => by rw [evaluate]; exact .ok _
  | .invalid t => by rw [evaluate]; exact .ok _
  | .call head args => by
    rw [evaluate]
    refine (honest_callOf p [] false (honest_evaluateAll honest p args)).bind fun call => ?_
    simp only
    split
    · next unknown => exact .error unknown
    · next helper known =>
      refine (honest.helper? known call).bind fun answer => ?_
      split <;> exact .ok _

theorem honest_evaluateAll (honest : HonestLibrary lib) (p : Place) :
    ∀ args : List (Option String × Expr), HonestResults lib (evaluateAll lib p args)
  | [] => by rw [evaluateAll]; exact nofun
  | (name, e) :: rest => by
    rw [evaluateAll]
    exact List.forall_mem_cons.mpr ⟨honest_evaluate honest p e, honest_evaluateAll honest p rest⟩

end

theorem honest_nameOf (honest : HonestLibrary lib) (p : Place) (e : Expr) :
    Honest lib (nameOf lib p e) := by
  rw [nameOf.eq_def]
  split
  · exact (honest_evaluate honest p _).bind fun _ => .ok _
  · exact .ok _

/-! ### Elements -/

/-- What is written fails truthfully, whatever was written before. -/
def HonestAction (lib : Library) (action : Action) : Prop := ∀ st, Honest lib (action st)

theorem honest_decorate (honest : HonestLibrary lib) (p : Place) (head : Head)
    (body : Option (List Element)) : HonestAction lib (decorate lib p head body) := fun st => by
  refine (honest_callOf p [] false (honest_evaluateAll honest p head.args)).bind fun call => ?_
  split
  · split
    · split
      · exact .ok _
      · exact .error trivial
    · exact .error trivial
    · exact .error trivial
  · next other => exact .error other

theorem honest_decorateAll (honest : HonestLibrary lib) (p : Place) (els : List Element) :
    HonestAction lib (decorateAll lib p els) := by
  fun_induction decorateAll lib p els with
  | case1 => exact fun st => .ok st
  | case2 head body rest ih =>
    exact fun st => (honest_decorate honest p head body st).bind fun st' => ih st'
  | case3 e rest other ih => exact ih

/-- A partial is reported as missing only if it is not registered. -/
theorem lookup_of_findPartial? {p : Place} {st : State} {name : String}
    {body : Option (List Element)} (missing : findPartial? lib p st name body = none) :
    lib.partials.lookup name = none := by
  rw [findPartial?] at missing
  split at missing
  · cases missing
  · split at missing
    · cases missing
    · assumption

theorem honest_includePartial (honest : HonestLibrary lib) {rec : Include}
    (below : ∀ p els, HonestAction lib (rec p els)) (p : Place) (target : Expr) (args : Arguments)
    (line : Line) (body : Option (List Element)) :
    HonestAction lib (includePartial lib rec p target args line body) := fun st => by
  refine (honest_nameOf honest p target).bind fun name => ?_
  refine (honest_callOf p [] false (honest_evaluateAll honest p args)).bind fun call => ?_
  refine Honest.bind ?_ fun st => ?_
  · split
    · exact honest_decorateAll honest p _ _
    · exact .ok _
  · split
    · exact .error trivial
    · split
      · next missing =>
        split
        · exact .error trivial
        · exact .error (lookup_of_findPartial? missing)
      · exact (below _ _ _).bind fun _ => .ok _

theorem honest_carryOut {body inverse : Place → Action} (bodies : ∀ p, HonestAction lib (body p))
    (inverses : ∀ p, HonestAction lib (inverse p)) (p : Place) (answer : Answer) :
    HonestAction lib (carryOut p body inverse answer) := by
  cases answer with
  | value v => exact fun st => .ok _
  | written text runs =>
    refine fun st => Honest.foldlM (fun st run => ?_) runs _
    split
    · exact bodies _ st
    · exact inverses _ st

theorem honest_callHelper (honest : HonestLibrary lib) (p : Place) (head : Head)
    (fresh hasInverse : Bool) {body inverse : Place → Action}
    (bodies : ∀ p, HonestAction lib (body p)) (inverses : ∀ p, HonestAction lib (inverse p)) :
    HonestAction lib (callHelper lib p head fresh hasInverse body inverse) := fun st => by
  refine (honest_callOf p head.params hasInverse (honest_evaluateAll honest p head.args)).bind
    fun call => ?_
  split
  · next unknown => exact .error unknown
  · next helper known =>
    refine (honest.helper? known call).bind fun answer => ?_
    exact (honest_carryOut bodies inverses p answer _).bind fun _ => .ok _

theorem honest_showValue (honest : HonestLibrary lib) (p : Place) (e : Expr) :
    HonestAction lib (showValue lib p e) := fun st => by
  have nothing : ∀ p, HonestAction lib (noBranch p) := fun _ st => .ok st
  refine (honest_nameOf honest p e).bind fun name => ?_
  split
  · exact honest_callHelper honest p _ _ _ nothing nothing st
  · exact (honest_evaluate honest p e).bind fun _ => .ok _

mutual

theorem honest_render (honest : HonestLibrary lib) {rec : Include}
    (below : ∀ p els, HonestAction lib (rec p els)) (p : Place) :
    ∀ e : Element, HonestAction lib (render lib rec p e)
  | .text s => by
    rw [render]
    exact fun st => .ok _
  | .value e => by
    rw [render]
    exact honest_showValue honest p e
  | .call head => by
    rw [render]
    exact honest_callHelper honest p head false false (fun _ st => .ok st) fun _ st => .ok st
  | .block head fresh body inverse => by
    rw [render]
    refine honest_callHelper honest p head fresh inverse.isSome
      (fun p st => honest_renderAll honest below p body _) fun p st => ?_
    cases inverse with
    | none => exact .ok st
    | some els => exact honest_renderAll honest below p els _
  | .decorator head body => by
    rw [render]
    exact honest_decorate honest p head body
  | .inclusion target args line body => by
    rw [render]
    exact honest_includePartial honest below p target args line body

theorem honest_renderAll (honest : HonestLibrary lib) {rec : Include}
    (below : ∀ p els, HonestAction lib (rec p els)) (p : Place) :
    ∀ els : List Element, HonestAction lib (renderAll lib rec p els)
  | [] => by
    rw [renderAll]
    exact fun st => .ok st
  | e :: es => by
    rw [renderAll]
    intro st
    simp only
    split
    · next st' _ => exact honest_renderAll honest below p es st'
    · next err failed => exact .error (honest_render honest below p e st err failed)

end

theorem honest_renderNested (honest : HonestLibrary lib) (depth : Nat) (p : Place)
    (els : List Element) : HonestAction lib (renderNested lib depth p els) := by
  -- What partials are included with is the renderer one level below.
  induction depth generalizing p els with
  | zero => exact fun _ => .error trivial
  | succ depth ih => exact honest_renderAll honest ih p els

/-- Rendering a template fails truthfully only. -/
theorem honest_renderSource (honest : HonestLibrary lib) (source : String) (root : Json) :
    Honest lib (renderSource lib source root) := by
  rw [renderSource]
  split
  · exact .error trivial
  · exact ((honest_renderNested honest _ _ _ _).bind fun _ => .ok _).bind fun _ => .ok _

end Promptry.Template
