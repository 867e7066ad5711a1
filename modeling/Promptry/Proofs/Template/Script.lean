import Promptry.Proofs.Marker.Cut
import Promptry.Template.Render

/-!
Templates that only speak: literal text, the values of variables, and tags of roles. What such a
template writes is its script with the values put in (`renderSource_of_script`), which is cut at
the tags of roles (`joined_cutOf`) as far as no marker is read between them.
-/

namespace Promptry.Template

/-- Something that a template says. -/
inductive Cue where
  | text (s : String)
  /-- The value of a variable. -/
  | value (name : String)
  /-- Somebody else speaks on. -/
  | role (r : Role)
  deriving DecidableEq, Repr

namespace Cue

/-- What is written for a cue when variables are shown as `shows`. -/
def written (shows : String → List Char) : Cue → List Char
  | text s => s.toList
  | value name => shows name
  | role r => (Flow.role r).written

/-- What stands between the roles, with the roles in between. -/
def cutOf (shows : String → List Char) : List Cue → Cut
  | [] => ⟨[], []⟩
  | .text s :: cues => (cutOf shows cues).lead s.toList
  | .value name :: cues => (cutOf shows cues).lead (shows name)
  | .role r :: cues => (cutOf shows cues).behind (.role r)

theorem joined_cutOf (shows : String → List Char) (cues : List Cue) :
    (cutOf shows cues).joined = cues.flatMap (written shows) := by
  induction cues with
  | nil => rfl
  | cons cue cues ih => cases cue <;> simp [cutOf, written, ih]

end Cue

/-- How a variable of the root is shown; what is missing is shown as nothing. -/
def shownAt (root : Fields) (name : String) : List Char :=
  shown ((Fields.get? root name).getD .null)

theorem shown_str (s : String) : shown (.str s) = s.toList := rfl

theorem shown_obj (fs : Fields) : shown (.obj fs) = "[object]".toList := rfl

/-- The role that a tag names. -/
def Head.role? (head : Head) : Option Role :=
  match head.args with
  | [(none, .literal (.str s))] => if head.name = "role" then Role.ofName? s else none
  | _ => none

theorem Head.role?_eq_some {head : Head} {r : Role} (h : head.role? = some r) :
    head.name = "role" ∧ head.args = [(none, .literal (.str r.name))] := by
  unfold role? at h
  split at h
  · rename_i s args
    obtain ⟨name, known⟩ := Option.ite_none_right_eq_some.mp h
    rw [Role.name_of_ofName? known]
    exact ⟨name, args⟩
  · cases h

/-- The variable that an expression is; a name that stands for a helper is none. -/
def Expr.named? (lib : Library) : Expr → Option String
  | .path ⟨written, [.key name]⟩ => if lib.helper? written |>.isSome then none else some name
  | _ => none

theorem Expr.named?_eq_some {lib : Library} {e : Expr} {name : String}
    (h : e.named? lib = some name) :
    ∃ written, e = .path ⟨written, [.key name]⟩ ∧ lib.helper? written = none := by
  unfold named? at h
  split at h
  · rename_i written key
    obtain ⟨noHelper, same⟩ := Option.ite_none_left_eq_some.mp h
    cases same
    exact ⟨written, rfl, by simpa using noHelper⟩
  · cases h

mutual

/-- What an element says, if it only speaks. A tag of a role may have the role speak inside it. -/
def Element.cues? (lib : Library) : Element → Option (List Cue)
  | .text s => some [.text s]
  | .value e => (e.named? lib).map fun name => [.value name]
  | .call head => head.role?.map fun r => [.role r]
  | .block head _ body _ => do
      let r ← head.role?
      let inner ← cuesAll? lib body
      return .role r :: inner
  | _ => none

def cuesAll? (lib : Library) : List Element → Option (List Cue)
  | [] => some []
  | e :: es => do
      let here ← e.cues? lib
      let later ← cuesAll? lib es
      return here ++ later

end

/-- The script of a template, if the template only speaks. -/
def script? (lib : Library) (source : String) : Option (List Cue) :=
  match compile false source with
  | .ok els => cuesAll? lib els
  | .error _ => none

/-! ### What is written -/

namespace Sheet

theorem text_write (s : Sheet) (cs : List Char) : (s.write none cs).text = s.text ++ cs := by
  unfold write
  split
  · rename_i empty
    simp [List.isEmpty_iff.mp empty]
  · simp [text]

theorem text_enter (s : Sheet) (fresh : Bool) : (s.enter fresh).text = s.text := rfl

theorem text_leave (s outer : Sheet) : (s.leave outer).text = s.text := by
  unfold leave
  split <;> rfl

end Sheet

/-- Succeeds with `cs` written behind what was there. -/
def Writes (action : Action) (cs : List Char) : Prop :=
  ∀ st, ∃ st', action st = .ok st' ∧ st'.sheet.text = st.sheet.text ++ cs

theorem writes_noBranch (p : Place) : Writes (noBranch p) [] :=
  fun st => ⟨st, rfl, (List.append_nil _).symm⟩

section

variable {lib : Library} {rec : Include} {p : Place}

theorem writes_renderAll_nil : Writes (renderAll lib rec p []) [] := by
  intro st
  exact ⟨st, renderAll_nil lib rec p st, (List.append_nil _).symm⟩

theorem Writes.renderAll_cons {e : Element} {els : List Element} {cs ds : List Char}
    (first : Writes (render lib rec p e) cs) (rest : Writes (renderAll lib rec p els) ds) :
    Writes (renderAll lib rec p (e :: els)) (cs ++ ds) := by
  intro st
  obtain ⟨st', rendered, text⟩ := first st
  obtain ⟨st'', renderedRest, textRest⟩ := rest st'
  refine ⟨st'', ?_, by rw [textRest, text, List.append_assoc]⟩
  simp only [renderAll, rendered, renderedRest]

theorem writes_text (noIndent : p.indent = none) (s : String) :
    Writes (render lib rec p (.text s)) s.toList := by
  intro st
  refine ⟨_, by rw [render], ?_⟩
  rw [noIndent]
  exact Sheet.text_write _ _

theorem writes_value {e : Expr} {name : String} {root : Fields}
    (isVariable : e.named? lib = some name) (noIndent : p.indent = none)
    (scopes : p.scopes = [⟨.obj root, [], []⟩]) :
    Writes (showValue lib p e) (shownAt root name) := by
  intro st
  obtain ⟨written, rfl, noHelper⟩ := Expr.named?_eq_some isVariable
  have found : evaluate lib p (.path ⟨written, [.key name]⟩) =
      .ok ((Fields.get? root name).getD .null) := by
    rw [evaluate, scopes]
    rfl
  have named : nameOf lib p (.path ⟨written, [.key name]⟩) = .ok written := rfl
  refine ⟨{ st with sheet := st.sheet.write none (shownAt root name) }, ?_, Sheet.text_write _ _⟩
  rw [showValue, named, found, noIndent]
  simp only [bind, Except.bind, noHelper]
  rfl

/-- A helper that answers with text and its body is carried out by writing the one and rendering
the other. -/
theorem carryOut_body {body inverse : Place → Action} (text : String) (st : State) :
    carryOut p body inverse (.written text [⟨.body, none⟩]) st =
      body p { st with sheet := st.sheet.put text.toList } := by
  simp [carryOut, Place.push]

/-- The tag of a role writes the marker and goes on with the body. -/
theorem writes_role (roles : lib.helper? "role" = some Helper.roleHelper) {head : Head} {r : Role}
    (names : head.role? = some r) (fresh hasInverse : Bool) {body : Place → Action}
    (inverse : Place → Action) {cs : List Char} (inside : Writes (body p) cs) :
    Writes (callHelper lib p head fresh hasInverse body inverse)
      ((Flow.role r).written ++ cs) := by
  intro st
  obtain ⟨name, args⟩ := Head.role?_eq_some names
  have called : callOf p head.params hasInverse (evaluateAll lib p head.args) =
      .ok ⟨[.str r.name], [], head.params, Scope.current p.root p.scopes, hasInverse⟩ := by
    rw [args]
    rfl
  have answer : Helper.roleHelper
      ⟨[.str r.name], [], head.params, Scope.current p.root p.scopes, hasInverse⟩ =
        .ok (.written (Marker.roleText r.name) [⟨.body, none⟩]) := rfl
  obtain ⟨st', rendered, text⟩ := inside { st with
    sheet := (st.sheet.enter (st.sheet.fresh || (fresh && st.sheet.lineEnded))).put
      (Marker.roleText r.name).toList }
  refine ⟨{ st' with sheet := st'.sheet.leave st.sheet }, ?_, ?_⟩
  · simp only [callHelper, called, name, roles, bind, Except.bind, answer, carryOut_body, rendered]
    rfl
  · rw [Sheet.text_leave, text, Sheet.text_put, Sheet.text_enter, List.append_assoc]
    rfl

/-! ### What speaks writes what it says -/

mutual

theorem writes_render {root : Fields} (roles : lib.helper? "role" = some Helper.roleHelper)
    (noIndent : p.indent = none) (scopes : p.scopes = [⟨.obj root, [], []⟩]) :
    ∀ {e : Element} {cues : List Cue}, e.cues? lib = some cues →
      Writes (render lib rec p e) (cues.flatMap (Cue.written (shownAt root)))
  | .text s, _, said => by
    cases said
    rw [List.flatMap_singleton]
    exact writes_text noIndent s
  | .value e, _, said => by
    obtain ⟨name, isVariable, rfl⟩ := Option.map_eq_some_iff.mp said
    rw [render, List.flatMap_singleton]
    exact writes_value isVariable noIndent scopes
  | .call head, _, said => by
    obtain ⟨r, names, rfl⟩ := Option.map_eq_some_iff.mp said
    rw [render, List.flatMap_singleton, ← List.append_nil (Cue.written _ _)]
    exact writes_role roles names false false noBranch (writes_noBranch p)
  | .block head fresh body inverse, _, said => by
    obtain ⟨r, names, said⟩ := Option.bind_eq_some_iff.mp said
    obtain ⟨inner, speech, same⟩ := Option.bind_eq_some_iff.mp said
    cases same
    rw [render]
    exact writes_role roles names fresh inverse.isSome _ fun st =>
      writes_renderAll roles noIndent scopes speech _
  | .decorator _ _, _, said => by
    cases said
  | .inclusion _ _ _ _, _, said => by
    cases said

theorem writes_renderAll {root : Fields} (roles : lib.helper? "role" = some Helper.roleHelper)
    (noIndent : p.indent = none) (scopes : p.scopes = [⟨.obj root, [], []⟩]) :
    ∀ {els : List Element} {cues : List Cue}, cuesAll? lib els = some cues →
      Writes (renderAll lib rec p els) (cues.flatMap (Cue.written (shownAt root)))
  | [], _, said => by
    cases said
    exact writes_renderAll_nil
  | e :: els, _, said => by
    obtain ⟨here, first, said⟩ := Option.bind_eq_some_iff.mp said
    obtain ⟨later, rest, same⟩ := Option.bind_eq_some_iff.mp said
    cases same
    rw [List.flatMap_append]
    exact (writes_render roles noIndent scopes first).renderAll_cons
      (writes_renderAll roles noIndent scopes rest)

end

end

/-- A template that only speaks is rendered to its script. -/
theorem renderSource_of_script {lib : Library} {source : String} {cues : List Cue}
    (roles : lib.helper? "role" = some Helper.roleHelper) (script : script? lib source = some cues)
    (root : Fields) : renderSource lib source (.obj root) =
      .ok (String.ofList (Cue.cutOf (shownAt root) cues).joined) := by
  unfold script? at script
  split at script
  · rename_i els compiled
    have writes : Writes (renderNested lib maxDepth
        { root := .obj root, scopes := [⟨.obj root, [], []⟩] } els)
        (cues.flatMap (Cue.written (shownAt root))) :=
      writes_renderAll roles rfl rfl script
    obtain ⟨st, rendered, text⟩ := writes {}
    have whole : renderElements lib els (.obj root) =
        .ok (cues.flatMap (Cue.written (shownAt root))) := by
      rw [renderElements, rendered]
      exact congrArg Except.ok text
    rw [renderSource, compiled, Cue.joined_cutOf]
    simp only [whole]
    rfl
  · cases script

end Promptry.Template
