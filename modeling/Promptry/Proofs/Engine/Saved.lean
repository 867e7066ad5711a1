import Promptry.Proofs.Engine.Redirection
import Promptry.Proofs.Engine.Walk
import Promptry.Proofs.Prompt.Fences
import Promptry.Proofs.Store.Changes

/-!
Partials from the store: saving checks the template of a source, but the engine registers the whole
source, with the settings that stand before the template. Main statement: `resolvePartials_saved`.
-/

namespace Promptry

open Template (OkOrDiverges tagsOf)
open Template.DataVariables (redirectAll)
open Template.References (ofTemplate)

namespace Engine

variable {e e' : Engine} {visited queue asked : List String} {name source template : String}
  {result : Except PromptError Unit}

/-! ### Where a search breaks off -/

namespace Walk

/-- A search fails to compile a partial that was reached and supplied. -/
theorem broken_at (walk : Walk e visited queue asked result e') {cause : Template.CompileError}
    (failed : result = .error (.compile cause)) :
    ∃ name text, Reach e queue name ∧ e.partialSource? name = some text ∧
      Template.compile true (redirectAll text) = .error cause ∧ e'.hasPartial name = false := by
  induction walk with
  | done => cases failed
  | known _ _ ih =>
    obtain ⟨name, text, reach, rest⟩ := ih failed
    exact ⟨name, text, reach.mono (List.subset_cons_self _ _), rest⟩
  | refused => cases failed
  | passed _ _ _ _ _ ih =>
    obtain ⟨name, text, reach, rest⟩ := ih failed
    exact ⟨name, text, reach.mono (List.subset_cons_self _ _), rest⟩
  | @broken e visited queue name source err new unregistered supplied broke =>
    refine ⟨name, source, .start List.mem_cons_self, supplied, ?_, unregistered⟩
    rw [definePartial] at broke
    split at broke
    · cases broke
    · next other compiled =>
      cases broke
      cases failed
      exact compiled
  | loaded new unregistered supplied defined rest ih =>
    obtain ⟨name, text, reach, source, broke, absent⟩ := ih failed
    rw [(sameSources_of_definePartial defined).partialSource?] at source
    exact ⟨name, text, reach.behind_loaded unregistered supplied defined, source, broke, absent⟩

end Walk

/-- A search ends at a partial that does not compile. -/
theorem search_broken {left : Nat} {calls : List Call} {err : PromptError} (fresh : name ∉ visited)
    (unregistered : e.hasPartial name = false) (supplied : e.partialSource? name = some source)
    (broke : e.definePartial name source = .error err) :
    (search left visited (name :: queue) e calls).result = .error err := by
  rw [search, if_neg (by simp [fresh, unregistered])]
  simp only [supplied, broke]

/-- A template with one reference, to a partial that has none. -/
theorem resolvePartials_single {els : List Template.Element}
    (single : ofTemplate template = [name]) (new : e.hasPartial name = false)
    (supplied : e.partialSource? name = some source) (last : ofTemplate source = [])
    (compiles : Template.compile true (redirectAll source) = .ok els) :
    (e.resolvePartials template).result = .ok () ∧
      Table.get? (e.resolvePartials template).engine.library.partials name = some els := by
  have defined : e.definePartial name source =
      .ok { e with library.partials := Table.insert e.library.partials name els } :=
    definePartial_eq_ok_iff.mpr ⟨els, compiles, rfl⟩
  obtain ⟨less, bound, -⟩ := (suppliesAtMost_supplyBound e).loaded new supplied defined
  rw [resolvePartials, single, bound, search_loaded List.not_mem_nil new supplied defined, last,
    List.append_nil, search_nil]
  exact ⟨rfl, Table.get?_insert_self _ _ _⟩

/-- The store supplies a partial as its source was saved. -/
theorem partialSource?_saved {d : Store.Directory} {version : Option String}
    (saved : (d.save .part ⟨⟨name, none, version⟩, source⟩).1 = .ok ())
    (isStore : e.store = some (d.save .part ⟨⟨name, none, version⟩, source⟩).2)
    (noResolver : e.partialResolver = none) : e.partialSource? name = some source := by
  have loaded := (Store.Directory.load_of_save saved).2
  dsimp only at loaded
  rw [partialSource?, resolvedPartial?, noResolver]
  simp only [Option.bind_none, storedPartial?, isStore, loaded]

/-- A partial that was saved is supplied with all of its source. That is what has to compile, and
what is registered under its name, when a template that refers to it is resolved; but only the
template of the source was checked when it was saved. The two are the same if and only if no
settings stand before the template, and then the partial compiles, unless the ends of one of its
blocks differ once references are redirected. -/
theorem resolvePartials_saved {d : Store.Directory} {version : Option String}
    (saved : (d.save .part ⟨⟨name, none, version⟩, source⟩).1 = .ok ())
    (isStore : e.store = some (d.save .part ⟨⟨name, none, version⟩, source⟩).2)
    (noResolver : e.partialResolver = none) (new : e.hasPartial name = false)
    (refers : name ∈ ofTemplate template) :
    (∃ prompt, checkSource source = .ok prompt ∧
      (prompt.template = source ↔ Source.isFenced source = false)) ∧
    (Source.isFenced source = false → OkOrDiverges (tagsOf source) (fun _ => True)
      (Template.compile true (redirectAll source))) ∧
    e.partialSource? name = some source ∧
    ((e.resolvePartials template).result = .ok () →
      (e.resolvePartials template).engine.hasPartial name = true) ∧
    ((e.resolvePartials template).engine.hasPartial name = true →
      (e.resolvePartials template).engine.Holds name source) ∧
    (∀ cause, (e.resolvePartials template).result = .error (.compile cause) →
      ∃ other text, Reach e (ofTemplate template) other ∧ e.partialSource? other = some text ∧
        Template.compile true (redirectAll text) = .error cause ∧
        (e.resolvePartials template).engine.hasPartial other = false) ∧
    ∀ cause more, Template.compile true (redirectAll source) = .error cause →
      ofTemplate template = name :: more →
        (e.resolvePartials template).result = .error (.compile cause) := by
  have supplied := partialSource?_saved saved isStore noResolver
  obtain ⟨prompt, checked⟩ := (Store.Directory.load_of_save saved).1
  obtain ⟨read, sound⟩ := checkSource_eq_ok checked
  obtain ⟨asked, walk, -⟩ := resolvePartials_walk e template
  refine ⟨⟨prompt, checked, template_eq_iff read⟩, fun plain => ?_, supplied, fun ok => ?_,
    fun registered => ?_, fun cause failed => walk.broken_at failed,
    fun cause more broke first => ?_⟩
  · rw [(template_eq_iff read).mpr plain] at sound
    obtain ⟨els, compiles⟩ := compile_of_checkTemplate sound
    exact Template.compile_redirected compiles true
  · rcases walk.settles ok (by simp) (.start refers) with registered | ⟨-, missing⟩
    · exact registered
    · rw [walk.sameSources.partialSource?, supplied] at missing
      cases missing
  · obtain ⟨text, source', holds⟩ := walk.holds new registered
    rw [supplied] at source'
    cases source'
    exact holds
  · rw [resolvePartials, first]
    exact search_broken List.not_mem_nil new supplied (by rw [definePartial, broke])

/-- An engine over a store, with nothing registered. -/
def onStore (d : Store.Directory) : Engine := { store := some d }

theorem onStore_store (d : Store.Directory) : (onStore d).store = some d := rfl

theorem onStore_partialResolver (d : Store.Directory) : (onStore d).partialResolver = none := rfl

theorem onStore_hasPartial (d : Store.Directory) (name : String) :
    (onStore d).hasPartial name = false := rfl

/-- A store in which one partial was saved. -/
def alone (source : String) : Store.Directory.Changed :=
  Store.Directory.save { place := "store" } .part ⟨⟨"p", none, none⟩, source⟩

theorem alone_of_isOk {source : String} (ok : (alone source).1.isOk = true) :
    (alone source).1 = .ok () := by
  cases saved : (alone source).1 with
  | error err =>
    rw [saved] at ok
    cases ok
  | ok => rfl

/-- A template that includes the partial. -/
def including : String := "\x7b\x7b> p\x7d\x7d"

theorem ofTemplate_including : ofTemplate including = ["p"] := by decide

/-- A partial with a reference and no settings. -/
def hello : String := "Hi \x7b\x7b@user\x7d\x7d"

theorem resolvePartials_saved_hello :
    (alone hello).1 = .ok () ∧
      ((onStore (alone hello).2).resolvePartials including).result = .ok () ∧
      ((onStore (alone hello).2).resolvePartials including).engine.Holds "p" hello := by
  have saved : (alone hello).1 = .ok () := alone_of_isOk (by decide +kernel)
  have refers : "p" ∈ ofTemplate including := by
    rw [ofTemplate_including]
    exact List.mem_singleton_self "p"
  obtain ⟨-, compiles, supplied, registers, holds, -⟩ := resolvePartials_saved saved
    (onStore_store _) (onStore_partialResolver _) (onStore_hasPartial _ "p") refers
  have last : ofTemplate hello = [] := by decide +kernel
  have sound : (Template.compile true (redirectAll hello)).isOk = true := by decide +kernel
  cases compiled : Template.compile true (redirectAll hello) with
  | error cause =>
    rw [compiled] at sound
    cases sound
  | ok els =>
    have found := resolvePartials_single ofTemplate_including (onStore_hasPartial _ "p") supplied
      last compiled
    exact ⟨saved, found.1, holds (registers found.1)⟩

/-- A partial with a setting before its template. -/
def described : String := "---\nmodel: m\n---\nHi"

/-- A partial whose setting looks like a tag. -/
def tagged : String := "---\ndescription: \"\x7b\x7b#if x\"\n---\nHi"

/-- The settings of a partial count as its text, and keep it from compiling if they hold a tag. -/
theorem registers_settings :
    ((alone described).1 = .ok () ∧
      (checkSource described).toOption.map (·.template) = some "Hi" ∧
      ((onStore (alone described).2).resolvePartials including).result = .ok () ∧
      Table.get? ((onStore (alone described).2).resolvePartials including).engine.library.partials
        "p" = some [.text described]) ∧
    (alone tagged).1 = .ok () ∧
      (checkSource tagged).toOption.map (·.template) = some "Hi" ∧
      ((onStore (alone tagged).2).resolvePartials including).result =
        .error (.compile .malformed) := by
  have saved : (alone described).1 = .ok () := alone_of_isOk (by decide +kernel)
  have saved' : (alone tagged).1 = .ok () := alone_of_isOk (by decide +kernel)
  have compiles : Template.compile true (redirectAll described) = .ok [.text described] := rfl
  have broke : Template.compile true (redirectAll tagged) = .error .malformed :=
    eq_error_of_failure? (by decide +kernel)
  have last : ofTemplate described = [] := by decide +kernel
  have supplied := partialSource?_saved saved (onStore_store _) (onStore_partialResolver _)
  have supplied' := partialSource?_saved saved' (onStore_store _) (onStore_partialResolver _)
  refine ⟨⟨saved, by decide +kernel, resolvePartials_single ofTemplate_including
    (onStore_hasPartial _ "p") supplied last compiles⟩, saved', by decide +kernel, ?_⟩
  rw [resolvePartials, ofTemplate_including]
  exact search_broken List.not_mem_nil (onStore_hasPartial _ "p") supplied'
    (by rw [definePartial, broke])

end Engine

end Promptry
