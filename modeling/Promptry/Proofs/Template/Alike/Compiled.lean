import Promptry.Proofs.Template.Alike.Piece

/-!
Templates with references redirected, compiled. The tags nest as they did, and blocks are closed by
the names that opened them; but the ends of a block of a partial can get different names if that
name has an at sign in it, which only a quoted one may have. Main statements: `verdict_alike` and
`compile_redirected`.
-/

namespace Promptry.Template

open DataVariables

/-! ### Blocks -/

/-- Blocks that are open before and after: opened by the same name, unless it is that of a partial,
which one of the tags has. -/
inductive FrameAlike (tags : List Content) : Frame → Frame → Prop
  | same (kind : Opened) (opened : String → String) (plain : kind ≠ .inclusion) :
      FrameAlike tags ⟨kind, opened⟩ ⟨kind, opened⟩
  | inclusion {e e' : Expr} (target : TargetAlike e e') (args : Arguments)
      (mem : .inclusionOpen e args ∈ tags) :
      FrameAlike tags ⟨.inclusion, fun _ => exprName e⟩ ⟨.inclusion, fun _ => exprName e'⟩

/-- The name of a block of a partial, and the two names that its ends have once references are
redirected. -/
structure Diverges (tags : List Content) (name opened closing : String) : Prop where
  opens : ∃ args, .inclusionOpen (.word name) args ∈ tags
  marked : '@' ∈ name.toList
  opener : RenamedName name opened
  closer : RenamedName name closing
  ne : opened ≠ closing

/-- All goes well, or the ends of a block of a partial have got different names. -/
inductive OkOrDiverges {α : Type} (tags : List Content) (ok : α → Prop) :
    Except CompileError α → Prop
  | ok {a : α} (holds : ok a) : OkOrDiverges tags ok (.ok a)
  | diverges {name opened closing : String} (apart : Diverges tags name opened closing) :
      OkOrDiverges tags ok (.error (.decoratorMismatch opened closing))

theorem at_not_mem_of_all {name : String} (symbols : name.toList.all isSymbol = true) :
    '@' ∉ name.toList :=
  fun mem => absurd (List.all_eq_true.mp symbols _ mem) (by decide)

theorem RenamedName.eq_of_not_mem {name name' : String} (renamed : RenamedName name name')
    (plain : '@' ∉ name.toList) : name' = name :=
  String.toList_injective (Spliced.eq_of_not_mem plain renamed)

theorem RenamedName.all_isSymbol {name name' : String} (renamed : RenamedName name name') :
    name'.toList.all isSymbol = name.toList.all isSymbol := by
  by_cases plain : '@' ∈ name.toList
  · have marked {n : String} (mem : '@' ∈ n.toList) : n.toList.all isSymbol = false := by
      rw [← Bool.not_eq_true]
      exact fun symbols => at_not_mem_of_all symbols mem
    rw [marked plain, marked (renamed.mem_at_iff.mpr plain)]
  · rw [renamed.eq_of_not_mem plain]

/-- A tag opens and closes blocks as it did. -/
theorem ContentAlike.openedAfter?_eq {c c' : Content} (alike : ContentAlike c c')
    (opened : List Opened) : openedAfter? opened c' = openedAfter? opened c := by
  cases alike with
  | close named renamed =>
    cases opened with
    | nil => rfl
    | cons kind outer =>
      cases kind with
      | inclusion => rfl
      | _ => simp only [openedAfter?, renamed.all_isSymbol]
  | chain =>
    cases opened with
    | nil => rfl
    | cons kind outer => cases kind <;> rfl
  | _ => rfl

theorem nested_eq {cs cs' : List Content} (alike : List.Forall₂ ContentAlike cs cs')
    (opened : List Opened) : nested opened cs' = nested opened cs := by
  induction alike generalizing opened with
  | nil => rfl
  | cons one _ ih =>
    rw [nested, nested, one.openedAfter?_eq]
    cases openedAfter? opened _ with
    | none => rfl
    | some opened => exact ih opened

section

variable {tags : List Content} {frames frames' next : List Frame} {c c' : Content}

/-- A block that is no partial's is closed by a plain name. -/
theorem openedAfter?_close {kind : Opened} {outer opened : List Opened} {name : String}
    (opens : openedAfter? (kind :: outer) (.close name) = some opened) :
    opened = outer ∧ (kind ≠ .inclusion → name.toList.all isSymbol = true) := by
  have plain {α : Type} {symbols : Bool} {a b : α}
      (found : (if symbols then some a else none) = some b) : b = a ∧ symbols = true := by
    split at found
    · next holds => exact ⟨(Option.some.inj found).symm, holds⟩
    · cases found
  cases kind with
  | inclusion => exact ⟨(Option.some.inj opens).symm, fun other => absurd rfl other⟩
  | _ => exact ⟨(plain opens).1, fun _ => (plain opens).2⟩

theorem framesAfter_close {f : Frame} {outer : List Frame} {name : String}
    (after : framesAfter (f :: outer) (.close name) = .ok next) :
    next = outer ∧ f.close name = .ok () := by
  rw [framesAfter] at after
  cases closes : f.close name with
  | error err =>
    rw [closes] at after
    cases after
  | ok =>
    rw [closes] at after
    cases after
    exact ⟨rfl, rfl⟩

/-- Frames and kinds of open blocks go by the same tags. -/
theorem kind_framesAfter {opened : List Opened} (after : framesAfter frames c = .ok next)
    (opens : openedAfter? (frames.map Frame.kind) c = some opened) :
    next.map Frame.kind = opened := by
  cases c with
  | close name =>
    cases frames with
    | nil => cases after
    | cons f outer => rw [(framesAfter_close after).1, (openedAfter?_close opens).1]
  | chain =>
    cases frames with
    | nil => cases after
    | cons f outer =>
      obtain ⟨kind, opened⟩ := f
      cases kind with
      | block => cases after; cases opens; rfl
      | _ => cases after
  | otherwise =>
    cases frames with
    | nil => cases after
    | cons f outer =>
      obtain ⟨kind, opened⟩ := f
      cases kind with
      | block => cases after; cases opens; rfl
      | _ => cases after
  | _ => cases after; cases opens; rfl

/-- Closing the innermost block by a name and by what has become of it. -/
theorem close_alike {f f' : Frame} {name name' : String} (same : FrameAlike tags f f')
    (named : IsPartialName name) (renamed : RenamedName name name')
    (symbols : f.kind ≠ .inclusion → name.toList.all isSymbol = true)
    (closes : f.close name = .ok ()) : OkOrDiverges tags (fun _ => True) (f'.close name') := by
  cases same with
  | same kind opened plain =>
    rw [renamed.eq_of_not_mem (at_not_mem_of_all (symbols plain)), closes]
    exact .ok trivial
  | @inclusion e e' target args mem =>
    have spelled : exprName e = name := by
      by_contra other
      rw [Frame.close, if_neg other] at closes
      cases closes
    cases target with
    | other unnamed => exact absurd spelled (unnamed name named)
    | @name w w' renamed' =>
      obtain rfl : w = name := spelled
      rw [Frame.close]
      split
      · exact .ok trivial
      · next ne =>
        have marked : '@' ∈ w.toList := by
          by_contra plain
          exact ne ((renamed'.eq_of_not_mem plain).trans (renamed.eq_of_not_mem plain).symm)
        have apart : Diverges tags w w' name' := ⟨⟨args, mem⟩, marked, renamed', renamed, ne⟩
        exact .diverges apart

/-- One tag takes blocks that are alike to blocks that are alike. -/
theorem framesAfter_alike (alike : ContentAlike c c') (mem : c ∈ tags)
    (open' : List.Forall₂ (FrameAlike tags) frames frames')
    {opened : List Opened} (opens : openedAfter? (frames.map Frame.kind) c = some opened)
    (after : framesAfter frames c = .ok next) :
    OkOrDiverges tags (List.Forall₂ (FrameAlike tags) next) (framesAfter frames' c') := by
  cases alike with
  | value => cases after; exact .ok open'
  | call => cases after; exact .ok open'
  | decorator => cases after; exact .ok open'
  | inclusion => cases after; exact .ok open'
  | comment => cases after; exact .ok open'
  | blockOpen head =>
    cases after
    rw [framesAfter, head.name]
    exact .ok (.cons (.same _ _ (by decide)) open')
  | decoratorOpen head =>
    cases after
    rw [framesAfter, head.name]
    exact .ok (.cons (.same _ _ (by decide)) open')
  | inclusionOpen target =>
    cases after
    exact .ok (.cons (.inclusion target _ mem) open')
  | chain =>
    cases open' with
    | nil => cases after
    | cons one outer =>
      cases one with
      | inclusion => cases after
      | same kind opened plain =>
        cases kind with
        | block => cases after; exact .ok (.cons (.same _ _ plain) outer)
        | _ => cases after
  | otherwise =>
    cases open' with
    | nil => cases after
    | cons one outer =>
      cases one with
      | inclusion => cases after
      | same kind opened plain =>
        cases kind with
        | block => cases after; exact .ok (.cons (.same _ _ (by decide)) outer)
        | _ => cases after
  | @close name name' named renamed =>
    cases open' with
    | nil => cases after
    | @cons f f' _ _ one outer =>
      obtain ⟨rfl, closes⟩ := framesAfter_close after
      have behind := close_alike one named renamed (openedAfter?_close opens).2 closes
      rw [framesAfter]
      generalize f'.close name' = closing at behind ⊢
      cases behind with
      | ok => exact .ok outer
      | diverges apart => exact .diverges apart

end

theorem settle_alike {tags cs cs' : List Content} (alike : List.Forall₂ ContentAlike cs cs')
    (among : ∀ c ∈ cs, c ∈ tags) {frames frames' : List Frame}
    (open' : List.Forall₂ (FrameAlike tags) frames frames')
    (nests : nested (frames.map Frame.kind) cs = true) (settles : settle frames cs = .ok ()) :
    OkOrDiverges tags (fun _ => True) (settle frames' cs') := by
  induction alike generalizing frames frames' with
  | nil => exact .ok trivial
  | @cons c c' cs cs' one _ ih =>
    obtain ⟨here, among⟩ := List.forall_mem_cons.mp among
    rw [settle] at settles ⊢
    rw [nested] at nests
    cases valid : c.invalid? with
    | some text =>
      rw [valid] at settles
      cases settles
    | none =>
      rw [valid] at settles
      rw [one.invalid? valid]
      cases after : framesAfter frames c with
      | error err =>
        rw [after] at settles
        cases settles
      | ok next =>
        rw [after] at settles
        cases opens : openedAfter? (frames.map Frame.kind) c with
        | none =>
          rw [opens] at nests
          cases nests
        | some opened =>
          rw [opens] at nests
          have step := framesAfter_alike one here open' opens after
          obtain rfl := kind_framesAfter after opens
          dsimp only
          generalize framesAfter frames' c' = after' at step ⊢
          cases step with
          | ok behind => exact ih among behind nests settles
          | diverges apart => exact .diverges apart

theorem verdict_alike {cs cs' : List Content} (alike : List.Forall₂ ContentAlike cs cs')
    (accepted : verdict cs = .ok ()) : OkOrDiverges cs (fun _ => True) (verdict cs') := by
  rw [verdict] at accepted ⊢
  rw [nested_eq alike]
  split at accepted
  · next nests =>
    rw [if_pos nests]
    exact settle_alike alike (fun _ mem => mem) .nil nests accepted
  · cases accepted

/-! ### Templates -/

/-- The contents of the tags of a template. -/
def tagsOf (template : String) : List Content := ((pieces? template.toList).map contents).getD []

theorem compile_eq_ok_iff {closed : Bool} {source : String} :
    (∃ els, compile closed source = .ok els) ↔
      ∃ pieces, pieces? source.toList = some pieces ∧ verdict (contents pieces) = .ok () := by
  have comes := compile_verdict closed source
  constructor
  · rintro ⟨els, ok⟩
    rw [ok] at comes
    cases read : pieces? source.toList with
    | none =>
      rw [read] at comes
      cases comes
    | some pieces =>
      rw [read] at comes
      exact ⟨pieces, rfl, comes.symm⟩
  · rintro ⟨pieces, read, accepted⟩
    rw [read] at comes
    cases compiled : compile closed source with
    | ok els => exact ⟨els, rfl⟩
    | error err =>
      dsimp only at comes
      rw [compiled, accepted] at comes
      cases comes

/-- A template that compiles does so once its references are redirected, or the ends of a block of a
partial have got different names; whether its end ends a line does not count. -/
theorem compile_redirected {t : String} {before : Bool} {els : List Element}
    (compiles : compile before t = .ok els) (closed : Bool) :
    OkOrDiverges (tagsOf t) (fun _ => True) (compile closed (redirectAll t)) := by
  obtain ⟨pieces, read, accepted⟩ := compile_eq_ok_iff.mp ⟨els, compiles⟩
  have alike := pieces?_alike (redirected_redirectAll t)
  have comes := compile_verdict closed (redirectAll t)
  rw [read] at alike
  rw [tagsOf, read, Option.map_some, Option.getD_some]
  generalize pieces? (redirectAll t).toList = read' at alike comes
  cases alike with
  | some same =>
    have redirected := verdict_alike same accepted
    dsimp only at comes
    rw [← comes] at redirected
    cases compiled : compile closed (redirectAll t) with
    | ok els' => exact .ok trivial
    | error err =>
      rw [compiled] at redirected
      cases redirected with
      | diverges apart => exact .diverges apart

end Promptry.Template
