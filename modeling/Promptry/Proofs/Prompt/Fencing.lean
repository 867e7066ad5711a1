import Mathlib.Data.List.TakeWhile
import Promptry.Proofs.Prompt.Fences

/-!
Sources as they are put together of fences. Settings in whole lines between two fences, with a
template behind them, are cut where they were put together; and whatever source there is either has
one such form only, or does not begin with a fence, or begins with one that no other follows. Main
statements: `Lined.lines_flatten`, `cut_source`, `existsUnique_form` and `split_inverts_fencing`.
-/

namespace Promptry.Source

variable {line cs : List Char} {ls ms : List (List Char)}

/-! ### Lines -/

/-- Lines as a text is cut into: each ends in its only line feed, but for the last one, which may
have none. -/
inductive Lined : List (List Char) → Prop where
  | nil : Lined []
  | last {line : List Char} : line ≠ [] → '\n' ∉ line → Lined [line]
  | cons {line : List Char} {ls : List (List Char)} :
      '\n' ∉ line → Lined ls → Lined ((line ++ ['\n']) :: ls)

theorem linesFrom_eq (line : List Char) (before : List (List Char)) (cs : List Char) :
    linesFrom line before cs = before.reverse ++ linesFrom line [] cs := by
  induction cs generalizing line before with
  | nil => rw [linesFrom, linesFrom]; split <;> simp
  | cons c cs ih =>
    rw [linesFrom, linesFrom]
    split
    · rw [ih, ih [] [_]]; simp
    · rw [ih]

theorem lined_linesFrom (free : '\n' ∉ line) (cs : List Char) :
    Lined (linesFrom line.reverse [] cs) := by
  induction cs generalizing line with
  | nil =>
    cases line with
    | nil => exact .nil
    | cons c rest =>
      rw [linesFrom, if_neg (by simp)]
      simpa using Lined.last (List.cons_ne_nil c rest) free
  | cons c cs ih =>
    rw [linesFrom]
    split
    · next feed =>
      rw [linesFrom_eq, eq_of_beq feed]
      have behind : Lined (linesFrom [] [] cs) := ih List.not_mem_nil
      simpa using Lined.cons free behind
    · next other =>
      have free' : '\n' ∉ line ++ [c] := by
        rw [List.mem_append, List.mem_singleton, not_or]
        exact ⟨free, fun same => other (beq_iff_eq.mpr same.symm)⟩
      simpa using ih free'

theorem lined_lines (cs : List Char) : Lined (lines cs) := lined_linesFrom List.not_mem_nil cs

theorem linesFrom_append (free : '\n' ∉ line) (before cs : List Char) :
    linesFrom before [] (line ++ cs) = linesFrom (line.reverse ++ before) [] cs := by
  induction line generalizing before with
  | nil => rfl
  | cons c line ih =>
    obtain ⟨other, free⟩ := not_or.mp fun mem => free (List.mem_cons.mpr mem)
    rw [List.cons_append, linesFrom, if_neg fun same => other (eq_of_beq same).symm, ih free]
    simp

/-- The line feed of a line that has one. -/
def lineEnd (ends : Bool) : List Char := if ends then ['\n'] else []

theorem line_inj {line' : List Char} {ends ends' : Bool} (free : '\n' ∉ line)
    (free' : '\n' ∉ line') (same : line ++ lineEnd ends = line' ++ lineEnd ends') :
    line = line' ∧ ends = ends' := by
  have last : '\n' ∈ line ++ lineEnd ends ↔ '\n' ∈ line' ++ lineEnd ends' := by rw [same]
  obtain rfl : ends = ends' := by
    cases ends <;> cases ends' <;> simp [lineEnd, free, free'] at last ⊢
  exact ⟨List.append_cancel_right same, rfl⟩

/-- Lines are what their text is cut into. -/
theorem Lined.lines_flatten (lined : Lined ls) : lines ls.flatten = ls := by
  induction lined with
  | nil => rfl
  | @last line some free =>
    have whole := linesFrom_append free [] []
    rw [List.append_nil, List.append_nil, linesFrom, if_neg (by simpa using some)] at whole
    simpa [lines] using whole
  | @cons line ls free _ ih =>
    rw [List.flatten_cons, lines, List.append_assoc, linesFrom_append free, List.append_nil,
      List.singleton_append, linesFrom, if_pos (beq_self_eq_true _), linesFrom_eq, ← lines, ih]
    simp

/-- A text of whole lines: an empty one, or one that ends in a line feed. -/
def WholeLines (cs : List Char) : Prop := cs = [] ∨ cs.getLast? = some '\n'

theorem Lined.append (lined : Lined ls) (whole : WholeLines ls.flatten) (behind : Lined ms) :
    Lined (ls ++ ms) := by
  induction lined with
  | nil => exact behind
  | @last line some free =>
    rw [List.flatten_singleton] at whole
    exact absurd (List.mem_of_getLast? (whole.resolve_left some)) free
  | @cons line ls free _ ih =>
    refine .cons free (ih ?_)
    have ends := whole.resolve_left (by simp)
    rw [List.flatten_cons, List.getLast?_append] at ends
    cases last : ls.flatten.getLast? with
    | none => exact .inl (List.getLast?_eq_none_iff.mp last)
    | some c =>
      rw [last, Option.some_or] at ends
      exact .inr (last.trans ends)

/-- A text of whole lines keeps its lines whatever stands behind it. -/
theorem lines_append (whole : WholeLines cs) (ds : List Char) :
    lines (cs ++ ds) = lines cs ++ lines ds := by
  have whole' : WholeLines (lines cs).flatten := (lines_flatten cs).symm ▸ whole
  have both := ((lined_lines cs).append whole' (lined_lines ds)).lines_flatten
  rwa [List.flatten_append, lines_flatten, lines_flatten] at both

theorem lines_line (free : '\n' ∉ line) (cs : List Char) :
    lines (line ++ '\n' :: cs) = (line ++ ['\n']) :: lines cs := by
  have both := (Lined.cons free (lined_lines cs)).lines_flatten
  rwa [List.flatten_cons, lines_flatten, List.append_assoc] at both

theorem lines_last (some : line ≠ []) (free : '\n' ∉ line) : lines line = [line] := by
  have alone := (Lined.last some free).lines_flatten
  rwa [List.flatten_singleton] at alone

/-- Some of the lines of a text are the lines of a text themselves; those with others behind them
are whole lines. -/
theorem Lined.of_append (lined : Lined (ls ++ ms)) :
    Lined ls ∧ Lined ms ∧ (ms ≠ [] → WholeLines ls.flatten) := by
  induction ls with
  | nil => exact ⟨.nil, lined, fun _ => .inl rfl⟩
  | cons line ls ih =>
    rw [List.cons_append] at lined
    generalize joined : ls ++ ms = all at lined
    cases lined with
    | last some free =>
      obtain ⟨rfl, rfl⟩ := List.append_eq_nil_iff.mp joined
      exact ⟨.last some free, .nil, fun none => absurd rfl none⟩
    | @cons line _ free rest =>
      obtain ⟨front, back, whole⟩ := ih (joined ▸ rest)
      refine ⟨.cons free front, back, fun behind => .inr ?_⟩
      rw [List.flatten_cons]
      rcases whole behind with none | feed
      · simp [none]
      · rw [List.getLast?_append, feed, Option.some_or]

/-! ### Fences -/

/-- The dashes of a fence. -/
def dashes : List Char := ['-', '-', '-']

/-- What may stand behind the dashes of a fence: blanks, in its line. -/
structure Trailing (blanks : List Char) : Prop where
  blank : Text.isBlankText blanks = true
  free : '\n' ∉ blanks

theorem trailing_nil : Trailing [] := ⟨rfl, List.not_mem_nil⟩

theorem isFence_append {blanks : List Char} (blank : Text.isBlankText blanks = true)
    (line : List Char) : isFence (line ++ blanks) = isFence line := by
  rw [isFence, Text.trimEnd_append blank, isFence]

theorem isFence_dashes {blanks : List Char} (blank : Text.isBlankText blanks = true) :
    isFence (dashes ++ blanks) = true := by
  rw [isFence_append blank]
  rfl

theorem not_mem_fence {blanks : List Char} (trailing : Trailing blanks) :
    '\n' ∉ dashes ++ blanks := by
  rw [List.mem_append, not_or]
  exact ⟨by decide, trailing.free⟩

/-- A fence is three dashes and blanks behind them. -/
theorem exists_of_isFence (fence : isFence line = true) :
    ∃ blanks, line = dashes ++ blanks ∧ Text.isBlankText blanks = true := by
  have whole := congrArg List.reverse
    (List.takeWhile_append_dropWhile (p := Text.isBlank) (l := line.reverse))
  rw [List.reverse_append, List.reverse_reverse] at whole
  refine ⟨_, whole.symm.trans (congrArg (· ++ _) (eq_of_beq fence)), ?_⟩
  rw [Text.isBlankText, List.all_reverse]
  exact List.all_takeWhile

/-- The first of some lines is a fence: there are blanks behind its dashes, and it is alone if no
line feed ends it. -/
theorem Lined.fence (lined : Lined (line :: ls)) (fence : isFence line = true) :
    ∃ blanks, Trailing blanks ∧
      (line = dashes ++ blanks ++ ['\n'] ∨ line = dashes ++ blanks ∧ ls = []) := by
  cases lined with
  | last some free =>
    obtain ⟨blanks, rfl, blank⟩ := exists_of_isFence fence
    exact ⟨blanks, ⟨blank, fun mem => free (List.mem_append_right _ mem)⟩, .inr ⟨rfl, rfl⟩⟩
  | cons free _ =>
    rw [isFence_append rfl] at fence
    obtain ⟨blanks, rfl, blank⟩ := exists_of_isFence fence
    exact ⟨blanks, ⟨blank, fun mem => free (List.mem_append_right _ mem)⟩, .inl rfl⟩

/-- No line of the text is a fence. -/
def FenceFree (cs : List Char) : Prop := ∀ l ∈ lines cs, isFence l = false

/-! ### Documents -/

/-- Settings between two fences, with a template behind them. -/
structure Document where
  opening : List Char
  head : List Char
  closing : List Char
  /-- What stands behind the line feed of the closing fence, if there is one; the line of the fence
  may as well be the last one. -/
  rest : Option (List Char)
  opens : Trailing opening
  closes : Trailing closing
  whole : WholeLines head
  free : FenceFree head

namespace Document

variable (d : Document)

def template : List Char := d.rest.getD []

/-- The line of the closing fence. -/
def closingLine : List Char := dashes ++ d.closing ++ lineEnd d.rest.isSome

def source : List Char :=
  dashes ++ d.opening ++ '\n' :: (d.head ++ (d.closingLine ++ d.template))

theorem isFence_closingLine : isFence d.closingLine = true := by
  rw [closingLine, isFence_append (by cases d.rest <;> rfl), isFence_dashes d.closes.blank]

/-- The lines of a document are those of its parts. -/
theorem lines_source : lines d.source =
    (dashes ++ d.opening ++ ['\n']) :: (lines d.head ++ d.closingLine :: lines d.template) := by
  have behind : lines (d.closingLine ++ d.template) = d.closingLine :: lines d.template := by
    have some : dashes ++ d.closing ≠ [] := List.cons_ne_nil _ _
    have free := not_mem_fence d.closes
    rw [closingLine, template]
    cases d.rest with
    | none => simpa [lineEnd, lines, linesFrom] using lines_last some free
    | some cs => simpa [lineEnd] using lines_line free cs
  rw [source, lines_line (not_mem_fence d.opens), lines_append d.whole, behind]

/-- A document is cut where it was put together. -/
theorem cut_source : cut d.source = .ok ⟨some d.head, d.template⟩ := by
  have opens : isFence (dashes ++ d.opening ++ ['\n']) = true := by
    rw [isFence_append rfl, isFence_dashes d.opens.blank]
  have free : ∀ l ∈ lines d.head, (!isFence l) = true := fun l mem => by rw [d.free l mem]; rfl
  rw [cut, d.lines_source]
  simp only [opens, Bool.not_true, Bool.false_eq_true, if_false, List.span_eq_takeWhile_dropWhile,
    List.takeWhile_append_of_pos free, List.dropWhile_append_of_pos free, List.dropWhile_cons,
    List.takeWhile_cons, d.isFence_closingLine, List.append_nil, lines_flatten]

/-- A source is a document in one way at most. -/
theorem source_injective : Function.Injective source := by
  intro d d' same
  have parts := d.cut_source
  rw [same, d'.cut_source] at parts
  have head : d'.head = d.head := Option.some.inj (congrArg Parts.head (Except.ok.inj parts))
  have behind : d'.template = d.template := congrArg Parts.template (Except.ok.inj parts)
  have byLine := d.lines_source
  rw [same, d'.lines_source, head, behind] at byLine
  obtain ⟨first, others⟩ := List.cons.inj byLine
  obtain ⟨last, -⟩ := List.cons.inj (List.append_cancel_left others)
  have opening : d'.opening = d.opening :=
    List.append_cancel_left (List.append_cancel_right first)
  obtain ⟨closing, ends⟩ := line_inj (not_mem_fence d'.closes) (not_mem_fence d.closes) last
  have rest : d'.rest = d.rest := by
    unfold template at behind
    cases here : d.rest <;> cases here' : d'.rest <;> simp_all
  cases d
  cases d'
  simp only [mk.injEq]
  exact ⟨opening.symm, head.symm, (List.append_cancel_left closing).symm,
    rest.symm⟩

end Document

/-! ### The forms of a source -/

/-- The first line is a fence, and no other line is one. -/
def Unclosed (cs : List Char) : Prop :=
  ∃ opening, Trailing opening ∧ (cs = dashes ++ opening ∨
    ∃ rest, cs = dashes ++ opening ++ '\n' :: rest ∧ FenceFree rest)

theorem cut_of_unclosed (unclosed : Unclosed cs) : cut cs = .error .neverClosed := by
  obtain ⟨opening, opens, rfl | ⟨rest, rfl, free⟩⟩ := unclosed
  · have some : dashes ++ opening ≠ [] := List.cons_ne_nil _ _
    rw [cut, lines_last some (not_mem_fence opens)]
    simp [isFence_dashes opens.blank, List.span_eq_takeWhile_dropWhile]
  · have fence : isFence (dashes ++ opening ++ ['\n']) = true := by
      rw [isFence_append rfl, isFence_dashes opens.blank]
    have behind : (lines rest).dropWhile (fun l => !isFence l) = [] :=
      List.dropWhile_eq_nil_iff.mpr fun l mem => by rw [free l mem]; rfl
    rw [cut, lines_line (not_mem_fence opens)]
    simp only [fence, List.span_eq_takeWhile_dropWhile, behind, Bool.not_true, Bool.false_eq_true,
      if_false]

theorem unclosed_of_lined (lined : Lined (line :: ls)) (fence : isFence line = true)
    (free : ∀ l ∈ ls, isFence l = false) : Unclosed (line :: ls).flatten := by
  have whole : Lined ([line] ++ ls) := lined
  obtain ⟨-, rest, -⟩ := whole.of_append
  obtain ⟨opening, opens, rfl | ⟨rfl, rfl⟩⟩ := lined.fence fence
  · refine ⟨opening, opens, .inr ⟨ls.flatten, by simp, ?_⟩⟩
    rw [FenceFree, rest.lines_flatten]
    exact free
  · exact ⟨opening, opens, .inl (by simp)⟩

theorem exists_document {closing : List Char} (lined : Lined (line :: (ls ++ closing :: ms)))
    (opens : isFence line = true) (free : ∀ l ∈ ls, isFence l = false)
    (closes : isFence closing = true) :
    ∃ d : Document, (line :: (ls ++ closing :: ms)).flatten = d.source := by
  have apart : Lined ([line] ++ (ls ++ closing :: ms)) := lined
  obtain ⟨-, behind, -⟩ := apart.of_append
  obtain ⟨head, back, whole⟩ := behind.of_append
  have free : FenceFree ls.flatten := by rwa [FenceFree, head.lines_flatten]
  obtain ⟨opening, trailing, rfl | ⟨-, none⟩⟩ := lined.fence opens
  · obtain ⟨blanks, trailing', rfl | ⟨rfl, rfl⟩⟩ := back.fence closes
    · exact ⟨⟨opening, ls.flatten, blanks, some ms.flatten, trailing, trailing', whole nofun, free⟩,
        by simp [Document.source, Document.closingLine, Document.template, lineEnd]⟩
    · exact ⟨⟨opening, ls.flatten, blanks, none, trailing, trailing', whole nofun, free⟩,
        by simp [Document.source, Document.closingLine, Document.template, lineEnd]⟩
  · simp at none

/-- What a source may be. -/
inductive Form where
  /-- All of it is the template. -/
  | plain
  | unclosed
  | fenced (d : Document)

/-- The source has the form. -/
def Form.Of (source : String) : Form → Prop
  | plain => isFenced source = false
  | unclosed => Unclosed source.toList
  | fenced d => source.toList = d.source

/-- What a source of the form is cut into. -/
def Form.parts (source : String) : Form → Except SourceError Parts
  | plain => .ok ⟨none, source.toList⟩
  | unclosed => .error .neverClosed
  | fenced d => .ok ⟨some d.head, d.template⟩

variable {source : String} {form : Form}

theorem Form.cut_eq (of : form.Of source) : cut source.toList = form.parts source := by
  cases form with
  | plain =>
    have plain : isFenced source = false := of
    rw [isFenced] at plain
    cases byLine : lines source.toList with
    | nil => rw [cut, byLine]; rfl
    | cons first body =>
      rw [byLine] at plain
      exact cut_of_not_fence byLine plain
  | unclosed => exact cut_of_unclosed of
  | fenced d => rw [(of : source.toList = d.source)]; exact d.cut_source

theorem exists_form (source : String) : ∃ form : Form, form.Of source := by
  have whole := lines_flatten source.toList
  have lined := lined_lines source.toList
  cases byLine : lines source.toList with
  | nil => exact ⟨.plain, by rw [Form.Of, isFenced, byLine]⟩
  | cons first body =>
    cases fence : isFence first with
    | false => exact ⟨.plain, by rw [Form.Of, isFenced, byLine]; exact fence⟩
    | true =>
      rw [byLine] at whole lined
      have parts := List.takeWhile_append_dropWhile (p := fun l => !isFence l) (l := body)
      have free : ∀ l ∈ body.takeWhile fun l => !isFence l, isFence l = false := fun l mem => by
        simpa using List.mem_takeWhile_imp mem
      have stops := List.head?_dropWhile_not (fun l => !isFence l) body
      cases behind : body.dropWhile fun l => !isFence l with
      | nil =>
        rw [behind, List.append_nil] at parts
        rw [parts] at free
        have unclosed := unclosed_of_lined lined fence free
        rw [whole] at unclosed
        exact ⟨.unclosed, unclosed⟩
      | cons closing template =>
        rw [behind] at parts stops
        rw [← parts] at lined whole
        obtain ⟨d, same⟩ := exists_document lined fence free (by simpa using stops)
        exact ⟨.fenced d, whole.symm.trans same⟩

/-- A source has one form, and is put together in one way. -/
theorem existsUnique_form (source : String) : ∃! form : Form, form.Of source := by
  obtain ⟨form, of⟩ := exists_form source
  refine ⟨form, of, fun other of' => ?_⟩
  have same := (Form.cut_eq of').symm.trans (Form.cut_eq of)
  cases other <;> cases form
  case fenced.fenced d d' =>
    exact congrArg Form.fenced (Document.source_injective (of'.symm.trans of))
  all_goals first | rfl | cases same

/-! ### Settings and template -/

/-- The text stands for the settings: it decodes to a mapping of them, or to nothing where there
are none. -/
def Decodes (head : List Char) (config : Fields) : Prop :=
  Text.isBlankText head = true ∧ config = [] ∨
    Text.isBlankText head = false ∧
      ∃ v, (Yaml.Document.ofText? head).bind Yaml.Value.ofDocument? = some v ∧
        (v.toJson = .obj config ∨ v.toJson = .null ∧ config = [])

theorem settings_eq_ok_iff {head : List Char} {config : Fields} :
    settings head = .ok config ↔ Decodes head config := by
  rw [settings, Decodes]
  cases Text.isBlankText head with
  | true => simp [eq_comm]
  | false =>
    cases (Yaml.Document.ofText? head).bind Yaml.Value.ofDocument? with
    | none => simp
    | some v => cases kind : v.toJson <;> simp [kind, eq_comm]

theorem settings_ne_neverClosed (head : List Char) : settings head ≠ .error .neverClosed := by
  rw [settings]
  split
  · nofun
  · split
    · nofun
    · split <;> nofun

theorem split_source (d : Document) :
    split (String.ofList d.source) =
      (settings d.head).map fun config => (String.ofList d.template, config) := by
  rw [split, String.toList_ofList, d.cut_source]
  cases here : settings d.head <;> simp [bind, Except.bind, here, Except.map, pure, Except.pure]

theorem split_source_eq_ok_iff {d : Document} {template : String} {config : Fields} :
    split (String.ofList d.source) = .ok (template, config) ↔
      template = String.ofList d.template ∧ Decodes d.head config := by
  rw [split_source, ← settings_eq_ok_iff]
  cases settings d.head <;> simp [Except.map, eq_comm]

theorem split_source_ne_neverClosed (d : Document) :
    split (String.ofList d.source) ≠ .error .neverClosed := by
  have other := settings_ne_neverClosed d.head
  rw [split_source]
  cases here : settings d.head with
  | ok => nofun
  | error e =>
    rw [here] at other
    exact fun same => other (congrArg Except.error (Except.error.inj same))

/-- Sources that are split alike are read alike. -/
theorem ofSource_congr {source source' : String} (same : split source = split source') :
    ParsedPrompt.ofSource source = ParsedPrompt.ofSource source' := by
  rw [ParsedPrompt.ofSource, same, ParsedPrompt.ofSource]

/-- Splitting a source undoes putting it together. A source has one of three forms, in one way. One
put together of settings, fences and a template is split if and only if the settings decode to a
mapping or nothing, and into these and the template; without a fence in front all of it is the
template; and a fence that is never closed is an error. So any text that decodes to the settings of
a source again may take their place, whatever the fences are. -/
theorem split_inverts_fencing (source : String) :
    (∃! form : Form, form.Of source) ∧
      (∀ d : Document, source.toList = d.source →
        (∀ template config, split source = .ok (template, config) ↔
          template = String.ofList d.template ∧ Decodes d.head config) ∧
        split source ≠ .error .neverClosed) ∧
      (isFenced source = false → split source = .ok (source, [])) ∧
      (Unclosed source.toList → split source = .error .neverClosed) ∧
      ∀ template config, split source = .ok (template, config) →
        ∀ (encode : Fields → List Char) (d : Document), d.head = encode config →
          d.template = template.toList → Decodes (encode config) config →
            split (String.ofList d.source) = .ok (template, config) ∧
              ParsedPrompt.ofSource (String.ofList d.source) = ParsedPrompt.ofSource source := by
  refine ⟨existsUnique_form source, fun d same => ?_, fun plain => ?_, fun unclosed => ?_, ?_⟩
  · obtain rfl : source = String.ofList d.source := by rw [← same, String.ofList_toList]
    exact ⟨fun _ _ => split_source_eq_ok_iff, split_source_ne_neverClosed d⟩
  · have of : Form.plain.Of source := plain
    rw [split, Form.cut_eq of]
    exact congrArg (fun s => Except.ok (s, [])) String.ofList_toList
  · rw [split, cut_of_unclosed unclosed]
    rfl
  · intro template config divided encode d head behind decodes
    have again : split (String.ofList d.source) = .ok (template, config) := by
      rw [split_source_eq_ok_iff, behind, String.ofList_toList, head]
      exact ⟨rfl, decodes⟩
    exact ⟨again, ofSource_congr (again.trans divided.symm)⟩

/-- Two fences and nothing else, without a line feed at the end. -/
def bareFences : Document where
  opening := []
  head := []
  closing := []
  rest := none
  opens := trailing_nil
  closes := trailing_nil
  whole := .inl rfl
  free := nofun

/-- A closing fence need not end in a line feed: a source whose last line it is begins with a fence
and is not put together with a line feed behind the closing one, but is split all the same. -/
theorem split_bareFences :
    isFenced "---\n---" = true ∧
      (¬ ∃ d : Document, d.rest.isSome = true ∧ "---\n---".toList = d.source) ∧
      split "---\n---" = .ok ("", []) := by
  refine ⟨by decide, fun ⟨d, ends, same⟩ => ?_, by rfl⟩
  have here : "---\n---".toList = bareFences.source := by decide
  obtain rfl := Document.source_injective (same.symm.trans here)
  cases ends

end Promptry.Source
