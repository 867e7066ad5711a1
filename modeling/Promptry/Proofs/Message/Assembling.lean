import Promptry.Message.Assembly
import Promptry.Proofs.Marker.Cut
import Promptry.Proofs.Marker.Part

/-!
What reading a text line by line comes to. Whatever was gathered before, reading a text and then
going on is going on from the cut of the text (`outcome_readLines`); so a text has the messages of
its cut (`messagesOf_eq`), which `Cut.recalling` gives by recursion over the markers.
-/

namespace Promptry

open Assembly

/-! ### The message of a stretch -/

namespace Segment

/-- Part markers are markers of media and of sections. -/
theorem partCandidate?_known {cs r written : List Char} {m : Marker}
    (h : partCandidate? cs = some (⟨written, some m⟩, r)) :
    (∃ url type, m = .media url type) ∨ ∃ name, m = .pendingSection name := by
  obtain ⟨-, payload, same | same⟩ := partCandidate?_eq_some h
  · have known : mediaOf? payload = some m := (congrArg Candidate.marker? same).symm
    simp only [mediaOf?, Option.ite_none_left_eq_some, Option.some.injEq] at known
    exact .inl ⟨_, _, known.2.symm⟩
  · have known : sectionOf? payload = some m := (congrArg Candidate.marker? same).symm
    simp only [sectionOf?, Option.ite_none_left_eq_some, Option.some.injEq] at known
    exact .inr ⟨_, known.2.symm⟩

theorem ofParts_spells (cs : List Char) : Spells partCandidate? (ofParts cs) cs := by
  simpa [scan, ofParts] using scan_spells partCandidate?_takesHead [] cs

end Segment

namespace Assembly

/-- The part that a segment of a message stands for. -/
def partOf? : Segment → Option Part
  | .text s => if Text.isBlankText s.toList then none else some (.text s none)
  | .marker (.media url type) => some (.media ⟨url, type⟩ none)
  | .marker (.pendingSection name) => some (.pendingSection name)
  | .marker _ => none

theorem partsOf_eq (cs : List Char) : partsOf cs = (Segment.ofParts cs).filterMap partOf? := rfl

/-- Segments that stand for no part spell a blank text. -/
theorem isBlankText_of_spells {segments : List Segment} {cs : List Char}
    (spelled : Segment.Spells Segment.partCandidate? segments cs)
    (noPart : ∀ segment ∈ segments, partOf? segment = none) : Text.isBlankText cs = true := by
  induction spelled with
  | nil => rfl
  | @text s rest segments _ ih =>
    have blank : Text.isBlankText s = true := by
      simpa [partOf?] using noPart _ List.mem_cons_self
    have blankRest := ih fun segment mem => noPart segment (List.mem_cons_of_mem _ mem)
    simp only [Text.isBlankText, List.all_append, Bool.and_eq_true] at blank blankRest ⊢
    exact ⟨blank, blankRest⟩
  | marker found _ _ =>
    have part := noPart _ List.mem_cons_self
    rcases Segment.partCandidate?_known found with ⟨url, type, rfl⟩ | ⟨name, rfl⟩
    · cases part
    · cases part

/-- A text that is not blank has parts. -/
theorem partsOf_ne_nil {cs : List Char} (h : ¬ Text.isBlankText cs = true) : partsOf cs ≠ [] := by
  intro noParts
  rw [partsOf_eq, List.filterMap_eq_nil_iff] at noParts
  exact h (isBlankText_of_spells (Segment.ofParts_spells cs) noParts)

end Assembly

namespace Cut

/-- The message of a stretch. Blank stretches make none. -/
def messageOf? (role : Role) (stretch : List Char) : Option Message :=
  if Text.isBlankText stretch then none else some ⟨role, partsOf stretch, none⟩

@[simp] theorem reverse_messageOf? (role : Role) (stretch : List Char) :
    (messageOf? role stretch).toList.reverse = (messageOf? role stretch).toList := by
  cases messageOf? role stretch <;> rfl

/-- The stretches of a cut with their speakers, where `role` speaks in front of the first marker. -/
def pieces (role : Role) (c : Cut) : List (Role × List Char) :=
  (role, c.first) :: c.turns.map fun t => (t.1.speaker, t.2)

/-- The messages of a cut without a history. -/
def messages (role : Role) (c : Cut) : List Message :=
  (c.pieces role).filterMap fun piece => messageOf? piece.1 piece.2

/-- The messages of stretches, of which `role` speaks the first, where `recalled` stands at the
first marker of the history, unless it was placed before. -/
def recalling (recalled : List Message) (placed : Bool) (role : Role) (first : List Char) :
    List (Flow × List Char) → List Message
  | [] => (messageOf? role first).toList
  | (f, stretch) :: turns =>
    (messageOf? role first).toList ++
      ((if f = .history ∧ placed = false then recalled else []) ++
        recalling recalled (placed || f == .history) f.speaker stretch turns)

def hasHistory (c : Cut) : Bool := c.turns.any (·.1 == .history)

theorem messages_cons (role : Role) (first stretch : List Char) (f : Flow)
    (turns : List (Flow × List Char)) : messages role ⟨first, (f, stretch) :: turns⟩ =
      (messageOf? role first).toList ++ messages f.speaker ⟨stretch, turns⟩ := by
  simp only [messages, pieces, List.map_cons]
  rw [List.filterMap_cons]
  cases messageOf? role first <;> rfl

theorem messages_single (role : Role) (first : List Char) :
    messages role ⟨first, []⟩ = (messageOf? role first).toList := by
  simp only [messages, pieces, List.map_nil]
  rw [List.filterMap_cons]
  cases messageOf? role first <;> rfl

/-- Nothing is recalled without a history, nor twice. -/
theorem recalling_eq_messages {recalled : List Message} {placed : Bool}
    (nothing : recalled = [] ∨ placed = true) (role : Role) (first : List Char)
    (turns : List (Flow × List Char)) :
    recalling recalled placed role first turns = messages role ⟨first, turns⟩ := by
  induction turns generalizing placed role first with
  | nil => rw [recalling, messages_single]
  | cons t turns ih =>
    obtain ⟨f, stretch⟩ := t
    rw [recalling, messages_cons, ih (by rcases nothing with h | h <;> simp [h])]
    rcases nothing with rfl | rfl <;> simp

end Cut

/-! ### Reading on -/

namespace Assembly

variable (history : Option (List Message))

def recalledOf : List Message := (history.getD []).map Message.asHistory

/-- The text of the message at hand. -/
def text (a : Assembly) : List Char := a.buffer.reverse.flatten

/-- What the messages gathered so far come to when the text goes on with a cut: all messages, and
whether the history is among them. -/
def outcome (a : Assembly) (c : Cut) : List Message × Bool :=
  (a.messages.reverse ++
      Cut.recalling (recalledOf history) a.historyPlaced a.role (a.text ++ c.first) c.turns,
    a.historyPlaced || c.hasHistory)

theorem text_add (a : Assembly) (cs : List Char) : (a.add cs).text = a.text ++ cs := by
  simp [text, add]

theorem flush_eq (a : Assembly) : a.flush =
    { a with buffer := [], messages := (Cut.messageOf? a.role a.text).toList ++ a.messages } := by
  unfold flush Cut.messageOf? text
  by_cases blank : Text.isBlankText a.buffer.reverse.flatten = true
  · simp [blank]
  · simp only [if_neg blank]
    split
    · rename_i noParts
      exact absurd noParts (partsOf_ne_nil blank)
    · rfl

theorem segment_role (a : Assembly) (r : Role) : segment history a (.marker (.role r)) =
    ⟨r, [], (Cut.messageOf? a.role a.text).toList ++ a.messages, a.historyPlaced⟩ := by
  simp [segment, flush_eq]

theorem segment_history (a : Assembly) : segment history a (.marker .history) =
    ⟨.model, [], (if a.historyPlaced then [] else (recalledOf history).reverse) ++
      ((Cut.messageOf? a.role a.text).toList ++ a.messages), true⟩ := by
  simp only [segment, placeHistory, flush_eq, recalledOf]
  split
  · rename_i placed
    simp [placed]
  · simp

theorem outcome_add (a : Assembly) (cs : List Char) (c : Cut) :
    outcome history (a.add cs) c = outcome history a (c.lead cs) := by
  simp only [outcome, text_add, Cut.lead, Cut.hasHistory, List.append_assoc]
  rfl

/-- A marker met in the text is the marker that the cut goes on with. -/
theorem outcome_marker (a : Assembly) (f : Flow) (c : Cut) :
    outcome history (segment history a (.marker f.marker)) c =
      outcome history a (c.behind f) := by
  cases f with
  | role r =>
    have other : (Flow.role r == Flow.history) = false := rfl
    rw [Flow.marker, segment_role]
    simp [outcome, text, other, Cut.behind, Cut.recalling, Cut.hasHistory, Flow.speaker]
  | history =>
    rw [Flow.marker, segment_history]
    cases placed : a.historyPlaced <;>
      simp [outcome, text, placed, Cut.behind, Cut.recalling, Cut.hasHistory, Flow.speaker]

/-- At the end of the text the message at hand ends too. -/
theorem outcome_flush (a : Assembly) :
    outcome history a ⟨[], []⟩ = (a.flush.messages.reverse, a.flush.historyPlaced) := by
  simp [outcome, flush_eq, Cut.recalling, Cut.hasHistory]

theorem outcome_closeText (a : Assembly) (literal : List Char) (c : Cut) :
    outcome history ((Segment.closeText literal []).foldl (segment history) a) c =
      outcome history a (c.lead literal.reverse) := by
  unfold Segment.closeText
  split
  · rename_i empty
    simp [List.isEmpty_iff.mp empty]
  · simp [segment, outcome_add]

/-- Folding over the segments of a text is going on from the cut of the text. -/
theorem outcome_scan (a : Assembly) (literal cs : List Char) (c : Cut) :
    outcome history ((Segment.scan Segment.flowCandidate? literal cs).foldl (segment history) a) c =
      outcome history a (((cut cs).append c).lead literal.reverse) := by
  induction cs using Segment.reading_induction Segment.flowCandidate?_takesHead
    generalizing a literal with
  | nil => rw [Segment.scan_nil, outcome_closeText, cut_nil, Cut.stretch_append, Cut.lead_nil]
  | plain d r found ih =>
    rw [Segment.scan_cons found, ih, cut_cons (Segment.flowCandidate?_eq_none found),
      Cut.lead_append, Cut.lead_lead, List.reverse_cons]
  | marker written m rest found ih =>
    obtain ⟨f, rfl, rfl⟩ := Segment.flowCandidate?_known found
    rw [Segment.scan_marker Segment.flowCandidate?_takesHead found, List.foldl_append,
      List.foldl_cons, ih, List.reverse_nil, Cut.lead_nil, outcome_marker, outcome_closeText,
      cut_written, Cut.behind_append]
  | unknown written rest found ih =>
    rw [Segment.scan_unknown Segment.flowCandidate?_takesHead found, ih, cut_unknown found,
      Cut.lead_append, Cut.lead_lead, List.reverse_append, List.reverse_reverse]

theorem outcome_line (a : Assembly) (cs : List Char) (c : Cut) :
    outcome history (line history a cs) c = outcome history a ((cut cs).append c) := by
  simpa [line, Segment.ofFlow, Segment.scan] using outcome_scan history a [] cs c

/-! ### Lines -/

/-- The text of lines that each follow a line feed. -/
def behindFeeds (ls : List (List Char)) : List Char := ls.flatMap ('\n' :: ·)

/-- The lines of a text, with line feeds between them, are the text. -/
theorem lines_joined (acc : List Char) (done : List (List Char)) (cs : List Char) :
    ∃ l ls, lines acc done cs = done.reverse ++ l :: ls ∧
      acc.reverse ++ cs = l ++ behindFeeds ls := by
  induction acc, done, cs using lines.induct with
  | case1 acc done => exact ⟨acc.reverse, [], by simp [lines, behindFeeds]⟩
  | case2 acc done cs ih =>
    obtain ⟨l, ls, same, joined⟩ := ih
    exact ⟨acc.reverse, l :: ls, by simp [lines, same],
      by simpa [behindFeeds] using joined⟩
  | case3 acc done c cs notFeed ih =>
    obtain ⟨l, ls, same, joined⟩ := ih
    refine ⟨l, ls, ?_, by simpa using joined⟩
    rw [lines, same]
    exact notFeed

theorem cut_lines (l : List Char) (ls : List (List Char)) :
    cut (l ++ behindFeeds ls) = (cut l).append (cut (behindFeeds ls)) := by
  cases ls with
  | nil => simp [behindFeeds, cut_nil]
  | cons l' ls => exact cut_append_newline l _

theorem outcome_lines (a : Assembly) (ls : List (List Char)) (c : Cut) :
    outcome history (ls.foldl (fun a l => line history (a.add ['\n']) l) a) c =
      outcome history a ((cut (behindFeeds ls)).append c) := by
  induction ls generalizing a with
  | nil => simp [behindFeeds, cut_nil]
  | cons l ls ih =>
    have split : cut (behindFeeds (l :: ls)) =
        ((cut l).append (cut (behindFeeds ls))).lead ['\n'] := by
      rw [← cut_lines, ← cut_newline]
      rfl
    rw [List.foldl_cons, ih, outcome_line, outcome_add, split, Cut.lead_append, Cut.append_assoc]

/-- Reading a text line by line is going on from the cut of the whole text. -/
theorem outcome_readLines (a : Assembly) (cs : List Char) (c : Cut) :
    outcome history (readLines history a (lines [] [] cs)) c =
      outcome history a ((cut cs).append c) := by
  obtain ⟨l, ls, same, joined⟩ := lines_joined [] [] cs
  simp only [List.reverse_nil, List.nil_append] at same joined
  rw [same, readLines, outcome_lines, outcome_line, joined, cut_lines, Cut.append_assoc]

end Assembly

/-- The messages gathered out of a text, or if there are none the text itself as a message of the
user, unless it is blank. -/
def orWhole (cs : List Char) (messages : List Message) : List Message :=
  if messages.isEmpty && !Text.isBlankText cs
  then [Message.ofText .user (String.ofList (Text.trim cs))] else messages

/-- A text has the messages of its cut, with the history among them. -/
theorem messagesOf_eq (rendered : String) (history : Option (List Message)) :
    messagesOf rendered history =
      let c := cut rendered.toList
      let messages := orWhole rendered.toList
        (Cut.recalling (recalledOf history) false .user c.first c.turns)
      match history with
      | some h => if c.hasHistory then messages else insertHistory h messages
      | none => messages := by
  have read := outcome_readLines history {} rendered.toList ⟨[], []⟩
  rw [outcome_flush, Cut.append_nil] at read
  have gathered := (Prod.mk.inj read).1
  have placed := (Prod.mk.inj read).2
  simp only [text, List.reverse_nil, List.flatten_nil, List.nil_append, Bool.false_or]
    at gathered placed
  cases history with
  | none => simp only [messagesOf, orWhole, ← gathered, List.isEmpty_reverse]
  | some h => simp only [messagesOf, orWhole, ← gathered, ← placed, List.isEmpty_reverse]

end Promptry
