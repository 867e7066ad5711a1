import Promptry.Proofs.Marker.Quiet
import Promptry.Proofs.Message.History

/-!
What the messages of a text are apart from what is said in them. The outline of a cut keeps the
markers, and of each stretch between them whether it is blank. If nothing in the stretches is read
as a marker, the outline settles who speaks in which order and that each message is one text
(`messagesOf_eq_of_outline`).
-/

namespace Promptry

open Assembly

/-- The part, less what it says if it is a text. -/
def Part.withoutText : Part → Part
  | .text _ m => .text "" m
  | part => part

/-- The message, less what its texts say. -/
def Message.withoutTexts (m : Message) : Message :=
  { m with content := m.content.map Part.withoutText }

namespace Cut

/-- The outline of a cut: its markers, and which stretches are blank. -/
def outline (c : Cut) : Bool × List (Flow × Bool) :=
  (Text.isBlankText c.first, c.turns.map fun t => (t.1, Text.isBlankText t.2))

theorem outline_behind (f : Flow) (c : Cut) :
    (c.behind f).outline = (true, (f, c.outline.1) :: c.outline.2) := rfl

theorem outline_lead (s : List Char) (c : Cut) :
    (c.lead s).outline = (Text.isBlankText s && c.outline.1, c.outline.2) := by
  simp [outline, lead, Text.isBlankText]

/-- The outline says whether the whole text is blank. -/
theorem isBlankText_joined (c : Cut) :
    Text.isBlankText c.joined = (c.outline.1 && c.outline.2.isEmpty) := by
  obtain ⟨first, turns⟩ := c
  cases turns with
  | nil => simp [joined, outline]
  | cons t turns =>
    have notBlank : Text.isBlankText t.1.written = false := by
      obtain ⟨behind, split⟩ := t.1.opening_prefix_written
      rw [← split, Text.isBlankText, List.all_append]
      rfl
    have : Text.isBlankText (joined ⟨first, t :: turns⟩) = false := by
      simp only [Text.isBlankText] at notBlank
      simp [joined, Text.isBlankText, notBlank]
    simp [outline, this]

/-- The outline says whether a history marker is there. -/
theorem hasHistory_eq (c : Cut) : c.hasHistory = c.outline.2.any (·.1 == .history) := by
  simp [hasHistory, outline, Function.comp_def]

end Cut

/-- A quiet text that is not blank is one part. -/
theorem Segment.Quiet.partsOf {cs : List Char} (quiet : Segment.Quiet cs)
    (notBlank : Text.isBlankText cs = false) : partsOf cs = [.text (String.ofList cs) none] := by
  have nonempty : cs ≠ [] := by
    rintro rfl
    cases notBlank
  rw [partsOf_eq, quiet.ofParts]
  simp [closeText, nonempty, partOf?, notBlank]

/-- What is left of the message of a quiet stretch without its text. -/
theorem Segment.Quiet.withoutTexts_messageOf? {cs : List Char} (quiet : Segment.Quiet cs)
    (role : Role) : (Cut.messageOf? role cs).map Message.withoutTexts =
      if Text.isBlankText cs then none else some (Message.ofText role "") := by
  cases blank : Text.isBlankText cs with
  | true => simp [Cut.messageOf?, blank]
  | false =>
    simp [Cut.messageOf?, blank, quiet.partsOf blank, Message.withoutTexts, Part.withoutText,
      Message.ofText]

/-! ### Two texts of one outline -/

/-- The messages of two quiet stretches, both blank or both not, differ in their texts alone. -/
theorem messageOf?_eq_of_blank {cs cs' : List Char} (quiet : Segment.Quiet cs)
    (quiet' : Segment.Quiet cs') (blank : Text.isBlankText cs = Text.isBlankText cs')
    (role : Role) : (Cut.messageOf? role cs).toList.map Message.withoutTexts =
      (Cut.messageOf? role cs').toList.map Message.withoutTexts := by
  rw [← Option.toList_map, ← Option.toList_map, quiet.withoutTexts_messageOf?,
    quiet'.withoutTexts_messageOf?, blank]

/-- The messages of two lists of quiet stretches with one outline differ in their texts alone. -/
theorem recalling_eq_of_outline (recalled : List Message) (placed : Bool) (role : Role)
    {first first' : List Char} {turns turns' : List (Flow × List Char)}
    (quiet : ∀ s ∈ Cut.stretches ⟨first, turns⟩, Segment.Quiet s)
    (quiet' : ∀ s ∈ Cut.stretches ⟨first', turns'⟩, Segment.Quiet s)
    (same : Cut.outline ⟨first, turns⟩ = Cut.outline ⟨first', turns'⟩) :
    (Cut.recalling recalled placed role first turns).map Message.withoutTexts =
      (Cut.recalling recalled placed role first' turns').map Message.withoutTexts := by
  induction turns generalizing placed role first first' turns' with
  | nil =>
    obtain ⟨blank, sameTurns⟩ := Prod.mk.inj same
    obtain rfl : turns' = [] := List.map_eq_nil_iff.mp sameTurns.symm
    exact messageOf?_eq_of_blank (quiet first List.mem_cons_self)
      (quiet' first' List.mem_cons_self) blank role
  | cons t turns ih =>
    obtain ⟨blank, sameTurns⟩ := Prod.mk.inj same
    obtain ⟨t', turns', rfl, sameTurn, sameLater⟩ := List.map_eq_cons_iff.mp sameTurns.symm
    obtain ⟨f, stretch⟩ := t
    obtain ⟨f', stretch'⟩ := t'
    obtain ⟨rfl, blankNext⟩ := Prod.mk.inj sameTurn
    have here := messageOf?_eq_of_blank (quiet first List.mem_cons_self)
      (quiet' first' List.mem_cons_self) blank role
    have later : (Cut.recalling recalled (placed || f' == .history) f'.speaker stretch turns).map
          Message.withoutTexts =
        (Cut.recalling recalled (placed || f' == .history) f'.speaker stretch' turns').map
          Message.withoutTexts := by
      apply ih
      · exact fun s mem => quiet s (List.mem_cons_of_mem _ mem)
      · exact fun s mem => quiet' s (List.mem_cons_of_mem _ mem)
      · exact Prod.ext blankNext.symm sameLater.symm
    simp only [Cut.recalling, List.map_append, here, later]

/-- Standing for the whole text where nothing else does leaves an outline as it is. -/
theorem orWhole_eq_of_blank {cs cs' : List Char} {messages messages' : List Message}
    (blank : Text.isBlankText cs = Text.isBlankText cs')
    (same : messages.map Message.withoutTexts = messages'.map Message.withoutTexts) :
    (orWhole cs messages).map Message.withoutTexts =
      (orWhole cs' messages').map Message.withoutTexts := by
  have empty : messages.isEmpty = messages'.isEmpty := by
    simpa using congrArg List.isEmpty same
  unfold orWhole
  rw [blank, empty]
  split
  · rfl
  · exact same

/-- Where a history goes does not depend on what the texts say. -/
theorem insertHistory_eq_of_same (h : List Message) {messages messages' : List Message}
    (same : messages.map Message.withoutTexts = messages'.map Message.withoutTexts) :
    (insertHistory h messages).map Message.withoutTexts =
      (insertHistory h messages').map Message.withoutTexts := by
  have split (messages : List Message) : (insertHistory h messages).map Message.withoutTexts =
      (messages.map Message.withoutTexts).takeWhile (·.role == .system) ++
        ((h.map Message.asHistory).map Message.withoutTexts ++
          (messages.map Message.withoutTexts).dropWhile (·.role == .system)) := by
    rw [insertHistory, List.map_append, List.map_append, List.append_assoc, List.takeWhile_map,
      List.dropWhile_map]
    rfl
  rw [split, split, same]

/-- Texts that are put together of quiet stretches, with one outline, have the same messages but for
what the texts say. -/
theorem messagesOf_eq_of_outline {c c' : Cut} (quiet : ∀ s ∈ c.stretches, Segment.Quiet s)
    (quiet' : ∀ s ∈ c'.stretches, Segment.Quiet s) (same : c.outline = c'.outline)
    (history : Option (List Message)) :
    (messagesOf (String.ofList c.joined) history).map Message.withoutTexts =
      (messagesOf (String.ofList c'.joined) history).map Message.withoutTexts := by
  have whole := orWhole_eq_of_blank
    (show Text.isBlankText c.joined = Text.isBlankText c'.joined by
      rw [Cut.isBlankText_joined, Cut.isBlankText_joined, same])
    (recalling_eq_of_outline (recalledOf history) false .user quiet quiet' same)
  have placed : c.hasHistory = c'.hasHistory := by
    rw [Cut.hasHistory_eq, Cut.hasHistory_eq, same]
  rw [messagesOf_eq, messagesOf_eq, String.toList_ofList, String.toList_ofList,
    cut_joined_of_quiet quiet, cut_joined_of_quiet quiet']
  cases history with
  | none => exact whole
  | some h =>
    simp only [placed]
    split
    · exact whole
    · exact insertHistory_eq_of_same h whole

end Promptry
