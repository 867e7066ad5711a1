import Promptry.Proofs.Message.Assembling

/-!
The messages of a text without a history. Reading line by line gives the messages of the text cut as
a whole, one for each stretch between two flow markers that is not blank. Main statement:
`messagesOf_eq_wholeText`.
-/

namespace Promptry

open Assembly

namespace Segment

/-- The text of a segment that is no marker. -/
def text? : Segment → Option String
  | .text s => some s
  | .marker _ => none

/-- Stretches of text stand in the text as they are. -/
theorem subset_of_spells {candidate? : List Char → Option (Candidate × List Char)}
    {segments : List Segment} {cs : List Char} (spelled : Spells candidate? segments cs)
    {s : String} (mem : .text s ∈ segments) : s.toList ⊆ cs := by
  induction spelled with
  | nil => cases mem
  | text _ ih =>
    rcases List.mem_cons.mp mem with same | mem
    · cases same
      simp
    · exact List.subset_append_of_subset_right _ (ih mem)
  | marker _ _ ih =>
    rcases List.mem_cons.mp mem with same | mem
    · cases same
    · exact List.subset_append_of_subset_right _ (ih mem)

end Segment

namespace Cut

/-- The texts between all markers of a text, those of flow and those of parts. -/
def texts (c : Cut) : List String :=
  c.stretches.flatMap fun stretch => (Segment.ofParts stretch).filterMap Segment.text?

end Cut

/-- Whether a text holds more than blanks. -/
def nonblank (s : String) : Bool := !Text.isBlankText s.toList

/-- The texts of a message are those between the part markers of its stretch, less the blank
ones. -/
theorem texts_partsOf (cs : List Char) : (partsOf cs).filterMap Part.asText? =
    ((Segment.ofParts cs).filterMap Segment.text?).filter nonblank := by
  rw [partsOf_eq, List.filterMap_filterMap, List.filter_filterMap]
  congr
  funext segment
  cases segment with
  | text s =>
    by_cases blank : Text.isBlankText s.toList = true <;>
      simp [partOf?, Segment.text?, Part.asText?, Option.filter_some, nonblank, blank]
  | marker m => cases m <;> rfl

/-- A blank stretch holds nothing to say. -/
theorem filter_texts_of_blank {cs : List Char} (blank : Text.isBlankText cs = true) :
    ((Segment.ofParts cs).filterMap Segment.text?).filter nonblank = [] := by
  rw [List.filter_eq_nil_iff]
  intro s mem
  obtain ⟨segment, mem, same⟩ := List.mem_filterMap.mp mem
  cases segment with
  | text s' =>
    cases same
    have inside := Segment.subset_of_spells (Segment.ofParts_spells cs) mem
    have blankToo : Text.isBlankText s.toList = true :=
      List.all_eq_true.mpr fun c hc => List.all_eq_true.mp blank c (inside hc)
    simp [nonblank, blankToo]
  | marker m => cases same

namespace Cut

theorem content_messageOf? {role : Role} {stretch : List Char} {m : Message}
    (h : messageOf? role stretch = some m) :
    m.content ≠ [] ∧ ∀ s ∈ m.texts, nonblank s = true := by
  simp only [messageOf?, Option.ite_none_left_eq_some, Option.some.injEq] at h
  obtain ⟨notBlank, rfl⟩ := h
  refine ⟨partsOf_ne_nil notBlank, ?_⟩
  intro s mem
  rw [Message.texts, texts_partsOf] at mem
  exact (List.mem_filter.mp mem).2

theorem texts_messageOf? (role : Role) (stretch : List Char) :
    (messageOf? role stretch).toList.flatMap Message.texts =
      ((Segment.ofParts stretch).filterMap Segment.text?).filter nonblank := by
  unfold messageOf?
  split
  · rename_i blank
    simp [filter_texts_of_blank blank]
  · simp [Message.texts, texts_partsOf]

/-- The messages of a cut say what it nonblank, in order. -/
theorem texts_messages (role : Role) (c : Cut) :
    (c.messages role).flatMap Message.texts = c.texts.filter nonblank := by
  obtain ⟨first, turns⟩ := c
  induction turns generalizing role first with
  | nil => simp [messages_single, texts_messageOf?, texts, stretches]
  | cons t turns ih =>
    rw [messages_cons, List.flatMap_append, ih, texts_messageOf?]
    simp [texts, stretches]

end Cut

/-- The messages of a text as a whole: each stretch between flow markers that is not blank makes
one. -/
def wholeText (rendered : String) : List Message :=
  orWhole rendered.toList ((cut rendered.toList).messages .user)

theorem messagesOf_none (rendered : String) : messagesOf rendered none = wholeText rendered := by
  rw [messagesOf_eq]
  simp only [wholeText, recalledOf, Option.getD_none, List.map_nil,
    Cut.recalling_eq_messages (.inl rfl)]

/-- A message that stands for the whole text has the same parts as any other. -/
theorem content_orWhole {cs : List Char} {messages : List Message}
    (spoken : ∀ m ∈ messages, m.content ≠ [] ∧ ∀ s ∈ m.texts, nonblank s = true) :
    ∀ m ∈ orWhole cs messages, m.content ≠ [] ∧ ∀ s ∈ m.texts, nonblank s = true := by
  intro m mem
  unfold orWhole at mem
  split at mem
  · rename_i whole
    simp only [Bool.and_eq_true, Bool.not_eq_true'] at whole
    obtain rfl := List.mem_singleton.mp mem
    simp [Message.ofText, Message.texts, Part.asText?, nonblank, Text.isBlankText_trim, whole.2]
  · exact spoken m mem

theorem orWhole_ne_nil {cs : List Char} (notBlank : Text.isBlankText cs = false)
    (messages : List Message) : orWhole cs messages ≠ [] := by
  unfold orWhole
  cases messages <;> simp [notBlank]

theorem orWhole_of_ne_nil (cs : List Char) {messages : List Message} (ne : messages ≠ []) :
    orWhole cs messages = messages := by
  simp [orWhole, ne]

/-- Reading line by line gives the messages of the whole text. The cut of the text loses nothing and
leaves no marker uncut; each message has parts, none of which is a blank text; a text that is not
blank has a message; and what stands between markers is said once, as it stands and in order. -/
theorem messagesOf_eq_wholeText (rendered : String) :
    messagesOf rendered none = wholeText rendered ∧
      (cut rendered.toList).joined = rendered.toList ∧
      (∀ stretch ∈ (cut rendered.toList).stretches, ∀ f : Flow, ¬ f.written <:+: stretch) ∧
      (∀ m ∈ messagesOf rendered none, m.content ≠ [] ∧ ∀ s ∈ m.texts, nonblank s = true) ∧
      (nonblank rendered = true → messagesOf rendered none ≠ []) ∧
      ((cut rendered.toList).messages .user ≠ [] →
        (messagesOf rendered none).flatMap Message.texts =
          (cut rendered.toList).texts.filter nonblank) := by
  rw [messagesOf_none]
  refine ⟨rfl, cut_joined _, cut_free _, ?_, ?_, ?_⟩
  · apply content_orWhole
    intro m mem
    obtain ⟨piece, -, made⟩ := List.mem_filterMap.mp mem
    exact Cut.content_messageOf? made
  · intro notBlank
    exact orWhole_ne_nil (by simpa [nonblank] using notBlank) _
  · intro ne
    rw [wholeText, orWhole_of_ne_nil _ ne, Cut.texts_messages]

end Promptry
