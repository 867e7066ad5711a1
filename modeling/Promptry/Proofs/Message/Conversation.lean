import Mathlib.Data.List.Chain
import Promptry.Proofs.Marker.Standing
import Promptry.Proofs.Message.WholeText

/-!
Writing conversations down. Each utterance is written as the marker of its role with its contents
behind it, texts as they are and all else as markers. Texts that hold no marker and payloads that
hold no piece of one stay apart when they are written one behind the other. Main statement:
`messagesOf_written`, that a conversation is read back from what is written.
-/

namespace Promptry

open Assembly

/-! ### Contents -/

/-- What is said in one go: a text, a medium, or a section still to be filled in. -/
inductive Content where
  | text (s : String)
  | media (url : String) (contentType : Option String)
  | pendingSection (name : String)
  deriving DecidableEq, Repr

namespace Content

/-- The part of a message that the content is. -/
def part : Content → Part
  | text s => .text s none
  | media url type => .media ⟨url, type⟩ none
  | pendingSection name => .pendingSection name

def segment : Content → Segment
  | text s => .text s
  | media url type => .marker (.media url type)
  | pendingSection name => .marker (.pendingSection name)

/-- How the content is written: a text as it is, all else as its marker. -/
def written (c : Content) : String :=
  match c.segment with
  | .text s => s
  | .marker m => m.text

def isText : Content → Bool
  | text _ => true
  | _ => false

end Content

/-- The payload of a marker stays on its line, and no other marker begins or ends in it. -/
def PlainPayload (payload : List Char) : Prop :=
  Segment.PayloadFree payload ∧ ¬ Segment.opening <:+: payload

/-- Contents that can be told from what is written. -/
def Content.Plain : Content → Prop
  | text s => Text.isBlankText s.toList = false ∧ ¬ Segment.opening <:+: s.toList
  | media url none => url ≠ "" ∧ '|' ∉ url.toList ∧ PlainPayload url.toList
  | media url (some type) => url ≠ "" ∧ '/' ∈ type.toList ∧ '|' ∉ type.toList ∧
      PlainPayload (url.toList ++ '|' :: type.toList)
  | pendingSection name => name ≠ "" ∧ Text.trimText name = name ∧ PlainPayload name.toList

namespace Content

instance (payload : List Char) : Decidable (PlainPayload payload) :=
  inferInstanceAs (Decidable ((_ ∧ _ ∧ _) ∧ _))

instance : DecidablePred Plain
  | text _ => inferInstanceAs (Decidable (_ ∧ _))
  | media _ none => inferInstanceAs (Decidable (_ ∧ _ ∧ _))
  | media _ (some _) => inferInstanceAs (Decidable (_ ∧ _ ∧ _ ∧ _))
  | pendingSection _ => inferInstanceAs (Decidable (_ ∧ _ ∧ _))

/-- The contents as they are written one behind the other. -/
def body (contents : List Content) : List Char := contents.flatMap (·.written.toList)

theorem inside_free {lead payload : List Char} (noLt : '<' ∉ lead) (plain : PlainPayload payload) :
    ¬ Segment.opening <:+: lead ++ payload :=
  fun h => plain.2 (Segment.infix_right_of_head_ne noLt h)

/-- The marker of a plain content is read, whatever follows it. -/
theorem Plain.marker {c : Content} (plain : c.Plain) (noText : c.isText = false) :
    ∃ inside m, c.written.toList = Segment.wrapped inside ∧ c.segment = .marker m ∧
      ¬ Segment.opening <:+: inside ∧
      ∀ r, Segment.partCandidate? (Segment.wrapped inside ++ r) =
        some (⟨Segment.wrapped inside, some m⟩, r) := by
  match c, plain with
  | media url none, ⟨ne, noBar, payload⟩ =>
    refine ⟨_, _, Segment.toList_text_url url, rfl, inside_free (by decide) payload, fun r => ?_⟩
    rw [Segment.partCandidate?_media payload.1, Segment.mediaOf?_url ne noBar]
  | media url (some type), ⟨ne, slash, noBar, payload⟩ =>
    refine ⟨_, _, Segment.toList_text_typed url type, rfl, inside_free (by decide) payload,
      fun r => ?_⟩
    rw [Segment.partCandidate?_media payload.1, Segment.mediaOf?_typed ne slash noBar]
  | pendingSection name, ⟨ne, trimmed, payload⟩ =>
    refine
      ⟨_, _, Segment.toList_text_section name, rfl, inside_free (by decide) payload, fun r => ?_⟩
    rw [Segment.partCandidate?_section payload.1, Segment.sectionOf?_name ne trimmed]

theorem Plain.partOf?_segment {c : Content} (plain : c.Plain) :
    partOf? c.segment = some c.part := by
  cases c with
  | text s => simp [segment, part, partOf?, plain.1]
  | media url type => rfl
  | pendingSection name => rfl

/-- Plain contents stand one behind the other if no text follows a text. -/
theorem stands_body {contents : List Content} (plain : ∀ c ∈ contents, c.Plain)
    (apart : contents.IsChain fun a b => ¬ (a.isText ∧ b.isText)) :
    Segment.Stands (contents.map segment) (body contents) := by
  induction contents with
  | nil => exact .nil
  | cons c contents ih =>
    have plainRest : ∀ c ∈ contents, c.Plain := fun d mem => plain d (List.mem_cons_of_mem c mem)
    have rest := ih plainRest apart.tail
    cases textual : c.isText with
    | false =>
      obtain ⟨inside, m, writes, marks, free, read⟩ := (plain c List.mem_cons_self).marker textual
      simpa [body, writes, marks] using Segment.Stands.marker free read rest
    | true =>
      obtain ⟨s, rfl⟩ : ∃ s, c = text s := by cases c <;> simp_all [isText]
      obtain ⟨notBlank, free⟩ := plain _ List.mem_cons_self
      have next : body contents = [] ∨ Segment.opening <+: body contents := by
        cases contents with
        | nil => exact .inl rfl
        | cons d contents =>
          have noText : d.isText = false := by
            have := (List.isChain_cons_cons.mp apart).1
            simpa [isText] using this
          obtain ⟨inside, m, writes, -⟩ := (plainRest d List.mem_cons_self).marker noText
          right
          simp only [body, List.flatMap_cons, writes]
          exact Segment.opening_prefix_wrapped inside _
      simpa [body, segment, written] using Segment.Stands.text notBlank free next rest

/-- The parts of a message are read back from what is written. -/
theorem partsOf_body {contents : List Content} (plain : ∀ c ∈ contents, c.Plain)
    (apart : contents.IsChain fun a b => ¬ (a.isText ∧ b.isText)) :
    partsOf (body contents) = contents.map part := by
  rw [partsOf_eq, (stands_body plain apart).ofParts, List.filterMap_map,
    ← List.filterMap_eq_map]
  exact List.filterMap_congr fun c mem => (plain c mem).partOf?_segment

end Content

/-! ### Conversations -/

/-- What one speaker says before another speaks. -/
structure Utterance where
  role : Role
  contents : List Content
  deriving DecidableEq, Repr

namespace Utterance

/-- The marker of the role, and the contents behind it. -/
def written (u : Utterance) : String :=
  Marker.roleText u.role.name ++ String.join (u.contents.map Content.written)

/-- The message that the utterance is. -/
def message (u : Utterance) : Message := ⟨u.role, u.contents.map Content.part, none⟩

/-- Utterances that can be told from what is written: they say something, and no text follows a
text. -/
structure WellFormed (u : Utterance) : Prop where
  nonempty : u.contents ≠ []
  plain : ∀ c ∈ u.contents, c.Plain
  apart : u.contents.IsChain fun a b => ¬ (a.isText ∧ b.isText)

theorem toList_written (u : Utterance) :
    u.written.toList = (Flow.role u.role).written ++ Content.body u.contents := by
  simp [written, Flow.written, Flow.marker, Marker.text, Content.body, List.flatMap_map]

theorem WellFormed.messageOf? {u : Utterance} (h : u.WellFormed) :
    Cut.messageOf? u.role (Content.body u.contents) = some u.message := by
  have notBlank := (Content.stands_body h.plain h.apart).isBlankText (by simpa using h.nonempty)
  simp [Cut.messageOf?, notBlank, message, Content.partsOf_body h.plain h.apart]

/-- The text of a conversation is cut into the utterances. -/
theorem cut_written {conversation : List Utterance} (h : ∀ u ∈ conversation, u.WellFormed) :
    cut (conversation.flatMap (·.written.toList)) =
      ⟨[], conversation.map fun u => (.role u.role, Content.body u.contents)⟩ := by
  induction conversation with
  | nil => exact cut_nil
  | cons u conversation ih =>
    have here := h u List.mem_cons_self
    have follows : conversation.flatMap (·.written.toList) = [] ∨
        Segment.opening <+: conversation.flatMap (·.written.toList) := by
      cases conversation with
      | nil => exact .inl rfl
      | cons v conversation =>
        right
        rw [List.flatMap_cons, toList_written, List.append_assoc]
        exact (Flow.opening_prefix_written _).trans (List.prefix_append _ _)
    rw [List.flatMap_cons, toList_written, List.append_assoc, Promptry.cut_written,
      (Content.stands_body here.plain here.apart).cut_append follows,
      ih fun v mem => h v (List.mem_cons_of_mem u mem)]
    simp [Cut.behind, Cut.lead]

end Utterance

/-- Without a text in front, only what stands behind the markers makes messages. -/
theorem Cut.messages_turns (role : Role) (turns : List (Flow × List Char)) :
    Cut.messages role ⟨[], turns⟩ = turns.filterMap fun t => Cut.messageOf? t.1.speaker t.2 := by
  rw [Cut.messages, Cut.pieces, List.filterMap_cons_none rfl, List.filterMap_map]
  rfl

/-- A conversation is read back from what is written. -/
theorem messagesOf_written {conversation : List Utterance}
    (h : ∀ u ∈ conversation, u.WellFormed) :
    messagesOf (String.join (conversation.map Utterance.written)) none =
      conversation.map Utterance.message := by
  have joined : (String.join (conversation.map Utterance.written)).toList =
      conversation.flatMap (·.written.toList) := by
    simp [List.flatMap_map]
  have messages : (cut (conversation.flatMap (·.written.toList))).messages .user =
      conversation.map Utterance.message := by
    rw [Utterance.cut_written h, Cut.messages_turns, List.filterMap_map, ← List.filterMap_eq_map]
    exact List.filterMap_congr fun u mem => (h u mem).messageOf?
  rw [messagesOf_none, wholeText, joined, messages]
  cases conversation with
  | nil => rfl
  | cons u conversation => exact orWhole_of_ne_nil _ (by simp)

theorem messagesOf_written_two :
    (∀ u ∈ ([⟨.system, [.text "Rules\n<", .pendingSection "a b"]⟩,
        ⟨.user, [.media "data:a|b" (some "image/png"), .text ">\n<<<dot"]⟩] : List Utterance),
      u.WellFormed) ∧
    messagesOf (String.join
        ([⟨.system, [.text "Rules\n<", .pendingSection "a b"]⟩,
          ⟨.user, [.media "data:a|b" (some "image/png"), .text ">\n<<<dot"]⟩].map
            Utterance.written)) none =
      [⟨.system, [.text "Rules\n<" none, .pendingSection "a b"], none⟩,
        ⟨.user, [.media ⟨"data:a|b", some "image/png"⟩ none, .text ">\n<<<dot" none], none⟩] := by
  have wellFormed : ∀ u ∈ ([⟨.system, [.text "Rules\n<", .pendingSection "a b"]⟩,
      ⟨.user, [.media "data:a|b" (some "image/png"), .text ">\n<<<dot"]⟩] : List Utterance),
      u.WellFormed := by
    intro u mem
    simp only [List.mem_cons, List.not_mem_nil, or_false] at mem
    rcases mem with rfl | rfl
    · exact ⟨by simp, by decide +kernel, by simp [Content.isText]⟩
    · exact ⟨by simp, by decide +kernel, by simp [Content.isText]⟩
  exact ⟨wellFormed, messagesOf_written wellFormed⟩

end Promptry
