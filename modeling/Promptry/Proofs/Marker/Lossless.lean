import Mathlib.Data.List.Chain
import Promptry.Proofs.Marker.Cut

/-!
The segments of a text around its flow markers. They are those of its cut (`ofFlow_eq`), so they
spell the text and leave no marker unread, and no other segments do both (`flowSegments_unique`). A
marker with a name that no role has stays text and leaves alone what is read around it
(`ofFlow_unknown`). Main statement: `ofFlow_lossless_maximal`.
-/

namespace Promptry

namespace Segment

/-- How a segment is written. -/
def written : Segment → List Char
  | .text s => s.toList
  | .marker m => m.text.toList

def isText : Segment → Bool
  | .text _ => true
  | .marker _ => false

/-- A stretch of text as a segment, unless it is empty. -/
def ofStretch (s : List Char) : List Segment := closeText s.reverse []

@[simp] theorem ofStretch_nil : ofStretch [] = [] := rfl

theorem ofStretch_of_ne_nil {s : List Char} (ne : s ≠ []) :
    ofStretch s = [.text (String.ofList s)] := by
  simp [ofStretch, closeText, ne]

@[simp] theorem written_ofStretch (s : List Char) : (ofStretch s).flatMap written = s := by
  by_cases empty : s = []
  · subst empty
    rfl
  · simp [ofStretch_of_ne_nil empty, written]

theorem mem_ofStretch {s : List Char} {segment : Segment} :
    segment ∈ ofStretch s ↔ s ≠ [] ∧ segment = .text (String.ofList s) := by
  by_cases empty : s = []
  · simp [empty]
  · simp [ofStretch_of_ne_nil empty, empty]

end Segment

open Segment

/-! ### The segments of a cut -/

namespace Cut

/-- The markers of a cut, and its stretches that are not empty. -/
def segments (c : Cut) : List Segment :=
  ofStretch c.first ++ c.turns.flatMap fun t => .marker t.1.marker :: ofStretch t.2

@[simp] theorem segments_stretch (s : List Char) : segments ⟨s, []⟩ = ofStretch s := by
  simp [segments]

@[simp] theorem segments_behind (f : Flow) (c : Cut) :
    (c.behind f).segments = .marker f.marker :: c.segments := by
  simp [segments, behind]

/-- A stretch in front of a marker. -/
@[simp] theorem segments_lead_behind (s : List Char) (f : Flow) (c : Cut) :
    ((c.behind f).lead s).segments = ofStretch s ++ .marker f.marker :: c.segments := by
  simp [segments, behind, lead]

theorem written_segments (c : Cut) : c.segments.flatMap written = c.joined := by
  induction c using shape_induction with
  | stretch s => simp [joined]
  | turn s f c ih => simp [ih, written, Flow.written]

/-- The texts among the segments are the stretches that are not empty. -/
theorem text_mem_segments {c : Cut} {s : String} (mem : .text s ∈ c.segments) :
    s ≠ "" ∧ s.toList ∈ c.stretches := by
  simp only [segments, List.mem_append, List.mem_flatMap, List.mem_cons, mem_ofStretch] at mem
  rcases mem with ⟨ne, same⟩ | ⟨t, turn, same | ⟨ne, same⟩⟩
  · cases same
    simp [ne, stretches]
  · cases same
  · cases same
    have stretch : t.2 ∈ c.turns.map (·.2) := List.mem_map_of_mem turn
    exact ⟨by simpa using ne, List.mem_cons_of_mem _ (by simpa using stretch)⟩

theorem marker_mem_segments {c : Cut} {m : Marker} (mem : .marker m ∈ c.segments) :
    ∃ f : Flow, f.marker = m := by
  simp only [segments, List.mem_append, List.mem_flatMap, List.mem_cons, mem_ofStretch] at mem
  rcases mem with ⟨-, same⟩ | ⟨t, -, same | ⟨-, same⟩⟩
  · cases same
  · cases same
    exact ⟨t.1, rfl⟩
  · cases same

theorem apart_segments (c : Cut) : c.segments.IsChain fun a b => ¬ (a.isText ∧ b.isText) := by
  induction c using shape_induction with
  | stretch s => by_cases empty : s = [] <;> simp [empty, ofStretch_of_ne_nil]
  | turn s f c ih =>
    have behindMarker : (.marker f.marker :: c.segments).IsChain
        fun a b => ¬ (a.isText ∧ b.isText) := ih.cons fun b _ => by simp [isText]
    rw [segments_lead_behind]
    by_cases empty : s = []
    · simpa [empty] using behindMarker
    · rw [ofStretch_of_ne_nil empty]
      exact behindMarker.cons fun b next => by
        obtain rfl : _ = b := by simpa using next
        simp [isText]

/-- The last stretch of a cut goes on with what is appended, and nothing in front of it changes. -/
theorem exists_segments_append (c : Cut) : ∃ front s, c.segments = front ++ ofStretch s ∧
    ∀ d : Cut, (c.append d).segments = front ++ (d.lead s).segments := by
  induction c using shape_induction with
  | stretch s => exact ⟨[], s, by simp⟩
  | turn s f c ih =>
    obtain ⟨front, last, whole, appended⟩ := ih
    exact ⟨ofStretch s ++ .marker f.marker :: front, last, by simp [whole],
      fun d => by simp [appended]⟩

end Cut

/-! ### Reading -/

/-- Reading goes on with the cut of the text. -/
theorem scan_flow (literal cs : List Char) :
    scan flowCandidate? literal cs = ((cut cs).lead literal.reverse).segments := by
  induction cs using reading_induction flowCandidate?_takesHead generalizing literal with
  | nil => simp [scan_nil, cut_nil, Cut.lead, ofStretch]
  | plain c r found ih =>
    rw [scan_cons found, ih, cut_cons (flowCandidate?_eq_none found), Cut.lead_lead,
      List.reverse_cons]
  | marker shaped m rest found ih =>
    obtain ⟨f, rfl, rfl⟩ := flowCandidate?_known found
    rw [scan_marker flowCandidate?_takesHead found, ih, cut_written, Cut.segments_lead_behind]
    simp [ofStretch]
  | unknown shaped rest found ih =>
    rw [scan_unknown flowCandidate?_takesHead found, ih, cut_unknown found, Cut.lead_lead,
      List.reverse_append, List.reverse_reverse]

theorem ofFlow_eq (cs : List Char) : ofFlow cs = (cut cs).segments :=
  scan_flow [] cs

/-! ### Lossless and maximal -/

/-- Segments that a text can be taken apart into at flow markers, and no further: they spell the
text, no text among them is empty, follows another or holds a flow marker. -/
structure FlowSegments (segments : List Segment) (cs : List Char) : Prop where
  spell : segments.flatMap written = cs
  flow : ∀ m, .marker m ∈ segments → ∃ f : Flow, f.marker = m
  filled : ∀ s, .text s ∈ segments → s ≠ ""
  apart : segments.IsChain fun a b => ¬ (a.isText ∧ b.isText)
  free : ∀ s, .text s ∈ segments → ∀ f : Flow, ¬ f.written <:+: s.toList

theorem flowSegments_ofFlow (cs : List Char) : FlowSegments (ofFlow cs) cs := by
  rw [ofFlow_eq]
  constructor
  · rw [Cut.written_segments, cut_joined]
  · exact fun m => Cut.marker_mem_segments
  · exact fun s mem => (Cut.text_mem_segments mem).1
  · exact Cut.apart_segments _
  · exact fun s mem => cut_free cs _ (Cut.text_mem_segments mem).2

theorem FlowSegments.tail {segment : Segment} {segments : List Segment} {cs : List Char}
    (h : FlowSegments (segment :: segments) cs) :
    FlowSegments segments (segments.flatMap written) where
  spell := rfl
  flow m mem := h.flow m (List.mem_cons_of_mem _ mem)
  filled s mem := h.filled s (List.mem_cons_of_mem _ mem)
  apart := h.apart.tail
  free s mem := h.free s (List.mem_cons_of_mem _ mem)

/-- A text without a flow marker stays whole in front of a marker. -/
theorem cut_append_of_free {s v : List Char} (free : ∀ f : Flow, ¬ f.written <:+: s)
    (next : v = [] ∨ opening <+: v) : cut (s ++ v) = (cut v).lead s := by
  have alone : cut s = ⟨s, []⟩ := by
    have whole := cut_lead (w := s) (v := []) fun p t split _ => by
      rw [List.append_nil]
      exact Flow.at?_eq_none_iff.mpr fun f begins =>
        free f (split ▸ begins.isInfix.trans (List.suffix_append p t).isInfix)
    rwa [List.append_nil, cut_nil, Cut.lead, List.append_nil] at whole
  rcases next with rfl | opens
  · rw [List.append_nil, alone, cut_nil, Cut.lead, List.append_nil]
  · rw [cut_append_opening s opens, alone, Cut.stretch_append]

/-- Segments that spell a text and leave no marker unread are the ones that are read. -/
theorem flowSegments_unique {segments : List Segment} {cs : List Char}
    (h : FlowSegments segments cs) : ofFlow cs = segments := by
  rw [ofFlow_eq, ← h.spell]
  induction segments generalizing cs with
  | nil => simp [cut_nil]
  | cons segment segments ih =>
    have behind := ih h.tail
    cases segment with
    | marker m =>
      obtain ⟨f, rfl⟩ := h.flow m List.mem_cons_self
      rw [List.flatMap_cons, written, ← Flow.written, cut_written, Cut.segments_behind, behind]
    | text s =>
      have free := h.free s List.mem_cons_self
      have filled : s.toList ≠ [] := by simpa using h.filled s List.mem_cons_self
      rw [List.flatMap_cons, written]
      cases segments with
      | nil =>
        rw [List.flatMap_nil, cut_append_of_free free (.inl rfl), cut_nil, Cut.lead,
          List.append_nil, Cut.segments_stretch, ofStretch_of_ne_nil filled, String.ofList_toList]
      | cons next segments =>
        cases next with
        | text t => exact absurd (by simp [isText]) (List.isChain_cons_cons.mp h.apart).1
        | marker m =>
          obtain ⟨f, rfl⟩ := h.flow m (by simp)
          have spelled : (Segment.marker f.marker :: segments).flatMap written =
              f.written ++ segments.flatMap written := rfl
          rw [spelled, cut_written, Cut.segments_behind] at behind
          have opens : opening <+: f.written ++ segments.flatMap written :=
            f.opening_prefix_written.trans (List.prefix_append _ _)
          rw [spelled, cut_append_of_free free (.inr opens), cut_written, Cut.segments_lead_behind,
            behind, ofStretch_of_ne_nil filled, String.ofList_toList, List.singleton_append]

/-! ### Names that no role has -/

/-- What no role is called, and is written without angle brackets. -/
structure NamesNoRole (name : String) : Prop where
  noRole : Role.ofName? name = none
  noLt : '<' ∉ name.toList
  noGt : '>' ∉ name.toList

theorem toList_roleText (name : String) :
    (Marker.roleText name).toList = wrapped (roleLead ++ name.toList) := by
  rw [Marker.roleText, toList_wrap, String.toList_append]
  rfl

/-- The inside of a marker is all up to its first closing bracket. -/
theorem takeWhile_inside {inside : List Char} (noGt : '>' ∉ inside) (r : List Char) :
    (inside ++ (closing ++ r)).takeWhile (· != '>') = inside := by
  rw [List.takeWhile_append_of_pos fun c mem => by
    simpa using fun same : c = '>' => noGt (same ▸ mem)]
  exact List.append_nil inside

theorem Flow.gt_not_mem_inside (f : Flow) : '>' ∉ f.inside := by
  cases f with
  | history => decide
  | role r => cases r <;> decide

namespace NamesNoRole

variable {name : String} (unknown : NamesNoRole name)
include unknown

theorem inside_ne (f : Flow) : f.inside ≠ roleLead ++ name.toList := by
  intro same
  cases f with
  | history => exact absurd (List.cons.inj same).1 (by decide)
  | role r =>
    have called : r.name = name := String.toList_inj.mp (List.append_cancel_left same)
    have known := Role.ofName?_name r
    rw [called, unknown.noRole] at known
    cases known

theorem at?_eq_none (r : List Char) : Flow.at? ((Marker.roleText name).toList ++ r) = none := by
  apply Flow.at?_eq_none_iff.mpr
  rintro f ⟨t, whole⟩
  rw [f.written_eq_wrapped, toList_roleText, wrapped, wrapped, List.append_assoc,
    List.append_assoc, List.append_assoc, List.append_assoc] at whole
  have insides := congrArg (List.takeWhile (· != '>')) (List.append_cancel_left whole)
  have noGt : '>' ∉ roleLead ++ name.toList := by
    rw [List.mem_append, not_or]
    exact ⟨by decide, unknown.noGt⟩
  rw [takeWhile_inside f.gt_not_mem_inside, takeWhile_inside noGt] at insides
  exact unknown.inside_ne f insides

/-- The marker goes with the text in front of what follows. -/
theorem cut_eq (r : List Char) : cut ((Marker.roleText name).toList ++ r) =
    (cut r).lead (Marker.roleText name).toList := by
  have free : ¬ opening <:+: roleLead ++ name.toList := fun inside => by
    rcases List.mem_append.mp (inside.subset (show '<' ∈ opening by decide)) with lt | lt
    · exact absurd lt (by decide)
    · exact unknown.noLt lt
  have other := unknown.at?_eq_none r
  rw [toList_roleText] at other ⊢
  exact cut_wrapped free other

/-- The marker stays text, and what is read in front of it and behind it is what would be read
there without it. -/
theorem ofFlow_unknown (before behind : List Char) :
    ∃ front s t back, ofFlow before = front ++ ofStretch s ∧ ofFlow behind = ofStretch t ++ back ∧
      ofFlow (before ++ (Marker.roleText name).toList ++ behind) =
        front ++ .text (String.ofList (s ++ (Marker.roleText name).toList ++ t)) :: back := by
  have opens : opening <+: (Marker.roleText name).toList ++ behind := by
    rw [toList_roleText, wrapped, List.append_assoc, List.append_assoc]
    exact List.prefix_append _ _
  have filled : (Marker.roleText name).toList ≠ [] := toList_roleText name ▸ wrapped_ne_nil _
  obtain ⟨front, s, whole, appended⟩ := (cut before).exists_segments_append
  refine ⟨front, s, (cut behind).first, _, (ofFlow_eq before).trans whole, ofFlow_eq behind, ?_⟩
  rw [ofFlow_eq, List.append_assoc, cut_append_opening before opens, unknown.cut_eq, appended,
    Cut.lead_lead, Cut.segments, Cut.lead, ofStretch_of_ne_nil (by simp [filled])]
  rfl

end NamesNoRole

/-- The segments of a text around its flow markers are the only ones that spell the text and cannot
be taken apart further. What has the shape of a role marker with a name that no role has stays in
one of the texts, and hides no marker in front of it or behind it. -/
theorem ofFlow_lossless_maximal (cs : List Char) :
    (∀ segments, ofFlow cs = segments ↔ FlowSegments segments cs) ∧
      ∀ before name behind, NamesNoRole name →
        cs = before ++ (Marker.roleText name).toList ++ behind →
        ∃ front s t back,
          ofFlow before = front ++ ofStretch s ∧ ofFlow behind = ofStretch t ++ back ∧
          ofFlow cs =
            front ++ .text (String.ofList (s ++ (Marker.roleText name).toList ++ t)) :: back := by
  refine ⟨fun segments => ⟨?_, flowSegments_unique⟩, ?_⟩
  · rintro rfl
    exact flowSegments_ofFlow cs
  · rintro before name behind unknown rfl
    exact unknown.ofFlow_unknown before behind

theorem ofFlow_lossless_maximal_bot : NamesNoRole "bot" ∧
    "a<<<dotprompt:history>>><<<<dotprompt:role:bot>>><<<dotprompt:history>>>>".toList =
      "a<<<dotprompt:history>>><".toList ++ (Marker.roleText "bot").toList ++
        "<<<dotprompt:history>>>>".toList ∧
    ∃ front s t back,
      ofFlow "a<<<dotprompt:history>>><".toList = front ++ ofStretch s ∧
      ofFlow "<<<dotprompt:history>>>>".toList = ofStretch t ++ back ∧
      ofFlow "a<<<dotprompt:history>>><<<<dotprompt:role:bot>>><<<dotprompt:history>>>>".toList =
        front ++ .text (String.ofList (s ++ (Marker.roleText "bot").toList ++ t)) :: back := by
  have unknown : NamesNoRole "bot" := ⟨by decide, by decide, by decide⟩
  have whole : "a<<<dotprompt:history>>><<<<dotprompt:role:bot>>><<<dotprompt:history>>>>".toList =
      "a<<<dotprompt:history>>><".toList ++ (Marker.roleText "bot").toList ++
        "<<<dotprompt:history>>>>".toList := by decide
  exact ⟨unknown, whole, (ofFlow_lossless_maximal _).2 _ "bot" _ unknown whole⟩

example :
    ofFlow "a<<<dotprompt:history>>><<<<dotprompt:role:bot>>><<<dotprompt:history>>>>".toList =
      [.text "a", .marker .history, .text "<<<<dotprompt:role:bot>>>", .marker .history,
        .text ">"] := by decide +kernel

end Promptry
