import Promptry.Proofs.Message.WholeText
import Mathlib.Data.List.Forall2

/-!
Where a history stands among the messages of a text. It stands there once and as one block, at its
first marker or else behind the system messages at the front, and without the block the messages are
those of the text alone. Main statement: `history_stands_once`.
-/

namespace Promptry

open Assembly

/-- `m'` is the message `m` as it stands in a history: spoken by the same with the same content, and
with metadata that also say where it comes from. -/
structure Recalled (m m' : Message) : Prop where
  role_eq : m'.role = m.role
  content_eq : m'.content = m.content
  purpose : Fields.get? (m'.metadata.getD []) "purpose" = some (.str "history")
  kept : ∀ key, key ≠ "purpose" →
    Fields.get? (m'.metadata.getD []) key = Fields.get? (m.metadata.getD []) key

theorem recalled_asHistory (m : Message) : Recalled m m.asHistory where
  role_eq := rfl
  content_eq := rfl
  purpose := Fields.get?_insert_self _ _ _
  kept _ other := Fields.get?_insert_of_ne other _ _

theorem recalled_map_asHistory (h : List Message) :
    List.Forall₂ Recalled h (h.map Message.asHistory) := by
  induction h with
  | nil => exact .nil
  | cons m h ih => exact .cons (recalled_asHistory m) ih

/-! ### Messages that are not of a history -/

theorem isHistory_of_no_metadata {m : Message} (h : m.metadata = none) : m.isHistory = false := by
  simp [Message.isHistory, h]

namespace Cut

theorem metadata_messages {role : Role} {c : Cut} : ∀ m ∈ c.messages role, m.metadata = none := by
  intro m mem
  obtain ⟨piece, -, made⟩ := List.mem_filterMap.mp mem
  simp only [messageOf?, Option.ite_none_left_eq_some, Option.some.injEq] at made
  obtain ⟨-, rfl⟩ := made
  rfl

theorem messages_eq_nil_iff {role : Role} {c : Cut} :
    c.messages role = [] ↔ ∀ stretch ∈ c.stretches, Text.isBlankText stretch = true := by
  have blank (p : Role × List Char) :
      messageOf? p.1 p.2 = none ↔ Text.isBlankText p.2 = true := by
    simp [messageOf?]
  have same : c.stretches = (c.pieces role).map (·.2) := by
    simp [stretches, pieces]
  rw [messages, List.filterMap_eq_nil_iff, same, List.forall_mem_map]
  exact forall₂_congr fun p _ => blank p

/-- The messages of a cut are those in front of a marker and those behind it. -/
theorem messages_append (role : Role) (first stretch : List Char) (f : Flow)
    (earlier later : List (Flow × List Char)) :
    messages role ⟨first, earlier ++ (f, stretch) :: later⟩ =
      messages role ⟨first, earlier⟩ ++ messages f.speaker ⟨stretch, later⟩ := by
  induction earlier generalizing role first with
  | nil => rw [List.nil_append, messages_cons, messages_single]
  | cons t earlier ih => rw [List.cons_append, messages_cons, messages_cons, ih, List.append_assoc]

/-! ### The first marker of the history -/

/-- Turns among which no marker of the history is. -/
def NoHistory (turns : List (Flow × List Char)) : Prop := ∀ t ∈ turns, t.1 ≠ .history

theorem recalling_append (recalled : List Message) (role : Role) (first stretch : List Char)
    {earlier : List (Flow × List Char)} (later : List (Flow × List Char))
    (noHistory : NoHistory earlier) :
    recalling recalled false role first (earlier ++ (.history, stretch) :: later) =
      messages role ⟨first, earlier⟩ ++ (recalled ++ messages .model ⟨stretch, later⟩) := by
  induction earlier generalizing role first with
  | nil =>
    rw [List.nil_append, recalling, messages_single,
      recalling_eq_messages (.inr (show (false || Flow.history == .history) = true from rfl))]
    simp [Flow.speaker]
  | cons t earlier ih =>
    obtain ⟨f, s⟩ := t
    have other : f ≠ .history := noHistory (f, s) List.mem_cons_self
    have none : (f == Flow.history) = false := by simpa using other
    rw [List.cons_append, recalling, messages_cons, none, Bool.or_false,
      ih _ _ fun t mem => noHistory t (List.mem_cons_of_mem _ mem)]
    simp [other]

theorem recalling_of_noHistory (recalled : List Message) (role : Role) (first : List Char)
    {turns : List (Flow × List Char)} (noHistory : NoHistory turns) :
    recalling recalled false role first turns = messages role ⟨first, turns⟩ := by
  induction turns generalizing role first with
  | nil => rw [recalling, messages_single]
  | cons t turns ih =>
    obtain ⟨f, s⟩ := t
    have other : f ≠ .history := noHistory (f, s) List.mem_cons_self
    have none : (f == Flow.history) = false := by simpa using other
    rw [recalling, messages_cons, none, Bool.or_false,
      ih _ _ fun t mem => noHistory t (List.mem_cons_of_mem _ mem)]
    simp [other]

theorem hasHistory_eq_false_iff {c : Cut} : c.hasHistory = false ↔ NoHistory c.turns := by
  simp [hasHistory, NoHistory]

theorem exists_first_history {turns : List (Flow × List Char)}
    (h : turns.any (·.1 == .history) = true) : ∃ earlier stretch later,
      turns = earlier ++ (.history, stretch) :: later ∧ NoHistory earlier := by
  induction turns with
  | nil => cases h
  | cons t turns ih =>
    obtain ⟨f, stretch⟩ := t
    by_cases here : f = .history
    · subst here
      exact ⟨[], stretch, turns, rfl, fun t mem => by cases mem⟩
    · have further : turns.any (·.1 == .history) = true := by simpa [here] using h
      obtain ⟨earlier, s, later, rfl, noHistory⟩ := ih further
      refine ⟨(f, stretch) :: earlier, s, later, rfl, fun t mem => ?_⟩
      rcases List.mem_cons.mp mem with rfl | mem
      · exact here
      · exact noHistory t mem

/-- There is one first marker of the history. -/
theorem first_history_unique {earlier earlier' later later' : List (Flow × List Char)}
    {stretch stretch' : List Char} (noHistory : NoHistory earlier)
    (noHistory' : NoHistory earlier')
    (h : earlier ++ (.history, stretch) :: later = earlier' ++ (.history, stretch') :: later') :
    earlier = earlier' ∧ stretch = stretch' ∧ later = later' := by
  induction earlier generalizing earlier' with
  | nil =>
    cases earlier' with
    | nil => simpa using h
    | cons t earlier' =>
      obtain ⟨rfl, -⟩ := List.cons.inj h
      exact absurd rfl (noHistory' _ List.mem_cons_self)
  | cons t earlier ih =>
    cases earlier' with
    | nil =>
      obtain ⟨rfl, -⟩ := List.cons.inj h
      exact absurd rfl (noHistory _ List.mem_cons_self)
    | cons t' earlier' =>
      obtain ⟨rfl, same⟩ := List.cons.inj h
      obtain ⟨rfl, rest⟩ := ih (fun t mem => noHistory t (List.mem_cons_of_mem _ mem))
        (fun t mem => noHistory' t (List.mem_cons_of_mem _ mem)) same
      exact ⟨rfl, rest⟩

end Cut

/-- The cut of a text around a marker. -/
theorem cut_around (u v : List Char) (f : Flow) : cut (u ++ (f.written ++ v)) =
    ⟨(cut u).first, (cut u).turns ++ (f, (cut v).first) :: (cut v).turns⟩ := by
  have opens : Segment.opening <+: f.written ++ v :=
    f.opening_prefix_written.trans (List.prefix_append _ _)
  rw [cut_append_opening u opens, cut_written, Cut.append_behind]

/-- A text has a history marker in its cut exactly when it holds one. -/
theorem hasHistory_cut_iff {cs : List Char} :
    (cut cs).hasHistory = true ↔ Flow.history.written <:+: cs := by
  constructor
  · intro h
    obtain ⟨earlier, stretch, later, split, -⟩ := Cut.exists_first_history h
    rw [← cut_joined cs, Cut.joined, split, List.flatMap_append, List.flatMap_cons]
    exact ⟨(cut cs).first ++ earlier.flatMap fun t => t.1.written ++ t.2,
      stretch ++ later.flatMap fun t => t.1.written ++ t.2, by simp⟩
  · rintro ⟨u, v, rfl⟩
    rw [List.append_assoc, cut_around]
    simp [Cut.hasHistory]

theorem noHistory_cut {cs : List Char} (h : ¬ Flow.history.written <:+: cs) :
    Cut.NoHistory (cut cs).turns := by
  rw [← Cut.hasHistory_eq_false_iff, ← Bool.not_eq_true, hasHistory_cut_iff]
  exact h

theorem metadata_orWhole {cs : List Char} {messages : List Message}
    (plain : ∀ m ∈ messages, m.metadata = none) : ∀ m ∈ orWhole cs messages, m.metadata = none := by
  intro m mem
  unfold orWhole at mem
  split at mem
  · obtain rfl := List.mem_singleton.mp mem
    rfl
  · exact plain m mem

/-! ### The history in a text -/

/-- A history with a marker stands at the first one. -/
theorem messagesOf_of_marker {rendered : String} {h : List Message} (nonempty : h ≠ [])
    {earlier later : List (Flow × List Char)} {stretch : List Char}
    (split : (cut rendered.toList).turns = earlier ++ (.history, stretch) :: later)
    (noHistory : Cut.NoHistory earlier) :
    messagesOf rendered (some h) =
      Cut.messages .user ⟨(cut rendered.toList).first, earlier⟩ ++
        (h.map Message.asHistory ++ Cut.messages .model ⟨stretch, later⟩) := by
  have placed : (cut rendered.toList).hasHistory = true := by simp [Cut.hasHistory, split]
  rw [messagesOf_eq]
  simp only [placed, if_true]
  rw [split, Cut.recalling_append _ _ _ _ _ noHistory]
  exact orWhole_of_ne_nil _ (by simp [recalledOf, nonempty])

/-- A history without a marker stands behind the system messages at the front. -/
theorem messagesOf_of_no_marker {rendered : String} (h : List Message)
    (noMarker : ¬ Flow.history.written <:+: rendered.toList) :
    messagesOf rendered (some h) = insertHistory h (messagesOf rendered none) := by
  have noHistory := noHistory_cut noMarker
  have notPlaced := Cut.hasHistory_eq_false_iff.mpr noHistory
  rw [messagesOf_none, messagesOf_eq]
  simp only [notPlaced, Bool.false_eq_true, if_false]
  rw [Cut.recalling_of_noHistory _ _ _ noHistory]
  rfl

/-- `block` is the history `h` among the messages of a text, in front of which `before` and behind
which `after` stand. -/
structure Spliced (rendered : String) (h before block after : List Message) : Prop where
  whole : messagesOf rendered (some h) = before ++ (block ++ after)
  recalled : List.Forall₂ Recalled h block
  /-- No other message says that it is of a history. -/
  once : ∀ m ∈ before ++ after, m.isHistory = false
  /-- The block is at the first marker of the history, behind the messages of the text in front of
  it; the model speaks behind it. -/
  at_marker : ∀ u v, rendered.toList = u ++ (Flow.history.written ++ v) →
    ¬ Flow.history.written <:+: u →
      before = (cut u).messages .user ∧ after = (cut v).messages .model
  /-- Without a marker the block is behind the system messages at the front. -/
  without_marker : ¬ Flow.history.written <:+: rendered.toList →
    before = (messagesOf rendered none).takeWhile (·.role == .system) ∧
      after = (messagesOf rendered none).dropWhile (·.role == .system)
  /-- If only blanks stand between markers, with one of the history among them, nothing else is
  there. -/
  alone : Flow.history.written <:+: rendered.toList →
    (∀ stretch ∈ (cut rendered.toList).stretches, Text.isBlankText stretch = true) →
      before ++ after = []
  /-- Else the rest are the messages of the text without a history. -/
  rest : ¬ (Flow.history.written <:+: rendered.toList ∧
      ∀ stretch ∈ (cut rendered.toList).stretches, Text.isBlankText stretch = true) →
    before ++ after = messagesOf rendered none

theorem spliced_at_marker {rendered : String} {h : List Message} (nonempty : h ≠ [])
    (marker : Flow.history.written <:+: rendered.toList) :
    ∃ before after, Spliced rendered h before (h.map Message.asHistory) after := by
  obtain ⟨earlier, stretch, later, split, noHistory⟩ :=
    Cut.exists_first_history (hasHistory_cut_iff.mpr marker)
  have without : (cut rendered.toList).messages .user =
      Cut.messages .user ⟨(cut rendered.toList).first, earlier⟩ ++
        Cut.messages .model ⟨stretch, later⟩ := by
    rw [show Role.model = Flow.history.speaker from rfl, ← Cut.messages_append, ← split]
  refine ⟨_, _, messagesOf_of_marker nonempty split noHistory, recalled_map_asHistory h, ?_, ?_,
    fun noMarker => absurd marker noMarker, fun _ blank => ?_, fun notAlone => ?_⟩
  · rw [← without]
    exact fun m mem => isHistory_of_no_metadata (Cut.metadata_messages m mem)
  · intro u v around first
    have here := cut_around u v .history
    rw [← around] at here
    rw [here] at split ⊢
    obtain ⟨rfl, rfl, rfl⟩ := Cut.first_history_unique (noHistory_cut first) noHistory split
    exact ⟨rfl, rfl⟩
  · rw [← without]
    exact Cut.messages_eq_nil_iff.mpr blank
  · rw [← without, messagesOf_none]
    exact (orWhole_of_ne_nil _ fun empty =>
      notAlone ⟨marker, Cut.messages_eq_nil_iff.mp empty⟩).symm

theorem spliced_without_marker {rendered : String} (h : List Message)
    (noMarker : ¬ Flow.history.written <:+: rendered.toList) :
    ∃ before after, Spliced rendered h before (h.map Message.asHistory) after := by
  have parts := List.takeWhile_append_dropWhile (p := fun m : Message => m.role == .system)
    (l := messagesOf rendered none)
  refine ⟨_, _, ?_, recalled_map_asHistory h, ?_, ?_, fun _ => ⟨rfl, rfl⟩,
    fun marker => absurd marker noMarker, fun _ => parts⟩
  · rw [messagesOf_of_no_marker h noMarker, insertHistory, List.append_assoc]
  · rw [parts, messagesOf_none]
    exact fun m mem => isHistory_of_no_metadata (metadata_orWhole Cut.metadata_messages m mem)
  · intro u v around
    exact absurd ⟨u, v, by rw [around, List.append_assoc]⟩ noMarker

/-- A history stands once among the messages of every text, as one block. -/
theorem history_stands_once (rendered : String) {h : List Message} (nonempty : h ≠ []) :
    ∃ before block after, Spliced rendered h before block after := by
  by_cases marker : Flow.history.written <:+: rendered.toList
  · obtain ⟨before, after, spliced⟩ := spliced_at_marker nonempty marker
    exact ⟨before, _, after, spliced⟩
  · obtain ⟨before, after, spliced⟩ := spliced_without_marker h marker
    exact ⟨before, _, after, spliced⟩

theorem history_stands_once_twice_marked : [Message.ofText .tool "<<<dotprompt:history>>>"] ≠ [] ∧
    ∃ before block after,
      Spliced "a<<<dotprompt:history>>>\nb<<<dotprompt:role:system>>> <<<dotprompt:history>>>"
        [Message.ofText .tool "<<<dotprompt:history>>>"] before block after :=
  ⟨by simp, history_stands_once _ (by simp)⟩

end Promptry
