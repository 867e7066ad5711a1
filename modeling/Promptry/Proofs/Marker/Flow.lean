import Promptry.Proofs.Marker.Scan

/-!
The markers that steer the flow of a conversation, by what they are written as. A flow marker
stands wherever its written form does (`Flow.at?_eq_some_iff`), and reading for candidates finds
exactly these (`flowCandidate?_written`, `flowCandidate?_eq_none`, `flowCandidate?_unknown`).
-/

namespace Promptry

/-- A marker that steers the flow of a conversation. -/
inductive Flow where
  | role (r : Role)
  | history
  deriving DecidableEq, Repr

namespace Flow

def marker : Flow → Marker
  | role r => .role r
  | history => .history

/-- How the marker is written. -/
def written (f : Flow) : List Char := f.marker.text.toList

/-- Who speaks behind the marker; behind the history it is the model. -/
def speaker : Flow → Role
  | role r => r
  | history => .model

def all : List Flow := [history, role .user, role .model, role .tool, role .system]

/-- The flow marker that a text begins with, and the text behind it. -/
def at? (cs : List Char) : Option (Flow × List Char) :=
  all.findSome? fun f => (Segment.behind? f.written cs).map (f, ·)

theorem mem_all (f : Flow) : f ∈ all := by
  cases f with
  | history => decide
  | role r => cases r <;> decide

/-- What stands between the opening and the closing of the marker. -/
def inside : Flow → List Char
  | role r => Segment.roleLead ++ r.name.toList
  | history => "history".toList

theorem inside_role (r : Role) : (role r).inside = Segment.roleLead ++ r.name.toList := rfl

theorem written_eq_wrapped (f : Flow) : f.written = Segment.wrapped f.inside := by
  cases f with
  | history => decide
  | role r => cases r <;> decide

theorem written_ne_nil (f : Flow) : f.written ≠ [] := by
  rw [written_eq_wrapped]
  exact Segment.wrapped_ne_nil _

theorem inside_free (f : Flow) : ¬ Segment.opening <:+: f.inside := by
  have noLt : '<' ∉ f.inside := by
    cases f with
    | history => decide
    | role r => cases r <;> decide
  exact fun h => noLt (h.subset (by decide))

theorem newline_not_mem_written (f : Flow) : '\n' ∉ f.written := by
  cases f with
  | history => decide
  | role r => cases r <;> decide

theorem opening_prefix_written (f : Flow) : Segment.opening <+: f.written := by
  rw [written_eq_wrapped, Segment.wrapped, List.append_assoc]
  exact List.prefix_append _ _

/-- No flow marker begins another. -/
theorem eq_of_prefix_written {f g : Flow} (h : f.written <+: g.written) : f = g := by
  have all : ∀ f ∈ all, ∀ g ∈ all, f.written.isPrefixOf g.written → f = g := by decide
  exact all f (mem_all f) g (mem_all g) (List.isPrefixOf_iff_prefix.mpr h)

theorem eq_of_written_append {f g : Flow} {r t : List Char}
    (h : f.written ++ r = g.written ++ t) : f = g := by
  rcases List.prefix_or_prefix_of_prefix (List.prefix_append f.written r)
      (h ▸ List.prefix_append g.written t) with h' | h'
  · exact eq_of_prefix_written h'
  · exact (eq_of_prefix_written h').symm

theorem at?_eq_some_iff {cs r : List Char} {f : Flow} :
    at? cs = some (f, r) ↔ cs = f.written ++ r := by
  constructor
  · intro h
    obtain ⟨g, -, found⟩ := List.exists_of_findSome?_eq_some h
    obtain ⟨t, behind, pair⟩ := Option.map_eq_some_iff.mp found
    cases pair
    exact Segment.behind?_eq_some_iff.mp behind
  · rintro rfl
    cases found : at? (f.written ++ r) with
    | none =>
      have none := List.findSome?_eq_none_iff.mp found f (mem_all f)
      simp [Segment.behind?_append] at none
    | some p =>
      obtain ⟨g, -, here⟩ := List.exists_of_findSome?_eq_some found
      obtain ⟨t, behind, rfl⟩ := Option.map_eq_some_iff.mp here
      have whole := Segment.behind?_eq_some_iff.mp behind
      obtain rfl := eq_of_written_append whole
      rw [List.append_cancel_left whole]

theorem at?_eq_none_iff {cs : List Char} : at? cs = none ↔ ∀ f : Flow, ¬ f.written <+: cs := by
  constructor
  · rintro h f ⟨r, rfl⟩
    rw [at?_eq_some_iff.mpr rfl] at h
    cases h
  · intro h
    cases found : at? cs with
    | none => rfl
    | some p => exact absurd ⟨p.2, (at?_eq_some_iff.mp found).symm⟩ (h p.1)

/-- Without an opening there is no marker. -/
theorem at?_eq_none_of_not_opening {cs : List Char} (h : ¬ Segment.opening <+: cs) :
    at? cs = none :=
  at?_eq_none_iff.mpr fun f begins => h (f.opening_prefix_written.trans begins)

end Flow

namespace Segment

/-! ### Candidates -/

theorem takeWhile_letters {name r : List Char} (letters : ∀ c ∈ name, isRoleLetter c = true) :
    (name ++ (closing ++ r)).takeWhile isRoleLetter = name := by
  rw [List.takeWhile_append_of_pos letters]
  have stop : (closing ++ r).takeWhile isRoleLetter = [] := rfl
  rw [stop, List.append_nil]

theorem dropWhile_letters {name r : List Char} (letters : ∀ c ∈ name, isRoleLetter c = true) :
    (name ++ (closing ++ r)).dropWhile isRoleLetter = closing ++ r := by
  rw [List.dropWhile_append_of_pos letters]
  rfl

/-- A role marker is read whether or not there is a role of that name. -/
theorem flowCandidate?_role {name : List Char} (ne : name ≠ [])
    (letters : ∀ c ∈ name, isRoleLetter c = true) (r : List Char) :
    flowCandidate? (wrapped (roleLead ++ name) ++ r) =
      some (⟨wrapped (roleLead ++ name), (Role.ofName? (String.ofList name)).map .role⟩, r) := by
  have noHistory (t : List Char) : behind? historyTail (roleLead ++ t) = none := by
    apply behind?_eq_none_iff.mpr
    intro h
    rcases List.prefix_or_prefix_of_prefix h (List.prefix_append roleLead t) with h' | h'
    · exact absurd h' (by decide)
    · exact absurd h' (by decide)
  simp only [wrapped, List.append_assoc, flowCandidate?, behind?_append, noHistory,
    takeWhile_letters letters, dropWhile_letters letters, Option.bind_eq_bind, Option.bind_some,
    List.isEmpty_iff, if_neg ne]

theorem flowCandidate?_history (r : List Char) :
    flowCandidate? (Flow.history.written ++ r) =
      some (⟨Flow.history.written, some .history⟩, r) := by
  have shape : Flow.history.written = opening ++ historyTail := by decide
  simp only [shape, List.append_assoc, flowCandidate?, behind?_append, Option.bind_eq_bind,
    Option.bind_some]

theorem letters_of_role (r : Role) : ∀ c ∈ r.name.toList, isRoleLetter c = true :=
  List.all_eq_true.mp (by cases r <;> decide)

theorem flowCandidate?_written (f : Flow) (r : List Char) :
    flowCandidate? (f.written ++ r) = some (⟨f.written, some f.marker⟩, r) := by
  cases f with
  | history => exact flowCandidate?_history r
  | role role =>
    have ne : role.name.toList ≠ [] := by cases role <;> decide
    rw [Flow.written_eq_wrapped, Flow.inside_role, flowCandidate?_role ne (letters_of_role role),
      String.ofList_toList, Role.ofName?_name]
    rfl

/-- What a candidate of the flow is: a flow marker, or the marker of no role. -/
theorem flowCandidate?_eq_some {cs r : List Char} {c : Candidate}
    (h : flowCandidate? cs = some (c, r)) :
    cs = c.written ++ r ∧
      ((∃ f : Flow, c = ⟨f.written, some f.marker⟩) ∨
        ∃ inside, ¬ opening <:+: inside ∧ c = ⟨wrapped inside, none⟩) := by
  simp only [flowCandidate?, Option.bind_eq_bind, Option.bind_eq_some_iff] at h
  obtain ⟨text, behindOpening, h⟩ := h
  obtain rfl := behind?_eq_some_iff.mp behindOpening
  split at h
  · rename_i rest behindHistory
    obtain rfl := behind?_eq_some_iff.mp behindHistory
    cases h
    exact ⟨by simp, .inl ⟨.history, rfl⟩⟩
  · obtain ⟨named, behindLead, h'⟩ := Option.bind_eq_some_iff.mp h
    obtain ⟨rest, behindClosing, built⟩ := Option.bind_eq_some_iff.mp h'
    obtain rfl := behind?_eq_some_iff.mp behindLead
    obtain ⟨name, hname⟩ : ∃ name, named.takeWhile isRoleLetter = name := ⟨_, rfl⟩
    have letters : ∀ ch ∈ name, isRoleLetter ch = true := by
      rw [← hname]
      exact List.all_eq_true.mp List.all_takeWhile
    have spelled : named = name ++ (closing ++ rest) := by
      rw [← behind?_eq_some_iff.mp behindClosing, ← hname, List.takeWhile_append_dropWhile]
    rw [hname] at built
    split at built
    · cases built
    · cases built
      refine ⟨by simp [spelled], ?_⟩
      cases known : Role.ofName? (String.ofList name) with
      | some role =>
        left
        refine ⟨.role role, ?_⟩
        have := Role.name_of_ofName? known
        rw [Flow.written_eq_wrapped, Flow.inside_role, this]
        simp [wrapped, Flow.marker]
      | none =>
        right
        refine ⟨roleLead ++ name, fun h => ?_, by simp [wrapped]⟩
        have lt := h.subset (show '<' ∈ opening by decide)
        rcases List.mem_append.mp lt with lt | lt
        · exact absurd lt (by decide)
        · exact absurd (letters _ lt) (by decide)

theorem flowCandidate?_takesHead : TakesHead flowCandidate? := by
  intro cs c r h
  obtain ⟨rfl, ⟨f, rfl⟩ | ⟨inside, -, rfl⟩⟩ := flowCandidate?_eq_some h
  · exact ⟨rfl, f.written_ne_nil⟩
  · exact ⟨rfl, wrapped_ne_nil inside⟩

/-- A candidate with a meaning is a flow marker. -/
theorem flowCandidate?_known {written r : List Char} {m : Marker} {cs : List Char}
    (h : flowCandidate? cs = some (⟨written, some m⟩, r)) :
    ∃ f : Flow, written = f.written ∧ m = f.marker := by
  obtain ⟨-, ⟨f, same⟩ | ⟨inside, -, same⟩⟩ := flowCandidate?_eq_some h
  · cases same
    exact ⟨f, rfl, rfl⟩
  · cases same

/-- No flow marker begins in a candidate without a meaning. -/
theorem flowCandidate?_unknown {written r : List Char} {cs : List Char}
    (h : flowCandidate? cs = some (⟨written, none⟩, r)) {s t : List Char}
    (split : written = s ++ t) (ht : t ≠ []) : Flow.at? (t ++ r) = none := by
  obtain ⟨rfl, ⟨f, same⟩ | ⟨inside, free, same⟩⟩ := flowCandidate?_eq_some h
  · cases same
  · cases same
    by_cases hs : s = []
    · subst hs
      apply Flow.at?_eq_none_iff.mpr
      rintro f ⟨rest, whole⟩
      rw [List.nil_append] at split
      rw [split, ← whole, flowCandidate?_written] at h
      cases h
    · exact Flow.at?_eq_none_of_not_opening (not_opening_prefix_wrapped free split hs ht)

theorem flowCandidate?_eq_none {cs : List Char} (h : flowCandidate? cs = none) :
    Flow.at? cs = none := by
  apply Flow.at?_eq_none_iff.mpr
  rintro f ⟨rest, whole⟩
  rw [← whole, flowCandidate?_written] at h
  cases h

end Segment

end Promptry
