import Mathlib.Data.List.TakeWhile
import Promptry.Proofs.Marker.Scan

/-!
The markers that stand for parts of a message. A payload goes on to the first end of a marker on its
line (`payload?_append`, `payload?_eq_some`). Main statements: `partCandidate?_media` and
`partCandidate?_section`, that a payload is read back, and `partCandidate?_eq_some`, that nothing
else is read.
-/

namespace Promptry.Segment

/-! ### Payloads -/

theorem closing_eq : closing = ['>', '>', '>'] := by decide

/-- A payload stays on its line, and no end of a marker begins in it. -/
def PayloadFree (payload : List Char) : Prop :=
  '\n' ∉ payload ∧ ¬ closing <:+: payload ∧ payload.getLast? ≠ some '>'

theorem payload?_cons {c : Char} {cs : List Char} (acc : List Char)
    (goesOn : ¬ closing <+: c :: cs) (sameLine : c ≠ '\n') :
    payload? acc (c :: cs) = payload? (c :: acc) cs := by
  rw [payload?]
  · simp [sameLine]
  · rintro rest rfl rfl
    exact goesOn ⟨rest, rfl⟩

theorem payload?_closing (acc r : List Char) :
    payload? acc (closing ++ r) = some (acc.reverse, r) := rfl

/-- An end of a marker begins in no payload, also not together with the end behind it. -/
theorem PayloadFree.closing_not_begins {c : Char} {payload : List Char}
    (free : PayloadFree (c :: payload)) (r : List Char) :
    ¬ closing <+: c :: (payload ++ (closing ++ r)) := by
  intro ends
  rw [closing_eq] at ends
  match payload, free with
  | [], free =>
    have last : '>' = c := (List.cons_prefix_cons.mp ends).1
    exact free.2.2 (by simp [← last])
  | [d], free =>
    have last : '>' = d := (List.cons_prefix_cons.mp (List.cons_prefix_cons.mp ends).2).1
    exact free.2.2 (by simp [← last])
  | d :: e :: payload, free =>
    have ends' : ['>', '>', '>'] <+: [c, d, e] ++ (payload ++ (['>', '>', '>'] ++ r)) := ends
    have begins := List.prefix_of_prefix_length_le ends' (List.prefix_append _ _) (by simp)
    exact free.2.1 (closing_eq ▸ begins.isInfix.trans ⟨[], payload, rfl⟩)

theorem PayloadFree.tail {c : Char} {payload : List Char} (free : PayloadFree (c :: payload)) :
    PayloadFree payload := by
  refine ⟨fun mem => free.1 (List.mem_cons_of_mem c mem),
    fun ends => free.2.1 (ends.trans (List.suffix_cons c payload).isInfix), fun last => free.2.2 ?_⟩
  rw [List.getLast?_cons, last]
  rfl

theorem payload?_append {payload : List Char} (free : PayloadFree payload) (acc r : List Char) :
    payload? acc (payload ++ (closing ++ r)) = some (acc.reverse ++ payload, r) := by
  induction payload generalizing acc with
  | nil => simp [payload?_closing]
  | cons c payload ih =>
    have sameLine : c ≠ '\n' := fun h => free.1 (by simp [h])
    rw [List.cons_append, payload?_cons acc (free.closing_not_begins r) sameLine, ih free.tail]
    simp

/-- What is read is a payload with its end. -/
theorem payload?_eq_some {acc cs payload r : List Char}
    (h : payload? acc cs = some (payload, r)) :
    ∃ body, payload = acc.reverse ++ body ∧ cs = body ++ (closing ++ r) := by
  induction acc, cs using payload?.induct with
  | case1 acc => cases h
  | case2 acc rest =>
    cases h
    exact ⟨[], by simp, rfl⟩
  | case3 acc c cs notEnd newline =>
    rw [payload?, if_pos newline] at h
    · cases h
    · exact notEnd
  | case4 acc c cs notEnd sameLine ih =>
    rw [payload?, if_neg sameLine] at h
    · obtain ⟨body, rfl, rfl⟩ := ih h
      exact ⟨c :: body, by simp, rfl⟩
    · exact notEnd

/-! ### What payloads stand for -/

theorem splitLast?_append {sep : Char} (front : List Char) {back : List Char}
    (last : sep ∉ back) : splitLast? sep (front ++ sep :: back) = some (front, back) := by
  have others : ∀ c ∈ back.reverse, (c != sep) = true := by
    intro c mem
    have : c ≠ sep := fun same => last (same ▸ List.mem_reverse.mp mem)
    simpa using this
  have reversed : (front ++ sep :: back).reverse = back.reverse ++ (sep :: front.reverse) := by
    simp
  simp only [splitLast?, reversed, List.dropWhile_append_of_pos others,
    List.takeWhile_append_of_pos others]
  simp

theorem splitLast?_eq_none {sep : Char} {cs : List Char} (without : sep ∉ cs) :
    splitLast? sep cs = none := by
  have all : cs.reverse.dropWhile (· != sep) = [] := by
    rw [List.dropWhile_eq_nil_iff]
    intro c mem
    have : c ≠ sep := fun same => without (same ▸ List.mem_reverse.mp mem)
    simpa using this
  simp only [splitLast?, all]

/-- An address without a bar is read as it is. -/
theorem mediaOf?_url {url : String} (ne : url ≠ "") (noBar : '|' ∉ url.toList) :
    mediaOf? url.toList = some (.media url none) := by
  simp [mediaOf?, splitLast?_eq_none noBar, ne]

/-- Of an address with a content type the last bar begins the type. -/
theorem mediaOf?_typed {url type : String} (ne : url ≠ "") (slash : '/' ∈ type.toList)
    (noBar : '|' ∉ type.toList) :
    mediaOf? (url.toList ++ '|' :: type.toList) = some (.media url (some type)) := by
  simp [mediaOf?, splitLast?_append url.toList noBar, slash, ne]

/-- Behind the last bar of a payload stands something without a slash: it belongs to the address. -/
theorem mediaOf?_slashless {url type : String} (filled : type ≠ "") (noSlash : '/' ∉ type.toList)
    (noBar : '|' ∉ type.toList) :
    mediaOf? (url.toList ++ '|' :: type.toList) = some (.media (url ++ "|" ++ type) none) := by
  have whole : String.ofList (url.toList ++ '|' :: type.toList) = url ++ "|" ++ type := by
    rw [← String.toList_inj]
    simp
  simp [mediaOf?, splitLast?_append url.toList noBar, noSlash, filled, whole]

/-- A trimmed name is read as it is. -/
theorem sectionOf?_name {name : String} (ne : name ≠ "") (trimmed : Text.trimText name = name) :
    sectionOf? name.toList = some (.pendingSection name) := by
  have same : Text.trim name.toList = name.toList := by
    rw [← String.toList_ofList (l := Text.trim name.toList)]
    exact congrArg String.toList trimmed
  simp [sectionOf?, same, ne]

/-! ### How markers of parts are written -/

theorem toList_text_url (url : String) :
    (Marker.media url none).text.toList = wrapped (mediaLead ++ url.toList) := by
  change (Marker.wrap ("media:" ++ url)).toList = _
  rw [toList_wrap, String.toList_append]
  rfl

theorem toList_text_typed (url type : String) : (Marker.media url (some type)).text.toList =
    wrapped (mediaLead ++ (url.toList ++ '|' :: type.toList)) := by
  change (Marker.wrap ("media:" ++ url ++ "|" ++ type)).toList = _
  rw [toList_wrap, String.toList_append, String.toList_append, String.toList_append,
    List.append_assoc, List.append_assoc]
  rfl

theorem toList_text_section (name : String) :
    (Marker.pendingSection name).text.toList = wrapped (sectionLead ++ name.toList) := by
  change (Marker.wrap ("section " ++ name)).toList = _
  rw [toList_wrap, String.toList_append]
  rfl

/-! ### Candidates -/

/-- A media marker is read whether or not its payload stands for a medium. -/
theorem partCandidate?_media {payload : List Char} (free : PayloadFree payload) (r : List Char) :
    partCandidate? (wrapped (mediaLead ++ payload) ++ r) =
      some (⟨wrapped (mediaLead ++ payload), mediaOf? payload⟩, r) := by
  simp only [wrapped, List.append_assoc, partCandidate?, behind?_append,
    payload?_append free, Option.bind_eq_bind, Option.bind_some, List.reverse_nil, List.nil_append]

/-- A section marker is read whether or not its payload names a section. -/
theorem partCandidate?_section {payload : List Char} (free : PayloadFree payload)
    (r : List Char) :
    partCandidate? (wrapped (sectionLead ++ payload) ++ r) =
      some (⟨wrapped (sectionLead ++ payload), sectionOf? payload⟩, r) := by
  have noMedia (t : List Char) : behind? mediaLead (sectionLead ++ t) = none := by
    apply behind?_eq_none_iff.mpr
    intro h
    rcases List.prefix_or_prefix_of_prefix h (List.prefix_append sectionLead t) with h' | h'
    · exact absurd h' (by decide)
    · exact absurd h' (by decide)
  simp only [wrapped, List.append_assoc, partCandidate?, behind?_append, noMedia,
    payload?_append free, Option.bind_eq_bind, Option.bind_some, List.reverse_nil, List.nil_append]

/-- What a candidate of the parts is: a media or section marker with some payload. -/
theorem partCandidate?_eq_some {cs r : List Char} {c : Candidate}
    (h : partCandidate? cs = some (c, r)) :
    cs = c.written ++ r ∧ ∃ payload,
      c = ⟨wrapped (mediaLead ++ payload), mediaOf? payload⟩ ∨
        c = ⟨wrapped (sectionLead ++ payload), sectionOf? payload⟩ := by
  simp only [partCandidate?, Option.bind_eq_bind, Option.bind_eq_some_iff] at h
  obtain ⟨text, behindOpening, h⟩ := h
  obtain rfl := behind?_eq_some_iff.mp behindOpening
  split at h
  · rename_i inside behindLead
    obtain rfl := behind?_eq_some_iff.mp behindLead
    obtain ⟨⟨payload, rest⟩, read, built⟩ := Option.bind_eq_some_iff.mp h
    obtain ⟨body, rfl, rfl⟩ := payload?_eq_some read
    cases built
    exact ⟨by simp, payload, .inl (by simp [wrapped])⟩
  · obtain ⟨inside, behindLead, h'⟩ := Option.bind_eq_some_iff.mp h
    obtain rfl := behind?_eq_some_iff.mp behindLead
    obtain ⟨⟨payload, rest⟩, read, built⟩ := Option.bind_eq_some_iff.mp h'
    obtain ⟨body, rfl, rfl⟩ := payload?_eq_some read
    cases built
    exact ⟨by simp, payload, .inr (by simp [wrapped])⟩

theorem partCandidate?_takesHead : TakesHead partCandidate? := by
  intro cs c r h
  obtain ⟨rfl, payload, rfl | rfl⟩ := partCandidate?_eq_some h
  · exact ⟨rfl, wrapped_ne_nil _⟩
  · exact ⟨rfl, wrapped_ne_nil _⟩

/-- Text in which no marker can open is no candidate. -/
theorem partCandidate?_eq_none {cs : List Char} (h : ¬ opening <+: cs) :
    partCandidate? cs = none := by
  simp [partCandidate?, behind?_eq_none_iff.mpr h]

end Promptry.Segment
