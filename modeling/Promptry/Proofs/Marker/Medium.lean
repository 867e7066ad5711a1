import Promptry.Proofs.Marker.Part
import Promptry.Template.Helper

/-!
What a template says of a medium and what is read of it again. The marker that the helper for media
writes is always read as one medium. Its address and its content type are told apart by the slash of
the type, so a type without one goes to the address. Main statement: `mediaHelper_read_back`.
-/

namespace Promptry

/-! ### Texts in a payload -/

/-- Texts that stay on their line and hold neither a bar nor what ends a marker. -/
structure PlainText (s : String) : Prop where
  line : '\n' ∉ s.toList
  bar : '|' ∉ s.toList
  closing : '>' ∉ s.toList

namespace Segment

theorem payloadFree_of_not_mem {payload : List Char} (line : '\n' ∉ payload)
    (closing : '>' ∉ payload) : PayloadFree payload := by
  refine ⟨line, fun inside => ?_, fun last => closing (List.mem_of_getLast? last)⟩
  exact closing (inside.subset (by rw [closing_eq]; simp))

/-- A media marker on its own is the one segment of its text. -/
theorem ofParts_media {payload : List Char} {m : Marker} (free : PayloadFree payload)
    (medium : mediaOf? payload = some m) :
    ofParts (wrapped (mediaLead ++ payload)) = [.marker m] := by
  have found := partCandidate?_media free []
  rw [List.append_nil, medium] at found
  change scan partCandidate? [] _ = _
  rw [scan_marker partCandidate?_takesHead found, scan_nil]
  rfl

theorem ofParts_url {url : String} (ne : url ≠ "") (plain : PlainText url) :
    ofParts (Marker.media url none).text.toList = [.marker (.media url none)] := by
  rw [toList_text_url]
  exact ofParts_media (payloadFree_of_not_mem plain.line plain.closing) (mediaOf?_url ne plain.bar)

variable {url type : String}

theorem payloadFree_typed (plain : PlainText url) (plainType : PlainText type) :
    PayloadFree (url.toList ++ '|' :: type.toList) := by
  apply payloadFree_of_not_mem
  · simp [plain.line, plainType.line]
  · simp [plain.closing, plainType.closing]

theorem ofParts_typed (ne : url ≠ "") (plain : PlainText url) (plainType : PlainText type)
    (slash : '/' ∈ type.toList) :
    ofParts (Marker.media url (some type)).text.toList = [.marker (.media url (some type))] := by
  rw [toList_text_typed]
  exact ofParts_media (payloadFree_typed plain plainType) (mediaOf?_typed ne slash plainType.bar)

theorem ofParts_slashless (filled : type ≠ "") (plain : PlainText url)
    (plainType : PlainText type) (noSlash : '/' ∉ type.toList) :
    ofParts (Marker.media url (some type)).text.toList =
      [.marker (.media (url ++ "|" ++ type) none)] := by
  rw [toList_text_typed]
  exact ofParts_media (payloadFree_typed plain plainType)
    (mediaOf?_slashless filled noSlash plainType.bar)

end Segment

/-! ### Content types that an address tells -/

namespace ContentType

variable {url type : String}

/-- A content type is declared behind `data:`, or else told by an extension. -/
theorem ofUrl?_cases (told : ofUrl? url = some type) :
    (∃ rest, url.toList = "data:".toList ++ rest ∧ type ≠ "" ∧ type.toList ⊆ rest) ∨
      ¬ "data:".toList <+: url.toList ∧ ∃ extension, (extension, type) ∈ ofExtension?.table := by
  unfold ofUrl? at told
  split at told
  · rename_i rest behind
    simp only [Option.ite_none_left_eq_some, Option.some.injEq] at told
    obtain ⟨filled, rfl⟩ := told
    refine .inl ⟨rest, Segment.behind?_eq_some_iff.mp behind, ?_, ?_⟩
    · simpa using filled
    · rw [String.toList_ofList]
      exact (List.takeWhile_sublist _).subset
  · rename_i behind
    refine .inr ⟨Segment.behind?_eq_none_iff.mp behind, ?_⟩
    dsimp only at told
    split at told
    · rename_i extension _
      obtain ⟨entry, found, rfl⟩ := Option.map_eq_some_iff.mp told
      exact ⟨entry.1, List.mem_of_find?_eq_some found⟩
    · cases told

/-- The content types of extensions have a slash. -/
theorem slash_of_extension : ∀ entry ∈ ofExtension?.table, '/' ∈ entry.2.toList := by decide

theorem plainText_of_extension : ∀ entry ∈ ofExtension?.table, PlainText entry.2 := by
  have all : ∀ entry ∈ ofExtension?.table,
      '\n' ∉ entry.2.toList ∧ '|' ∉ entry.2.toList ∧ '>' ∉ entry.2.toList := by decide
  exact fun entry mem => ⟨(all entry mem).1, (all entry mem).2.1, (all entry mem).2.2⟩

theorem filled_of_ofUrl? (told : ofUrl? url = some type) : type ≠ "" := by
  rcases ofUrl?_cases told with ⟨_, _, filled, _⟩ | ⟨_, extension, known⟩
  · exact filled
  · rintro rfl
    cases slash_of_extension _ known

theorem plainText_of_ofUrl? (plain : PlainText url) (told : ofUrl? url = some type) :
    PlainText type := by
  rcases ofUrl?_cases told with ⟨rest, whole, -, within⟩ | ⟨-, extension, known⟩
  · have inside : type.toList ⊆ url.toList := by
      rw [whole]
      exact List.subset_append_of_subset_right _ within
    exact ⟨fun mem => plain.line (inside mem), fun mem => plain.bar (inside mem),
      fun mem => plain.closing (inside mem)⟩
  · exact plainText_of_extension _ known

/-- Only what a `data:` address declares may lack a slash. -/
theorem slash_of_ofUrl? (noData : ¬ "data:".toList <+: url.toList)
    (told : ofUrl? url = some type) : '/' ∈ type.toList := by
  rcases ofUrl?_cases told with ⟨rest, whole, -⟩ | ⟨-, extension, known⟩
  · exact absurd ⟨rest, whole.symm⟩ noData
  · exact slash_of_extension _ known

end ContentType

/-! ### The helper -/

namespace Template.Helper

theorem filled_of_filledText? {c : Call} {name : String} {index : Nat} {s : String}
    (given : filledText? c name index = some s) : s ≠ "" := by
  unfold filledText? at given
  split at given
  · simp only [Option.ite_none_left_eq_some, Option.some.injEq] at given
    obtain ⟨filled, rfl⟩ := given
    rintro rfl
    exact filled rfl
  · cases given

/-- The content type that the helper for media goes by: the one given, or else the one that the
address tells. -/
def contentType? (c : Call) (url : String) : Option String :=
  (filledText? c "contentType" 1).or (ContentType.ofUrl? url)

theorem mediaHelper_eq {c : Call} {url : String} (address : filledText? c "url" 0 = some url) :
    mediaHelper c = .ok (.written (Marker.media url (contentType? c url)).text []) := by
  rw [mediaHelper, address]
  cases h : filledText? c "contentType" 1 <;> simp [contentType?, h]

/-- The content type is not empty, and is plain if what it comes from is. -/
theorem contentType?_plain {c : Call} {url type : String} (plain : PlainText url)
    (plainType : ∀ t, filledText? c "contentType" 1 = some t → PlainText t)
    (goes : contentType? c url = some type) : type ≠ "" ∧ PlainText type := by
  rcases Option.or_eq_some_iff.mp goes with given | ⟨-, told⟩
  · exact ⟨filled_of_filledText? given, plainType type given⟩
  · exact ⟨ContentType.filled_of_ofUrl? told, ContentType.plainText_of_ofUrl? plain told⟩

/-- The marker of a medium is read as one medium. Address and content type are those of the helper
if and only if the type, if there is one, has a slash; else both are taken for the address. All
types that an extension tells have a slash. -/
theorem mediaHelper_read_back {c : Call} {url : String}
    (address : filledText? c "url" 0 = some url) (plain : PlainText url)
    (plainType : ∀ t, filledText? c "contentType" 1 = some t → PlainText t) :
    ∃ text, mediaHelper c = .ok (.written text []) ∧
      (Segment.ofParts text.toList = [.marker (.media url (contentType? c url))] ↔
        ∀ t, contentType? c url = some t → '/' ∈ t.toList) ∧
      (∀ t, contentType? c url = some t → '/' ∉ t.toList →
        Segment.ofParts text.toList = [.marker (.media (url ++ "|" ++ t) none)]) ∧
      (filledText? c "contentType" 1 = none → ¬ "data:".toList <+: url.toList →
        Segment.ofParts text.toList = [.marker (.media url (contentType? c url))]) := by
  have filled := filled_of_filledText? address
  have slashless : ∀ t, contentType? c url = some t → '/' ∉ t.toList →
      Segment.ofParts (Marker.media url (contentType? c url)).text.toList =
        [.marker (.media (url ++ "|" ++ t) none)] := by
    intro t goes noSlash
    obtain ⟨filledType, plainHere⟩ := contentType?_plain plain plainType goes
    rw [goes]
    exact Segment.ofParts_slashless filledType plain plainHere noSlash
  have slashed : (∀ t, contentType? c url = some t → '/' ∈ t.toList) →
      Segment.ofParts (Marker.media url (contentType? c url)).text.toList =
        [.marker (.media url (contentType? c url))] := by
    intro slash
    cases goes : contentType? c url with
    | none => exact Segment.ofParts_url filled plain
    | some t =>
      exact Segment.ofParts_typed filled plain (contentType?_plain plain plainType goes).2
        (slash t goes)
  refine ⟨_, mediaHelper_eq address, ⟨fun same t goes => ?_, slashed⟩, slashless,
    fun notGiven noData => slashed fun t goes => ?_⟩
  · by_cases slash : '/' ∈ t.toList
    · exact slash
    · rw [slashless t goes slash, goes] at same
      simp at same
  · rcases Option.or_eq_some_iff.mp goes with given | ⟨-, told⟩
    · cases notGiven.symm.trans given
    · exact ContentType.slash_of_ofUrl? noData told

/-- A call with an address, which declares a type of its own, and a type by name. -/
def typedCall : Call where
  params := [.str "data:text/plain,a?b"]
  named := [("contentType", .str "image/heic")]

theorem mediaHelper_read_back_typed :
    (filledText? typedCall "url" 0 = some "data:text/plain,a?b" ∧
      PlainText "data:text/plain,a?b" ∧
      ∀ t, filledText? typedCall "contentType" 1 = some t → PlainText t) ∧
    ∃ text, mediaHelper typedCall = .ok (.written text []) ∧
      Segment.ofParts text.toList =
        [.marker (.media "data:text/plain,a?b" (some "image/heic"))] := by
  have address : filledText? typedCall "url" 0 = some "data:text/plain,a?b" := by decide
  have plain : PlainText "data:text/plain,a?b" := ⟨by decide, by decide, by decide⟩
  have given : filledText? typedCall "contentType" 1 = some "image/heic" := by decide
  have plainType : ∀ t, filledText? typedCall "contentType" 1 = some t → PlainText t := by
    intro t here
    cases given.symm.trans here
    exact ⟨by decide, by decide, by decide⟩
  obtain ⟨text, writes, reads, -⟩ := mediaHelper_read_back address plain plainType
  have goes : contentType? typedCall "data:text/plain,a?b" = some "image/heic" := by
    rw [contentType?, given, Option.some_or]
  refine ⟨⟨address, plain, plainType⟩, text, writes, ?_⟩
  rw [goes] at reads
  refine reads.mpr ?_
  rintro _ ⟨⟩
  decide

/-- A content type without a slash, given or declared by the address, ends up in the address. -/
theorem slashless_type_in_address :
    (∃ text, mediaHelper { named := [("url", .str "cat.bin"), ("contentType", .str "png")] } =
        .ok (.written text []) ∧
      Segment.ofParts text.toList = [.marker (.media "cat.bin|png" none)]) ∧
    ContentType.ofUrl? "data:text,hi" = some "text" ∧
    ∃ text, mediaHelper { params := [.str "data:text,hi"] } = .ok (.written text []) ∧
      Segment.ofParts text.toList = [.marker (.media "data:text,hi|text" none)] :=
  ⟨⟨_, rfl, by decide⟩, by decide, _, rfl, by decide⟩

end Template.Helper

end Promptry
