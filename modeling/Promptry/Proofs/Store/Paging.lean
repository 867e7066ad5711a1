import Promptry.Proofs.Store.Loading

/-!
Listings read page by page. A page is a slice of the listing, computed with numbers of 64 bits that
never wrap; from page to page, the cursors lead once over the whole listing. A listing is held in
memory, so that its length has 64 bits. Main statements: `list_eq_slice` and `list_in_pages`.
-/

namespace Promptry.Store

/-- The entries of a listing from an offset on, as many as a limit allows, and where entries remain
the offset behind them, in numbers without a bound. -/
def slice (items : List Reference) (start : Nat) : Option Nat → Page
  | none => ⟨items.drop start, none⟩
  | some n => ⟨(items.drop start).take n,
      if start + n < items.length then some (toString (start + n)) else none⟩

/-- Where the sum of offset and limit has more than 64 bits, the listing ends before it. -/
theorem min_boundedSum (a b : Nat) {length : Nat} (fits : length < Nat.pow 2 64) :
    min (boundedSum a b) length = min (a + b) length := by
  unfold boundedSum
  omega

theorem paginate_eq_slice {items : List Reference} (fits : items.length < Nat.pow 2 64)
    (start : Nat) (limit : Option Nat) : paginate items start limit = slice items start limit := by
  cases limit with
  | none =>
    have all : (items.drop start).take (items.length - start) = items.drop start :=
      List.take_of_length_le (by rw [List.length_drop])
    simp [paginate, slice, all]
  | some n =>
    have part : (items.drop start).take (min (start + n) items.length - start) =
        (items.drop start).take n := by
      rw [List.take_eq_take_iff, List.length_drop]
      omega
    have stops : (if min (start + n) items.length < items.length
          then some (toString (min (start + n) items.length)) else none) =
        if start + n < items.length then some (toString (start + n)) else none := by
      by_cases more : start + n < items.length
      · rw [Nat.min_eq_left more.le, if_pos more]
      · rw [if_neg more, Nat.min_eq_right (not_lt.mp more), if_neg (lt_irrefl _)]
    simp only [paginate, slice, min_boundedSum start n fits, part, stops]

namespace Directory

variable {d : Directory} {kind : Kind} {items : List Reference}

/-- Where a page starts: at the beginning without a cursor, else where the cursor says. -/
inductive StartsAt : Option String → Nat → Prop
  | beginning : StartsAt none 0
  | spelt {cursor : String} {start : Nat} :
      Numeral.Spells cursor start → start < Nat.pow 2 64 → StartsAt (some cursor) start

theorem list_eq_slice (listed : d.listing kind = .ok items) (fits : items.length < Nat.pow 2 64)
    {cursor : Option String} {start : Nat} (starts : StartsAt cursor start) (limit : Option Nat) :
    d.list kind ⟨cursor, limit⟩ = .ok (slice items start limit) := by
  cases starts with
  | beginning =>
    simp only [list, listed, bind, Except.bind, pure, Except.pure, paginate_eq_slice fits]
  | spelt spells small =>
    have read := Numeral.ofText?_eq_some_iff.mpr ⟨spells, small⟩
    simp only [list, listed, bind, Except.bind, pure, Except.pure, read, paginate_eq_slice fits]

/-! ### From page to page -/

/-- The pages that calls answer one after the other, each call with the cursor of the page before,
until a page has none. -/
inductive Pages (d : Directory) (kind : Kind) (limit : Nat) : Option String → List Page → Prop
  | last {cursor : Option String} {page : Page} :
      d.list kind ⟨cursor, some limit⟩ = .ok page → page.cursor = none →
      Pages d kind limit cursor [page]
  | more {cursor : Option String} {page : Page} {following : String} {rest : List Page} :
      d.list kind ⟨cursor, some limit⟩ = .ok page → page.cursor = some following →
      Pages d kind limit (some following) rest → Pages d kind limit cursor (page :: rest)

/-- A call has one answer, so that there is one way on. -/
theorem Pages.unique {limit : Nat} {cursor : Option String} {pages others : List Page}
    (run : Pages d kind limit cursor pages) (other : Pages d kind limit cursor others) :
    others = pages := by
  induction run generalizing others with
  | last answer ends =>
    cases other with
    | last answer' _ => rw [Except.ok.inj (answer'.symm.trans answer)]
    | more answer' goesOn _ =>
      rw [Except.ok.inj (answer'.symm.trans answer), ends] at goesOn
      cases goesOn
  | more answer goesOn _ ih =>
    cases other with
    | last answer' ends =>
      rw [Except.ok.inj (answer'.symm.trans answer), goesOn] at ends
      cases ends
    | more answer' goesOn' rest' =>
      cases Except.ok.inj (answer'.symm.trans answer)
      cases goesOn.symm.trans goesOn'
      rw [ih rest']

/-- What pages hold when they are put together: all of a listing, each page but the last one as many
entries as were asked for, with a cursor, the last one without. -/
structure Covers (limit : Nat) (items : List Reference) (pages : List Page) : Prop where
  whole : pages.flatMap Page.items = items
  ends : ∃ front last, pages = front ++ [last] ∧ last.cursor = none ∧
    ∀ page ∈ front, page.items.length = limit ∧ page.cursor.isSome

theorem Covers.last {limit : Nat} {page : Page} (ends : page.cursor = none) :
    Covers limit page.items [page] :=
  ⟨List.flatMap_singleton _ _, [], page, rfl, ends, fun _ mem => nomatch mem⟩

theorem Covers.more {limit : Nat} {page : Page} {rest : List Page} {items : List Reference}
    (full : page.items.length = limit) (goesOn : page.cursor.isSome)
    (covers : Covers limit items rest) : Covers limit (page.items ++ items) (page :: rest) := by
  obtain ⟨front, last, rfl, ends, before⟩ := covers.ends
  refine ⟨by rw [List.flatMap_cons, covers.whole], page :: front, last, rfl, ends, ?_⟩
  rintro p (- | ⟨-, mem⟩)
  · exact ⟨full, goesOn⟩
  · exact before p mem

/-- From an offset on, the calls come to an end with what is left of the listing. The induction is
on how much that is: a page that is not the last one takes something off. -/
theorem pages_from (listed : d.listing kind = .ok items) (fits : items.length < Nat.pow 2 64)
    {limit : Nat} (positive : 0 < limit) {cursor : Option String} {start : Nat}
    (starts : StartsAt cursor start) :
    ∃ pages, Pages d kind limit cursor pages ∧ Covers limit (items.drop start) pages := by
  induction left : items.length - start using Nat.strongRecOn generalizing cursor start with
  | ind left ih =>
    subst left
    have answer := list_eq_slice listed fits starts (some limit)
    by_cases more : start + limit < items.length
    · have goesOn : (slice items start (some limit)).cursor = some (toString (start + limit)) :=
        if_pos more
      have full : (slice items start (some limit)).items.length = limit := by
        simp only [slice, List.length_take, List.length_drop]
        omega
      obtain ⟨rest, run, covers⟩ := ih (items.length - (start + limit)) (by omega)
        (.spelt (Numeral.spells_toString (start + limit)) (more.trans fits)) rfl
      have split : (slice items start (some limit)).items ++ items.drop (start + limit) =
          items.drop start := by
        rw [← List.drop_drop]
        exact List.take_append_drop _ _
      exact ⟨_ :: rest, .more answer goesOn run,
        split ▸ covers.more full (Option.isSome_of_eq_some goesOn)⟩
    · have ends : (slice items start (some limit)).cursor = none := if_neg more
      have all : (slice items start (some limit)).items = items.drop start :=
        List.take_of_length_le (by rw [List.length_drop]; omega)
      exact ⟨[_], .last answer ends, all ▸ Covers.last ends⟩

/-- Whatever a store lists: read from the beginning in pages of at least one entry, it comes to an
end, in one way, with every entry in its place, every page full but the last, and only the last
without a cursor. And any cursor that spells a number of 64 bits is answered, under any limit, with
the entries from that number on, no matter how large the two are. -/
theorem list_in_pages (listed : d.listing kind = .ok items)
    (fits : items.length < Nat.pow 2 64) :
    (∀ limit, 0 < limit → ∃ pages, Pages d kind limit none pages ∧ Covers limit items pages ∧
      ∀ others, Pages d kind limit none others → others = pages) ∧
    ∀ cursor start limit, Numeral.Spells cursor start → start < Nat.pow 2 64 →
      d.list kind ⟨some cursor, limit⟩ = .ok (slice items start limit) := by
  refine ⟨fun limit positive => ?_, fun cursor start limit spells small =>
    list_eq_slice listed fits (.spelt spells small) limit⟩
  obtain ⟨pages, run, covers⟩ := pages_from listed fits positive .beginning
  exact ⟨pages, run, covers, fun others other => run.unique other⟩

/-- Three entries two by two, and behind the largest offset with the largest limit. -/
theorem list_in_pages_mixed :
    mixed.listing .whole = .ok [⟨"alpha", none, none⟩, ⟨"alpha", some "formal", none⟩,
      ⟨"team/welcome", none, none⟩] ∧
    (∃ pages, Pages mixed .whole 2 none pages ∧ Covers 2 [⟨"alpha", none, none⟩,
      ⟨"alpha", some "formal", none⟩, ⟨"team/welcome", none, none⟩] pages) ∧
    mixed.list .whole ⟨some "18446744073709551615", some 18446744073709551615⟩ =
      .ok ⟨[], none⟩ := by
  obtain ⟨inPages, anywhere⟩ := list_in_pages listing_mixed (by decide)
  obtain ⟨pages, run, covers, -⟩ := inPages 2 (by decide)
  have read : Numeral.ofText? "18446744073709551615" = some 18446744073709551615 := by
    decide +kernel
  obtain ⟨spells, small⟩ := Numeral.ofText?_eq_some_iff.mp read
  have nothing (items : List Reference) (short : items.length = 3) :
      slice items 18446744073709551615 (some 18446744073709551615) = ⟨[], none⟩ := by
    rw [slice, List.drop_eq_nil_of_le (by omega), List.take_nil, if_neg (by omega)]
  exact ⟨listing_mixed, ⟨pages, run, covers⟩,
    (anywhere _ _ _ spells small).trans (congrArg _ (nothing _ rfl))⟩

end Directory

end Promptry.Store
