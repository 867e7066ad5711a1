import Promptry.Proofs.Template.Alike.Tag
import Promptry.Proofs.Template.Nesting

/-!
Templates with references redirected, as texts and tags in turn. The texts between the tags end
where they did, so there are as many tags and they are alike one by one. Main statement:
`pieces?_alike`.
-/

namespace Promptry.Template

open DataVariables

variable {cs cs' r r' : List Char}

/-- Pieces with the same tags, up to what was put in. -/
def PiecesAlike (pieces pieces' : List Piece) : Prop :=
  List.Forall₂ ContentAlike (contents pieces) (contents pieces')

namespace PiecesAlike

variable {ps ps' qs qs' : List Piece}

theorem append (front : PiecesAlike ps ps') (behind : PiecesAlike qs qs') :
    PiecesAlike (ps ++ qs) (ps' ++ qs') := by
  rw [PiecesAlike, contents, contents, List.filterMap_append, List.filterMap_append]
  exact List.rel_append front behind

theorem reverse (alike : PiecesAlike ps ps') : PiecesAlike ps.reverse ps'.reverse := by
  rw [PiecesAlike, contents, contents, List.filterMap_reverse, List.filterMap_reverse]
  exact List.rel_reverse alike

theorem text (cs cs' : List Char) : PiecesAlike [.text cs] [.text cs'] := .nil

theorem tag {t t' : Tag} (alike : TagAlike t t') : PiecesAlike [.tag t] [.tag t'] :=
  .cons alike .nil

end PiecesAlike

/-! ### Texts -/

/-- Where a text may end: alike with references redirected, and at braces only. -/
structure Stops (stop : List Char → Bool) : Prop where
  same : ∀ ⦃cs cs'⦄, Redirected cs cs' → stop cs' = stop cs
  brace : ∀ ⦃c r⦄, stop (c :: r) = true → c = '\x7b'

theorem opensTag_eq_false (ne : ∀ r, cs ≠ ['\x7b', '\x7b'] ++ r) : opensTag cs = false := by
  rw [← Bool.not_eq_true, opensTag_iff]
  rintro ⟨r, same⟩
  exact ne r same

theorem stops_opensTag : Stops opensTag where
  same cs cs' h := by
    rcases h.prefix_cases ['\x7b', '\x7b'] (by decide) with ⟨r, r', rfl, rfl, -⟩ | ⟨ne, ne'⟩
    · rfl
    · rw [opensTag_eq_false ne, opensTag_eq_false ne']
  brace c r stops := by
    obtain ⟨s, same⟩ := (opensTag_iff _).mp stops
    exact (List.cons.inj same).1

theorem stops_opensRaw : Stops opensRaw where
  same cs cs' h := by
    rw [opensRaw, opensRaw, stops_opensTag.same h]
    rcases h.prefix_cases ['\x7b', '\x7b'] (by decide) with ⟨r, r', rfl, rfl, rest⟩ | ⟨ne, -⟩
    · exact congrArg _ (stops_opensTag.same rest)
    · rw [opensTag_eq_false ne, Bool.false_and, Bool.false_and]
  brace c r stops := stops_opensTag.brace (Bool.and_eq_true_iff.mp stops).1

/-- What is left behind a third brace, if there is one. -/
def behindBrace (cs : List Char) : List Char :=
  match cs with
  | '\x7b' :: r => r
  | r => r

theorem behindBrace_of_ne (ne : ∀ r, cs ≠ '\x7b' :: r) : behindBrace cs = cs := by
  rw [behindBrace.eq_def]
  split
  · next r => exact absurd rfl (ne r)
  · rfl

theorem behindBrace_leaves (h : Redirected cs cs') :
    Leaves cs cs' (behindBrace cs) (behindBrace cs') := by
  rcases h.head_cases '\x7b' (by decide) with ⟨r, r', rfl, rfl, rest⟩ | ⟨ne, ne'⟩
  · exact .tail rest
  · rw [behindBrace_of_ne ne, behindBrace_of_ne ne']
    exact .refl h

/-- What is left behind a backslash and the braces it makes text of. -/
def behindEscape (cs : List Char) : List Char :=
  let rest := cs.dropWhile (· == '\\')
  if opensTag rest && (cs.takeWhile (· == '\\')).isEmpty then behindBrace (rest.drop 2) else rest

theorem behindEscape_leaves (h : Redirected cs cs') :
    Leaves cs cs' (behindEscape cs) (behindEscape cs') := by
  have behind := Leaves.dropWhile (p := (· == '\\')) (by decide) h
  rw [behindEscape, behindEscape, h.takeWhile_eq (by decide), stops_opensTag.same behind.rest]
  split
  · next opens =>
    obtain ⟨r, same⟩ := (opensTag_iff _).mp (Bool.and_eq_true_iff.mp opens).1
    have braces := same ▸ behind.rest
    obtain ⟨r', same', rest⟩ := Spliced.of_append (p := ['\x7b', '\x7b']) (by decide) braces
    rw [same, same'] at behind
    rw [same, same']
    exact behind.trans ((Leaves.behind ['\x7b', '\x7b'] rest).trans (behindBrace_leaves rest))
  · exact behind

/-- What is written for a backslash, last first. -/
def escapedText (cs : List Char) : List Char :=
  let rest := cs.dropWhile (· == '\\')
  let more := cs.takeWhile (· == '\\')
  if opensTag rest && more.isEmpty then
    if (rest.drop 2).head? = some '\x7b' then ['\x7b', '\x7b', '\x7b'] else ['\x7b', '\x7b']
  else if opensTag rest then more else '\\' :: more

theorem escapedText_eq (h : Redirected cs cs') : escapedText cs' = escapedText cs := by
  have behind := h.dropWhile (p := (· == '\\')) (by decide)
  rw [escapedText, escapedText, h.takeWhile_eq (by decide), stops_opensTag.same behind]
  rcases behind.prefix_cases ['\x7b', '\x7b'] (by decide) with
    ⟨r, r', same, same', rest⟩ | ⟨ne, -⟩
  · have heads : r'.head? = r.head? := by cases rest <;> rfl
    rw [same, same', show (['\x7b', '\x7b'] ++ r').drop 2 = r' from rfl, heads]
    rfl
  · simp only [opensTag_eq_false ne, Bool.false_and, Bool.false_eq_true, if_false]

section

variable {stop : List Char → Bool} {fuel : List Char}

theorem readText_escape (stop : List Char → Bool) (d : Char) (fuel acc r : List Char) :
    readText stop (d :: fuel) acc ('\\' :: r) =
      readText stop fuel (escapedText r ++ acc) (behindEscape r) := by
  rw [readText, escapedText, behindEscape]
  split
  · split
    · next s brace =>
      rw [brace]
      rfl
    · next ne =>
      rw [behindBrace_of_ne ne, if_neg]
      · rfl
      · intro brace
        obtain ⟨s, same⟩ := List.head?_eq_some_iff.mp brace
        exact ne s same
  · split <;> rfl

theorem readText_cons {c : Char} (ne : c ≠ '\\') (d : Char) (acc r : List Char) :
    readText stop (d :: fuel) acc (c :: r) =
      if stop (c :: r) then (acc.reverse, c :: r) else readText stop fuel (c :: acc) r := by
  rw [readText]
  exact fun same => absurd same ne

theorem readText_nil (acc : List Char) : readText stop fuel acc [] = (acc.reverse, []) := by
  cases fuel <;> rfl

/-- Over a stretch without backslashes and braces. -/
theorem readText_over (stops : Stops stop) {w : List Char} (noEscape : '\\' ∉ w)
    (noBrace : '\x7b' ∉ w) (acc r : List Char) (enough : (w ++ r).length ≤ fuel.length) :
    ∃ fuel' acc', r.length ≤ fuel'.length ∧ readText stop fuel acc (w ++ r) =
      readText stop fuel' acc' r := by
  induction w generalizing fuel acc with
  | nil => exact ⟨fuel, acc, enough, rfl⟩
  | cons c w ih =>
    obtain ⟨ne, noEscape⟩ := List.ne_and_not_mem_of_not_mem_cons noEscape
    obtain ⟨ne', noBrace⟩ := List.ne_and_not_mem_of_not_mem_cons noBrace
    cases fuel with
    | nil => cases enough
    | cons d fuel =>
      obtain ⟨fuel', acc', enough', same⟩ :=
        ih noEscape noBrace (c :: acc) (Nat.le_of_succ_le_succ enough)
      refine ⟨fuel', acc', enough', ?_⟩
      rw [List.cons_append, readText_cons ne.symm,
        if_neg fun stopped => ne'.symm (stops.brace stopped), same]

/-- A text ends where it did. -/
theorem readText_leaves (stops : Stops stop) {fuel' : List Char} (acc acc' : List Char)
    (h : Redirected cs cs') (enough : cs.length ≤ fuel.length)
    (enough' : cs'.length ≤ fuel'.length) :
    Leaves cs cs' (readText stop fuel acc cs).2 (readText stop fuel' acc' cs').2 := by
  induction fuel generalizing fuel' acc acc' cs cs' with
  | nil =>
    obtain rfl := List.eq_nil_of_length_eq_zero (Nat.le_zero.mp enough)
    obtain rfl := h.eq_nil_iff.mpr rfl
    rw [readText_nil, readText_nil]
    exact .refl h
  | cons d fuel ih =>
    cases h with
    | nil =>
      rw [readText_nil, readText_nil]
      exact .refl .nil
    | @splice r r' here rest =>
      have goesOn : ∀ {s}, stop ('@' :: s) = false := fun {s} => by
        rw [← Bool.not_eq_true]
        exact fun stopped => absurd (stops.brace stopped) (by decide)
      obtain ⟨fuel'', acc'', enough'', same⟩ :=
        readText_over (w := '@' :: redirection) stops (by decide) (by decide) acc' r' enough'
      rw [readText_cons (by decide), goesOn, ← List.cons_append, same]
      exact (Leaves.splice rest).trans (ih _ _ rest (Nat.le_of_succ_le_succ enough) enough'')
    | @cons c r r' rest =>
      cases fuel' with
      | nil => cases enough'
      | cons d' fuel' =>
        have room := Nat.le_of_succ_le_succ enough
        have room' := Nat.le_of_succ_le_succ enough'
        by_cases escape : c = '\\'
        · subst escape
          have left := behindEscape_leaves rest
          rw [readText_escape, readText_escape]
          exact (Leaves.tail rest).trans (left.trans (ih _ _ left.rest
            (Nat.le_trans left.length_le room) (Nat.le_trans left.length_le' room')))
        · rw [readText_cons escape, readText_cons escape, stops.same (.cons c rest)]
          split
          · exact .refl (.cons c rest)
          · exact (Leaves.tail rest).trans (ih _ _ rest room room')

/-- A text that does not end at once takes something off. -/
theorem readText_shorter (stops : Stops stop) {c : Char} {r : List Char}
    (goesOn : stop (c :: r) = false) (acc : List Char) (enough : (c :: r).length ≤ fuel.length) :
    (readText stop fuel acc (c :: r)).2.length < (c :: r).length := by
  cases fuel with
  | nil => cases enough
  | cons d fuel =>
    have room := Nat.le_of_succ_le_succ enough
    have less (acc : List Char) {s : List Char} (fewer : s.length ≤ r.length) :
        (readText stop fuel acc s).2.length < (c :: r).length :=
      have left := readText_leaves stops acc acc (.refl s) (Nat.le_trans fewer room)
        (Nat.le_trans fewer room)
      Nat.lt_succ_of_le (Nat.le_trans left.length_le fewer)
    by_cases escape : c = '\\'
    · subst escape
      rw [readText_escape]
      exact less _ (behindEscape_leaves (.refl r)).length_le
    · rw [readText_cons escape, goesOn]
      exact less (c :: acc) (Nat.le_refl _)

end

/-! ### Pieces -/

/-- A block whose inside is text, behind its opening tag. -/
def rawInside? (opening : Tag) : Reader (List Piece) := fun cs =>
  (rawCloseTag? (readText opensRaw cs [] cs).2).map fun (closing, r) =>
    (if (readText opensRaw cs [] cs).1.isEmpty then [.tag opening, .tag closing]
      else [.tag opening, .text (readText opensRaw cs [] cs).1, .tag closing], r)

theorem rawBlock?_eq (cs : List Char) :
    rawBlock? cs = (rawOpenTag? cs).bind fun (opening, r) => rawInside? opening r := by
  rw [rawBlock?]
  refine congrArg _ (funext fun (opening, r) => ?_)
  dsimp only
  rw [rawInside?]
  cases rawCloseTag? (readText opensRaw r [] r).2 <;> rfl

theorem contents_rawBlock (opening closing : Tag) (body : List Char) :
    contents (if body.isEmpty then [.tag opening, .tag closing]
      else [.tag opening, .text body, .tag closing]) = [opening.content, closing.content] := by
  split <;> rfl

theorem rawBlock?_alike (h : Redirected cs cs') :
    ReadsAlike PiecesAlike cs cs' (rawBlock? cs) (rawBlock? cs') := by
  rw [rawBlock?_eq, rawBlock?_eq]
  refine (rawOpenTag?_alike h).bind fun opening opening' r r' opens left _ => .behind left ?_
  have text := readText_leaves stops_opensRaw [] [] left.rest (Nat.le_refl _) (Nat.le_refl _)
  refine .behind text ((rawCloseTag?_alike text.rest).map fun closing closing' _ _ closes => ?_)
  refine ⟨rfl, rfl, ?_⟩
  rw [PiecesAlike, contents_rawBlock, contents_rawBlock]
  exact .cons opens (.cons closes .nil)

/-- The pieces at the head of a text. -/
def nextPieces? : Reader (List Piece) := fun cs =>
  if opensTag cs then
    ((readTag? cs).map fun (t, rest) => ([.tag t], rest)).orElse fun _ => rawBlock? cs
  else some ([.text (readText opensTag cs [] cs).1], (readText opensTag cs [] cs).2)

theorem nextPieces?_alike (h : Redirected cs cs') (ne : cs ≠ []) :
    ReadsAlike PiecesAlike cs cs' (nextPieces? cs) (nextPieces? cs') := by
  rw [nextPieces?, nextPieces?, stops_opensTag.same h]
  split
  · exact ((readTag?_alike h).map fun _ _ _ _ same => ⟨rfl, rfl, .tag same⟩).orElse
      (rawBlock?_alike h)
  · next goesOn =>
    obtain ⟨c, r, rfl⟩ := List.exists_cons_of_ne_nil ne
    exact .read (.text _ _)
      (readText_leaves stops_opensTag [] [] h (Nat.le_refl _) (Nat.le_refl _))
      (readText_shorter stops_opensTag (by simpa using goesOn) [] (Nat.le_refl _))

theorem piecesFrom_cons (d c : Char) (fuel : List Char) (acc : List Piece) (r : List Char) :
    piecesFrom (d :: fuel) acc (c :: r) =
      (nextPieces? (c :: r)).bind fun (ps, rest) => piecesFrom fuel (ps.reverse ++ acc) rest := by
  rw [piecesFrom, nextPieces?]
  · split
    · cases readTag? (c :: r) with
      | some found => rfl
      | none =>
        cases rawBlock? (c :: r) <;> rfl
    · rfl
  · nofun

theorem piecesFrom_nil (fuel : List Char) (acc : List Piece) :
    piecesFrom fuel acc [] = some acc.reverse := by
  cases fuel <;> rw [piecesFrom]

theorem piecesFrom_alike {fuel fuel' : List Char} {acc acc' : List Piece} (h : Redirected cs cs')
    (enough : cs.length ≤ fuel.length) (enough' : cs'.length ≤ fuel'.length)
    (before : PiecesAlike acc acc') :
    Option.Rel PiecesAlike (piecesFrom fuel acc cs) (piecesFrom fuel' acc' cs') := by
  induction fuel generalizing fuel' acc acc' cs cs' with
  | nil =>
    obtain rfl := List.eq_nil_of_length_eq_zero (Nat.le_zero.mp enough)
    obtain rfl := h.eq_nil_iff.mpr rfl
    rw [piecesFrom_nil, piecesFrom_nil]
    exact .some before.reverse
  | cons d fuel ih =>
    cases cs with
    | nil =>
      obtain rfl := h.eq_nil_iff.mpr rfl
      rw [piecesFrom_nil, piecesFrom_nil]
      exact .some before.reverse
    | cons c r =>
      obtain ⟨c', r', rfl⟩ := List.exists_cons_of_ne_nil (mt h.eq_nil_iff.mp (List.cons_ne_nil c r))
      cases fuel' with
      | nil => cases enough'
      | cons d' fuel' =>
        rw [piecesFrom_cons, piecesFrom_cons]
        rcases (nextPieces?_alike h (List.cons_ne_nil c r)).cases with
          ⟨none, none'⟩ | ⟨ps, ps', s, s', read, read', same, left, shorter⟩
        · rw [none, none']
          exact .none
        · have shorter' := left.length_lt' shorter
          rw [read, read']
          simp only [List.length_cons] at enough enough' shorter shorter'
          exact ih left.rest (by omega) (by omega) (same.reverse.append before)

/-- A template has the same tags, up to what was put in, or none that can be read. -/
theorem pieces?_alike (h : Redirected cs cs') :
    Option.Rel PiecesAlike (pieces? cs) (pieces? cs') :=
  piecesFrom_alike h (Nat.le_refl _) (Nat.le_refl _) .nil

end Promptry.Template
