import Promptry.Proofs.Template.Alike.Piece
import Promptry.Proofs.Template.Exact.Tag

/-!
Templates with references redirected, exactly. The search for references knows two opening braces,
the closing ones behind them and quotes, and neither literals that hold a brace nor escapes nor
comments. It does what it should in an orderly template: each tag with an at sign holds no closing
braces but those at its end, and no braces that are text hide an at sign. There the texts stay, and
so do the tags up to the paths in them, which are redirected if they name a variable that is not one
of the language's own. Main statement: `pieces?_redirectAll`.
-/

namespace Promptry.Template

open DataVariables

variable {cs r r' rest w : List Char} {t : Tag}

/-! ### Tags -/

/-- A reader of tags that are followed, plain comments apart. -/
structure ReadsTags (read : Reader Tag) : Prop where
  alike : ∀ ⦃cs cs'⦄, Redirected cs cs' → ReadsAlike TagAlike cs cs' (read cs) (read cs')
  told : ∀ ⦃cs t r⦄, read cs = some (t, r) →
    t = ⟨.comment, false, false⟩ ∧ Closed cs r ∨ ∀ strict, TagFollows strict read cs t r

theorem readsTags_readTag? : ReadsTags readTag? where
  alike _ _ h := readTag?_alike h
  told _ _ _ read := readTag?_follows read

theorem readsTags_rawOpenTag? : ReadsTags rawOpenTag? where
  alike _ _ h := rawOpenTag?_alike h
  told _ _ _ read := .inr fun _ => rawOpenTag?_follows read

theorem readsTags_rawCloseTag? : ReadsTags rawCloseTag? where
  alike _ _ h := rawCloseTag?_alike h
  told _ _ _ read := .inr fun _ => rawCloseTag?_follows read

/-- The source of a tag whose references the search finds: it is a comment, or has no at sign, or
its paths are tidy and it holds no closing braces but those at its end. -/
inductive Told (t : Tag) : List Char → Prop
  | comment {w : List Char} (comment : t.content = .comment) : Told t w
  | plain {w : List Char} (plain : '@' ∉ w) : Told t w
  | tidy {inner closes : List Char} (free : '\x7d' ∉ inner) (braces : ∀ c ∈ closes, c = '\x7d')
      (tidy : t.content.isTidy = true) :
      Told t ('\x7b' :: '\x7b' :: (inner ++ '\x7d' :: '\x7d' :: closes))

theorem closing_of_closed (closed : Closed (w ++ rest) rest) : Closing w := by
  obtain ⟨u, same⟩ := closed
  have whole : u ++ ['\x7d', '\x7d'] ++ rest = [] ++ w ++ rest := by
    rw [List.nil_append, List.append_assoc]
    exact same
  exact ⟨[], u, List.append_cancel_right whole⟩

theorem TagAlike.comment {t' : Tag} (alike : TagAlike ⟨.comment, false, false⟩ t') :
    t'.content = .comment := by
  obtain ⟨content, before, after⟩ := t'
  cases alike
  rfl

/-- The search makes the redirected tag of a tag, and goes on behind it. -/
theorem ReadsTags.redirects {read : Reader Tag} (reads : ReadsTags read)
    (found : read (w ++ rest) = some (t, rest)) (told : Told t w) :
    read (search (w ++ rest)) = some (t.redirect, search rest) := by
  have apart (closed : Closed (w ++ rest) rest) : ∃ out, Redirected w out ∧
      search (w ++ rest) = out ++ search rest := by
    obtain ⟨out, same, redirected⟩ := search_closing rest (closing_of_closed closed)
    exact ⟨out, by simpa using redirected [] [] .nil, same⟩
  have tail := redirected_search rest
  rcases reads.told found with ⟨rfl, closed⟩ | follows
  · -- nobody reads what stands in a comment
    obtain ⟨out, taken, same⟩ := apart closed
    have alike := reads.alike (redirected_search (w ++ rest))
    rw [found, same] at alike
    obtain ⟨t', found', alike⟩ := alike.rest_eq taken.renamed tail
    rcases reads.told found' with ⟨rfl, -⟩ | follows'
    · rw [same, found']
      rfl
    · exact absurd alike.comment (follows' True).noComment
  · cases told with
    | comment comment => exact absurd comment (follows True).noComment
    | plain plain =>
      obtain ⟨out, taken, same⟩ := apart (follows True).closed
      have tame : Tame False (w ++ rest) rest (t.content.isTidy = true) := by
        refine .inr ⟨not_false, ?_⟩
        rw [List.count_append, List.count_eq_zero.mpr plain, Nat.zero_add]
      obtain ⟨cs', scanned, found'⟩ := (follows False).follows tame tail
      rwa [same, taken.eq_of_not_mem plain, ← scanned.of_not_mem rfl plain]
    | @tidy inner closes free braces tidy =>
      obtain ⟨cs', scanned, found'⟩ := (follows True).follows (.inl tidy) tail
      have whole : '\x7b' :: '\x7b' :: (inner ++ '\x7d' :: '\x7d' :: closes) ++ rest =
          '\x7b' :: '\x7b' :: inner ++ ['\x7d', '\x7d'] ++ (closes ++ rest) := by simp
      have spelled : '\x7b' :: '\x7b' :: (inner ++ '\x7d' :: '\x7d' :: (closes ++ rest)) =
          '\x7b' :: '\x7b' :: (inner ++ '\x7d' :: '\x7d' :: closes) ++ rest := by simp
      rw [← spelled, search_inner free braces rest,
        ← scanned.scanTag whole (endsClosed_braces _) braces]
      exact found'

/-! ### Texts -/

section

variable {stop : List Char → Bool} {fuel fuel' acc body : List Char}

theorem readText_suffix (stops : Stops stop) (acc : List Char) (enough : cs.length ≤ fuel.length) :
    (readText stop fuel acc cs).2 <:+ cs := by
  obtain ⟨-, w, -, spelled, -⟩ := readText_leaves stops acc acc (.refl cs) enough enough
  exact ⟨w, spelled.symm⟩

/-- A text goes on to where it may end, or to the end. -/
theorem readText_stopped (stop : List Char → Bool) (acc : List Char)
    (enough : cs.length ≤ fuel.length) :
    (readText stop fuel acc cs).2 = [] ∨ stop (readText stop fuel acc cs).2 = true := by
  induction fuel generalizing acc cs with
  | nil =>
    obtain rfl := List.eq_nil_of_length_eq_zero (Nat.le_zero.mp enough)
    exact .inl rfl
  | cons d fuel ih =>
    cases cs with
    | nil => exact .inl rfl
    | cons c r =>
      have room := Nat.le_of_succ_le_succ enough
      by_cases escape : c = '\\'
      · subst escape
        rw [readText_escape]
        exact ih _ (Nat.le_trans (behindEscape_leaves (.refl r)).length_le room)
      · rw [readText_cons escape]
        split
        · next stopped => exact .inr stopped
        · exact ih _ room

/-- A stretch that is read as a text is read as the same one. -/
theorem readText_kept (stops : Stops stop) (tail : Redirected r r')
    (enough : (w ++ r).length ≤ fuel.length) (enough' : (w ++ r').length ≤ fuel'.length)
    (read : readText stop fuel acc (w ++ r) = (body, r)) :
    readText stop fuel' acc (w ++ r') = (body, r') := by
  induction fuel generalizing fuel' acc w with
  | nil =>
    obtain ⟨rfl, rfl⟩ :=
      List.append_eq_nil_iff.mp (List.eq_nil_of_length_eq_zero (Nat.le_zero.mp enough))
    obtain rfl := tail.eq_nil_iff.mpr rfl
    rw [List.nil_append, readText_nil] at read ⊢
    exact read
  | cons d fuel ih =>
    match w, r with
    | [], [] =>
      obtain rfl := tail.eq_nil_iff.mpr rfl
      rw [List.nil_append, readText_nil] at read ⊢
      exact read
    | [], c :: s =>
      -- nothing is taken off, so the text ends right here
      have stopped : stop (c :: s) = true := by
        refine Decidable.byContradiction fun goesOn => ?_
        have less := readText_shorter stops (by simpa using goesOn) acc enough
        rw [← List.nil_append (c :: s), read] at less
        exact Nat.lt_irrefl _ less
      have stopped' : stop r' = true := (stops.same tail).trans stopped
      obtain ⟨c', s', rfl⟩ :=
        List.exists_cons_of_ne_nil (mt tail.eq_nil_iff.mp (List.cons_ne_nil c s))
      obtain rfl := stops.brace stopped
      obtain rfl := stops.brace stopped'
      cases fuel' with
      | nil => cases enough'
      | cons d' fuel' =>
        rw [List.nil_append, readText_cons (by decide), if_pos stopped] at read
        rw [List.nil_append, readText_cons (by decide), if_pos stopped']
        cases read
        rfl
    | c :: w, r =>
      cases fuel' with
      | nil => cases enough'
      | cons d' fuel' =>
        have room := Nat.le_of_succ_le_succ enough
        have room' := Nat.le_of_succ_le_succ enough'
        by_cases escape : c = '\\'
        · subst escape
          have left := behindEscape_leaves (tail.prepend w)
          have fewer := Nat.le_trans left.length_le room
          have fewer' := Nat.le_trans left.length_le' room'
          rw [List.cons_append, readText_escape] at read ⊢
          have suffix := readText_suffix stops (escapedText (w ++ r) ++ acc) fewer
          rw [read] at suffix
          obtain ⟨v, same, same'⟩ := left.rest_eq suffix tail
          rw [same] at read fewer
          rw [same'] at fewer' ⊢
          rw [escapedText_eq (tail.prepend w)]
          exact ih fewer fewer' read
        · rw [List.cons_append, readText_cons escape] at read ⊢
          have goesOn : ¬ stop (c :: (w ++ r)) = true := by
            intro stopped
            rw [if_pos stopped] at read
            have whole := congrArg (fun p => p.2.length) read
            simp only [List.length_cons, List.length_append] at whole
            omega
          rw [if_neg goesOn] at read
          rw [stops.same ((tail.prepend w).cons c), if_neg goesOn]
          exact ih room room' read

/-- The search goes over a quiet text. -/
theorem search_text (stops : Stops stop) (quiet : isQuiet rest w = true)
    (read : readText stop (w ++ rest) [] (w ++ rest) = (body, rest)) :
    readText stop (search (w ++ rest)) [] (search (w ++ rest)) = (body, search rest) := by
  have open' : ∀ r, rest ≠ '\x7d' :: r := by
    rintro r rfl
    have stopped := readText_stopped stop [] (Nat.le_refl (w ++ '\x7d' :: r).length)
    rw [read] at stopped
    rcases stopped with ends | stopped
    · cases ends
    · exact absurd (stops.brace stopped) (by decide)
  rw [search_quiet open' quiet]
  exact readText_kept stops (redirected_search rest) (Nat.le_refl _) (Nat.le_refl _) read

end

/-! ### Pieces one by one -/

section

variable {ps : List Piece}

theorem piecesFrom_behind (fuel : List Char) (acc : List Piece) (cs : List Char) :
    piecesFrom fuel acc cs = (piecesFrom fuel [] cs).map (acc.reverse ++ ·) := by
  induction fuel generalizing acc cs with
  | nil =>
    cases cs with
    | nil => simp [piecesFrom_nil]
    | cons => rfl
  | cons d fuel ih =>
    cases cs with
    | nil => simp [piecesFrom_nil]
    | cons c r =>
      rw [piecesFrom_cons, piecesFrom_cons, Option.map_bind]
      refine congrArg _ (funext fun (ps, rest) => ?_)
      dsimp only [Function.comp]
      rw [ih, ih (ps.reverse ++ []), Option.map_map]
      refine congrArg (Option.map · _) (funext fun qs => ?_)
      simp

theorem nextPieces?_shorter (ne : cs ≠ []) (next : nextPieces? cs = some (ps, rest)) :
    rest.length < cs.length := (nextPieces?_alike (.refl cs) ne).shorter next

theorem piecesFrom_enough {fuel fuel' : List Char} (enough : cs.length ≤ fuel.length)
    (enough' : cs.length ≤ fuel'.length) : piecesFrom fuel [] cs = piecesFrom fuel' [] cs := by
  induction fuel generalizing fuel' cs with
  | nil =>
    obtain rfl := List.eq_nil_of_length_eq_zero (Nat.le_zero.mp enough)
    rw [piecesFrom_nil, piecesFrom_nil]
  | cons d fuel ih =>
    cases cs with
    | nil => rw [piecesFrom_nil, piecesFrom_nil]
    | cons c r =>
      cases fuel' with
      | nil => cases enough'
      | cons d' fuel' =>
        rw [piecesFrom_cons, piecesFrom_cons]
        cases next : nextPieces? (c :: r) with
        | none => rfl
        | some found =>
          obtain ⟨ps, rest⟩ := found
          have shorter := nextPieces?_shorter (List.cons_ne_nil c r) next
          simp only [List.length_cons] at enough enough' shorter
          rw [Option.bind_some, Option.bind_some]
          dsimp only
          have same : piecesFrom fuel [] rest = piecesFrom fuel' [] rest :=
            ih (by omega) (by omega)
          rw [piecesFrom_behind, piecesFrom_behind fuel', same]

/-- The first pieces, and then the others. -/
theorem pieces?_next (ne : cs ≠ []) (next : nextPieces? cs = some (ps, rest)) :
    pieces? cs = (pieces? rest).map (ps ++ ·) := by
  obtain ⟨c, r, rfl⟩ := List.exists_cons_of_ne_nil ne
  have shorter := nextPieces?_shorter ne next
  have room : rest.length ≤ r.length := Nat.le_of_lt_succ shorter
  have front : (ps.reverse ++ []).reverse = ps := by simp
  rw [pieces?, piecesFrom_cons, next, Option.bind_some]
  dsimp only
  rw [piecesFrom_behind, front, piecesFrom_enough room (Nat.le_refl _), pieces?]

theorem nextPieces?_text (goesOn : opensTag cs = false) : nextPieces? cs =
    some ([.text (readText opensTag cs [] cs).1], (readText opensTag cs [] cs).2) := by
  rw [nextPieces?, goesOn]
  rfl

theorem nextPieces?_tag (read : readTag? cs = some (t, rest)) :
    nextPieces? cs = some ([.tag t], rest) := by
  have opens : opensTag cs = true := by
    refine Decidable.byContradiction fun closed => ?_
    rw [readTag?_of_ne fun r same => closed ((opensTag_iff cs).mpr ⟨r, same⟩)] at read
    cases read
  rw [nextPieces?, if_pos opens, read]
  rfl

theorem nextPieces?_raw (noTag : readTag? cs = none) (opening : rawOpenTag? cs = some (t, r)) :
    nextPieces? cs = rawInside? t r := by
  have opens : opensTag cs = true := by
    refine Decidable.byContradiction fun closed => ?_
    rw [rawOpenTag?_of_ne fun r same => closed ((opensTag_iff cs).mpr ⟨_, same⟩)] at opening
    cases opening
  rw [nextPieces?, if_pos opens, noTag, rawBlock?_eq, opening]
  rfl

theorem rawInside?_eq {opening closing : Tag} {body : List Char}
    (read : readText opensRaw cs [] cs = (body, r))
    (closes : rawCloseTag? r = some (closing, rest)) :
    rawInside? opening cs = some (if body.isEmpty then [.tag opening, .tag closing]
      else [.tag opening, .text body, .tag closing], rest) := by
  rw [rawInside?, read, closes]
  rfl

end

/-! ### Templates -/

/-- A piece with the paths in it redirected. -/
def Piece.redirect : Piece → Piece
  | .text cs => .text cs
  | .tag t => .tag t.redirect

/-- A template in which the search takes texts for texts, and tags for the tags they are. -/
inductive Orderly : List Char → Prop
  | nil : Orderly []
  | text {w rest : List Char} (ne : w ≠ []) (goesOn : opensTag (w ++ rest) = false)
      (ends : (readText opensTag (w ++ rest) [] (w ++ rest)).2 = rest)
      (quiet : isQuiet rest w = true) (behind : Orderly rest) : Orderly (w ++ rest)
  | tag {w rest : List Char} {t : Tag} (read : readTag? (w ++ rest) = some (t, rest))
      (told : Told t w) (behind : Orderly rest) : Orderly (w ++ rest)
  | raw {v w u rest : List Char} {opening closing : Tag}
      (noTag : readTag? (v ++ (w ++ (u ++ rest))) = none)
      (opens : rawOpenTag? (v ++ (w ++ (u ++ rest))) = some (opening, w ++ (u ++ rest)))
      (toldOpening : Told opening v)
      (ends : (readText opensRaw (w ++ (u ++ rest)) [] (w ++ (u ++ rest))).2 = u ++ rest)
      (quiet : isQuiet (u ++ rest) w = true)
      (closes : rawCloseTag? (u ++ rest) = some (closing, rest)) (toldClosing : Told closing u)
      (behind : Orderly rest) : Orderly (v ++ (w ++ (u ++ rest)))

/-- The first pieces of an orderly template, and those of the redirected one. -/
theorem Orderly.next (orderly : Orderly cs) (ne : cs ≠ []) : ∃ ps rest, Orderly rest ∧
    nextPieces? cs = some (ps, rest) ∧
      nextPieces? (search cs) = some (ps.map Piece.redirect, search rest) := by
  cases orderly with
  | nil => exact absurd rfl ne
  | @text w rest _ goesOn ends quiet behind =>
    refine ⟨_, rest, behind, (nextPieces?_text goesOn).trans (by rw [ends]), ?_⟩
    have goesOn' := (stops_opensTag.same (redirected_search (w ++ rest))).trans goesOn
    rw [nextPieces?_text goesOn', search_text stops_opensTag quiet (Prod.ext rfl ends)]
    rfl
  | @tag w rest t read told behind =>
    exact ⟨[.tag t], rest, behind, nextPieces?_tag read,
      nextPieces?_tag (readsTags_readTag?.redirects read told)⟩
  | @raw v w u rest opening closing noTag opens toldOpening ends quiet closes toldClosing behind =>
    have read : readText opensRaw (w ++ (u ++ rest)) [] (w ++ (u ++ rest)) = (_, u ++ rest) :=
      Prod.ext rfl ends
    refine ⟨_, rest, behind, (nextPieces?_raw noTag opens).trans (rawInside?_eq read closes), ?_⟩
    have noTag' := readTag?_alike (redirected_search (v ++ (w ++ (u ++ rest))))
    rw [noTag] at noTag'
    rw [nextPieces?_raw noTag'.eq_none (readsTags_rawOpenTag?.redirects opens toldOpening),
      rawInside?_eq (search_text stops_opensRaw quiet read)
        (readsTags_rawCloseTag?.redirects closes toldClosing)]
    split <;> rfl

theorem Orderly.pieces? {cs : List Char} (orderly : Orderly cs) :
    ∃ ps, Template.pieces? cs = some ps ∧
      Template.pieces? (search cs) = some (ps.map Piece.redirect) := by
  by_cases empty : cs = []
  · subst empty
    exact ⟨[], rfl, rfl⟩
  · obtain ⟨ps, rest, behind, next, next'⟩ := orderly.next empty
    have shorter := nextPieces?_shorter empty next
    obtain ⟨qs, found, found'⟩ := behind.pieces?
    have empty' := mt (redirected_search cs).eq_nil_iff.mp empty
    refine ⟨ps ++ qs, ?_, ?_⟩
    · rw [pieces?_next empty next, found]
      rfl
    · rw [pieces?_next empty' next', found', List.map_append]
      rfl
termination_by cs.length

/-- In an orderly template nothing is changed but that the redirection is put in behind at signs,
and it is read as the redirected pieces: texts, literals and names stay, and each path that names a
variable from outside the language is led through the context object. -/
theorem pieces?_redirectAll {t : String} (orderly : Orderly t.toList) :
    Redirected t.toList (redirectAll t).toList ∧
      ∃ ps, pieces? t.toList = some ps ∧
        pieces? (redirectAll t).toList = some (ps.map Piece.redirect) := by
  rw [toList_redirectAll]
  exact ⟨redirected_search t.toList, orderly.pieces?⟩

/-- The template `Dear {{@user.name}}, \{{x}}{{#if (eq @index "@no")}}!{{/if}}`, with a reference,
an escape, a variable of the language's own and a literal. -/
def letter : String :=
  "Dear \x7b\x7b@user.name\x7d\x7d, \\\x7b\x7bx\x7d\x7d" ++
    "\x7b\x7b#if (eq @index \"@no\")\x7d\x7d!\x7b\x7b/if\x7d\x7d"

theorem Orderly.tag_of_isTidy {inner : List Char} (free : '\x7d' ∉ inner)
    (read : (readTag? ('\x7b' :: '\x7b' :: (inner ++ ['\x7d', '\x7d']) ++ rest)).map
      (fun p => (p.1.content.isTidy, p.2)) = some (true, rest)) (behind : Orderly rest) :
    Orderly ('\x7b' :: '\x7b' :: (inner ++ ['\x7d', '\x7d']) ++ rest) := by
  obtain ⟨⟨t, r⟩, found, same⟩ := Option.map_eq_some_iff.mp read
  obtain ⟨tidy, rfl⟩ := Prod.mk.inj same
  exact .tag found (.tidy free nofun tidy) behind

theorem orderly_letter : Orderly letter.toList := by
  let tag (inner : String) : List Char :=
    '\x7b' :: '\x7b' :: (inner.toList ++ ['\x7d', '\x7d'])
  have spelled : letter.toList = "Dear ".toList ++ (tag "@user.name" ++
      (", \\\x7b\x7bx\x7d\x7d".toList ++ (tag "#if (eq @index \"@no\")" ++
        ("!".toList ++ (tag "/if" ++ []))))) := by decide +kernel
  rw [spelled]
  refine .text (by decide +kernel) (by decide +kernel) (by decide +kernel) (by decide +kernel) ?_
  refine .tag_of_isTidy (by decide +kernel) (by decide +kernel) ?_
  refine .text (by decide +kernel) (by decide +kernel) (by decide +kernel) (by decide +kernel) ?_
  refine .tag_of_isTidy (by decide +kernel) (by decide +kernel) ?_
  refine .text (by decide +kernel) (by decide +kernel) (by decide +kernel) (by decide +kernel) ?_
  exact .tag_of_isTidy (by decide +kernel) (by decide +kernel) .nil

theorem pieces?_redirectAll_letter : Orderly letter.toList ∧
    Redirected letter.toList (redirectAll letter).toList ∧
      ∃ ps, pieces? letter.toList = some ps ∧
        pieces? (redirectAll letter).toList = some (ps.map Piece.redirect) :=
  ⟨orderly_letter, pieces?_redirectAll orderly_letter⟩

example : redirectAll letter =
    "Dear \x7b\x7b@root.__dotprompt_ctx.user.name\x7d\x7d, \\\x7b\x7bx\x7d\x7d" ++
      "\x7b\x7b#if (eq @index \"@no\")\x7d\x7d!\x7b\x7b/if\x7d\x7d" := by decide +kernel

/-! ### Templates that are not orderly -/

/-- A template of nothing but a text. -/
theorem pieces?_text {body : List Char} (ne : cs ≠ []) (goesOn : opensTag cs = false)
    (read : readText opensTag cs [] cs = (body, [])) : pieces? cs = some [.text body] := by
  have next : nextPieces? cs = some ([.text body], []) := by rw [nextPieces?_text goesOn, read]
  rw [pieces?_next ne next]
  rfl

/-- The template `\{{@state}}`. The braces are text, but the search does not look at what is in
front of them. -/
def escapedReference : String := "\\\x7b\x7b@state\x7d\x7d"

theorem redirectAll_escapedReference :
    pieces? escapedReference.toList = some [.text "\x7b\x7b@state\x7d\x7d".toList] ∧
      pieces? (redirectAll escapedReference).toList =
        some [.text "\x7b\x7b@root.__dotprompt_ctx.state\x7d\x7d".toList] :=
  ⟨pieces?_text (by decide +kernel) (by decide +kernel) (by decide +kernel),
    pieces?_text (by decide +kernel) (by decide +kernel) (by decide +kernel)⟩

example : redirectAll "\x7b\x7b#if (eq @a \"\x7d\")\x7d\x7dy\x7b\x7b/if\x7d\x7d" =
    "\x7b\x7b#if (eq @a \"\x7d\")\x7d\x7dy\x7b\x7b/if\x7d\x7d" := by decide +kernel

end Promptry.Template
