import Promptry.Proofs.Template.Alike.Content

/-!
Tags with references redirected: they are read alike up to their contents, whatever their braces.
Main statement: `readTag?_alike`.
-/

namespace Promptry.Template

open DataVariables

variable {cs cs' r r' : List Char}

/-! ### Marks -/

theorem tilde_of_ne (ne : ∀ r, skipGap cs ≠ '~' :: r) : tilde cs = (false, skipGap cs) := by
  rw [tilde]
  split
  · next r same => exact absurd same (ne r)
  · rfl

theorem tilde_leaves (h : Redirected cs cs') :
    (tilde cs').1 = (tilde cs).1 ∧ Leaves cs cs' (tilde cs).2 (tilde cs').2 := by
  have gap := Leaves.skipGap h
  rcases gap.rest.head_cases '~' (by decide) with ⟨s, s', mark, mark', rest⟩ | ⟨ne, ne'⟩
  · rw [mark, mark'] at gap
    rw [tilde, tilde, mark, mark']
    exact ⟨rfl, gap.trans ((Leaves.tail rest).trans (.skipGap rest))⟩
  · rw [tilde_of_ne ne, tilde_of_ne ne']
    exact ⟨rfl, gap⟩

/-- The end of a tag that ends with some braces. -/
def endBraces? (braces : List Char) : Reader Bool := fun cs =>
  if braces.isPrefixOf (tilde cs).2 then some ((tilde cs).1, (tilde cs).2.drop braces.length)
  else none

theorem endBraces?_of_mark {braces s : List Char} (mark : (tilde cs).2 = braces ++ s) :
    endBraces? braces cs = some ((tilde cs).1, s) := by
  rw [endBraces?, mark, if_pos (isPrefixOf_append braces s), List.drop_left]

theorem endBraces?_of_ne {braces : List Char} (other : ∀ s, (tilde cs).2 ≠ braces ++ s) :
    endBraces? braces cs = none := by
  rw [endBraces?, isPrefixOf_of_ne other]
  rfl

theorem endBraces?_alike {braces : List Char} (ne : braces ≠ []) (plain : '@' ∉ braces)
    (h : Redirected cs cs') :
    ReadsAlike Eq cs cs' (endBraces? braces cs) (endBraces? braces cs') := by
  obtain ⟨same, left⟩ := tilde_leaves h
  rcases left.rest.prefix_cases braces plain with ⟨s, s', mark, mark', rest⟩ | ⟨other, other'⟩
  · rw [endBraces?_of_mark mark, endBraces?_of_mark mark', same]
    rw [mark, mark'] at left
    have some := List.length_pos_iff.mpr ne
    have whole := left.length_le
    rw [List.length_append] at whole
    exact .read rfl (left.trans (.behind braces rest)) (by omega)
  · rw [endBraces?_of_ne other, endBraces?_of_ne other']
    exact .refused

theorem endTag?_eq (cs : List Char) : endTag? cs = endBraces? ['\x7d', '\x7d'] cs := by
  rw [endTag?.eq_def]
  split
  · next trims s same => rw [endBraces?_of_mark (congrArg Prod.snd same), same]
  · next other => rw [endBraces?_of_ne fun s same => other _ s (Prod.ext rfl same)]

theorem endTag?_alike (h : Redirected cs cs') :
    ReadsAlike Eq cs cs' (endTag? cs) (endTag? cs') := by
  rw [endTag?_eq, endTag?_eq]
  exact endBraces?_alike nofun (by decide) h

theorem endRawTag?_eq (cs : List Char) :
    endRawTag? cs = endBraces? ['\x7d', '\x7d', '\x7d', '\x7d'] cs := by
  rw [endRawTag?.eq_def]
  split
  · next trims s same => rw [endBraces?_of_mark (congrArg Prod.snd same), same]
  · next other => rw [endBraces?_of_ne fun s same => other _ s (Prod.ext rfl same)]

theorem endRawTag?_alike (h : Redirected cs cs') :
    ReadsAlike Eq cs cs' (endRawTag? cs) (endRawTag? cs') := by
  rw [endRawTag?_eq, endRawTag?_eq]
  exact endBraces?_alike nofun (by decide) h

/-! ### Tags -/

/-- A tag with the same content, up to what was put in. -/
def TagAlike (t t' : Tag) : Prop := ContentAlike t.content t'.content

/-- A tag that ends a branch, behind its mark. -/
def branch? (trimsBefore : Bool) : Reader Tag := fun cs =>
  match endTag? cs with
  | some (after, r) => some (⟨.otherwise, trimsBefore, after⟩, r)
  | none => do
    let (h, r) ← head? cs
    let (after, r) ← endTag? r
    some (⟨.chain h, trimsBefore, after⟩, r)

theorem branch?_alike (before before' : Bool) (h : Redirected cs cs') :
    ReadsAlike TagAlike cs cs' (branch? before cs) (branch? before' cs') := by
  rw [branch?, branch?]
  rcases (endTag?_alike h).cases with
    ⟨none, none'⟩ | ⟨after, after', r, r', read, read', -, left, shorter⟩
  · rw [none, none']
    refine (head?_alike h).bind fun head head' r r' same left shorter => .behind left ?_
    exact (endTag?_alike left.rest).bind fun _ _ _ _ _ left shorter =>
      .read (.chain same) left shorter
  · rw [read, read']
    exact .read .otherwise left shorter

theorem branchTag?_of_ne (before : Bool) (ne : ∀ r, cs ≠ ['e', 'l', 's', 'e'] ++ r)
    (ne' : ∀ r, cs ≠ '^' :: r) : branchTag? before cs = none := by
  rw [branchTag?]
  · rfl
  · exact ne
  · exact ne'

theorem branchTag?_alike (before before' : Bool) (h : Redirected cs cs') :
    ReadsAlike TagAlike cs cs' (branchTag? before cs) (branchTag? before' cs') := by
  rcases h.prefix_cases ['e', 'l', 's', 'e'] (by decide) with
    ⟨r, r', rfl, rfl, rest⟩ | ⟨ne, ne'⟩
  · exact .behind (.behind _ rest) (branch?_alike before before' rest)
  · rcases h.head_cases '^' (by decide) with ⟨r, r', rfl, rfl, rest⟩ | ⟨other, other'⟩
    · exact .behind (.tail rest) (branch?_alike before before' rest)
    · rw [branchTag?_of_ne before ne other, branchTag?_of_ne before' ne' other']
      exact .refused

/-! ### Comments -/

theorem behind?_of_ne {mark : List Char} {c : Char} (other : ∀ s, c :: r ≠ mark ++ s) :
    behind? mark (c :: r) = behind? mark r := by
  rw [behind?, isPrefixOf_of_ne other]
  rfl

theorem behind?_of_mark {mark : List Char} {c : Char} {s : List Char}
    (spelled : c :: r = mark ++ s) : behind? mark (c :: r) = some s := by
  rw [behind?, spelled, if_pos (isPrefixOf_append mark s), List.drop_left]

/-- Over a stretch that does not hold the first character of the mark. -/
theorem behind?_over {d : Char} {mark w : List Char} (absent : d ∉ w) (r : List Char) :
    behind? (d :: mark) (w ++ r) = behind? (d :: mark) r := by
  induction w with
  | nil => rfl
  | cons c w ih =>
    obtain ⟨ne, absent⟩ := List.ne_and_not_mem_of_not_mem_cons absent
    rw [List.cons_append, behind?_of_ne fun s same => ne.symm (List.cons.inj same).1, ih absent]

section

variable {α β : Type} {alike : α → β → Prop} {a : α} {b : β} (same : alike a b)
include same

theorem behind?_alike {d : Char} {mark : List Char} (plain : '@' ∉ d :: mark)
    (absent : d ∉ '@' :: redirection) (h : Redirected cs cs') :
    ReadsAlike alike cs cs' ((behind? (d :: mark) cs).map fun r => (a, r))
      ((behind? (d :: mark) cs').map fun r => (b, r)) := by
  induction h with
  | nil => exact .refused
  | @splice r r' here rest ih =>
    rw [← List.cons_append, behind?_over absent, behind?_of_ne]
    · exact .behind (.splice rest) ih
    · rintro s starts
      exact absent ((List.cons.inj starts).1 ▸ List.mem_cons_self)
  | @cons c r r' rest ih =>
    rcases (Spliced.cons c rest).prefix_cases (d :: mark) plain with
      ⟨s, s', spelled, spelled', behind⟩ | ⟨other, other'⟩
    · rw [behind?_of_mark spelled, behind?_of_mark spelled', spelled, spelled']
      exact .read same (.behind _ behind) (by rw [List.length_append, List.length_cons]; omega)
    · rw [behind?_of_ne other, behind?_of_ne other']
      exact .behind (.tail rest) ih

/-- The rest behind a comment in its long form. -/
def longComment? (cs : List Char) : Option (List Char) :=
  match skipGap cs with
  | '-' :: '-' :: r => behind? ['-', '-', '\x7d', '\x7d'] r
  | _ => none

omit same in
theorem longComment?_of_ne (ne : ∀ r, skipGap cs ≠ ['-', '-'] ++ r) : longComment? cs = none := by
  rw [longComment?]
  split
  · next r same => exact absurd same (ne r)
  · rfl

omit same in
theorem comment?_map (a : α) (cs : List Char) : ((comment? cs).map fun r => (a, r)) =
    ((longComment? cs).map fun r => (a, r)).orElse fun _ =>
      (behind? ['\x7d', '\x7d'] cs).map fun r => (a, r) := by
  have either : comment? cs =
    (longComment? cs).orElse fun _ => behind? ['\x7d', '\x7d'] cs := rfl
  rw [either]
  cases longComment? cs <;> rfl

theorem comment?_alike (h : Redirected cs cs') :
    ReadsAlike alike cs cs' ((comment? cs).map fun r => (a, r))
      ((comment? cs').map fun r => (b, r)) := by
  rw [comment?_map, comment?_map]
  refine TakesAlike.orElse ?_ (behind?_alike same (by decide) (by decide) h)
  have gap := Leaves.skipGap h
  rcases gap.rest.prefix_cases ['-', '-'] (by decide) with
    ⟨r, r', mark, mark', rest⟩ | ⟨ne, ne'⟩
  · rw [longComment?, longComment?, mark, mark']
    rw [mark, mark'] at gap
    exact .behind (gap.trans (.behind _ rest)) (behind?_alike same (by decide) (by decide) rest)
  · rw [longComment?_of_ne ne, longComment?_of_ne ne']
    exact .refused

end

/-! ### Braces -/

/-- A value between three braces, behind the first tilde. -/
def tripleInside? (before : Bool) : Reader Tag := fun cs =>
  (shown? cs).bind fun (c, r) =>
    (endBraces? ['\x7d', '\x7d', '\x7d'] r).map fun (after, r) => (⟨c, before, after⟩, r)

theorem tripleTag?_eq (cs : List Char) :
    tripleTag? cs = tripleInside? (tilde cs).1 (tilde cs).2 := by
  rw [tripleTag?, tripleInside?]
  generalize tilde cs = marks
  obtain ⟨before, s⟩ := marks
  refine congrArg (Option.bind (shown? s)) (funext fun (c, r) => ?_)
  dsimp only
  split
  · next after rest same =>
    rw [endBraces?_of_mark (congrArg Prod.snd same), same]
    rfl
  · next other =>
    rw [endBraces?_of_ne fun s same => other _ s (Prod.ext rfl same)]
    rfl

theorem tripleTag?_alike (h : Redirected cs cs') :
    ReadsAlike TagAlike cs cs' (tripleTag? cs) (tripleTag? cs') := by
  obtain ⟨-, left⟩ := tilde_leaves h
  rw [tripleTag?_eq, tripleTag?_eq]
  refine .behind left ((shown?_alike left.rest).bind fun c c' r r' same left _ => .behind left ?_)
  exact (endBraces?_alike (List.cons_ne_nil _ _) (by decide) left.rest).map
    fun _ _ _ _ _ => ⟨rfl, rfl, same⟩

theorem rawOpenTag?_of_ne (ne : ∀ r, cs ≠ ['\x7b', '\x7b', '\x7b', '\x7b'] ++ r) :
    rawOpenTag? cs = none := by
  rw [rawOpenTag?.eq_def]
  split
  · next r => exact absurd rfl (ne r)
  · rfl

theorem rawCloseTag?_of_ne (ne : ∀ r, cs ≠ ['\x7b', '\x7b', '\x7b', '\x7b'] ++ r) :
    rawCloseTag? cs = none := by
  rw [rawCloseTag?.eq_def]
  split
  · next r => exact absurd rfl (ne r)
  · rfl

theorem rawOpenTag?_alike (h : Redirected cs cs') :
    ReadsAlike TagAlike cs cs' (rawOpenTag? cs) (rawOpenTag? cs') := by
  rcases h.prefix_cases ['\x7b', '\x7b', '\x7b', '\x7b'] (by decide) with
    ⟨r, r', rfl, rfl, rest⟩ | ⟨ne, ne'⟩
  · obtain ⟨-, left⟩ := tilde_leaves rest
    refine .behind ((Leaves.behind _ rest).trans left) ?_
    refine (head?_alike left.rest).bind fun head head' r r' same left _ => .behind left ?_
    exact (endRawTag?_alike left.rest).bind fun _ _ _ _ _ left shorter =>
      .read (.blockOpen same) left shorter
  · rw [rawOpenTag?_of_ne ne, rawOpenTag?_of_ne ne']
    exact .refused

/-- The name in a tag with four braces that closes a block, behind its slash. -/
def rawClosing? (before : Bool) : Reader Tag := fun cs =>
  (word? cs).bind fun (name, r) =>
    (endRawTag? r).bind fun (after, r) => some (⟨.close name, before, after⟩, r)

/-- The rest behind a slash. -/
def afterSlash? (cs : List Char) : Option (List Char) :=
  match cs with
  | '/' :: r => some (skipGap r)
  | _ => none

theorem rawCloseTag?_braces (r : List Char) :
    rawCloseTag? (['\x7b', '\x7b', '\x7b', '\x7b'] ++ r) =
      (afterSlash? (tilde r).2).bind (rawClosing? (tilde r).1) := rfl

theorem afterSlash?_of_ne (ne : ∀ r, cs ≠ '/' :: r) : afterSlash? cs = none := by
  rw [afterSlash?.eq_def]
  split
  · next r => exact absurd rfl (ne r)
  · rfl

theorem rawCloseTag?_alike (h : Redirected cs cs') :
    ReadsAlike TagAlike cs cs' (rawCloseTag? cs) (rawCloseTag? cs') := by
  rcases h.prefix_cases ['\x7b', '\x7b', '\x7b', '\x7b'] (by decide) with
    ⟨r, r', rfl, rfl, rest⟩ | ⟨ne, ne'⟩
  · obtain ⟨-, left⟩ := tilde_leaves rest
    have left := (Leaves.behind ['\x7b', '\x7b', '\x7b', '\x7b'] rest).trans left
    rcases left.rest.head_cases '/' (by decide) with ⟨s, s', slash, slash', below⟩ | ⟨ne, ne'⟩
    · rw [rawCloseTag?_braces, rawCloseTag?_braces, slash, slash', afterSlash?, afterSlash?,
        Option.bind_some, Option.bind_some]
      rw [slash, slash'] at left
      have gap := Leaves.skipGap below
      refine .behind (left.trans ((Leaves.tail below).trans gap)) ?_
      rcases (word?_alike gap.rest).cases with
        ⟨none, none'⟩ | ⟨name, name', t, t', word, word', same, behind, -⟩
      · rw [rawClosing?, rawClosing?, none, none']
        exact .refused
      · cases same
        rw [rawClosing?, rawClosing?, word, word']
        exact .behind behind ((endRawTag?_alike behind.rest).bind fun _ _ _ _ _ left shorter =>
          .read (.close (isPartialName_of_word? word) (.refl _)) left shorter)
    · rw [rawCloseTag?_braces, rawCloseTag?_braces, afterSlash?_of_ne ne, afterSlash?_of_ne ne']
      exact .refused
  · rw [rawCloseTag?_of_ne ne, rawCloseTag?_of_ne ne']
    exact .refused

/-! ### Any tag -/

/-- A tag that ends no branch, behind its opening braces and tilde. -/
def plainTag? (before : Bool) : Reader Tag := fun cs =>
  (content? cs).bind fun (c, r) => (endTag? r).bind fun (after, r) => some (⟨c, before, after⟩, r)

/-- A tag with three braces, or a comment, behind two braces. -/
def otherTag? : Reader Tag := fun cs =>
  match cs with
  | '\x7b' :: r => tripleTag? r
  | _ =>
    match skipGap cs with
    | '!' :: r => (comment? r).map fun rest => (⟨.comment, false, false⟩, rest)
    | _ => none

theorem readTag?_of_ne (ne : ∀ r, cs ≠ ['\x7b', '\x7b'] ++ r) : readTag? cs = none := by
  rw [readTag?.eq_def]
  split
  · next r => exact absurd rfl (ne r)
  · rfl

theorem plainTag?_alike (before before' : Bool) (h : Redirected cs cs') :
    ReadsAlike TagAlike cs cs' (plainTag? before cs) (plainTag? before' cs') :=
  (content?_alike h).bind fun _ _ _ _ same left _ => .behind left <|
    (endTag?_alike left.rest).bind fun _ _ _ _ _ left shorter => .read same left shorter

theorem otherTag?_of_ne (ne : ∀ r, cs ≠ '\x7b' :: r) (ne' : ∀ r, skipGap cs ≠ '!' :: r) :
    otherTag? cs = none := by
  rw [otherTag?.eq_def]
  split
  · next r => exact absurd rfl (ne r)
  · split
    · next r same => exact absurd same (ne' r)
    · rfl

theorem otherTag?_of_mark (ne : ∀ r, cs ≠ '\x7b' :: r) (mark : skipGap cs = '!' :: r) :
    otherTag? cs = (comment? r).map fun rest => (⟨.comment, false, false⟩, rest) := by
  rw [otherTag?.eq_def]
  split
  · next r => exact absurd rfl (ne r)
  · rw [mark]
    rfl

theorem otherTag?_alike (h : Redirected cs cs') :
    ReadsAlike TagAlike cs cs' (otherTag? cs) (otherTag? cs') := by
  rcases h.head_cases '\x7b' (by decide) with ⟨r, r', rfl, rfl, rest⟩ | ⟨ne, ne'⟩
  · exact .behind (.tail rest) (tripleTag?_alike rest)
  · have gap := Leaves.skipGap h
    rcases gap.rest.head_cases '!' (by decide) with ⟨r, r', mark, mark', rest⟩ | ⟨other, other'⟩
    · rw [otherTag?_of_mark ne mark, otherTag?_of_mark ne' mark']
      rw [mark, mark'] at gap
      have same : TagAlike ⟨.comment, false, false⟩ ⟨.comment, false, false⟩ := ContentAlike.comment
      exact .behind (gap.trans (.tail rest)) (comment?_alike same rest)
    · rw [otherTag?_of_ne ne other, otherTag?_of_ne ne' other']
      exact .refused

/-- A tag is read alike. -/
theorem readTag?_alike (h : Redirected cs cs') :
    ReadsAlike TagAlike cs cs' (readTag? cs) (readTag? cs') := by
  rcases h.prefix_cases ['\x7b', '\x7b'] (by decide) with ⟨r, r', rfl, rfl, rest⟩ | ⟨ne, ne'⟩
  · obtain ⟨-, left⟩ := tilde_leaves rest
    refine .behind (.behind _ rest) ?_
    exact (TakesAlike.behind left (branchTag?_alike _ _ left.rest)).orElse <|
      (TakesAlike.behind left (plainTag?_alike _ _ left.rest)).orElse (otherTag?_alike rest)
  · rw [readTag?_of_ne ne, readTag?_of_ne ne']
    exact .refused

end Promptry.Template
