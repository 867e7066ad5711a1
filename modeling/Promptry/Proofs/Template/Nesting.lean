import Promptry.Template.Tree

/-!
What a template's compiling comes to, by the contents of its tags alone: neither the texts between
them nor the blanks around them count, nor whether the end of the template ends a line. A stack of
frames keeps of the open blocks what their closing tags need. Main statements: `contents_placed` and
`compile_verdict`.
-/

namespace Promptry.Template

/-- The contents of the tags among some pieces. -/
def contents (pieces : List Piece) : List Content :=
  pieces.filterMap fun
    | .text _ => none
    | .tag t => some t.content

namespace Part

/-- The content of a part, if it is a tag. -/
def content? : Part → Option Content
  | .text _ => none
  | .tag c _ => some c

end Part

/-! ### Blanks -/

namespace Placing

theorem content?_mapLast (f : List Char → List Char) (parts : List Part) :
    (mapLast f parts).filterMap Part.content? = parts.filterMap Part.content? := by
  rw [mapLast.eq_def]
  split <;> rfl

theorem content?_text (s : Placing) (cs : List Char) :
    (s.text cs).parts.filterMap Part.content? = s.parts.filterMap Part.content? := by
  rw [text]
  split <;> rfl

theorem content?_ite (changes : Bool) (f : List Char → List Char) (parts : List Part) :
    (if changes then mapLast f parts else parts).filterMap Part.content? =
      parts.filterMap Part.content? := by
  split
  · exact content?_mapLast f parts
  · rfl

theorem content?_tag (closed : Bool) (s : Placing) (t : Tag) (next : Option (List Char))
    (last : Bool) : (s.tag closed t next last).parts.filterMap Part.content? =
      t.content :: s.parts.filterMap Part.content? := by
  cases shows : t.content.showsValue with
  | true => simp only [tag, shows, if_true, List.filterMap_cons, Part.content?, content?_ite]
  | false =>
    simp only [tag, shows, Bool.false_eq_true, if_false, List.filterMap_cons, Part.content?,
      content?_ite]

theorem content?_run (closed : Bool) (s : Placing) (pieces : List Piece) :
    (run closed s pieces).filterMap Part.content? =
      (s.parts.filterMap Part.content?).reverse ++ contents pieces := by
  induction pieces generalizing s with
  | nil => simp [run, contents, List.filterMap_reverse]
  | cons piece rest ih =>
    cases piece with
    | text cs => exact (ih _).trans (by rw [content?_text]; rfl)
    | tag t =>
      refine (ih _).trans ?_
      rw [content?_tag, List.reverse_cons, List.append_assoc]
      rfl

end Placing

/-- Settling the blanks keeps the tags. -/
theorem contents_placed (closed : Bool) (pieces : List Piece) :
    (placed closed pieces).filterMap Part.content? = contents pieces :=
  Placing.content?_run closed {} pieces

/-! ### Blocks -/

/-- Whether all blocks opened are closed in turn. -/
def nested (opened : List Opened) : List Content → Bool
  | [] => opened.isEmpty
  | c :: rest =>
      match openedAfter? opened c with
      | some opened => nested opened rest
      | none => false

theorem wellNested_eq (opened : List Opened) (parts : List Part) :
    wellNested opened parts = nested opened (parts.filterMap Part.content?) := by
  induction parts generalizing opened with
  | nil => rfl
  | cons part rest ih =>
    cases part with
    | text cs => exact ih opened
    | tag c line =>
      show _ = nested opened (c :: rest.filterMap Part.content?)
      rw [wellNested, nested]
      cases openedAfter? opened c with
      | some opened => exact ih opened
      | none => rfl

/-- An open block as its closing tag sees it. The name it was opened by counts as that of the
closing tag in a last branch that no other one came before, which no template has. -/
structure Frame where
  kind : Opened
  opened : String → String

namespace Frame

/-- Why a block of a kind is not closed by another name. -/
def mismatch (kind : Opened) (opened closing : String) : CompileError :=
  match kind with
  | .block => .helperMismatch opened closing
  | .lastBranch => .helperMismatch opened closing
  | .decorator => .decoratorMismatch opened closing
  | .inclusion => .decoratorMismatch opened closing

/-- What closing a block by a name comes to. -/
def close (f : Frame) (name : String) : Except CompileError Unit :=
  if f.opened name = name then .ok () else .error (mismatch f.kind (f.opened name) name)

end Frame

/-- The frames behind a tag. -/
def framesAfter (frames : List Frame) (c : Content) : Except CompileError (List Frame) :=
  match c, frames with
  | .value _, _ => .ok frames
  | .call _, _ => .ok frames
  | .decorator _, _ => .ok frames
  | .inclusion _ _, _ => .ok frames
  | .comment, _ => .ok frames
  | .blockOpen h, _ => .ok (⟨.block, fun _ => h.name⟩ :: frames)
  | .decoratorOpen h, _ => .ok (⟨.decorator, fun _ => h.name⟩ :: frames)
  | .inclusionOpen name _, _ => .ok (⟨.inclusion, fun _ => exprName name⟩ :: frames)
  | .chain _, ⟨.block, _⟩ :: _ => .ok frames
  | .otherwise, ⟨.block, opened⟩ :: outer => .ok (⟨.lastBranch, opened⟩ :: outer)
  | .close name, f :: outer => (f.close name).map fun _ => outer
  | _, _ => .error .malformed

/-- What the tags of a template come to: its first invalid parameter or the first block that is not
closed by its own name, if there is one. -/
def settle (frames : List Frame) : List Content → Except CompileError Unit
  | [] => .ok ()
  | c :: rest =>
      match c.invalid? with
      | some text => .error (.invalidParameter text)
      | none => do settle (← framesAfter frames c) rest

/-- What the tags of a template come to. -/
def verdict (cs : List Content) : Except CompileError Unit :=
  if nested [] cs then settle [] cs else .error .malformed

namespace Pending

/-- The frame of a block that is being put together. -/
def frame : Pending → Frame
  | .block done head _ _ => ⟨.block, fun _ => firstName head.name done⟩
  | .lastBranch done _ => ⟨.lastBranch, fun name => firstName name done⟩
  | .decorator head _ => ⟨.decorator, fun _ => head.name⟩
  | .inclusion name _ _ _ => ⟨.inclusion, fun _ => exprName name⟩

end Pending

theorem closePending_frame (name : String) (p : Pending) (here : List Element) :
    (closePending name p here).map (fun _ => ()) = p.frame.close name := by
  cases p <;>
  · dsimp only [closePending, Pending.frame, Frame.close]
    split <;> rfl

theorem assemble_settle (pending : List Pending) (here : List Element) (parts : List Part) :
    (assemble pending here parts).map (fun _ => ()) =
      settle (pending.map Pending.frame) (parts.filterMap Part.content?) := by
  induction parts generalizing pending here with
  | nil => rfl
  | cons part rest ih =>
    cases part with
    | text cs => exact ih _ _
    | tag c line =>
      show _ = settle _ (c :: rest.filterMap Part.content?)
      rw [assemble.eq_def, settle]
      dsimp only
      cases c.invalid? with
      | some text => rfl
      | none =>
        cases c with
        | value => exact ih _ _
        | call => exact ih _ _
        | decorator => exact ih _ _
        | inclusion => exact ih _ _
        | comment => exact ih _ _
        | blockOpen => exact ih (_ :: _) _
        | decoratorOpen => exact ih (_ :: _) _
        | inclusionOpen => exact ih (_ :: _) _
        | chain h =>
          cases pending with
          | nil => rfl
          | cons p outer =>
            cases p with
            | block done h fresh before => exact ih (_ :: _) _
            | _ => rfl
        | otherwise =>
          cases pending with
          | nil => rfl
          | cons p outer =>
            cases p with
            | block done h fresh before => exact ih (_ :: _) _
            | _ => rfl
        | close name =>
          cases pending with
          | nil => rfl
          | cons p outer =>
            have closed := closePending_frame name p here
            rw [List.map_cons, framesAfter, ← closed]
            dsimp only
            cases closePending name p here with
            | ok here => exact ih _ _
            | error err => rfl

/-- What a template comes to is what its tags come to. -/
theorem ofParts_verdict (parts : List Part) :
    (ofParts parts).map (fun _ => ()) = verdict (parts.filterMap Part.content?) := by
  rw [ofParts, verdict, wellNested_eq]
  split
  · exact assemble_settle [] [] parts
  · rfl

/-- Whether a template compiles, and why it does not, lies in the contents of its tags. -/
theorem compile_verdict (closed : Bool) (source : String) :
    (compile closed source).map (fun _ => ()) = match pieces? source.toList with
      | none => .error .malformed
      | some pieces => verdict (contents pieces) := by
  rw [compile]
  cases pieces? source.toList with
  | none => rfl
  | some pieces =>
    dsimp only
    rw [← contents_placed closed pieces]
    exact ofParts_verdict _

end Promptry.Template
