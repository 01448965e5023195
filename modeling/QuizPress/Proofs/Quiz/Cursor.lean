import QuizPress.Proofs.Quiz.Run

/-! A document half read. What is read next changes the builder and the open elements, and the rest
of the document is read from there. -/
namespace QuizPress.Quiz
open Text Xml

namespace Builder

/-- The scopes have no part in the meaning of a start tag. -/
theorem openElement_scopes (b : Builder) (scopes : List Scope) (element : Element)
    (attributes : Attributes) :
    ({ b with scopes } : Builder).openElement element attributes =
      (b.openElement element attributes).map fun b => { b with scopes } := by
  obtain ⟨quiz, nodes, _⟩ := b
  cases element with
  | quiz => cases quiz <;> rfl
  | discussion | question => cases quiz <;> cases nodes <;> rfl
  | choice | answer =>
    rcases nodes with _ | ⟨node, outer⟩
    · rfl
    · cases node with
      | question text body => cases body <;> rfl
      | _ => rfl
  | item =>
    rcases nodes with _ | ⟨node, outer⟩
    · rfl
    · cases node with
      | choice c =>
        simp only [openElement, openItem]
        split <;> rfl
      | _ => rfl
  | _ => rfl

/-- The scopes have no part in the meaning of an end tag but by their text. -/
theorem closeElement_scopes (b : Builder) (scopes : List Scope) (element : Element) (text : String) :
    ({ b with scopes } : Builder).closeElement element text =
      (b.closeElement element text).map fun b => { b with scopes } := by
  obtain ⟨quiz, nodes, _⟩ := b
  cases element with
  | discussion =>
    rcases nodes with _ | ⟨node, outer⟩
    · rfl
    · cases node <;> cases quiz <;> rfl
  | question =>
    rcases nodes with _ | ⟨node, outer⟩
    · rfl
    · cases node with
      | question text body => cases body <;> cases quiz <;> rfl
      | _ => rfl
  | choice | answer =>
    rcases nodes with _ | ⟨node, _ | ⟨around, outer⟩⟩
    · rfl
    · cases node <;> rfl
    · cases node <;> cases around <;> rfl
  | item =>
    rcases nodes with _ | ⟨node, _ | ⟨around, outer⟩⟩
    · rfl
    · cases node <;> rfl
    · cases node <;> cases around <;> rfl
  | text | tag | response | whenRight | whenWrong => cases nodes <;> rfl
  | _ => rfl

end Builder

/-- What is open in a document that is half read, and the builder that has taken its events. -/
structure Cursor where
  opened : List (List Glyph)
  builder : Builder

namespace Cursor

def outcome (c : Cursor) (size : Nat) (rest : List Glyph) : Except ParseError Quiz :=
  c.builder.resume (readFrom size c.opened rest)

def told (c : Cursor) (text : String) : Cursor := { c with builder := c.builder.characters text }

theorem told_told (c : Cursor) (s t : String) : (c.told s).told t = c.told (s ++ t) := by
  simp [told, Builder.characters_append]

theorem told_empty (c : Cursor) : c.told "" = c := by
  simp [told, Builder.characters_empty]

theorem outcome_nil (c : Cursor) (size : Nat) : c.outcome size [] = c.builder.finish := by
  rw [outcome, readFrom]
  rfl

/-- What becomes of a document `whole` whose first piece is read, if `rest` stands behind it. -/
def behind (c : Cursor) (size : Nat) (whole rest : List Glyph) : Piece → Except ParseError Quiz
  | .passive => c.outcome size rest
  | .text content =>
    match strict? content with
    | some content => (c.told content).outcome size rest
    | none => .error (.xml .badEncoding)
  | .reference name =>
    match strict? name with
    | some name => (c.told (.ofList (expansion name.toList))).outcome size rest
    | none => .error (.xml .badEncoding)
  | .opening content =>
    match readOpening c.opened content with
    | .ok (event, opened) => c.builder.step event >>= fun b => outcome ⟨opened, b⟩ size rest
    | .error fault => .error (.xml fault)
  | .closing content =>
    match readClosing c.opened content with
    | .ok (event, opened) => c.builder.step event >>= fun b => outcome ⟨opened, b⟩ size rest
    | .error flaw => .error (.xml (.malformed (size - width whole) flaw))

/-- The rest of a document means what its first piece means, and then what stands behind it. -/
theorem outcome_cons (c : Cursor) (size : Nat) {g : Glyph} {gs rest : List Glyph} {piece : Piece}
    (h : cutPiece g gs = .ok (piece, rest)) :
    c.outcome size (g :: gs) = c.behind size (g :: gs) rest piece := by
  rw [outcome, readFrom]
  split
  · rename_i he
    rw [h] at he
    cases he
  · rename_i he
    rw [h] at he
    cases he
    cases piece with
    | passive => rfl
    | text content =>
      cases hs : strict? content with
      | none => simp only [behind, hs]; rfl
      | some s => simp only [behind, hs, Builder.resume_cons]; rfl
    | reference name =>
      cases hs : strict? name with
      | none => simp only [behind, hs]; rfl
      | some s => simp only [behind, hs, Builder.resume_cons]; rfl
    | opening content =>
      cases hr : readOpening c.opened content with
      | error fault => simp only [behind, hr]; rfl
      | ok r => simp only [behind, hr, Builder.resume_cons]; rfl
    | closing content =>
      cases hr : readClosing c.opened content with
      | error flaw => simp only [behind, hr]; rfl
      | ok r => simp only [behind, hr, Builder.resume_cons]; rfl

theorem outcome_snag (c : Cursor) (size : Nat) {g : Glyph} {gs : List Glyph} {snag : Snag}
    (h : cutPiece g gs = .error snag) :
    c.outcome size (g :: gs) = .error (.xml (.malformed (size - width snag.remaining) snag.flaw)) := by
  rw [outcome, readFrom]
  split
  · rename_i he
    rw [h] at he
    cases he
    rfl
  · rename_i he
    rw [h] at he
    cases he

private theorem cutPiece_text {g : Glyph} (h : isText g = true) (gs : List Glyph) :
    cutPiece g gs = .ok (.text (g :: gs.takeWhile isText), gs.dropWhile isText) := by
  simp only [isText, Bool.and_eq_true, bne_iff_ne] at h
  rw [cutPiece, if_neg h.1, if_neg h.2]

private theorem strict_cons (ch : Char) (gs : List Glyph) :
    strict? (.char ch :: gs) = (strict? gs).map fun s => .ofList [ch] ++ s := by
  simp only [strict?, List.mapM_cons, Glyph.char?, Option.bind_eq_bind, Option.bind_some]
  cases gs.mapM Glyph.char? with
  | none => rfl
  | some cs => simp

/-- Text can be read one character at a time: where a piece of text ends is of no account. -/
theorem outcome_char (c : Cursor) (size : Nat) {ch : Char} (h : isText (.char ch) = true)
    (rest : List Glyph) :
    c.outcome size (.char ch :: rest) = (c.told (.ofList [ch])).outcome size rest := by
  rw [outcome_cons c size (cutPiece_text h rest), behind, strict_cons]
  cases rest with
  | nil => simp [strict?]
  | cons g gs =>
    by_cases hg : isText g = true
    · rw [outcome_cons _ size (cutPiece_text hg gs), behind]
      simp only [List.takeWhile_cons, List.dropWhile_cons, hg, if_true]
      cases strict? (g :: gs.takeWhile isText) with
      | none => rfl
      | some s => simp only [Option.map_some, told_told]
    · simp [hg, strict?]

/-- Text is told to the builder, whatever stands behind it. -/
theorem outcome_text (c : Cursor) (size : Nat) {s : String}
    (h : ∀ ch ∈ s.toList, isText (.char ch) = true) (rest : List Glyph) :
    c.outcome size (glyphs s ++ rest) = (c.told s).outcome size rest := by
  obtain ⟨cs, rfl⟩ : ∃ cs, s = .ofList cs := ⟨s.toList, String.ofList_toList.symm⟩
  rw [String.toList_ofList] at h
  rw [glyphs_ofList]
  induction cs generalizing c with
  | nil => rw [String.ofList_nil, told_empty]; rfl
  | cons ch cs ih =>
    rw [List.map_cons, List.cons_append, outcome_char c size (h ch (by simp)),
      ih _ fun ch hch => h ch (List.mem_cons_of_mem _ hch), told_told, ← String.ofList_append]
    rfl

private theorem outcome_section (c : Cursor) (size : Nat) {cs : List Char} (h : Uncut cs)
    (rest : List Glyph) :
    c.outcome size (glyphs "<![CDATA[" ++ (cs.map .char ++ (glyphs "]]>" ++ rest))) =
      (c.told (.ofList cs)).outcome size rest := by
  have hm : glyphs "<![CDATA[" = .char '<' :: glyphs "![CDATA[" := rfl
  rw [hm, List.cons_append, outcome_cons c size (cutPiece_section h rest), behind, strict_map_char]

private theorem outcome_split (c : Cursor) (size : Nat) (cs : List Char) (rest : List Glyph) :
    c.outcome size (glyphs "<![CDATA[" ++ ((splitClosers cs).map .char ++ (glyphs "]]>" ++ rest))) =
      (c.told (.ofList cs)).outcome size rest := by
  induction hn : cs.length using Nat.strongRecOn generalizing c cs with
  | _ n ih =>
    rcases splitClosers_cases cs with ⟨he, hu⟩ | ⟨before, after, rfl, hu, he⟩
    · rw [he, outcome_section c size hu]
    · -- the second section begins with the angle bracket of the closer, and is shorter
      have hs : splitClosers ('>' :: after) = '>' :: splitClosers after := splitClosers_cons (by simp)
      have hl : ('>' :: after).length < n := by
        simp only [List.length_append, List.length_cons] at hn ⊢
        omega
      have hb : (before ++ sectionBreak ++ splitClosers after).map Glyph.char ++ (glyphs "]]>" ++ rest) =
          (before ++ [']', ']']).map .char ++ (glyphs "]]>" ++ (glyphs "<![CDATA[" ++
            (('>' :: splitClosers after).map .char ++ (glyphs "]]>" ++ rest)))) := by
        simp [glyphs, sectionBreak_eq]
      rw [he, hb, outcome_section c size hu, ← hs, ih _ hl _ _ rfl, told_told, ← String.ofList_append]
      simp

/-- A CDATA section is told to the builder as the text that was written in it. -/
theorem outcome_cdata (c : Cursor) (size : Nat) (s : String) (rest : List Glyph) :
    c.outcome size (glyphs (cdata s) ++ rest) = (c.told s).outcome size rest := by
  rw [cdata]
  split
  · rename_i he
    rw [String.isEmpty_iff.1 he, told_empty]
    rfl
  · have h := outcome_split c size s.toList rest
    rw [String.ofList_toList] at h
    rw [glyphs_append, glyphs_append, glyphs_ofList (splitClosers s.toList), List.append_assoc,
      List.append_assoc, h]

end Cursor

end QuizPress.Quiz
