import QuizPress.Text.Glyph
import QuizPress.Xml.Attribute
import QuizPress.Xml.Fault

/-! A document cut into pieces: text, references, tags, and what a reader passes over. -/
namespace QuizPress.Xml
open Text

/-- A piece of a document; tags come without their angle brackets. -/
inductive Piece where
  | text (content : List Glyph)
  | reference (name : List Glyph)
  | opening (content : List Glyph)
  | closing (content : List Glyph)
  | passive
deriving DecidableEq, Repr

/-- A flaw and the part of the document that begins with it. -/
structure Snag where
  flaw : Flaw
  remaining : List Glyph
deriving DecidableEq, Repr

def cutAt (mark : List Glyph) : List Glyph → Option (List Glyph × List Glyph)
  | [] => none
  | g :: gs =>
    if mark.isPrefixOf (g :: gs) then some ([], (g :: gs).drop mark.length)
    else (cutAt mark gs).map fun (before, after) => (g :: before, after)

theorem length_of_cutAt {mark gs before after : List Glyph}
    (h : cutAt mark gs = some (before, after)) : after.length ≤ gs.length := by
  induction gs generalizing before with
  | nil => simp [cutAt] at h
  | cons g gs ih =>
    unfold cutAt at h
    split at h
    · cases h
      simp
    · obtain ⟨⟨b, a⟩, hc, he⟩ := Option.map_eq_some_iff.1 h
      cases he
      have := ih hc
      simp only [List.length_cons]
      omega

def quoteAfter (quote : Option Char) (g : Glyph) : Option Char :=
  match quote with
  | none => if g = .char '"' then some '"' else if g = .char '\'' then some '\'' else none
  | some q => if g = .char q then none else some q

def openTag : Option Char → Flaw
  | none => .unclosedTag
  | some q => .unclosedQuote q

/-- The content of a tag and what stands after its bracket; a bracket in quotes is no end. -/
def cutTag (quote : Option Char) : List Glyph → Except Flaw (List Glyph × List Glyph)
  | [] => .error (openTag quote)
  | g :: gs =>
    if quote = none ∧ g = .char '>' then .ok ([], gs)
    else match cutTag (quoteAfter quote g) gs with
      | .ok (content, after) => .ok (g :: content, after)
      | .error flaw => .error flaw

theorem length_of_cutTag {quote : Option Char} {gs content after : List Glyph}
    (h : cutTag quote gs = .ok (content, after)) : after.length < gs.length := by
  induction gs generalizing quote content with
  | nil => cases h
  | cons g gs ih =>
    unfold cutTag at h
    split at h
    · cases h
      simp
    · split at h
      · rename_i hc
        cases h
        exact Nat.lt_succ_of_lt (ih hc)
      · cases h

def after? (mark : String) (gs : List Glyph) : Option (List Glyph) :=
  if (glyphs mark).isPrefixOf gs then some (gs.drop (glyphs mark).length) else none

theorem length_of_after {mark : String} {gs rest : List Glyph} (h : after? mark gs = some rest) :
    rest.length ≤ gs.length := by
  unfold after? at h
  split at h
  · cases h
    simp
  · cases h

/-- What stands after a declaration, comment or instruction of an internal subset, from its
first glyph behind the angle bracket on. Only some declarations hold quotes. -/
def afterDeclaration? (gs : List Glyph) : Option (List Glyph) :=
  if let some rest := after? "!--" gs then (cutAt (glyphs "-->") rest).map (·.2)
  else if let some rest := after? "?" gs then (cutAt (glyphs "?>") rest).map (·.2)
  else if (after? "!ENTITY" gs <|> after? "!ATTLIST" gs <|> after? "!NOTATION" gs).isSome then
    (cutTag none gs).toOption.map (·.2)
  else (cutAt (glyphs ">") gs).map (·.2)

theorem length_of_afterDeclaration {gs rest : List Glyph} (h : afterDeclaration? gs = some rest) :
    rest.length ≤ gs.length := by
  unfold afterDeclaration? at h
  split at h
  · rename_i inner hi
    obtain ⟨⟨b, a⟩, hc, he⟩ := Option.map_eq_some_iff.1 h
    cases he
    exact Nat.le_trans (length_of_cutAt hc) (length_of_after hi)
  · split at h
    · rename_i inner hi
      obtain ⟨⟨b, a⟩, hc, he⟩ := Option.map_eq_some_iff.1 h
      cases he
      exact Nat.le_trans (length_of_cutAt hc) (length_of_after hi)
    · split at h
      · obtain ⟨⟨b, a⟩, hc, he⟩ := Option.map_eq_some_iff.1 h
        cases he
        cases ht : cutTag none gs with
        | error flaw => rw [ht] at hc; cases hc
        | ok r =>
          rw [ht] at hc
          cases hc
          exact Nat.le_of_lt (length_of_cutTag ht)
      · obtain ⟨⟨b, a⟩, hc, he⟩ := Option.map_eq_some_iff.1 h
        cases he
        exact length_of_cutAt hc

def afterSubset? : List Glyph → Option (List Glyph)
  | [] => none
  | g :: gs =>
    if g = .char ']' then some gs
    else if g = .char '<' then
      match h : afterDeclaration? gs with
      | some rest =>
        have := length_of_afterDeclaration h
        afterSubset? rest
      | none => none
    else afterSubset? gs
termination_by gs => gs.length

def endOfDoctype? : Option Char → List Glyph → Option (List Glyph)
  | _, [] => none
  | quote, g :: gs =>
    if quote = none ∧ g = .char '>' then some (g :: gs)
    else if quote = none ∧ g = .char '[' then
      match (afterSubset? gs).map (·.dropWhile (· != .char '>')) with
      | some (g' :: gs') => some (g' :: gs')
      | _ => none
    else endOfDoctype? (quoteAfter quote g) gs

theorem length_of_afterSubset {gs rest : List Glyph} (h : afterSubset? gs = some rest) :
    rest.length ≤ gs.length := by
  fun_induction afterSubset? gs with
  | case1 => cases h
  | case2 gs => cases h; exact Nat.le_succ _
  | case3 gs inner hi hl _ ih => exact Nat.le_trans (ih h) (Nat.le_succ_of_le hl)
  | case4 => cases h
  | case5 g gs _ _ ih => exact Nat.le_succ_of_le (ih h)

theorem length_of_endOfDoctype {quote : Option Char} {gs rest : List Glyph}
    (h : endOfDoctype? quote gs = some rest) : rest.length ≤ gs.length := by
  induction gs generalizing quote with
  | nil => cases h
  | cons g gs ih =>
    unfold endOfDoctype? at h
    split at h
    · cases h
      exact Nat.le_refl _
    · split at h
      · split at h
        · rename_i g' gs' hm
          cases h
          obtain ⟨inner, hi, he⟩ := Option.map_eq_some_iff.1 hm
          have hd := (List.dropWhile_suffix (· != Glyph.char '>') (l := inner)).length_le
          rw [he] at hd
          exact Nat.le_succ_of_le (Nat.le_trans hd (length_of_afterSubset hi))
        · cases h
      · exact Nat.le_succ_of_le (ih h)

def sameLetter (c : Char) : Glyph → Bool
  | .char d => c.toLower == d.toLower
  | .invalid _ => false

def beginsWith : List Char → List Glyph → Bool
  | [], _ => true
  | c :: cs, g :: gs => sameLetter c g && beginsWith cs gs
  | _ :: _, [] => false

/-- What stands after a document type declaration, from the angle bracket `gs` of which `inner`
is what follows the exclamation mark. -/
def cutDoctype (gs inner : List Glyph) : Except Snag (List Glyph) :=
  match endOfDoctype? none inner with
  | some (bracket :: rest) =>
    let content := inner.take (inner.length - (rest.length + 1))
    if !beginsWith "DOCTYPE".toList content then .error ⟨.unclosedDoctype, gs⟩
    else if (content.drop 7).all isSpace then .error ⟨.namelessDoctype, bracket :: rest⟩
    else .ok rest
  | _ => .error ⟨.unclosedDoctype, gs⟩

theorem length_of_cutDoctype {gs inner rest : List Glyph} (h : cutDoctype gs inner = .ok rest) :
    rest.length ≤ inner.length := by
  unfold cutDoctype at h
  split at h
  · rename_i bracket rest' he
    have := length_of_endOfDoctype he
    dsimp only at h
    split at h
    · cases h
    · split at h
      · cases h
      · cases h
        exact Nat.le_of_succ_le this
  · cases h

/-- The flaw of a processing instruction without end: `xml` names a declaration. -/
def openInstruction (inner : List Glyph) : Flaw :=
  match after? "xml" inner with
  | some [] => .unclosedDeclaration
  | some (g :: _) => if isSpace g || g = .char '?' then .unclosedDeclaration else .unclosedInstruction
  | none => .unclosedInstruction

/-- The markup that begins with the angle bracket of `gs`; `inner` is what follows that bracket. -/
def cutMarkup (gs inner : List Glyph) : Except Snag (Piece × List Glyph) :=
  match inner with
  | .char '!' :: inner =>
    match inner with
    | .char '[' :: _ =>
      match (after? "[CDATA[" inner).bind (cutAt (glyphs "]]>")) with
      | some (content, rest) => .ok (.text content, rest)
      | none => .error ⟨.unclosedCData, gs⟩
    | .char '-' :: _ =>
      match (after? "--" inner).bind (cutAt (glyphs "-->")) with
      | some (_, rest) => .ok (.passive, rest)
      | none => .error ⟨.unclosedComment, gs⟩
    | .char 'D' :: _ => (cutDoctype gs inner).map (.passive, ·)
    | .char 'd' :: _ => (cutDoctype gs inner).map (.passive, ·)
    | _ => .error ⟨.unknownMarkup, gs⟩
  | .char '?' :: inner =>
    match inner with
    | .char '>' :: _ => .error ⟨.unclosedInstruction, gs⟩
    | _ =>
      match cutAt (glyphs "?>") inner with
      | some (_, rest) => .ok (.passive, rest)
      | none => .error ⟨openInstruction inner, gs⟩
  | .char '/' :: inner =>
    match cutTag none inner with
    | .ok (content, rest) => .ok (.closing content, rest)
    | .error flaw => .error ⟨flaw, gs⟩
  | inner =>
    match cutTag none inner with
    | .ok (content, rest) => .ok (.opening content, rest)
    | .error flaw => .error ⟨flaw, gs⟩

theorem length_of_cutMarkup {gs inner rest : List Glyph} {piece : Piece}
    (h : cutMarkup gs inner = .ok (piece, rest)) : rest.length ≤ inner.length := by
  have cut {mark stop : String} {inner b r : List Glyph}
      (hc : (after? mark inner).bind (cutAt (glyphs stop)) = some (b, r)) :
      r.length ≤ inner.length := by
    obtain ⟨m, hm, hr⟩ := Option.bind_eq_some_iff.1 hc
    exact Nat.le_trans (length_of_cutAt hr) (length_of_after hm)
  have doctype {inner : List Glyph}
      (hd : (cutDoctype gs inner).map (Piece.passive, ·) = .ok (piece, rest)) :
      rest.length ≤ inner.length := by
    cases hc : cutDoctype gs inner with
    | error _ => rw [hc] at hd; cases hd
    | ok r =>
      rw [hc] at hd
      cases hd
      exact length_of_cutDoctype hc
  unfold cutMarkup at h
  split at h
  · apply Nat.le_succ_of_le
    split at h
    · split at h
      · rename_i hc
        cases h
        exact cut hc
      · cases h
    · split at h
      · rename_i hc
        cases h
        exact cut hc
      · cases h
    · exact doctype h
    · exact doctype h
    · cases h
  · apply Nat.le_succ_of_le
    split at h
    · cases h
    · split at h
      · rename_i hc
        cases h
        exact length_of_cutAt hc
      · cases h
  · apply Nat.le_succ_of_le
    split at h
    · rename_i hc
      cases h
      exact Nat.le_of_lt (length_of_cutTag hc)
    · cases h
  · split at h
    · rename_i hc
      cases h
      exact Nat.le_of_lt (length_of_cutTag hc)
    · cases h

def isText (g : Glyph) : Bool := g != .char '<' && g != .char '&'

def isReference (g : Glyph) : Bool := isText g && g != .char ';'

def cutPiece (g : Glyph) (gs : List Glyph) : Except Snag (Piece × List Glyph) :=
  if g = .char '<' then cutMarkup (g :: gs) gs
  else if g = .char '&' then
    match gs.dropWhile isReference with
    | .char ';' :: rest => .ok (.reference (gs.takeWhile isReference), rest)
    | _ => .error ⟨.unclosedReference, g :: gs⟩
  else .ok (.text (g :: gs.takeWhile isText), gs.dropWhile isText)

/-- Every piece is cut off the front of what there is. -/
theorem length_of_cutPiece {g : Glyph} {gs rest : List Glyph} {piece : Piece}
    (h : cutPiece g gs = .ok (piece, rest)) : rest.length ≤ gs.length := by
  unfold cutPiece at h
  split at h
  · exact length_of_cutMarkup h
  · split at h
    · split at h
      · rename_i rest' hd
        have hs := (List.dropWhile_suffix isReference (l := gs)).length_le
        rw [hd] at hs
        cases h
        exact Nat.le_of_succ_le hs
      · cases h
    · cases h
      exact (List.dropWhile_suffix isText).length_le

end QuizPress.Xml
