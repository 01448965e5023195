import Mathlib.Data.List.ReduceOption
import QuizPress.Xml.Reader

/-! What stands in a document in its order, with the pieces that say nothing. -/
namespace QuizPress.Xml
open Text

/-- What a piece is to a reader that has these elements open, and the elements open after it: an event,
or nothing if it is a comment, an instruction, a declaration or a document type. A piece with a fault
is neither. -/
def mark? (opened : List (List Glyph)) : Piece → Option (Option Event × List (List Glyph))
  | .passive => some (none, opened)
  | .text content => (strict? content).map fun content => (some (.text content), opened)
  | .reference name => (strict? name).map fun name => (some (.reference name), opened)
  | .opening content => (readOpening opened content).toOption.map fun (event, opened) => (some event, opened)
  | .closing content => (readClosing opened content).toOption.map fun (event, opened) => (some event, opened)

def surveyFrom (opened : List (List Glyph)) : List Glyph → List (Option Event)
  | [] => []
  | g :: gs =>
    match _ : cutPiece g gs with
    | .error _ => []
    | .ok (piece, rest) =>
      (mark? opened piece).elim [] fun (mark, opened) => mark :: surveyFrom opened rest
termination_by gs => gs.length
decreasing_by exact Nat.lt_succ_of_le (length_of_cutPiece ‹_›)

def survey : List Glyph → List (Option Event)
  | .char '\uFEFF' :: gs => surveyFrom [] gs
  | gs => surveyFrom [] gs

section
variable {g : Glyph} {gs rest : List Glyph} {snag : Snag} {piece : Piece}

theorem surveyFrom_error (opened : List (List Glyph)) (h : cutPiece g gs = .error snag) :
    surveyFrom opened (g :: gs) = [] := by
  rw [surveyFrom]
  split
  · rfl
  · rename_i h'
    cases h.symm.trans h'

theorem surveyFrom_ok (opened : List (List Glyph)) (h : cutPiece g gs = .ok (piece, rest)) :
    surveyFrom opened (g :: gs) =
      (mark? opened piece).elim [] fun (mark, opened) => mark :: surveyFrom opened rest := by
  rw [surveyFrom]
  split
  · rename_i h'
    cases h.symm.trans h'
  · rename_i h'
    cases h.symm.trans h'
    rfl

end

theorem events_surveyFrom (size : Nat) (opened : List (List Glyph)) (gs : List Glyph) :
    (surveyFrom opened gs).reduceOption = (readFrom size opened gs).events := by
  induction hn : gs.length using Nat.strongRecOn generalizing opened gs with
  | _ n ih =>
    cases gs with
    | nil =>
      rw [surveyFrom, readFrom]
      rfl
    | cons g gs =>
      rw [readFrom]
      split
      · rename_i hc
        rw [surveyFrom_error opened hc]
        rfl
      · rename_i piece rest hc
        rw [surveyFrom_ok opened hc]
        have hl : rest.length < n := by
          rw [← hn]
          exact Nat.lt_succ_of_le (length_of_cutPiece hc)
        have hr (opened : List (List Glyph)) := ih _ hl opened rest rfl
        cases piece with
        | passive => exact hr opened
        | text content | reference content =>
          simp only [mark?]
          cases strict? content with
          | none => rfl
          | some content => exact congrArg (List.cons _) (hr opened)
        | opening content =>
          simp only [mark?]
          cases readOpening opened content with
          | error fault => rfl
          | ok said => exact congrArg (List.cons _) (hr said.2)
        | closing content =>
          simp only [mark?]
          cases readClosing opened content with
          | error flaw => rfl
          | ok said => exact congrArg (List.cons _) (hr said.2)

/-- The marks that are events are the events that are read. -/
theorem events_survey (gs : List Glyph) : (survey gs).reduceOption = (read gs).events := by
  unfold survey
  split
  · exact events_surveyFrom _ _ _
  · rename_i hmark
    rw [read]
    · exact events_surveyFrom _ _ _
    · exact hmark

end QuizPress.Xml
