import QuizPress.Text.Glyph
import QuizPress.Xml.Fault
import QuizPress.Xml.Reference

/-! The attributes of a tag, in the order in which they are written. -/
namespace QuizPress.Xml
open Text

abbrev Attributes := List (String × String)

namespace Attributes

def push (attributes : Attributes) (name value : String) : Attributes :=
  attributes ++ [(name, value)]

def value? (attributes : Attributes) (name : String) : Option String :=
  attributes.lookup name

def valueD (attributes : Attributes) (name default : String) : String :=
  (attributes.value? name).getD default

end Attributes

def isSpace : Glyph → Bool
  | .char c => c == ' ' || c == '\t' || c == '\n' || c == '\r'
  | .invalid _ => false

def inKey (g : Glyph) : Bool := g != .char '=' && !isSpace g

private theorem length_dropWhile_le {α : Type} (p : α → Bool) (l : List α) :
    (l.dropWhile p).length ≤ l.length :=
  (List.dropWhile_suffix p).length_le

structure Written where
  key : List Glyph
  value : List Glyph
  rest : List Glyph

def quoted? (key : List Glyph) : List Glyph → Option Written
  | .char q :: gs =>
    if q = '"' ∨ q = '\'' then
      match gs.dropWhile (· != .char q) with
      | _ :: rest => some ⟨key, gs.takeWhile (· != .char q), rest⟩
      | [] => none
    else none
  | _ => none

/-- The attribute that starts with a glyph which is no blank: a key, an equals sign, a quoted
value. The sign itself may begin a key. -/
def written? (g : Glyph) (gs : List Glyph) : Option Written :=
  match (gs.dropWhile inKey).dropWhile isSpace with
  | .char '=' :: gs' => quoted? (g :: gs.takeWhile inKey) (gs'.dropWhile isSpace)
  | _ => none

private theorem quoted_rest {key gs : List Glyph} {w : Written} (h : quoted? key gs = some w) :
    w.rest.length < gs.length := by
  unfold quoted? at h
  split at h
  · rename_i q gs
    split at h
    · split at h
      · rename_i x rest hd
        have hl := length_dropWhile_le (· != .char q) gs
        rw [hd] at hl
        cases h
        simp only [List.length_cons] at hl ⊢
        omega
      · cases h
    · cases h
  · cases h

theorem written_rest {g : Glyph} {gs : List Glyph} {w : Written} (h : written? g gs = some w) :
    w.rest.length < gs.length := by
  unfold written? at h
  split at h
  · rename_i gs' hd
    have h1 := quoted_rest h
    have h2 := length_dropWhile_le isSpace gs'
    have h3 := length_dropWhile_le isSpace (gs.dropWhile inKey)
    have h4 := length_dropWhile_le inKey gs
    rw [hd] at h3
    simp only [List.length_cons] at h3
    omega
  · cases h

/-- Reads the attributes of a tag after those with the keys `seen`; no key may come twice. -/
def readAttributes (seen : List (List Glyph)) (gs : List Glyph) : Except Fault Attributes :=
  match h : gs.dropWhile isSpace with
  | [] => .ok []
  | g :: gs' =>
    match hw : written? g gs' with
    | none => .error .badAttribute
    | some w =>
      have : w.rest.length < gs.length := by
        have h1 := written_rest hw
        have h2 := length_dropWhile_le isSpace gs
        rw [h] at h2
        simp only [List.length_cons] at h2
        omega
      if w.key ∈ seen then .error .badAttribute
      else match strict? w.value with
        | none => .error .badEncoding
        | some value => do
          let others ← readAttributes (w.key :: seen) w.rest
          return (lossy w.key, .ofList (attributeValue value.toList)) :: others
termination_by gs.length

end QuizPress.Xml
