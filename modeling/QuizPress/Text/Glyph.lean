/-! Documents as they are read: characters, and octets that spell no character. -/
namespace QuizPress.Text

/-- One character of a document, or the longest run of octets that begins one without ending it. -/
inductive Glyph where
  | char (c : Char)
  | invalid (octets : List UInt8)
deriving DecidableEq, Repr

namespace Glyph

def width : Glyph → Nat
  | char c => c.utf8Size
  | invalid octets => octets.length

def char? : Glyph → Option Char
  | char c => some c
  | invalid _ => none

def shown : Glyph → Char
  | char c => c
  | invalid _ => '\uFFFD'

end Glyph

def width (gs : List Glyph) : Nat :=
  gs.foldl (fun n g => n + g.width) 0

def glyphs (s : String) : List Glyph :=
  s.toList.map .char

def strict? (gs : List Glyph) : Option String :=
  (gs.mapM Glyph.char?).map .ofList

def lossy (gs : List Glyph) : String :=
  .ofList (gs.map Glyph.shown)

/-- A character begun: its octets so far, their bits, and what the next octet has to be. -/
structure Pending where
  octets : List UInt8
  bits : Nat
  missing : Nat
  low : UInt8
  high : UInt8
deriving DecidableEq, Repr

def Pending.ofLead? (b : UInt8) : Option Pending :=
  let n := b.toNat
  if 0xC2 ≤ n ∧ n ≤ 0xDF then some ⟨[b], n - 0xC0, 1, 0x80, 0xBF⟩
  else if n = 0xE0 then some ⟨[b], 0, 2, 0xA0, 0xBF⟩
  else if n = 0xED then some ⟨[b], 0x0D, 2, 0x80, 0x9F⟩
  else if 0xE1 ≤ n ∧ n ≤ 0xEF then some ⟨[b], n - 0xE0, 2, 0x80, 0xBF⟩
  else if n = 0xF0 then some ⟨[b], 0, 3, 0x90, 0xBF⟩
  else if 0xF1 ≤ n ∧ n ≤ 0xF3 then some ⟨[b], n - 0xF0, 3, 0x80, 0xBF⟩
  else if n = 0xF4 then some ⟨[b], 4, 3, 0x80, 0x8F⟩
  else none

def begin (b : UInt8) : List Glyph × Option Pending :=
  if b < 0x80 then ([.char (Char.ofNat b.toNat)], none)
  else match Pending.ofLead? b with
    | some p => ([], some p)
    | none => ([.invalid [b]], none)

def advance : Option Pending → UInt8 → List Glyph × Option Pending
  | none, b => begin b
  | some p, b =>
    if p.low ≤ b ∧ b ≤ p.high then
      let bits := p.bits * 64 + b.toNat % 64
      if p.missing ≤ 1 then ([.char (Char.ofNat bits)], none)
      else ([], some ⟨p.octets ++ [b], bits, p.missing - 1, 0x80, 0xBF⟩)
    else
      let (gs, next) := begin b
      (.invalid p.octets :: gs, next)

def decodeFrom : Option Pending → List UInt8 → List Glyph
  | none, [] => []
  | some p, [] => [.invalid p.octets]
  | p, b :: bs =>
    let (gs, next) := advance p b
    gs ++ decodeFrom next bs

/-- Decodes UTF-8; what is no UTF-8 stays as it is, cut as Unicode recommends. -/
def decode (octets : List UInt8) : List Glyph :=
  decodeFrom none octets

def encode (s : String) : List UInt8 :=
  s.toUTF8.toList

end QuizPress.Text
