import QuizPress.Text.Numeral

/-! TOML strings, in one line or in several, with escapes or without. -/
namespace QuizPress.Config.Toml
open Text

/-- The characters that may stand in a line: no control characters but the tab. -/
def isPlain (c : Char) : Bool :=
  c == '\t' || (0x20 ≤ c.toNat && c.toNat != 0x7F)

def isGap (c : Char) : Bool := c == ' ' || c == '\t'

def newline? : List Char → Option (List Char)
  | '\n' :: cs => some cs
  | '\r' :: '\n' :: cs => some cs
  | _ => none

def escape? : Char → Option Char
  | 'b' => some '\x08'
  | 't' => some '\t'
  | 'n' => some '\n'
  | 'f' => some '\x0C'
  | 'r' => some '\r'
  | 'e' => some '\x1B'
  | '"' => some '"'
  | '\\' => some '\\'
  | _ => none

def escapeLength? : Char → Option Nat
  | 'x' => some 2
  | 'u' => some 4
  | 'U' => some 8
  | _ => none

def escaped? : List Char → Option (Char × List Char)
  | [] => none
  | c :: cs =>
    match escapeLength? c with
    | none => (escape? c).map (·, cs)
    | some n => do
      let code ← if (cs.take n).length = n then unsigned? 16 (cs.take n) else none
      if code.isValidChar then some (Char.ofNat code, cs.drop n) else none

def before (c : Char) (read : Option (List Char × List Char)) : Option (List Char × List Char) :=
  read.map fun (text, rest) => (c :: text, rest)

def basic? : Nat → List Char → Option (List Char × List Char)
  | _, [] => none
  | skip + 1, _ :: cs => basic? skip cs
  | 0, '"' :: cs => some ([], cs)
  | 0, '\\' :: cs =>
    match escaped? cs with
    | some (c, rest) => before c (basic? (cs.length - rest.length) cs)
    | none => none
  | 0, c :: cs => if isPlain c then before c (basic? 0 cs) else none

def literal? : List Char → Option (List Char × List Char)
  | [] => none
  | '\'' :: cs => some ([], cs)
  | c :: cs => if isPlain c then before c (literal? cs) else none

/-- The three quotes that end a text, before which one or two of them belong to it. -/
def closing? (quote : Char) (cs : List Char) : Option (List Char × List Char) :=
  let quotes := (cs.takeWhile (· == quote)).length
  if quotes < 3 then none
  else
    let extra := min (quotes - 3) 2
    some (List.replicate extra quote, cs.drop (extra + 3))

/-- Whether a backslash ends a line, so that the blanks after it are left out. -/
def endsLine (cs : List Char) : Bool :=
  (newline? (cs.dropWhile isGap)).isSome

/-- The text up to three quotes, and what follows them; blanks are left out while `folding`. -/
def basicLines? : (folding : Bool) → Nat → List Char → Option (List Char × List Char)
  | _, _, [] => none
  | folding, skip + 1, _ :: cs => basicLines? folding skip cs
  | folding, 0, c :: cs =>
    if folding && (isGap c || (newline? (c :: cs)).isSome) then
      basicLines? true (if c = '\r' then 1 else 0) cs
    else if c = '"' then
      match closing? '"' (c :: cs) with
      | some closed => some closed
      | none => before c (basicLines? false 0 cs)
    else if c = '\\' then
      if endsLine cs then basicLines? true 0 cs
      else match escaped? cs with
        | some (c, rest) => before c (basicLines? false (cs.length - rest.length) cs)
        | none => none
    else if isPlain c || c = '\n' || (newline? (c :: cs)).isSome then
      before c (basicLines? false 0 cs)
    else none

def literalLines? : List Char → Option (List Char × List Char)
  | [] => none
  | c :: cs =>
    if c = '\'' then
      match closing? '\'' (c :: cs) with
      | some closed => some closed
      | none => before c (literalLines? cs)
    else if isPlain c || c = '\n' || (newline? (c :: cs)).isSome then before c (literalLines? cs)
    else none

/-- A text in several lines begins after the line end that may follow its quotes. -/
def afterNewline (cs : List Char) : List Char :=
  (newline? cs).getD cs

def string? : List Char → Option (String × List Char)
  | '"' :: '"' :: '"' :: cs => (basicLines? false 0 (afterNewline cs)).map made
  | '"' :: cs => (basic? 0 cs).map made
  | '\'' :: '\'' :: '\'' :: cs => (literalLines? (afterNewline cs)).map made
  | '\'' :: cs => (literal? cs).map made
  | _ => none
where
  made : List Char × List Char → String × List Char
    | (text, rest) => (.ofList text, rest)

end QuizPress.Config.Toml
