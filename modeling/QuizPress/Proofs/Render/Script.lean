import QuizPress.Proofs.Xml.Escape
import QuizPress.Render.Page.Markup
import QuizPress.Text.Numeral

/-! String literals as scripts read them, and texts that are written between quotes. -/
namespace QuizPress.Render.Script
open Page Text

/-- The UTF-16 code units of a code point: one, or a surrogate pair. -/
def codeUnits (n : Nat) : List Nat :=
  if n < 0x10000 then [n]
  else [0xD800 + (n - 0x10000) / 0x400, 0xDC00 + (n - 0x10000) % 0x400]

def units (s : String) : List Nat :=
  s.toList.flatMap fun c => codeUnits c.toNat

def isLineEnd (c : Char) : Bool :=
  c == '\n' || c == '\r' || c == '\u2028' || c == '\u2029'

def hexadecimal? (digits : List Char) : Option (List Nat) :=
  ((unsigned? 16 digits).filter (· ≤ 0x10FFFF)).map codeUnits

/-- What stands behind a backslash in a literal: the code units it is for, and the rest. -/
def readEscape : List Char → Option (List Nat × List Char)
  | [] => none
  | 'b' :: cs => some ([0x08], cs)
  | 'f' :: cs => some ([0x0C], cs)
  | 'n' :: cs => some ([0x0A], cs)
  | 'r' :: cs => some ([0x0D], cs)
  | 't' :: cs => some ([0x09], cs)
  | 'v' :: cs => some ([0x0B], cs)
  | '0' :: cs => if cs.head?.any Char.isDigit then none else some ([0], cs)
  | 'x' :: a :: b :: cs => (hexadecimal? [a, b]).map (·, cs)
  | 'u' :: '{' :: cs =>
    match cs.dropWhile (· != '}') with
    | [] => none
    | _ :: rest => (hexadecimal? (cs.takeWhile (· != '}'))).map (·, rest)
  | 'u' :: a :: b :: c :: d :: cs => (hexadecimal? [a, b, c, d]).map (·, cs)
  -- a line that goes on behind its end; the two characters of a line end count as one
  | '\r' :: '\n' :: cs => some ([], cs)
  | c :: cs =>
    if isLineEnd c then some ([], cs)
    else if c.isDigit || c == 'x' || c == 'u' then none
    else some (codeUnits c.toNat, cs)

theorem length_of_readEscape {cs rest : List Char} {value : List Nat}
    (h : readEscape cs = some (value, rest)) : rest.length < cs.length := by
  unfold readEscape at h
  split at h
  · cases h
  · cases h
    simp
  · cases h
    simp
  · cases h
    simp
  · cases h
    simp
  · cases h
    simp
  · cases h
    simp
  · split at h
    · cases h
    · cases h
      simp
  · obtain ⟨_, _, he⟩ := Option.map_eq_some_iff.1 h
    cases he
    simp only [List.length_cons]
    omega
  · rename_i cs
    split at h
    · cases h
    · rename_i closer rest hd
      obtain ⟨_, _, he⟩ := Option.map_eq_some_iff.1 h
      cases he
      have := (List.dropWhile_suffix (· != '}') (l := cs)).length_le
      simp only [hd, List.length_cons] at this ⊢
      omega
  · obtain ⟨_, _, he⟩ := Option.map_eq_some_iff.1 h
    cases he
    simp only [List.length_cons]
    omega
  · cases h
    simp only [List.length_cons]
    omega
  · split at h
    · cases h
      simp
    · split at h
      · cases h
      · cases h
        simp

/-- What stands behind an opening quote: the code units of the literal, and the rest of the text
behind the closing quote. No line ends in a literal, but for two characters that may stand in it. -/
def readLiteral (quote : Char) : List Char → Option (List Nat × List Char)
  | [] => none
  | c :: cs =>
    if c = quote then some ([], cs)
    else if c = '\\' then
      match h : readEscape cs with
      | none => none
      | some (value, rest) =>
        have := length_of_readEscape h
        (readLiteral quote rest).map fun (later, rest) => (value ++ later, rest)
    else if c = '\n' ∨ c = '\r' then none
    else (readLiteral quote cs).map fun (later, rest) => (codeUnits c.toNat ++ later, rest)
termination_by cs => cs.length

variable {quote c : Char} {rest : List Char}

theorem readLiteral_quote (quote : Char) (rest : List Char) :
    readLiteral quote (quote :: rest) = some ([], rest) := by
  rw [readLiteral, if_pos rfl]

theorem readLiteral_char (hq : c ≠ quote) (hb : c ≠ '\\') (hn : c ≠ '\n') (hr : c ≠ '\r')
    (rest : List Char) :
    readLiteral quote (c :: rest) =
      (readLiteral quote rest).map fun (later, rest) => (codeUnits c.toNat ++ later, rest) := by
  rw [readLiteral, if_neg hq, if_neg hb, if_neg (by simp [hn, hr])]

theorem readLiteral_escape {cs : List Char} {value : List Nat} (hq : quote ≠ '\\')
    (h : readEscape cs = some (value, rest)) :
    readLiteral quote ('\\' :: cs) =
      (readLiteral quote rest).map fun (later, rest) => (value ++ later, rest) := by
  rw [readLiteral, if_neg hq.symm, if_pos rfl]
  split
  · rename_i hn
    rw [h] at hn
    cases hn
  · rename_i hs
    rw [h] at hs
    cases hs
    rfl

/-- A character as it is written in a script is read as itself. -/
theorem readLiteral_scriptChar (hq : quote = '\'' ∨ quote = '"') (c : Char) (rest : List Char) :
    readLiteral quote (scriptChar c ++ rest) =
      (readLiteral quote rest).map fun (later, rest) => (codeUnits c.toNat ++ later, rest) := by
  have hb : quote ≠ '\\' := by rcases hq with rfl | rfl <;> decide
  unfold scriptChar
  split
  · exact readLiteral_escape hb rfl
  · exact readLiteral_escape hb rfl
  · exact readLiteral_escape hb rfl
  · exact readLiteral_escape hb rfl
  · exact readLiteral_escape hb rfl
  · exact readLiteral_escape hb rfl
  · rename_i hb' ha hd hn hr _
    refine readLiteral_char ?_ hb' hn hr rest
    rcases hq with rfl | rfl
    · exact ha
    · exact hd

/-- A text between quotes of either kind is read as itself, up to the closing quote. -/
theorem readLiteral_scriptText (hq : quote = '\'' ∨ quote = '"') (s : String) (rest : List Char) :
    readLiteral quote ((scriptText s).toList ++ quote :: rest) = some (units s, rest) := by
  rw [scriptText, Xml.escapeWith, String.toList_ofList, units]
  induction s.toList with
  | nil => exact readLiteral_quote quote rest
  | cons c cs ih =>
    rw [List.flatMap_cons, List.append_assoc, readLiteral_scriptChar hq, ih]
    rfl

private def isPlain (c : Char) : Bool := c != '<' && c != '\n' && c != '\r'

/-- What is written for a character ends no line, and begins no markup. -/
theorem mem_scriptChar {c x : Char} (h : x ∈ scriptChar c) : x ≠ '<' ∧ x ≠ '\n' ∧ x ≠ '\r' := by
  suffices hp : (scriptChar c).all isPlain = true by
    have hx := List.all_eq_true.1 hp x h
    simp only [isPlain, Bool.and_eq_true, bne_iff_ne] at hx
    exact ⟨hx.1.1, hx.1.2, hx.2⟩
  unfold scriptChar
  split
  · decide
  · decide
  · decide
  · decide
  · decide
  · decide
  · simp_all [isPlain]

theorem scriptText_append (s t : String) : scriptText (s ++ t) = scriptText s ++ scriptText t :=
  Xml.escapeWith_append scriptChar s t

theorem mem_scriptText {s : String} {x : Char} (h : x ∈ (scriptText s).toList) :
    x ≠ '<' ∧ x ≠ '\n' ∧ x ≠ '\r' := by
  rw [scriptText, Xml.escapeWith, String.toList_ofList, List.mem_flatMap] at h
  obtain ⟨c, _, hx⟩ := h
  exact mem_scriptChar hx

private theorem codeUnits_ne_nil (n : Nat) : codeUnits n ≠ [] := by
  unfold codeUnits
  split
  · exact List.cons_ne_nil _ _
  · exact List.cons_ne_nil _ _

/-- No unit of a pair is a code point of its own, so that a pair is told from a single unit. -/
private theorem codeUnits_injective {m n : Nat} {us vs : List Nat} (hm : m.isValidChar)
    (hn : n.isValidChar) (h : codeUnits m ++ us = codeUnits n ++ vs) : m = n ∧ us = vs := by
  unfold codeUnits at h
  simp only [Nat.isValidChar] at hm hn
  split at h
  · split at h
    · exact List.cons.inj h
    · have := (List.cons.inj h).1
      omega
  · split at h
    · have := (List.cons.inj h).1
      omega
    · obtain ⟨hhigh, h⟩ := List.cons.inj h
      obtain ⟨hlow, h⟩ := List.cons.inj h
      exact ⟨by omega, h⟩

theorem units_injective {s t : String} (h : units s = units t) : s = t := by
  refine String.toList_inj.1 ?_
  rw [units, units] at h
  generalize s.toList = cs at h ⊢
  generalize t.toList = ds at h ⊢
  induction cs generalizing ds with
  | nil =>
    cases ds with
    | nil => rfl
    | cons d ds => exact absurd (List.append_eq_nil_iff.1 h.symm).1 (codeUnits_ne_nil _)
  | cons c cs ih =>
    cases ds with
    | nil => exact absurd (List.append_eq_nil_iff.1 h).1 (codeUnits_ne_nil _)
    | cons d ds =>
      rw [List.flatMap_cons, List.flatMap_cons] at h
      obtain ⟨hc, hr⟩ := codeUnits_injective c.valid d.valid h
      rw [Char.toNat_inj.1 hc, ih ds hr]

/-- Between quotes of either kind a text is read as itself and as no other text, and the literal ends at the
quote behind it, whatever follows. What is written ends no line and begins no markup. Texts side by side are
written side by side. -/
theorem literal_scriptText (s : String) :
    (∀ quote, quote = '\'' ∨ quote = '"' → ∀ (rest after : List Char) (value : List Nat),
      readLiteral quote ((scriptText s).toList ++ quote :: rest) = some (value, after) ↔
        value = units s ∧ after = rest) ∧
    (∀ t, units t = units s ↔ t = s) ∧
    (∀ c ∈ (scriptText s).toList, c ≠ '<' ∧ c ≠ '\n' ∧ c ≠ '\r') ∧
    ∀ t, scriptText (s ++ t) = scriptText s ++ scriptText t := by
  refine ⟨fun quote hq rest after value => ?_, fun t => ⟨units_injective, fun h => h ▸ rfl⟩,
    fun c hc => mem_scriptText hc, scriptText_append s⟩
  rw [readLiteral_scriptText hq, Option.some.injEq, Prod.mk.injEq, eq_comm, eq_comm (a := rest)]

/-- Backslashes in front of a quote, the end of a script, and behind the literal another one. -/
theorem literal_scriptText_closers :
    let s := "\\\\'\"</script>\n"
    let rest := ", \"x\");".toList
    (scriptText s).toList = "\\\\\\\\\\'\\\"\\x3c/script>\\n".toList ∧
      readLiteral '"' ((scriptText s).toList ++ '"' :: rest) = some (units s, rest) ∧
      '<' ∉ (scriptText s).toList := by
  intro s rest
  obtain ⟨hread, -, hmem, -⟩ := literal_scriptText s
  exact ⟨by decide, (hread '"' (.inr rfl) rest rest (units s)).2 ⟨rfl, rfl⟩, fun h => (hmem _ h).1 rfl⟩

end QuizPress.Render.Script
