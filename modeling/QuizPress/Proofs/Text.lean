import QuizPress.Proofs.Text.Numeral
import QuizPress.Text.Glyph

/-! Texts read back: glyphs of a text, texts trimmed twice, counts written in digits. -/
namespace QuizPress.Text

@[simp] theorem glyphs_append (s t : String) : glyphs (s ++ t) = glyphs s ++ glyphs t := by
  simp [glyphs]

@[simp] theorem glyphs_ofList (cs : List Char) : glyphs (.ofList cs) = cs.map .char := by
  simp [glyphs]

@[simp] theorem strict_map_char (cs : List Char) : strict? (cs.map .char) = some (.ofList cs) := by
  have h : (cs.map Glyph.char).mapM Glyph.char? = some cs := by
    induction cs with
    | nil => rfl
    | cons c cs ih => simp [Glyph.char?, ih]
  simp [strict?, h]

@[simp] theorem strict_glyphs (s : String) : strict? (glyphs s) = some s := by
  simp [glyphs]

@[simp] theorem lossy_glyphs (s : String) : lossy (glyphs s) = s := by
  simp [glyphs, lossy, Function.comp_def, Glyph.shown]

theorem glyphs_injective {s t : String} (h : glyphs s = glyphs t) : s = t := by
  rw [← lossy_glyphs s, h, lossy_glyphs]

/-- Glyphs that are all characters are the glyphs of their text. -/
theorem glyphs_lossy {gs : List Glyph} (h : ∀ g ∈ gs, ∃ c, g = .char c) : glyphs (lossy gs) = gs := by
  induction gs with
  | nil => rfl
  | cons g gs ih =>
    obtain ⟨c, rfl⟩ := h g (by simp)
    have hr := ih (fun g hg => h g (by simp [hg]))
    simp only [lossy, glyphs_ofList] at hr ⊢
    rw [List.map_cons, List.map_cons, hr]
    rfl

section
variable {α : Type} {p : α → Bool}

/-- What stands in front of the first element of another kind does not change when there is one, be it the
first one of what is written behind. -/
theorem span_append (xs more : List α)
    (h : xs.dropWhile p ≠ [] ∨ ∀ x, more.head? = some x → p x = false) :
    (xs ++ more).takeWhile p = xs.takeWhile p ∧ (xs ++ more).dropWhile p = xs.dropWhile p ++ more := by
  induction xs with
  | nil =>
    have hx := h.resolve_left fun hne => hne rfl
    cases more with
    | nil => exact ⟨rfl, rfl⟩
    | cons x more => simp [hx x rfl]
  | cons x xs ih =>
    rw [List.cons_append, List.takeWhile_cons, List.dropWhile_cons, List.takeWhile_cons,
      List.dropWhile_cons]
    cases hx : p x with
    | false => exact ⟨rfl, rfl⟩
    | true =>
      rw [List.dropWhile_cons, hx] at h
      obtain ⟨ht, hd⟩ := ih h
      exact ⟨congrArg (List.cons x) ht, hd⟩

/-- Elements of one kind, and behind them one of another. -/
theorem span_eq (front back : List α) (hf : ∀ x ∈ front, p x = true)
    (hb : ∀ x, back.head? = some x → p x = false) :
    (front ++ back).takeWhile p = front ∧ (front ++ back).dropWhile p = back := by
  rw [List.takeWhile_append_of_pos hf, List.dropWhile_append_of_pos hf]
  cases back with
  | nil => simp
  | cons x back => simp [hb x rfl]

end

theorem trimmed_eq_self {cs : List Char} (hl : ∀ c, cs.head? = some c → isBlank c = false)
    (hr : ∀ c, cs.getLast? = some c → isBlank c = false) : trimmed cs = cs := by
  have drop {l : List Char} (h : ∀ c, l.head? = some c → isBlank c = false) :
      l.dropWhile isBlank = l := by
    cases l with
    | nil => rfl
    | cons c l => simp [h c rfl]
  rw [trimmed, drop hl, drop (by simpa using hr), List.reverse_reverse]

private theorem head_dropWhile {l : List Char} {c : Char} (h : (l.dropWhile isBlank).head? = some c) :
    isBlank c = false := by
  have hn := List.head?_dropWhile_not isBlank l
  rw [h] at hn
  exact hn

theorem not_isBlank_head_trimmed {cs : List Char} {c : Char} (h : (trimmed cs).head? = some c) :
    isBlank c = false := by
  -- what is left of the reversed text ends as the text without its first blanks begins
  have hs := (List.dropWhile_suffix isBlank (l := (cs.dropWhile isBlank).reverse)).reverse
  rw [List.reverse_reverse] at hs
  obtain ⟨t, ht⟩ := hs
  refine head_dropWhile (l := cs) ?_
  rw [trimmed] at h
  rw [← ht, List.head?_append, h]
  rfl

theorem not_isBlank_last_trimmed {cs : List Char} {c : Char} (h : (trimmed cs).getLast? = some c) :
    isBlank c = false := by
  rw [trimmed, List.getLast?_reverse] at h
  exact head_dropWhile h

/-- What is trimmed has no blank at either end. -/
theorem trimmed_trimmed (cs : List Char) : trimmed (trimmed cs) = trimmed cs :=
  trimmed_eq_self (fun _ => not_isBlank_head_trimmed) fun _ => not_isBlank_last_trimmed

@[simp] theorem trim_trim (s : String) : trim (trim s) = trim s := by
  simp [trim, trimmed_trimmed]

@[simp] theorem trim_empty : trim "" = "" := rfl

/-- A count is read back from its digits. -/
theorem count_toString {n : Nat} (h : n < countBound) : count? (toString n) = some n := by
  simp [count?, numeral_of_unsigned (unsigned_toDigits n), h]

@[simp] theorem trim_toString (n : Nat) : trim (toString n) = toString n := by
  have hb {c : Char} (h : c ∈ Nat.toDigits 10 n) : isBlank c = false :=
    not_isBlank_of_digit (digit_of_unsigned (unsigned_toDigits n) c h)
  have ht : trimmed (Nat.toDigits 10 n) = Nat.toDigits 10 n :=
    trimmed_eq_self (fun c h => hb (List.mem_of_head? h)) (fun c h => hb (List.mem_of_getLast? h))
  simp [trim, ht, Nat.repr_eq_ofList_toDigits]

end QuizPress.Text
