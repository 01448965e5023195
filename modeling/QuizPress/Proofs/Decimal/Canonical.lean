import QuizPress.Proofs.Decimal.Nearest

/-! The canonical form of a number is read as a number that rounds to the same binary fraction. -/
namespace QuizPress.Decimal

namespace Binary
variable {x : Binary} {a : Nat} {place : Int}

/-- Two products of powers, each with its denominators on the other side. -/
private theorem quotient_le (a b : Nat) (place exponent : Int) :
    ((b : ℚ) * 2 ^ exponent ≤ decimalValue a place ↔
      b * powUp 2 exponent * powUp 10 (-place) ≤ a * powUp 10 place * powUp 2 (-exponent)) ∧
    ((decimalValue a place : ℚ) ≤ b * 2 ^ exponent ↔
      a * powUp 10 place * powUp 2 (-exponent) ≤ b * powUp 2 exponent * powUp 10 (-place)) := by
  have htwo := powUp_div (show 0 < 2 by decide) exponent
  have hten := powUp_div (show 0 < 10 by decide) place
  have htwo' : (0 : ℚ) < powUp 2 (-exponent) := by exact_mod_cast powUp_pos (by decide) _
  have hten' : (0 : ℚ) < powUp 10 (-place) := by exact_mod_cast powUp_pos (by decide) _
  have hb : (b : ℚ) * 2 ^ exponent = b * powUp 2 exponent / powUp 2 (-exponent) := by
    rw [mul_div_assoc, htwo]
    rfl
  have ha : decimalValue a place = a * powUp 10 place / powUp 10 (-place) := by
    rw [mul_div_assoc, hten]
    rfl
  rw [hb, ha, div_le_div_iff₀ htwo' hten', div_le_div_iff₀ hten' htwo']
  constructor <;> exact_mod_cast Iff.rfl

theorem atLeast_iff {strict : Bool} {b : Nat} {exponent : Int} :
    atLeast strict a place b exponent = true ↔ (b : ℚ) * 2 ^ exponent ≤ decimalValue a place ∧
      (strict = true → (b : ℚ) * 2 ^ exponent < decimalValue a place) := by
  obtain ⟨hle, hge⟩ := quotient_le a b place exponent
  rw [← not_le, hle, hge, Nat.not_le]
  cases strict with
  | false => simp [atLeast]
  | true =>
    simp only [atLeast, if_true, decide_eq_true_eq, true_imp_iff]
    exact ⟨fun h => ⟨h.le, h⟩, And.right⟩

theorem atMost_iff {strict : Bool} {b : Nat} {exponent : Int} :
    atMost strict a place b exponent = true ↔ decimalValue a place ≤ (b : ℚ) * 2 ^ exponent ∧
      (strict = true → decimalValue a place < (b : ℚ) * 2 ^ exponent) := by
  obtain ⟨hle, hge⟩ := quotient_le a b place exponent
  rw [← not_le, hle, hge, Nat.not_le]
  cases strict with
  | false => simp [atMost]
  | true =>
    simp only [atMost, if_true, decide_eq_true_eq, true_imp_iff]
    exact ⟨fun h => ⟨h.le, h⟩, And.right⟩

theorem contains_iff : x.contains a place = true ↔ Rounds (decimalValue a place) x := by
  have hcontains : x.contains a place =
      (atLeast (x.mantissa % 2 == 1) a place (4 * x.mantissa - x.below) (x.exponent - 2) &&
        atMost (x.mantissa % 2 == 1) a place (4 * x.mantissa + 2) (x.exponent - 2)) := rfl
  rw [hcontains, Bool.and_eq_true, atLeast_iff, atMost_iff, beq_iff_eq]
  constructor
  · rintro ⟨⟨hlower, hlower'⟩, hupper, hupper'⟩
    exact ⟨hlower, hupper, fun h => ⟨hlower' h, hupper' h⟩⟩
  · rintro ⟨hlower, hupper, hstrict⟩
    exact ⟨⟨hlower, fun h => (hstrict h).1⟩, hupper, fun h => (hstrict h).2⟩

/-- What is found on a grid rounds to the fraction. -/
theorem rounds_onGrid {r : Nat × Int} (h : x.onGrid? place = some r) :
    Rounds (decimalValue r.1 r.2) x := by
  unfold onGrid? at h
  dsimp only at h
  split at h
  · rename_i hfloor hnext
    cases h
    dsimp only
    split
    · exact contains_iff.1 hfloor
    · exact contains_iff.1 hnext
  · rename_i hfloor _
    cases h
    exact contains_iff.1 hfloor
  · rename_i hnext
    cases h
    exact contains_iff.1 hnext
  · cases h

/-- A grid that is finer than a quarter of the last digit has a point below the fraction that rounds to it. -/
theorem onGrid_of_le (hm : x.mantissa ≠ 0) (h : (10 : ℚ) ^ place ≤ 2 ^ (x.exponent - 2)) :
    (x.onGrid? place).isSome = true := by
  have hden : 0 < powUp 2 (-x.exponent) * powUp 10 place :=
    Nat.mul_pos (powUp_pos (by decide) _) (powUp_pos (by decide) _)
  unfold onGrid?
  dsimp only
  generalize hfloor : x.mantissa * powUp 2 x.exponent * powUp 10 (-place) /
    (powUp 2 (-x.exponent) * powUp 10 place) = floor
  have hunder : decimalValue floor place ≤ x.mantissa * 2 ^ x.exponent := by
    rw [(quotient_le _ _ _ _).2, mul_assoc, mul_comm (powUp 10 place), ← hfloor]
    exact Nat.div_mul_le_self _ _
  have hover : (x.mantissa : ℚ) * 2 ^ x.exponent < decimalValue floor place + 10 ^ place := by
    have hnext : decimalValue (floor + 1) place = decimalValue floor place + 10 ^ place := by
      unfold decimalValue
      push_cast
      ring
    rw [← hnext, ← not_le, (quotient_le _ _ _ _).2, mul_assoc, mul_comm (powUp 10 place), Nat.not_le,
      ← hfloor]
    exact (Nat.div_lt_iff_lt_mul hden).1 (Nat.lt_succ_self _)
  have hunit : (0 : ℚ) < 2 ^ (x.exponent - 2) := by positivity
  rw [zpow_quarter] at hunder hover
  have hrounds : Rounds (decimalValue floor place) x := by
    have hlower : x.lower < decimalValue floor place := by
      have hbelow : 4 * x.mantissa - x.below ≤ 4 * x.mantissa - 1 := by
        unfold below
        split <;> omega
      calc x.lower
        _ ≤ (4 * x.mantissa - 1 : ℕ) * 2 ^ (x.exponent - 2) := by
          unfold lower
          gcongr
        _ = (4 * x.mantissa - 1) * 2 ^ (x.exponent - 2) := by
          rw [Nat.cast_sub (by omega)]
          push_cast
          rfl
        _ < decimalValue floor place := by linarith
    have hupper : decimalValue floor place < x.upper := by
      unfold upper
      push_cast
      linarith
    exact ⟨hlower.le, hupper.le, fun _ => ⟨hlower, hupper⟩⟩
  rw [contains_iff.2 hrounds]
  split <;> simp_all

/-- The decimal fraction of fewest digits rounds to the binary one. -/
theorem rounds_shortest (hx : x.Normal) : Rounds (decimalValue x.shortest.1 x.shortest.2) x := by
  unfold shortest
  split
  · rename_i hm
    have hexponent : x.exponent = leastExponent := hx.full.resolve_left (by omega)
    obtain rfl : x = ⟨0, leastExponent⟩ := by
      cases x
      cases hm
      cases hexponent
      rfl
    refine rounds_zero ?_ ?_
    · exact (mul_nonneg (Nat.cast_nonneg _) (by positivity))
    · rw [decimalValue, Nat.cast_zero, zero_mul]
      positivity
  · rename_i hm
    cases hf : (List.range 634).findSome? fun (i : Nat) => x.onGrid? (309 - (i : Int)) with
    | some r =>
      obtain ⟨i, -, hr⟩ := List.exists_of_findSome?_eq_some hf
      exact rounds_onGrid hr
    | none =>
      -- the last grid is fine enough for every fraction
      have hlast := List.findSome?_eq_none_iff.1 hf 633 (List.mem_range.2 (by decide))
      have hfine : (10 : ℚ) ^ (309 - ((633 : ℕ) : Int)) ≤ 2 ^ (x.exponent - 2) := by
        have hleast : (-1076 : Int) ≤ x.exponent - 2 := by
          have : (-1074 : Int) ≤ x.exponent := hx.least
          omega
        exact ten_zpow_le.trans (zpow_le_zpow_right₀ (by norm_num) hleast)
      have hsome := onGrid_of_le hm hfine
      rw [hlast] at hsome
      cases hsome

end Binary

/-- The digits at the start of a text end where another character stands. -/
theorem splitDigits_append {ds cs : List Char} (hd : ∀ c ∈ ds, c.isDigit = true)
    (ht : cs.takeWhile Char.isDigit = []) : splitDigits (ds ++ cs) = (ds, cs) := by
  have hc : cs.dropWhile Char.isDigit = cs := by
    simpa [ht] using cs.takeWhile_append_dropWhile (p := Char.isDigit)
  rw [splitDigits, List.span_eq_takeWhile_dropWhile, List.takeWhile_append_of_pos hd,
    List.dropWhile_append_of_pos hd, ht, hc, List.append_nil]

/-- Digits alone are a whole number. -/
theorem unsignedLiteral_digits {ds : List Char} (negative : Bool) (hd : ∀ c ∈ ds, c.isDigit = true)
    (hne : ds ≠ []) : unsignedLiteral? negative ds = some ⟨negative, valueOf ds, 0⟩ := by
  have hs : splitDigits (ds ++ []) = (ds, []) := splitDigits_append hd rfl
  rw [List.append_nil] at hs
  simp [unsignedLiteral?, hs, hne, exponent?]

/-- Digits around a point are the number without the point, in as fine units as there are digits behind it. -/
theorem unsignedLiteral_point {ds es : List Char} (negative : Bool) (hd : ∀ c ∈ ds, c.isDigit = true)
    (he : ∀ c ∈ es, c.isDigit = true) (hne : ds ≠ []) : unsignedLiteral? negative (ds ++ '.' :: es) =
      some ⟨negative, valueOf (ds ++ es), -es.length⟩ := by
  have hs : splitDigits (ds ++ '.' :: es) = (ds, '.' :: es) := splitDigits_append hd rfl
  have hs' : splitDigits (es ++ []) = (es, []) := splitDigits_append he rfl
  rw [List.append_nil] at hs'
  simp [unsignedLiteral?, hs, hs', hne, exponent?]

theorem valueOf_toDigits (n : Nat) : valueOf (Nat.toDigits 10 n) = n :=
  Nat.ofDigitChars_toDigits (by decide) (by decide)

/-- Zeros behind the digits raise the value. -/
theorem valueOf_append_zeros (ds : List Char) (n : Nat) :
    valueOf (ds ++ List.replicate n '0') = valueOf ds * 10 ^ n := by
  have h : Nat.ofDigitChars 10 (ds ++ List.replicate n '0') 0 = 10 ^ n * Nat.ofDigitChars 10 ds 0 := by
    rw [Nat.ofDigitChars_append, Nat.ofDigitChars_replicate_zero]
  rw [Nat.mul_comm]
  exact h

/-- Zeros in front of the digits do not count. -/
theorem valueOf_padded (places n : Nat) : valueOf (padded places n) = n := by
  have h : Nat.ofDigitChars 10 (padded places n) 0 = Nat.ofDigitChars 10 (Nat.toDigits 10 n) 0 := by
    rw [padded, Nat.ofDigitChars_append, Nat.ofDigitChars_replicate_zero, Nat.mul_zero]
  exact h.trans (valueOf_toDigits n)

/-- Digits around a point are read as the number that they were written for. -/
theorem unsignedLiteral_positional (negative : Bool) (a : Nat) (place : Int) :
    ∃ b place', unsignedLiteral? negative (positional a place).toList = some ⟨negative, b, place'⟩ ∧
      decimalValue b place' = decimalValue a place := by
  by_cases hplace : 0 ≤ place
  · rw [positional, if_pos hplace, String.toList_ofList]
    refine ⟨_, _, unsignedLiteral_digits negative (fun c hc => ?_) ?_, ?_⟩
    · rcases List.mem_append.1 hc with hc | hc
      · exact isDigit_of_mem hc
      · rw [(List.mem_replicate.1 hc).2]
        rfl
    · intro h
      exact Nat.length_toDigits_pos.ne' (List.length_eq_zero_iff.2 (List.append_eq_nil_iff.1 h).1)
    · rw [valueOf_append_zeros, valueOf_toDigits, decimalValue, decimalValue, zpow_zero, mul_one,
        Nat.cast_mul, Nat.cast_pow, ← zpow_natCast, Int.toNat_of_nonneg hplace]
      rfl
  · have hlength := length_padded (-place).toNat a
    have hvalue := valueOf_padded (-place).toNat a
    rw [toList_positional_of_neg (Int.not_le.1 hplace)]
    refine ⟨_, _, unsignedLiteral_point negative (fun c hc => ?_) (fun c hc => ?_) ?_, ?_⟩
    · exact isDigit_of_mem_padded (List.mem_of_mem_take hc)
    · exact isDigit_of_mem_padded (List.mem_of_mem_drop hc)
    · rw [Ne, List.take_eq_nil_iff, not_or]
      exact ⟨by omega, List.length_pos_iff.1 (by omega)⟩
    · have hcount : -(((padded (-place).toNat a).drop
          ((padded (-place).toNat a).length - (-place).toNat)).length : Int) = place := by
        rw [List.length_drop]
        omega
      rw [List.take_append_drop, hvalue, hcount]

namespace Literal
variable {literal : Literal}

/-- A number without its sign is no number with one. -/
theorem read_of_unsigned {cs : List Char} (h : unsignedLiteral? false cs = some literal) :
    read? cs = some literal := by
  unfold read?
  split
  · cases h
  · exact h

/-- What a number stands for: its sign and the binary fraction that it rounds to. -/
def denoted? (literal : Literal) : Option (Bool × Binary) :=
  (Binary.ofDecimal? literal.coefficient literal.exponent).map (literal.negative, ·)

/-- The canonical form of a number stands for the same as the number. -/
theorem denoted_canonical {number : String} (h : literal.canonical? = some number) :
    ∃ again, read? number.toList = some again ∧ again.denoted? = literal.denoted? ∧
      literal.denoted?.isSome = true := by
  obtain ⟨x, hx, rfl⟩ := Option.map_eq_some_iff.1 h
  obtain ⟨hnormal, hle, -⟩ := Binary.ofDecimal_eq_some_iff.1 hx
  obtain ⟨b, place, hread, hvalue⟩ :=
    unsignedLiteral_positional literal.negative x.shortest.1 x.shortest.2
  have hagain : Binary.ofDecimal? b place = some x :=
    Binary.ofDecimal_eq_some_iff.2 ⟨hnormal, hle, hvalue ▸ Binary.rounds_shortest hnormal⟩
  refine ⟨⟨literal.negative, b, place⟩, ?_, ?_, ?_⟩
  · rw [String.toList_append]
    cases hn : literal.negative with
    | true =>
      rw [hn] at hread
      exact hread
    | false =>
      rw [hn] at hread
      exact read_of_unsigned hread
  · rw [denoted?, denoted?, hx, hagain]
  · rw [denoted?, hx]
    rfl

end Literal

end QuizPress.Decimal
