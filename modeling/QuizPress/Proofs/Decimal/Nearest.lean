import Mathlib.Algebra.Order.Field.Power
import Mathlib.Algebra.Order.Field.Rat
import Mathlib.Tactic.FieldSimp
import Mathlib.Tactic.GCongr
import Mathlib.Tactic.Linarith
import Mathlib.Tactic.NormNum
import Mathlib.Tactic.Positivity
import Mathlib.Tactic.Ring
import QuizPress.Proofs.Decimal

/-! The binary fraction nearest to a number. Around each fraction lie the numbers that round to it; these
intervals do not overlap, and the fraction that is computed is the one in whose interval the number lies. -/
namespace QuizPress.Decimal

/-- Of the two powers one is the power that is meant, and the other one is one. -/
theorem powUp_div {base : Nat} (h : 0 < base) (e : Int) :
    (powUp base e : ℚ) / powUp base (-e) = (base : ℚ) ^ e := by
  have hb : (base : ℚ) ≠ 0 := by exact_mod_cast h.ne'
  obtain ⟨n, rfl | rfl⟩ := e.eq_nat_or_neg
  · simp [powUp]
  · simp [powUp]

/-- The number `a * 10 ^ place`. -/
def decimalValue (a : Nat) (place : Int) : ℚ := a * 10 ^ place

theorem decimalValue_eq (a : Nat) (place : Int) :
    decimalValue a place = (a * powUp 10 place : ℕ) / (powUp 10 (-place) : ℕ) := by
  have h := powUp_div (show 0 < 10 by decide) place
  rw [decimalValue, Nat.cast_mul, mul_div_assoc, h]
  rfl

/-- Rounding to a whole number: the quotient is no further from it than a half, and a half away only from
an even one. -/
theorem roundDiv_bounds (num : Nat) {den : Nat} (h : 0 < den) :
    2 * num ≤ (2 * roundDiv num den + 1) * den ∧ 2 * roundDiv num den * den ≤ 2 * num + den ∧
      (roundDiv num den % 2 = 1 → 2 * num < (2 * roundDiv num den + 1) * den ∧
        2 * roundDiv num den * den < 2 * num + den) := by
  have hnum : den * (num / den) + num % den = num := Nat.div_add_mod num den
  have hlt : num % den < den := Nat.mod_lt num h
  unfold roundDiv
  dsimp only
  generalize num / den = q at *
  generalize num % den = r at *
  subst hnum
  split
  · refine ⟨?_, ?_, fun _ => ⟨?_, ?_⟩⟩ <;> nlinarith
  · split
    · refine ⟨?_, ?_, fun _ => ⟨?_, ?_⟩⟩ <;> nlinarith
    · have hr : 2 * r = den := by omega
      rcases Nat.mod_two_eq_zero_or_one q with hq | hq
      · rw [hq]
        refine ⟨?_, ?_, fun hodd => ?_⟩
        · nlinarith
        · nlinarith
        · omega
      · rw [hq]
        refine ⟨?_, ?_, fun hodd => ?_⟩
        · nlinarith
        · nlinarith
        · omega

namespace Binary

/-- A fraction has as many digits as there may be, unless it is one of the finest. -/
structure Normal (x : Binary) : Prop where
  lt : x.mantissa < 2 ^ 53
  least : leastExponent ≤ x.exponent
  full : 2 ^ 52 ≤ x.mantissa ∨ x.exponent = leastExponent

/-- How far it is to the middle to the neighbour below, in quarters of the last digit. -/
def below (x : Binary) : Nat :=
  if x.mantissa = 2 ^ 52 ∧ leastExponent < x.exponent then 1 else 2

def lower (x : Binary) : ℚ := (4 * x.mantissa - x.below : ℕ) * 2 ^ (x.exponent - 2)

def upper (x : Binary) : ℚ := (4 * x.mantissa + 2 : ℕ) * 2 ^ (x.exponent - 2)

/-- The numbers that round to a fraction: those between the middles, and the middles themselves if the
fraction is even. -/
structure Rounds (v : ℚ) (x : Binary) : Prop where
  lower_le : x.lower ≤ v
  le_upper : v ≤ x.upper
  strict : x.mantissa % 2 = 1 → x.lower < v ∧ v < x.upper

def Before (x y : Binary) : Prop :=
  x.exponent < y.exponent ∨ x.exponent = y.exponent ∧ x.mantissa < y.mantissa

/-- In quarters of the last digit of the smaller one: the interval of a fraction ends where that of a greater
one begins, or before; where they meet, one of the two is odd. -/
private theorem quarters_le {x y : Binary} (hx : x.Normal) (hy : y.Normal) (h : x.Before y) :
    4 * x.mantissa + 2 ≤ (4 * y.mantissa - y.below) * 2 ^ (y.exponent - x.exponent).toNat ∧
      (4 * x.mantissa + 2 = (4 * y.mantissa - y.below) * 2 ^ (y.exponent - x.exponent).toNat →
        x.mantissa % 2 = 1 ∨ y.mantissa % 2 = 1) := by
  obtain ⟨hxlt, hxleast, hxfull⟩ := hx
  obtain ⟨-, -, hyfull⟩ := hy
  rcases h with h | ⟨he, hm⟩
  · -- the greater one has all its digits
    have hfull : 2 ^ 52 ≤ y.mantissa := hyfull.resolve_right (by omega)
    obtain ⟨k, hk⟩ : ∃ k, (y.exponent - x.exponent).toNat = k + 1 :=
      ⟨(y.exponent - x.exponent).toNat - 1, by omega⟩
    have hquarters : 2 ^ 54 - 1 ≤ 4 * y.mantissa - y.below := by
      unfold below
      split <;> omega
    have hp : 1 ≤ 2 ^ k := Nat.one_le_two_pow
    have hle : (2 ^ 54 - 1) * (2 * 1) ≤ (4 * y.mantissa - y.below) * (2 * 2 ^ k) :=
      Nat.mul_le_mul hquarters (Nat.mul_le_mul_left 2 hp)
    rw [hk, Nat.pow_succ, Nat.mul_comm (2 ^ k)]
    exact ⟨by omega, fun heq => .inl (by omega)⟩
  · have hbelow : y.below = 2 := by
      rw [below, if_neg]
      rintro ⟨hm', hl⟩
      rcases hxfull with hfull | hfull <;> omega
    rw [hbelow, he, Int.sub_self, Int.toNat_zero, Nat.pow_zero, Nat.mul_one]
    exact ⟨by omega, fun heq => by omega⟩

theorem upper_le_lower {x y : Binary} (hx : x.Normal) (hy : y.Normal) (h : x.Before y) :
    x.upper ≤ y.lower ∧ (x.upper = y.lower → x.mantissa % 2 = 1 ∨ y.mantissa % 2 = 1) := by
  obtain ⟨hle, heq⟩ := quarters_le hx hy h
  have hunit : (0 : ℚ) < 2 ^ (x.exponent - 2) := by positivity
  have hlower : y.lower =
      ((4 * y.mantissa - y.below) * 2 ^ (y.exponent - x.exponent).toNat : ℕ) * 2 ^ (x.exponent - 2) := by
    have hexponent : y.exponent - 2 = ((y.exponent - x.exponent).toNat : Int) + (x.exponent - 2) := by
      rcases h with h | h <;> omega
    rw [lower, hexponent, zpow_add₀ (by norm_num : (2 : ℚ) ≠ 0), zpow_natCast, ← mul_assoc]
    push_cast
    rfl
  rw [upper, hlower]
  constructor
  · gcongr
  · intro h
    exact heq (by exact_mod_cast mul_right_cancel₀ hunit.ne' h)

theorem before_of_ne {x y : Binary} (h : x ≠ y) : x.Before y ∨ y.Before x := by
  by_contra hc
  simp only [Before, not_or, not_and] at hc
  apply h
  have he : x.exponent = y.exponent := by omega
  have hm : x.mantissa = y.mantissa := by
    have h1 := hc.1.2 he
    have h2 := hc.2.2 he.symm
    omega
  cases x
  cases y
  cases he
  cases hm
  rfl

/-- A number does not round to a fraction and to a greater one. -/
theorem not_rounds_of_before {x y : Binary} {v : ℚ} (hx : x.Normal) (hy : y.Normal) (h : x.Before y)
    (hvx : Rounds v x) (hvy : Rounds v y) : False := by
  obtain ⟨hle, heq⟩ := upper_le_lower hx hy h
  have hmeet : x.upper = y.lower := le_antisymm hle (hvy.lower_le.trans hvx.le_upper)
  rcases heq hmeet with hodd | hodd
  · have := (hvx.strict hodd).2
    linarith [hvy.lower_le]
  · have := (hvy.strict hodd).1
    linarith [hvx.le_upper]

/-- A number rounds to one fraction. -/
theorem Rounds.unique {x y : Binary} {v : ℚ} (hx : x.Normal) (hy : y.Normal) (hvx : Rounds v x)
    (hvy : Rounds v y) : x = y := by
  by_contra hne
  rcases before_of_ne hne with h | h
  · exact not_rounds_of_before hx hy h hvx hvy
  · exact not_rounds_of_before hy hx h hvy hvx

/-- A quotient in units of `2 ^ e`. -/
theorem scaled_eq (num : Nat) {den : Nat} (hd : 0 < den) (e : Int) :
    (num / den : ℚ) * (den * powUp 2 e : ℕ) = (num * powUp 2 (-e) : ℕ) * 2 ^ e := by
  have hden : (den : ℚ) ≠ 0 := by exact_mod_cast hd.ne'
  have hpow : (powUp 2 (-e) : ℚ) ≠ 0 := by exact_mod_cast (powUp_pos (by decide) (-e)).ne'
  have h := powUp_div (show 0 < 2 by decide) e
  rw [div_eq_iff hpow] at h
  push_cast at h ⊢
  rw [h]
  field_simp

/-- A quotient against the whole number of units that it is rounded to. -/
theorem scaled_bounds (num : Nat) {den : Nat} (hd : 0 < den) (e : Int) :
    let m := roundDiv (num * powUp 2 (-e)) (den * powUp 2 e)
    2 * (num / den : ℚ) ≤ (2 * m + 1) * 2 ^ e ∧ (2 * m - 1) * 2 ^ e ≤ 2 * (num / den : ℚ) ∧
      (m % 2 = 1 → 2 * (num / den : ℚ) < (2 * m + 1) * 2 ^ e ∧
        (2 * m - 1) * 2 ^ e < 2 * (num / den : ℚ)) := by
  have hb : 0 < den * powUp 2 e := Nat.mul_pos hd (powUp_pos (by decide) e)
  obtain ⟨habove, hbelow, hodd⟩ := roundDiv_bounds (num * powUp 2 (-e)) hb
  have hv := scaled_eq num hd e
  dsimp only
  generalize den * powUp 2 e = b at *
  generalize num * powUp 2 (-e) = a at *
  generalize roundDiv a b = m at *
  have hbq : (0 : ℚ) < b := by exact_mod_cast hb
  have hu : (0 : ℚ) < 2 ^ e := by positivity
  have habove : (2 * a : ℚ) ≤ (2 * m + 1) * b := by exact_mod_cast habove
  have hbelow : (2 * m * b : ℚ) ≤ 2 * a + b := by exact_mod_cast hbelow
  refine ⟨?_, ?_, fun h => ⟨?_, ?_⟩⟩
  · refine le_of_mul_le_mul_right ?_ hbq
    nlinarith
  · refine le_of_mul_le_mul_right ?_ hbq
    nlinarith
  · have habove : (2 * a : ℚ) < (2 * m + 1) * b := by exact_mod_cast (hodd h).1
    refine lt_of_mul_lt_mul_right ?_ hbq.le
    nlinarith
  · have hbelow : (2 * m * b : ℚ) < 2 * a + b := by exact_mod_cast (hodd h).2
    refine lt_of_mul_lt_mul_right ?_ hbq.le
    nlinarith

/-- The fraction of so many units of `2 ^ e`. If they are too many by one, the unit is doubled. -/
def ofUnits (m : Nat) (e : Int) : Binary :=
  if m = 2 ^ 53 then ⟨2 ^ 52, e + 1⟩ else ⟨m, e⟩

theorem zpow_quarter (e : Int) : (2 : ℚ) ^ e = 4 * 2 ^ (e - 2) := by
  rw [zpow_sub₀ (by norm_num : (2 : ℚ) ≠ 0)]
  ring

/-- A number that is a unit too many rounds to the least mantissa of the doubled unit. -/
private theorem rounds_doubled {v : ℚ} {e : Int} (he : leastExponent ≤ e) (hlt : v < 2 ^ 53 * 2 ^ e)
    (hbelow : (2 ^ 54 - 1) * 2 ^ e ≤ 2 * v) :
    Normal ⟨2 ^ 52, e + 1⟩ ∧ Rounds v ⟨2 ^ 52, e + 1⟩ := by
  have hhalf : (2 : ℚ) ^ e = 2 * 2 ^ (e + 1 - 2) := by
    rw [zpow_sub₀ (by norm_num : (2 : ℚ) ≠ 0), zpow_add₀ (by norm_num : (2 : ℚ) ≠ 0)]
    ring
  have hone : Binary.below ⟨2 ^ 52, e + 1⟩ = 1 := by
    rw [below, if_pos]
    exact ⟨rfl, Int.lt_add_one_iff.2 he⟩
  have hu : (0 : ℚ) < 2 ^ (e + 1 - 2) := by positivity
  rw [hhalf] at hlt hbelow
  have hlt' : 2 ^ 52 < 2 ^ 53 := by decide
  refine ⟨⟨hlt', Int.le_add_one he, .inl (Nat.le_refl _)⟩, ?_, ?_, fun h => ?_⟩
  · rw [lower, hone]
    norm_num at hbelow ⊢
    linarith
  · rw [upper]
    norm_num at hlt ⊢
    linarith
  · change 2 ^ 52 % 2 = 1 at h
    omega

/-- A number of units that are not too many rounds to that number. -/
private theorem rounds_units {v : ℚ} {m : Nat} {e : Int} (he : leastExponent ≤ e) (hm : m < 2 ^ 53)
    (hfull : 2 ^ 52 * 2 ^ e ≤ v ∨ e = leastExponent) (hv : 0 ≤ v)
    (habove : 2 * v ≤ (2 * m + 1) * 2 ^ e) (hbelow : (2 * m - 1) * 2 ^ e ≤ 2 * v)
    (hodd : m % 2 = 1 → 2 * v < (2 * m + 1) * 2 ^ e ∧ (2 * m - 1) * 2 ^ e < 2 * v) :
    Normal ⟨m, e⟩ ∧ Rounds v ⟨m, e⟩ := by
  have hu : (0 : ℚ) < 2 ^ e := by positivity
  have hq : (0 : ℚ) < 2 ^ (e - 2) := by positivity
  have hnormal : Normal ⟨m, e⟩ := by
    refine ⟨hm, he, hfull.imp_left fun h => ?_⟩
    have h : (2 ^ 53 : ℚ) ≤ 2 * m + 1 := by
      refine le_of_mul_le_mul_right ?_ hu
      linarith
    have h : 2 ^ 53 ≤ 2 * m + 1 := by exact_mod_cast h
    change 2 ^ 52 ≤ m
    omega
  rw [zpow_quarter e] at habove hbelow hodd hfull
  have hlower (hm : 1 ≤ m) (htwo : Binary.below ⟨m, e⟩ = 2) :
      Binary.lower ⟨m, e⟩ = (2 * m - 1) * 2 * 2 ^ (e - 2) := by
    rw [lower, htwo, Nat.cast_sub (by dsimp only; omega)]
    push_cast
    ring
  have hupper : Binary.upper ⟨m, e⟩ = (2 * m + 1) * 2 * 2 ^ (e - 2) := by
    rw [upper]
    push_cast
    ring
  refine ⟨hnormal, ?_, ?_, fun h => ?_⟩
  · by_cases htwo : Binary.below ⟨m, e⟩ = 2
    · rcases Nat.eq_zero_or_pos m with rfl | hpos
      · rw [lower, htwo]
        simpa using hv
      · rw [hlower hpos htwo]
        linarith
    · -- the least mantissa of a unit that is not the finest
      have h : m = 2 ^ 52 ∧ leastExponent < e := by
        by_contra hc
        exact htwo (if_neg hc)
      have hle : ((4 * m - below ⟨m, e⟩ : ℕ) : ℚ) ≤ 4 * 2 ^ 52 := by
        have : 4 * m - below ⟨m, e⟩ ≤ 4 * 2 ^ 52 := by omega
        exact_mod_cast this
      have hv := hfull.resolve_right h.2.ne'
      rw [lower]
      calc ((4 * m - below ⟨m, e⟩ : ℕ) : ℚ) * 2 ^ (e - 2)
        _ ≤ 4 * 2 ^ 52 * 2 ^ (e - 2) := by gcongr
        _ ≤ v := by linarith
  · rw [hupper]
    linarith
  · have hpos : 1 ≤ m := by
      change m % 2 = 1 at h
      omega
    have htwo : Binary.below ⟨m, e⟩ = 2 := by
      rw [below, if_neg]
      rintro ⟨hm, -⟩
      change m = 2 ^ 52 at hm
      change m % 2 = 1 at h
      omega
    obtain ⟨hlt, hgt⟩ := hodd h
    rw [hlower hpos htwo, hupper]
    constructor
    · linarith
    · linarith

/-- Rounding to units in which the number has as many digits as there may be, or to the finest. -/
theorem rounds_ofUnits {num den : Nat} (hd : 0 < den) {e : Int} (he : leastExponent ≤ e)
    (hlt : (num / den : ℚ) < 2 ^ 53 * 2 ^ e)
    (hfull : (2 ^ 52 * 2 ^ e : ℚ) ≤ num / den ∨ e = leastExponent) :
    let x := ofUnits (roundDiv (num * powUp 2 (-e)) (den * powUp 2 e)) e
    x.Normal ∧ Rounds (num / den) x := by
  obtain ⟨habove, hbelow, hodd⟩ := scaled_bounds num hd e
  dsimp only
  generalize roundDiv (num * powUp 2 (-e)) (den * powUp 2 e) = m at *
  have hv : (0 : ℚ) ≤ num / den := by positivity
  generalize (num / den : ℚ) = v at *
  have hu : (0 : ℚ) < 2 ^ e := by positivity
  have hle : m ≤ 2 ^ 53 := by
    have h : (2 * m - 1 : ℚ) < 2 ^ 54 := by
      refine lt_of_mul_lt_mul_right ?_ hu.le
      linarith
    have h : (2 * m : ℚ) < 2 ^ 54 + 1 := by linarith
    have h : 2 * m < 2 ^ 54 + 1 := by exact_mod_cast h
    omega
  rw [ofUnits]
  split
  · rename_i hm
    refine rounds_doubled he hlt ?_
    have hcast : (m : ℚ) = 2 ^ 53 := by rw [hm]; norm_num
    rw [hcast] at hbelow
    linarith
  · exact rounds_units he (by omega) hfull hv habove hbelow hodd

/-- The binary logarithms of two numbers tell their quotient up to a factor. -/
theorem log_bounds {num den : Nat} (hn : 0 < num) (hd : 0 < den) :
    (2 : ℚ) ^ ((num.log2 : Int) - den.log2 - 1) ≤ num / den ∧
      (num / den : ℚ) < 2 ^ ((num.log2 : Int) - den.log2 + 1) := by
  have hdq : (0 : ℚ) < den := by exact_mod_cast hd
  have hnlow : (2 : ℚ) ^ (num.log2 : Int) ≤ num := by
    rw [zpow_natCast]
    exact_mod_cast Nat.log2_self_le hn.ne'
  have hnhigh : (num : ℚ) < 2 ^ ((num.log2 : Int) + 1) := by
    rw [← Nat.cast_succ, zpow_natCast]
    exact_mod_cast Nat.lt_log2_self
  have hdlow : (2 : ℚ) ^ (den.log2 : Int) ≤ den := by
    rw [zpow_natCast]
    exact_mod_cast Nat.log2_self_le hd.ne'
  have hdhigh : (den : ℚ) < 2 ^ ((den.log2 : Int) + 1) := by
    rw [← Nat.cast_succ, zpow_natCast]
    exact_mod_cast Nat.lt_log2_self
  have htwo : (2 : ℚ) ≠ 0 := by norm_num
  constructor
  · rw [le_div_iff₀ hdq]
    calc (2 : ℚ) ^ ((num.log2 : Int) - den.log2 - 1) * den
      _ ≤ 2 ^ ((num.log2 : Int) - den.log2 - 1) * 2 ^ ((den.log2 : Int) + 1) := by gcongr
      _ = 2 ^ (num.log2 : Int) := by
        rw [← zpow_add₀ htwo]
        congr 1
        ring
      _ ≤ num := hnlow
  · rw [div_lt_iff₀ hdq]
    calc (num : ℚ)
      _ < 2 ^ ((num.log2 : Int) + 1) := hnhigh
      _ = 2 ^ ((num.log2 : Int) - den.log2 + 1) * 2 ^ (den.log2 : Int) := by
        rw [← zpow_add₀ htwo]
        congr 1
        ring
      _ ≤ 2 ^ ((num.log2 : Int) - den.log2 + 1) * den := by gcongr

/-- The exponent of the last digit: as small as there may be digits, but not below the least one. -/
def unit (num den : Nat) : Int :=
  let least := max ((num.log2 : Int) - den.log2 - digits) leastExponent
  if num * powUp 2 (-least) / (den * powUp 2 least) < 2 ^ 53 then least else least + 1

theorem nearestTo_eq (num den : Nat) : nearestTo num den =
    ofUnits (roundDiv (num * powUp 2 (-unit num den)) (den * powUp 2 (unit num den))) (unit num den) := rfl

theorem unit_bounds {num den : Nat} (hn : 0 < num) (hd : 0 < den) :
    leastExponent ≤ unit num den ∧ (num / den : ℚ) < 2 ^ 53 * 2 ^ unit num den ∧
      ((2 ^ 52 * 2 ^ unit num den : ℚ) ≤ num / den ∨ unit num den = leastExponent) := by
  obtain ⟨hlow, hhigh⟩ := log_bounds hn hd
  have htwo : (2 : ℚ) ≠ 0 := by norm_num
  unfold unit
  generalize hl : max ((num.log2 : Int) - den.log2 - digits) leastExponent = least
  have hmost : (num.log2 : Int) - den.log2 - 53 ≤ least := hl ▸ le_max_left _ _
  have hleast : leastExponent ≤ least := hl ▸ le_max_right _ _
  have hb : 0 < den * powUp 2 least := Nat.mul_pos hd (powUp_pos (by decide) least)
  have hbq : (0 : ℚ) < (den * powUp 2 least : ℕ) := by exact_mod_cast hb
  have hscaled := scaled_eq num hd least
  -- the quotient in units against the number of digits
  have hfits : num * powUp 2 (-least) / (den * powUp 2 least) < 2 ^ 53 ↔
      (num / den : ℚ) < 2 ^ 53 * 2 ^ least := by
    have hu : (0 : ℚ) < 2 ^ least := by positivity
    rw [Nat.div_lt_iff_lt_mul hb, ← mul_lt_mul_iff_left₀ hbq, hscaled, mul_right_comm,
      mul_lt_mul_iff_left₀ hu]
    exact_mod_cast Iff.rfl
  dsimp only
  split
  · rename_i h
    refine ⟨hleast, hfits.1 h, ?_⟩
    rcases max_choice ((num.log2 : Int) - den.log2 - digits) leastExponent with hc | hc
    · left
      calc (2 ^ 52 * 2 ^ least : ℚ)
        _ = 2 ^ ((num.log2 : Int) - den.log2 - 1) := by
          have hexponent : (num.log2 : Int) - den.log2 - 1 = 52 + least := by
            have : (num.log2 : Int) - den.log2 - 53 = least := hc.symm.trans hl
            omega
          rw [hexponent, zpow_add₀ htwo]
          norm_num
        _ ≤ num / den := hlow
    · exact .inr (hl.symm.trans hc)
  · rename_i h
    refine ⟨by omega, ?_, .inl ?_⟩
    · calc (num / den : ℚ)
        _ < 2 ^ ((num.log2 : Int) - den.log2 + 1) := hhigh
        _ ≤ 2 ^ (53 + (least + 1)) := zpow_le_zpow_right₀ (by norm_num) (by omega)
        _ = 2 ^ 53 * 2 ^ (least + 1) := by
          rw [zpow_add₀ htwo]
          norm_num
    · have hge : (2 ^ 53 * 2 ^ least : ℚ) ≤ num / den := not_lt.1 fun hc => h (hfits.2 hc)
      calc (2 ^ 52 * 2 ^ (least + 1) : ℚ)
        _ = 2 ^ 53 * 2 ^ least := by
          rw [zpow_add₀ htwo]
          ring
        _ ≤ num / den := hge

/-- The fraction that is computed is the one that the quotient rounds to. -/
theorem rounds_nearestTo {num den : Nat} (hn : 0 < num) (hd : 0 < den) :
    (nearestTo num den).Normal ∧ Rounds (num / den) (nearestTo num den) := by
  obtain ⟨hleast, hlt, hfull⟩ := unit_bounds hn hd
  rw [nearestTo_eq]
  exact rounds_ofUnits hd hleast hlt hfull

theorem normal_zero : Normal ⟨0, leastExponent⟩ := ⟨by decide, Int.le_refl _, .inr rfl⟩

/-- What is at most half of the finest fraction rounds to zero. -/
theorem rounds_zero {v : ℚ} (hv : 0 ≤ v) (h : v ≤ 2 ^ (-1075 : Int)) : Rounds v ⟨0, leastExponent⟩ := by
  refine ⟨?_, ?_, fun h => nomatch h⟩
  · rw [lower]
    simpa using hv
  · have hupper : upper ⟨0, leastExponent⟩ = 2 ^ (-1075 : Int) := by
      have hexponent : (-1075 : Int) = 1 + (leastExponent - 2) := by decide
      rw [upper, hexponent, zpow_add₀ (by norm_num : (2 : ℚ) ≠ 0)]
      norm_num
    rw [hupper]
    exact h

private theorem two_zpow_le : (2 : ℚ) ^ (1023 : Int) ≤ 10 ^ (308 : Int) := by
  have h : (2 : ℚ) ^ 93 ≤ 10 ^ 28 := by norm_num
  calc (2 : ℚ) ^ (1023 : Int)
    _ = (2 ^ 93) ^ 11 := by rw [← pow_mul, ← zpow_natCast]; rfl
    _ ≤ (10 ^ 28) ^ 11 := by gcongr
    _ = 10 ^ (308 : Int) := by rw [← pow_mul, ← zpow_natCast]; rfl

/-- The finest fractions against the powers of ten that are below all of them. -/
theorem ten_zpow_le : (10 : ℚ) ^ (-324 : Int) ≤ 2 ^ (-1076 : Int) := by
  have htwo : (2 : ℚ) ^ (1076 : Int) = 2 ^ (1023 : Int) * 2 ^ (53 : Int) := by
    rw [← zpow_add₀ (by norm_num : (2 : ℚ) ≠ 0)]
    rfl
  have hten : (10 : ℚ) ^ (324 : Int) = 10 ^ (308 : Int) * 10 ^ (16 : Int) := by
    rw [← zpow_add₀ (by norm_num : (10 : ℚ) ≠ 0)]
    rfl
  have hrest : (2 : ℚ) ^ (53 : Int) ≤ 10 ^ (16 : Int) := by norm_num
  have hle : (2 : ℚ) ^ (1076 : Int) ≤ 10 ^ (324 : Int) := by
    rw [htwo, hten]
    have := two_zpow_le
    gcongr
  rw [zpow_neg, zpow_neg]
  gcongr

/-- The greatest fractions against the powers of ten that are above all of them. -/
theorem upper_lt {x : Binary} (hx : x.Normal) (he : x.exponent ≤ greatestExponent) :
    x.upper < 10 ^ (309 : Int) := by
  have htwo : (2 : ℚ) ≠ 0 := by norm_num
  have hm : 4 * x.mantissa + 2 < 2 ^ 55 := by
    have := hx.lt
    omega
  have he' : x.exponent - 2 ≤ 969 := by
    have : x.exponent ≤ 971 := he
    omega
  calc x.upper
    _ < 2 ^ 55 * 2 ^ (969 : Int) := by
      rw [upper]
      refine mul_lt_mul (by exact_mod_cast hm) (zpow_le_zpow_right₀ (by norm_num) he')
        (by positivity) (by positivity)
    _ = 2 * 2 ^ (1023 : Int) := by
      have hexponent : (1023 : Int) = 54 + 969 := by norm_num
      rw [hexponent, zpow_add₀ htwo, ← mul_assoc]
      congr 1
      norm_num
    _ ≤ 10 * 10 ^ (308 : Int) :=
      mul_le_mul (by norm_num) two_zpow_le (by positivity) (by norm_num)
    _ = 10 ^ (309 : Int) := by
      have hexponent : (309 : Int) = 1 + 308 := by norm_num
      rw [hexponent, zpow_add₀ (by norm_num : (10 : ℚ) ≠ 0)]
      norm_num

private theorem pow_length {a : Nat} (h : 0 < a) :
    10 ^ ((Nat.toDigits 10 a).length - 1) ≤ a ∧ a < 10 ^ (Nat.toDigits 10 a).length := by
  have hpos : 0 < (Nat.toDigits 10 a).length := Nat.length_toDigits_pos
  refine ⟨?_, (Nat.length_toDigits_le_iff (by decide) hpos).1 (Nat.le_refl _)⟩
  rcases Nat.eq_zero_or_pos ((Nat.toDigits 10 a).length - 1) with hz | hp
  · rw [hz]
    exact h
  · by_contra hc
    have := (Nat.length_toDigits_le_iff (by decide) hp).2 (Nat.not_le.1 hc)
    omega

/-- The number of digits of a coefficient tells how large the number is. -/
theorem decimalValue_bounds {a : Nat} (h : 0 < a) (place : Int) :
    (10 : ℚ) ^ ((Nat.toDigits 10 a).length + place - 1) ≤ decimalValue a place ∧
      decimalValue a place < 10 ^ ((Nat.toDigits 10 a).length + place) := by
  obtain ⟨hlow, hhigh⟩ := pow_length h
  have hten : (10 : ℚ) ≠ 0 := by norm_num
  have hpos : 0 < (Nat.toDigits 10 a).length := Nat.length_toDigits_pos
  generalize (Nat.toDigits 10 a).length = k at *
  have hplace : (0 : ℚ) < 10 ^ place := by positivity
  constructor
  · have hexponent : (k : Int) + place - 1 = ((k - 1 : ℕ) : Int) + place := by omega
    rw [hexponent, zpow_add₀ hten, zpow_natCast, decimalValue]
    have : (10 : ℚ) ^ (k - 1) ≤ a := by exact_mod_cast hlow
    gcongr
  · rw [zpow_add₀ hten, zpow_natCast, decimalValue]
    have : (a : ℚ) < 10 ^ k := by exact_mod_cast hhigh
    gcongr

/-- A decimal fraction becomes the binary one that it rounds to, if there is one. -/
theorem ofDecimal_eq_some_iff {a : Nat} {place : Int} {x : Binary} : ofDecimal? a place = some x ↔
    x.Normal ∧ x.exponent ≤ greatestExponent ∧ Rounds (decimalValue a place) x := by
  -- what is computed is the one, since there is but one
  have hone {y : Binary} (hnormal : y.Normal) (hrounds : Rounds (decimalValue a place) y) :
      (if greatestExponent < y.exponent then none else some y) = some x ↔
        x.Normal ∧ x.exponent ≤ greatestExponent ∧ Rounds (decimalValue a place) x := by
    constructor
    · intro h
      split at h
      · cases h
      · rename_i hle
        cases h
        exact ⟨hnormal, Int.not_lt.1 hle, hrounds⟩
    · rintro ⟨hx, hle, hv⟩
      obtain rfl := Rounds.unique hx hnormal hv hrounds
      exact if_neg (Int.not_lt.2 hle)
  have hzero (h : decimalValue a place ≤ 2 ^ (-1075 : Int)) : some ⟨0, leastExponent⟩ = some x ↔
      x.Normal ∧ x.exponent ≤ greatestExponent ∧ Rounds (decimalValue a place) x :=
    hone normal_zero (rounds_zero (by unfold decimalValue; positivity) h)
  rw [ofDecimal?]
  dsimp only
  split
  · rename_i h
    apply hzero
    rcases Nat.eq_zero_or_pos a with rfl | ha
    · rw [decimalValue, Nat.cast_zero, zero_mul]
      positivity
    · have hmagnitude := h.resolve_left ha.ne'
      calc decimalValue a place
        _ ≤ 10 ^ ((Nat.toDigits 10 a).length + place) := (decimalValue_bounds ha place).2.le
        _ ≤ 10 ^ (-324 : Int) := zpow_le_zpow_right₀ (by norm_num) (by omega)
        _ ≤ 2 ^ (-1076 : Int) := ten_zpow_le
        _ ≤ 2 ^ (-1075 : Int) := zpow_le_zpow_right₀ (by norm_num) (by norm_num)
  · rename_i h
    rw [not_or] at h
    have ha : 0 < a := Nat.pos_of_ne_zero h.1
    obtain ⟨hlow, -⟩ := decimalValue_bounds ha place
    split
    · rename_i hgreat
      refine ⟨nofun, fun ⟨hx, hle, hv⟩ => ?_⟩
      have hbeyond : (10 : ℚ) ^ (309 : Int) ≤ 10 ^ ((Nat.toDigits 10 a).length + place - 1) :=
        zpow_le_zpow_right₀ (by norm_num) (by omega)
      have := upper_lt hx hle
      exact absurd (hbeyond.trans hlow) (not_le.2 (hv.le_upper.trans_lt this))
    · have hden : 0 < powUp 10 (-place) := powUp_pos (by decide) _
      have hnum : 0 < a * powUp 10 place := Nat.mul_pos ha (powUp_pos (by decide) _)
      obtain ⟨hnormal, hrounds⟩ := rounds_nearestTo hnum hden
      rw [← decimalValue_eq] at hrounds
      exact hone hnormal hrounds

end Binary

end QuizPress.Decimal
