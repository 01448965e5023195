import Mathlib.Data.List.Induction
import QuizPress.Text.Blank
import QuizPress.Text.Numeral

/-! Numerals and the numbers that they are written for. What is read as a number is its digits, in letters
of either case and with zeros in front, and nothing else is read. -/
namespace QuizPress.Text

/-- The digits of a number, in letters of either case and with any count of zeros in front. -/
def Numeral (radix : Nat) (cs : List Char) (n : Nat) : Prop :=
  ∃ zeros, cs.map Char.toLower = List.replicate zeros '0' ++ Nat.toDigits radix n

section
variable {radix n d : Nat} {c : Char} {cs : List Char}

private theorem toNat_toLower (c : Char) :
    c.toLower.toNat = if 65 ≤ c.toNat ∧ c.toNat ≤ 90 then c.toNat + 32 else c.toNat := by
  unfold Char.toLower
  split
  · rename_i h
    have hc : 65 ≤ c.toNat ∧ c.toNat ≤ 90 := h
    rw [if_pos hc]
    calc (c.val + 32).toNat = (c.toNat + 32) % 2 ^ 32 := UInt32.toNat_add c.val 32
      _ = c.toNat + 32 := by omega
  · rename_i h
    have hc : ¬(65 ≤ c.toNat ∧ c.toNat ≤ 90) := h
    rw [if_neg hc]

private theorem toNat_digitChar (h : d < 16) :
    d.digitChar.toNat = if d < 10 then d + 48 else d + 87 := by
  decide +revert

theorem digit_eq_some_iff (hl : radix ≤ 16) :
    digit? radix c = some d ↔ d < radix ∧ c.toLower = d.digitChar := by
  rw [digit?, Option.filter_eq_some_iff, decide_eq_true_iff, and_comm]
  refine and_congr_right fun hd => ?_
  rw [← Char.toNat_inj, toNat_toLower, toNat_digitChar (by omega)]
  -- the three ranges of digits, and what is in none of them
  split
  · rw [Option.some.injEq]
    split <;> split <;> omega
  · split
    · rw [Option.some.injEq]
      split <;> split <;> omega
    · split
      · rw [Option.some.injEq]
        split <;> omega
      · rw [iff_false_left nofun]
        split <;> omega

theorem toNat_of_digit (h : (digit? radix c).isSome) : 48 ≤ c.toNat ∧ c.toNat ≤ 122 := by
  rw [digit?, Option.isSome_filter] at h
  split at h
  · omega
  · split at h
    · omega
    · split at h
      · omega
      · cases h

theorem not_isBlank_of_digit (h : (digit? radix c).isSome) : isBlank c = false := by
  have hc := toNat_of_digit h
  simp only [isBlank, Bool.or_eq_false_iff, Bool.and_eq_false_iff, decide_eq_false_iff_not,
    beq_eq_false_iff_ne]
  omega

theorem not_numeral_nil : ¬Numeral radix [] n := by
  rintro ⟨zeros, h⟩
  exact Nat.toDigits_ne_nil (List.append_eq_nil_iff.1 h.symm).2

theorem numeral_singleton (hr : 1 < radix) :
    Numeral radix [c] n ↔ n < radix ∧ c.toLower = n.digitChar := by
  constructor
  · rintro ⟨zeros, h⟩
    by_cases hn : n < radix
    · rw [Nat.toDigits_of_lt_base hn, List.map_singleton, ← List.nil_append [c.toLower]] at h
      exact ⟨hn, List.singleton_inj.1 (List.append_inj_right' h rfl)⟩
    · -- a number with two digits at least
      rw [Nat.toDigits_of_base_le hr (by omega)] at h
      have hl := congrArg List.length h
      have hpos := List.length_pos_iff.2 (Nat.toDigits_ne_nil (n := n / radix) (b := radix))
      simp only [List.length_map, List.length_append, List.length_singleton] at hl
      omega
  · rintro ⟨hn, hc⟩
    exact ⟨0, by rw [Nat.toDigits_of_lt_base hn, List.map_singleton, hc]; rfl⟩

theorem numeral_concat (hr : 1 < radix) (hcs : cs ≠ []) :
    Numeral radix (cs ++ [c]) n ↔
      Numeral radix cs (n / radix) ∧ c.toLower = (n % radix).digitChar := by
  have hne : cs.map Char.toLower ≠ [] := by simpa using hcs
  simp only [Numeral, List.map_append, List.map_singleton]
  by_cases hn : n < radix
  · -- all digits in front of the last one are zeros, and one of them is the digit of zero
    rw [Nat.toDigits_of_lt_base hn, Nat.div_eq_of_lt hn, Nat.mod_eq_of_lt hn, Nat.toDigits_zero]
    constructor
    · rintro ⟨zeros, h⟩
      obtain ⟨hz, hc⟩ := List.append_inj' h rfl
      refine ⟨?_, List.singleton_inj.1 hc⟩
      cases zeros with
      | zero => exact absurd hz hne
      | succ zeros => exact ⟨zeros, hz.trans List.replicate_succ'⟩
    · rintro ⟨⟨zeros, h⟩, hc⟩
      exact ⟨zeros + 1, by rw [h, hc, List.replicate_succ']⟩
  · rw [Nat.toDigits_of_base_le hr (by omega)]
    simp only [← List.append_assoc]
    constructor
    · rintro ⟨zeros, h⟩
      obtain ⟨hz, hc⟩ := List.append_inj' h rfl
      exact ⟨⟨zeros, hz⟩, List.singleton_inj.1 hc⟩
    · rintro ⟨⟨zeros, h⟩, hc⟩
      exact ⟨zeros, by rw [h, hc]⟩

theorem unsigned_singleton : unsigned? radix [c] = digit? radix c := by
  simp [unsigned?]

theorem unsigned_concat (hcs : cs ≠ []) : unsigned? radix (cs ++ [c]) =
    (unsigned? radix cs).bind fun m => (digit? radix c).map (m * radix + ·) := by
  simp [unsigned?, hcs]

/-- Digits are read as the number of which they are the digits, and as none if there is no such number. -/
theorem unsigned_eq_some_iff (hr : 1 < radix) (hl : radix ≤ 16) :
    unsigned? radix cs = some n ↔ Numeral radix cs n := by
  induction cs using List.reverseRecOn generalizing n with
  | nil => exact iff_of_false nofun not_numeral_nil
  | append_singleton cs c ih =>
    by_cases hcs : cs = []
    · subst hcs
      rw [List.nil_append, unsigned_singleton, digit_eq_some_iff hl, numeral_singleton hr]
    · rw [unsigned_concat hcs, numeral_concat hr hcs, ← ih]
      constructor
      · intro h
        obtain ⟨m, hm, h⟩ := Option.bind_eq_some_iff.1 h
        obtain ⟨d, hd, rfl⟩ := Option.map_eq_some_iff.1 h
        obtain ⟨hlt, hc⟩ := (digit_eq_some_iff hl).1 hd
        have hdiv : (m * radix + d) / radix = m := by
          rw [Nat.mul_comm, Nat.mul_add_div (by omega), Nat.div_eq_of_lt hlt, Nat.add_zero]
        have hmod : (m * radix + d) % radix = d := by
          rw [Nat.mul_comm, Nat.mul_add_mod, Nat.mod_eq_of_lt hlt]
        rw [hdiv, hmod]
        exact ⟨hm, hc⟩
      · rintro ⟨hm, hc⟩
        have hd := (digit_eq_some_iff hl).2 ⟨Nat.mod_lt n (by omega), hc⟩
        rw [hm, hd, Option.bind_some, Option.map_some, Nat.div_add_mod']

theorem digit_of_unsigned (h : unsigned? radix cs = some n) : ∀ c ∈ cs, (digit? radix c).isSome := by
  induction cs using List.reverseRecOn generalizing n with
  | nil => exact fun _ hc => absurd hc List.not_mem_nil
  | append_singleton cs c ih =>
    by_cases hcs : cs = []
    · subst hcs
      rw [List.nil_append, unsigned_singleton] at h
      simp [h]
    · rw [unsigned_concat hcs] at h
      obtain ⟨m, hm, h⟩ := Option.bind_eq_some_iff.1 h
      obtain ⟨d, hd, _⟩ := Option.map_eq_some_iff.1 h
      exact List.forall_mem_append.2 ⟨ih hm, by simp [hd]⟩

/-- A digit is no sign. -/
theorem numeral_of_unsigned (h : unsigned? radix cs = some n) : numeral? radix cs = some n := by
  unfold numeral?
  split
  · exact absurd (toNat_of_digit (digit_of_unsigned h '+' List.mem_cons_self)) (by decide)
  · exact h

/-- A numeral is made of digits, with a plus sign in front of them or without. -/
theorem mem_of_numeral (h : numeral? radix cs = some n) :
    ∀ c ∈ cs, c = '+' ∨ (digit? radix c).isSome := by
  unfold numeral? at h
  split at h
  · exact List.forall_mem_cons.2 ⟨.inl rfl, fun c hc => .inr (digit_of_unsigned h c hc)⟩
  · exact fun c hc => .inr (digit_of_unsigned h c hc)

/-- One plus sign may stand in front of the digits, and no other sign. -/
theorem numeral_eq_some_iff (hr : 1 < radix) (hl : radix ≤ 16) : numeral? radix cs = some n ↔
    Numeral radix cs n ∨ ∃ digits, cs = '+' :: digits ∧ Numeral radix digits n := by
  simp only [← unsigned_eq_some_iff hr hl]
  constructor
  · intro h
    unfold numeral? at h
    split at h
    · exact .inr ⟨_, rfl, h⟩
    · exact .inl h
  · rintro (h | ⟨digits, rfl, h⟩)
    · exact numeral_of_unsigned h
    · exact h

end

/-- A number is the value of its digits. -/
theorem unsigned_toDigits (n : Nat) : unsigned? 10 (Nat.toDigits 10 n) = some n := by
  have hd : ∀ c ∈ Nat.toDigits 10 n, c.toLower = c := by
    intro c hc
    have hdigit := Nat.isDigit_of_mem_toDigits (by decide) (by decide) hc
    have hrange : 48 ≤ c.toNat ∧ c.toNat ≤ 57 := by
      simpa [Char.isDigit, UInt32.le_iff_toNat_le] using hdigit
    rw [← Char.toNat_inj, toNat_toLower, if_neg (by omega)]
  exact (unsigned_eq_some_iff (by decide) (by decide)).2
    ⟨0, (List.map_congr_left hd).trans (List.map_id _)⟩

end QuizPress.Text
