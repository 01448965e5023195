import QuizPress.Decimal.Literal

/-! The form that canonical numbers have: no zero stands in front of their digits, and no point
without digits on both sides. -/
namespace QuizPress.Decimal

def isWhole (cs : List Char) : Bool :=
  cs.all Char.isDigit && (cs == ['0'] || cs.head?.any (· != '0'))

def isFraction : List Char → Bool
  | [] => true
  | c :: cs => c == '.' && !cs.isEmpty && cs.all Char.isDigit

def isUnsigned (cs : List Char) : Bool :=
  isWhole (cs.takeWhile Char.isDigit) && isFraction (cs.dropWhile Char.isDigit)

/-- A number in decimal digits, with a minus sign or without. -/
def isDecimal : List Char → Bool
  | [] => false
  | c :: cs => if c = '-' then isUnsigned cs else isUnsigned (c :: cs)

/-- A number begins with a sign or with a digit. -/
theorem isDigit_of_isDecimal {c : Char} {cs : List Char} (h : isDecimal (c :: cs) = true) :
    c = '-' ∨ c.isDigit = true := by
  rw [isDecimal] at h
  split at h
  · rename_i hc
    exact .inl hc
  · cases hd : c.isDigit with
    | true => exact .inr rfl
    | false => simp [isUnsigned, isWhole, hd] at h

private theorem digitChar_ne_zero {d : Nat} (h : d < 10) : 0 < d → d.digitChar ≠ '0' := by
  decide +revert

/-- The digits of a positive number do not begin with a zero. -/
theorem toDigits_head {n : Nat} (h : 0 < n) : ∃ c cs, Nat.toDigits 10 n = c :: cs ∧ c ≠ '0' := by
  induction n using Nat.strongRecOn with
  | _ n ih =>
    by_cases hn : n < 10
    · exact ⟨_, [], Nat.toDigits_of_lt_base hn, digitChar_ne_zero hn h⟩
    · obtain ⟨c, cs, he, hc⟩ := ih (n / 10) (by omega) (by omega)
      refine ⟨c, cs ++ [(n % 10).digitChar], ?_, hc⟩
      rw [Nat.toDigits_of_base_le (by decide) (by omega), he]
      rfl

theorem isDigit_of_mem {n : Nat} {c : Char} (h : c ∈ Nat.toDigits 10 n) : c.isDigit = true :=
  Nat.isDigit_of_mem_toDigits (by decide) (by decide) h

/-- The digits of a number are those of a whole number. -/
theorem isWhole_toDigits (n : Nat) : isWhole (Nat.toDigits 10 n) = true := by
  rw [isWhole, List.all_eq_true.2 fun _ hc => isDigit_of_mem hc, Bool.true_and]
  rcases Nat.eq_zero_or_pos n with rfl | hn
  · rfl
  · obtain ⟨c, cs, he, hne⟩ := toDigits_head hn
    simp [he, hne]

theorem isUnsigned_append {whole fraction : List Char} (hw : isWhole whole = true)
    (hf : isFraction fraction = true) : isUnsigned (whole ++ fraction) = true := by
  have hd : ∀ c ∈ whole, c.isDigit = true := by
    simp only [isWhole, Bool.and_eq_true, List.all_eq_true] at hw
    exact hw.1
  have ht : fraction.takeWhile Char.isDigit = [] ∧ fraction.dropWhile Char.isDigit = fraction := by
    cases fraction with
    | nil => exact ⟨rfl, rfl⟩
    | cons c cs =>
      simp only [isFraction, Bool.and_eq_true, beq_iff_eq] at hf
      obtain rfl := hf.1.1
      exact ⟨rfl, rfl⟩
  rw [isUnsigned, List.takeWhile_append_of_pos hd, List.dropWhile_append_of_pos hd, ht.1, ht.2,
    List.append_nil, hw, hf]
  rfl

/-- The digits of a number, with zeros in front so that one digit more than `places` is there. -/
def padded (places n : Nat) : List Char :=
  List.replicate (places + 1 - (Nat.toDigits 10 n).length) '0' ++ Nat.toDigits 10 n

theorem isDigit_of_mem_padded {places n : Nat} {c : Char} (h : c ∈ padded places n) :
    c.isDigit = true := by
  rcases List.mem_append.1 h with h | h
  · rw [(List.mem_replicate.1 h).2]
    rfl
  · exact isDigit_of_mem h

theorem length_padded (places n : Nat) : places < (padded places n).length := by
  rw [padded, List.length_append, List.length_replicate]
  omega

/-- Either nothing is put in front, or a single zero stands in front of the point. -/
private theorem isWhole_padded {places : Nat} (hp : 0 < places) (n : Nat) :
    isWhole ((padded places n).take ((padded places n).length - places)) = true := by
  have hd : ((padded places n).take ((padded places n).length - places)).all Char.isDigit = true :=
    List.all_eq_true.2 fun _ hc => isDigit_of_mem_padded (List.mem_of_mem_take hc)
  rw [isWhole, hd, Bool.true_and, Bool.or_eq_true]
  by_cases hl : (Nat.toDigits 10 n).length ≤ places
  · left
    have hr : places + 1 - (Nat.toDigits 10 n).length = (places - (Nat.toDigits 10 n).length) + 1 := by
      omega
    have ht : (padded places n).length - places = 1 := by
      rw [padded, List.length_append, List.length_replicate]
      omega
    rw [ht, padded, hr, List.replicate_succ]
    rfl
  · right
    have hz : places + 1 - (Nat.toDigits 10 n).length = 0 := by omega
    have hn : 0 < n := by
      rcases Nat.eq_zero_or_pos n with rfl | hn
      · have : (Nat.toDigits 10 0).length = 1 := rfl
        omega
      · exact hn
    obtain ⟨c, cs, he, hne⟩ := toDigits_head hn
    obtain ⟨k, hk⟩ : ∃ k, (c :: cs).length - places = k + 1 :=
      ⟨(c :: cs).length - places - 1, by rw [← he]; omega⟩
    rw [padded, hz, List.replicate_zero, List.nil_append, he, hk, List.take_succ_cons]
    simpa using hne

private theorem isFraction_padded {places : Nat} (hp : 0 < places) (n : Nat) :
    isFraction ('.' :: (padded places n).drop ((padded places n).length - places)) = true := by
  have hl := length_padded places n
  simp only [isFraction, Bool.and_eq_true, List.all_eq_true, Bool.not_eq_true', beq_self_eq_true,
    true_and, List.isEmpty_eq_false_iff, ne_eq, List.drop_eq_nil_iff]
  exact ⟨by omega, fun c hc => isDigit_of_mem_padded (List.mem_of_mem_drop hc)⟩

theorem toList_positional_of_neg {coefficient : Nat} {place : Int} (h : place < 0) :
    (positional coefficient place).toList =
      let ds := padded (-place).toNat coefficient
      ds.take (ds.length - (-place).toNat) ++ '.' :: ds.drop (ds.length - (-place).toNat) := by
  rw [positional, if_neg (Int.not_le.2 h), String.toList_append, String.toList_append, String.toList_ofList,
    String.toList_ofList, String.toList_ofList, List.append_assoc]
  rfl

/-- Digits around a point have the form of a number, but for a zero with more zeros behind it. -/
theorem isUnsigned_positional {coefficient : Nat} {place : Int} (h : coefficient = 0 → place ≤ 0) :
    isUnsigned (positional coefficient place).toList = true := by
  by_cases hp : 0 ≤ place
  · rw [positional, if_pos hp, String.toList_ofList, ← List.append_nil (_ ++ _)]
    refine isUnsigned_append ?_ rfl
    rcases Nat.eq_zero_or_pos coefficient with rfl | hc
    · have hz : place.toNat = 0 := by have := h rfl; omega
      rw [hz]
      rfl
    · obtain ⟨c, cs, he, hne⟩ := toDigits_head hc
      simp only [isWhole, Bool.and_eq_true, List.all_eq_true]
      refine ⟨fun x hx => ?_, ?_⟩
      · rcases List.mem_append.1 hx with hx | hx
        · exact isDigit_of_mem hx
        · rw [(List.mem_replicate.1 hx).2]
          rfl
      · simp [he, hne]
  · have hplaces : 0 < (-place).toNat := by omega
    rw [toList_positional_of_neg (Int.not_le.1 hp)]
    exact isUnsigned_append (isWhole_padded hplaces coefficient) (isFraction_padded hplaces coefficient)

theorem powUp_pos {base : Nat} (h : 0 < base) (e : Int) : 0 < powUp base e :=
  Nat.pow_pos h

namespace Binary

/-- Zero is too small to be rounded to a positive fraction. -/
theorem contains_zero {x : Binary} (h : x.mantissa ≠ 0) (place : Int) : x.contains 0 place = false := by
  have hb : 0 < 4 * x.mantissa -
      (if x.mantissa = Nat.pow 2 (digits - 1) ∧ leastExponent < x.exponent then 1 else 2) := by
    split <;> omega
  have hbinary : 0 < powUp 2 (x.exponent - 2) := powUp_pos (by decide) _
  have hdecimal : 0 < powUp 10 (-place) := powUp_pos (by decide) _
  have hr := Nat.mul_pos (Nat.mul_pos hb hbinary) hdecimal
  rw [contains, Bool.and_eq_false_iff]
  left
  unfold atLeast
  dsimp only
  rw [Nat.zero_mul, Nat.zero_mul]
  split
  · exact decide_eq_false (Nat.not_lt_zero _)
  · exact decide_eq_false (Nat.not_le_of_lt hr)

private theorem onGrid_ne_zero {x : Binary} (h : x.mantissa ≠ 0) {place : Int} {r : Nat × Int}
    (hr : x.onGrid? place = some r) : r.1 ≠ 0 := by
  have hz : ∀ {a : Nat}, x.contains a place = true → a ≠ 0 := by
    rintro a ha rfl
    rw [contains_zero h] at ha
    cases ha
  unfold onGrid? at hr
  dsimp only at hr
  split at hr
  · rename_i hfloor _
    cases hr
    dsimp only
    split
    · exact hz hfloor
    · exact Nat.succ_ne_zero _
  · rename_i hfloor _
    cases hr
    exact hz hfloor
  · cases hr
    exact Nat.succ_ne_zero _
  · cases hr

/-- The fraction of fewest digits is not zero, but for the digit zero itself. -/
theorem shortest_place {x : Binary} (h : x.shortest.1 = 0) : x.shortest.2 ≤ 0 := by
  unfold shortest at h ⊢
  split at h
  · rename_i hm
    exact Int.le_of_eq (congrArg Prod.snd (if_pos hm))
  · rename_i hm
    rw [if_neg hm]
    cases hf : (List.range 634).findSome? fun (i : Nat) => x.onGrid? (309 - (i : Int)) with
    | none => exact Int.le_refl 0
    | some r =>
      rw [hf] at h
      obtain ⟨i, _, hr⟩ := List.exists_of_findSome?_eq_some hf
      exact absurd h (onGrid_ne_zero hm hr)

end Binary

/-- A canonical number has the form of a number. -/
theorem isDecimal_canonical {literal : Literal} {number : String}
    (h : literal.canonical? = some number) : isDecimal number.toList = true := by
  obtain ⟨x, _, rfl⟩ := Option.map_eq_some_iff.1 h
  have hu := isUnsigned_positional (Binary.shortest_place (x := x))
  rw [String.toList_append]
  split
  · show isDecimal ('-' :: _) = true
    rw [isDecimal, if_pos rfl]
    exact hu
  · show isDecimal (positional _ _).toList = true
    cases hc : (positional x.shortest.1 x.shortest.2).toList with
    | nil =>
      rw [hc] at hu
      cases hu
    | cons c cs =>
      rw [hc] at hu
      rw [isDecimal, if_neg]
      · exact hu
      · rintro rfl
        cases hu

end QuizPress.Decimal
