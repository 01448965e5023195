import QuizPress.Proofs.Quiz.Characters
import QuizPress.Proofs.Text.Numeral

/-! The references that are known, and what becomes of the others. -/
namespace QuizPress.Quiz
open Text Xml

def entities : List (String × Char) :=
  [("amp", '&'), ("lt", '<'), ("gt", '>'), ("quot", '"'), ("apos", '\'')]

/-- What stands in front of the number of a character, with the radix of its digits. -/
def marks : List (String × Nat) := [("#", 10), ("#x", 16), ("#X", 16)]

/-- A character goes by its own name if it has one, and by its number behind a mark, where one of the
`signs` stands between the two. In the names that documents are meant to use nothing stands there: their only
sign is the empty one. -/
inductive Names (signs : List String) (name : String) (c : Char) : Prop where
  | entity (h : (name, c) ∈ entities)
  | number {mark sign digits : String} {radix : Nat} (hm : (mark, radix) ∈ marks) (hs : sign ∈ signs)
      (hn : name = mark ++ sign ++ digits) (hd : Numeral radix digits.toList c.toNat)

/-- A reference says this text, between tags and wherever it stands in the value of an attribute. -/
structure Replaced (name said : String) : Prop where
  told : Told [.reference name] said
  value : (∀ x ∈ name.toList, inStrictName x = true) → ∀ before after,
    attributeValue (before ++ '&' :: (name.toList ++ ';' :: after)) =
      attributeValue before ++ said.toList ++ attributeValue after

section
variable {name mark : String} {c : Char} {radix n : Nat} {digits : List Char}

theorem scalar_eq_some_iff : scalar? n = some c ↔ n = c.toNat := by
  unfold scalar?
  constructor
  · intro h
    split at h
    · rename_i hn
      cases h
      rw [Char.ofNat, dif_pos hn]
      rfl
    · cases h
  · rintro rfl
    have hn : c.toNat.isValidChar := c.valid
    rw [if_pos hn, Char.ofNat_toNat]

theorem mem_marks (hm : (mark, radix) ∈ marks) :
    mark = "#" ∧ radix = 10 ∨ mark = "#x" ∧ radix = 16 ∨ mark = "#X" ∧ radix = 16 := by
  simpa [marks] using hm

theorem radix_of_marks (hm : (mark, radix) ∈ marks) : 1 < radix ∧ radix ≤ 16 := by
  rcases mem_marks hm with ⟨_, rfl⟩ | ⟨_, rfl⟩ | ⟨_, rfl⟩ <;> decide

/-- Behind each mark a number is read, and the character is the one with this number. -/
theorem referenced_mark (hm : (mark, radix) ∈ marks) (hd : numeral? radix digits = some n) :
    referenced? (mark.toList ++ digits) = scalar? n := by
  rcases mem_marks hm with ⟨rfl, rfl⟩ | ⟨rfl, rfl⟩ | ⟨rfl, rfl⟩
  · -- the letters of the other marks are no decimal digits
    have hx : ∀ rest, digits ≠ 'x' :: rest := by
      rintro rest rfl
      exact absurd (mem_of_numeral hd 'x' List.mem_cons_self) (by decide)
    have hX : ∀ rest, digits ≠ 'X' :: rest := by
      rintro rest rfl
      exact absurd (mem_of_numeral hd 'X' List.mem_cons_self) (by decide)
    change referenced? ('#' :: digits) = scalar? n
    rw [referenced?, hd, Option.bind_some]
    · exact hx
    · exact hX
  · change (numeral? 16 digits).bind scalar? = scalar? n
    rw [hd, Option.bind_some]
  · change (numeral? 16 digits).bind scalar? = scalar? n
    rw [hd, Option.bind_some]

theorem referenced_of_names (h : Names ["", "+"] name c) : referenced? name.toList = some c := by
  cases h with
  | entity h =>
    have hentities : ∀ entity ∈ entities, referenced? entity.1.toList = some entity.2 := by decide
    exact hentities _ h
  | @number mark sign digits radix hm hs hn hd =>
    obtain ⟨hr, hl⟩ := radix_of_marks hm
    have hnumeral : numeral? radix (sign.toList ++ digits.toList) = some c.toNat := by
      refine (numeral_eq_some_iff hr hl).2 ?_
      simp only [List.mem_cons, List.not_mem_nil, or_false] at hs
      rcases hs with rfl | rfl
      · exact .inl hd
      · exact .inr ⟨_, rfl, hd⟩
    rw [hn, String.toList_append, String.toList_append, List.append_assoc,
      referenced_mark hm hnumeral, scalar_eq_some_iff]

theorem names_of_numeral (hm : (mark, radix) ∈ marks) (hn : name.toList = mark.toList ++ digits)
    (h : (numeral? radix digits).bind scalar? = some c) : Names ["", "+"] name c := by
  obtain ⟨n, hd, hc⟩ := Option.bind_eq_some_iff.1 h
  obtain rfl := scalar_eq_some_iff.1 hc
  obtain ⟨hr, hl⟩ := radix_of_marks hm
  -- digits without a sign, or with a plus sign
  obtain ⟨sign, rest, hs, rfl, hrest⟩ : ∃ sign rest, sign ∈ ["", "+"] ∧
      digits = sign.toList ++ rest ∧ Numeral radix rest c.toNat := by
    rcases (numeral_eq_some_iff hr hl).1 hd with hplain | ⟨rest, rfl, hsigned⟩
    · exact ⟨"", digits, by decide, rfl, hplain⟩
    · exact ⟨"+", rest, by decide, rfl, hsigned⟩
  have hdigits : Numeral radix (String.ofList rest).toList c.toNat := by rwa [String.toList_ofList]
  refine .number hm hs ?_ hdigits
  rw [← String.toList_inj, hn, String.toList_append, String.toList_append, String.toList_ofList,
    List.append_assoc]

theorem names_of_referenced (h : referenced? name.toList = some c) : Names ["", "+"] name c := by
  unfold referenced? at h
  split at h
  · rename_i digits hn
    exact names_of_numeral (show ("#x", 16) ∈ marks by decide) hn h
  · rename_i digits hn
    exact names_of_numeral (show ("#X", 16) ∈ marks by decide) hn h
  · rename_i digits _ _ hn
    exact names_of_numeral (show ("#", 10) ∈ marks by decide) hn h
  · have hlisted : (name.toList, c) ∈ entities.map fun (name, c) => (name.toList, c) := mem_of_lookup h
    obtain ⟨entity, hentity, hsame⟩ := List.mem_map.1 hlisted
    obtain ⟨hn, rfl⟩ := Prod.mk.inj hsame
    obtain rfl := String.toList_inj.1 hn
    exact .entity hentity

theorem referenced_eq_some_iff : referenced? name.toList = some c ↔ Names ["", "+"] name c :=
  ⟨names_of_referenced, referenced_of_names⟩

/-- The names that documents are meant to use are those of the known ones that hold no plus sign. -/
theorem names_iff_plus_not_mem :
    Names [""] name c ↔ Names ["", "+"] name c ∧ '+' ∉ name.toList := by
  constructor
  · rintro (h | @⟨mark, sign, digits, radix, hm, hs, hn, hd⟩)
    · have hentities : ∀ entity ∈ entities, '+' ∉ entity.1.toList := by decide
      exact ⟨.entity h, hentities _ h⟩
    · obtain rfl := List.mem_singleton.1 hs
      obtain ⟨hr, hl⟩ := radix_of_marks hm
      have hmarks : ∀ mark ∈ marks, '+' ∉ mark.1.toList := by decide
      have hdigits : '+' ∉ digits.toList := fun hplus =>
        absurd (toNat_of_digit (digit_of_unsigned ((unsigned_eq_some_iff hr hl).2 hd) '+' hplus)) (by decide)
      refine ⟨.number hm List.mem_cons_self hn hd, ?_⟩
      rw [hn]
      simpa using ⟨hmarks _ hm, hdigits⟩
  · rintro ⟨h | @⟨mark, sign, digits, radix, hm, hs, hn, hd⟩, hplus⟩
    · exact .entity h
    · simp only [List.mem_cons, List.not_mem_nil, or_false] at hs
      rcases hs with rfl | rfl
      · exact .number hm List.mem_cons_self hn hd
      · exact absurd (by simp [hn]) hplus

theorem replaced_expansion (name : String) : Replaced name (.ofList (expansion name.toList)) where
  told := told_reference name
  value hname before after := by
    rw [attributeValue_eq, attributeValue_eq, attributeValue_eq, unescapeKnown_append_ampersand,
      unescapeKnown_reference hname, String.toList_ofList, List.append_assoc]

end

/-- The references that are known are those to the names of characters, be there a plus sign in front of the
digits or not; documents are meant to use those without. They say the character. All others, be it to a number
with another sign, to the number of no character, to no number at all or to a name that nobody knows, say
themselves. -/
theorem references_named (name : String) :
    (∀ c, referenced? name.toList = some c ↔ Names ["", "+"] name c) ∧
    (∀ c, Names [""] name c ↔ Names ["", "+"] name c ∧ '+' ∉ name.toList) ∧
    (∀ c, Names ["", "+"] name c → Replaced name (.singleton c)) ∧
    ((∀ c, ¬Names ["", "+"] name c) →
      referenced? name.toList = none ∧ Replaced name ("&" ++ name ++ ";")) := by
  have hsaid := replaced_expansion name
  rw [expansion] at hsaid
  refine ⟨fun c => referenced_eq_some_iff, fun c => names_iff_plus_not_mem, fun c hc => ?_, fun hnone => ?_⟩
  · rw [referenced_eq_some_iff.2 hc] at hsaid
    exact hsaid
  · have hr : referenced? name.toList = none :=
      Option.eq_none_iff_forall_ne_some.2 fun c hc => hnone c (referenced_eq_some_iff.1 hc)
    have hkept : String.ofList ('&' :: name.toList ++ [';']) = "&" ++ name ++ ";" := by
      rw [← String.toList_inj]
      simp
    rw [hr] at hsaid
    exact ⟨hr, hkept ▸ hsaid⟩

/-- The number of a letter with a plus sign, which is no name that documents are meant to use, and the number of
a surrogate. -/
theorem references_named_signed :
    (¬Names [""] "#+65" 'A' ∧ referenced? "#+65".toList = some 'A' ∧ Replaced "#+65" "A") ∧
    (∀ c, ¬Names ["", "+"] "#xD800" c) ∧ Replaced "#xD800" "&#xD800;" := by
  have hsigned : Names ["", "+"] "#+65" 'A' :=
    .number (show ("#", 10) ∈ marks by decide) (show "+" ∈ ["", "+"] by decide) rfl
      (show Numeral 10 "65".toList 'A'.toNat from ⟨0, by decide⟩)
  have hsurrogate : ∀ c, ¬Names ["", "+"] "#xD800" c := fun c h => by
    have hnone : referenced? "#xD800".toList = none := by decide
    rw [referenced_of_names h] at hnone
    cases hnone
  obtain ⟨hknown, hmeant, hsaid, -⟩ := references_named "#+65"
  obtain ⟨-, -, -, hkept⟩ := references_named "#xD800"
  exact ⟨⟨fun h => ((hmeant 'A').1 h).2 (by decide), (hknown 'A').2 hsigned, hsaid 'A' hsigned⟩,
    hsurrogate, (hkept hsurrogate).2⟩

end QuizPress.Quiz
