import QuizPress.Proofs.Except
import QuizPress.Proofs.Xml.Escape
import QuizPress.Proofs.Xml.Legible
import QuizPress.Proofs.Xml.Reference

/-! Values that are read and written again. A reference that is not known stays in the value that is read,
and its ampersand is escaped when the value is written. -/
namespace QuizPress.Xml
open Text

structure IsUnknown (name : String) : Prop where
  nonempty : name ≠ ""
  letters : ∀ c ∈ name.toList, c.isAlpha = true
  fresh : name.toList ∉ predefined.map Prod.fst

instance (name : String) : Decidable (IsUnknown name) :=
  decidable_of_decidable_of_iff
    (p := name ≠ "" ∧ name.toList.all Char.isAlpha = true ∧ name.toList ∉ predefined.map Prod.fst)
    ⟨fun ⟨hn, hl, hf⟩ => ⟨hn, List.all_eq_true.1 hl, hf⟩,
      fun h => ⟨h.nonempty, List.all_eq_true.2 h.letters, h.fresh⟩⟩

def requoted (raw : String) : String :=
  escapeWith quotedChar (.ofList (attributeValue raw.toList))

section
variable {name : String}

theorem IsUnknown.isReference (h : IsUnknown name) : ∀ c ∈ name.toList, isReference (.char c) = true := by
  intro c hc
  have hl := h.letters c hc
  simp only [Xml.isReference, isText, Bool.and_eq_true, bne_iff_ne]
  refine ⟨⟨?_, ?_⟩, ?_⟩ <;> rintro ⟨⟩ <;> cases hl

private theorem lookup_of_fresh {key : List Char} (h : key ∉ predefined.map Prod.fst) :
    predefined.lookup key = none := by
  rw [List.lookup_eq_none_iff]
  intro entry he
  rw [bne_iff_ne]
  rintro rfl
  exact h (List.mem_map_of_mem he)

theorem IsUnknown.expansion_eq (h : IsUnknown name) :
    String.ofList (expansion name.toList) = "&" ++ name ++ ";" := by
  have hr : referenced? name.toList = none := by
    unfold referenced?
    split
    · rename_i hn
      exact absurd (h.letters '#' (by rw [hn]; exact List.mem_cons_self)) (by decide)
    · rename_i hn
      exact absurd (h.letters '#' (by rw [hn]; exact List.mem_cons_self)) (by decide)
    · rename_i hn
      exact absurd (h.letters '#' (by rw [hn]; exact List.mem_cons_self)) (by decide)
    · exact lookup_of_fresh h.fresh
  rw [expansion, hr]
  simp [String.ofList_append, String.append_assoc]

/-- Letters are written as they are. -/
private theorem flatMap_letters {cs : List Char} (h : ∀ c ∈ cs, c.isAlpha = true) :
    cs.flatMap quotedChar = cs := by
  induction cs with
  | nil => rfl
  | cons c cs ih =>
    obtain ⟨hc, hcs⟩ := List.forall_mem_cons.1 h
    have hw : quotedChar c = [c] := by
      unfold quotedChar
      split
      · cases hc
      · cases hc
      · cases hc
      · rfl
    rw [List.flatMap_cons, hw, ih hcs, List.singleton_append]

/-- A reference that is not known does not stay what it is. -/
theorem requoted_unknown (h : IsUnknown name) (before after : String) :
    requoted (before ++ ("&" ++ name ++ ";") ++ after) =
      requoted before ++ ("&amp;" ++ name ++ ";") ++ requoted after := by
  have hn : ∀ c ∈ name.toList, inStrictName c = true := fun c hc => by
    have hl := h.letters c hc
    rw [inStrictName, Bool.and_eq_true, bne_iff_ne, bne_iff_ne]
    constructor <;> rintro rfl <;> cases hl
  have hgs : (before ++ ("&" ++ name ++ ";") ++ after).toList =
      before.toList ++ '&' :: (name.toList ++ ';' :: after.toList) := by
    simp
  have hread : String.ofList (unescapeKnown (before ++ ("&" ++ name ++ ";") ++ after).toList) =
      .ofList (unescapeKnown before.toList) ++ ("&" ++ name ++ ";") ++
        .ofList (unescapeKnown after.toList) := by
    rw [hgs, unescapeKnown_append_ampersand, unescapeKnown_reference hn, String.ofList_append,
      String.ofList_append, h.expansion_eq]
    simp only [String.append_assoc]
  have hwritten : escapeWith quotedChar ("&" ++ name ++ ";") = "&amp;" ++ name ++ ";" := by
    rw [escapeWith_append, escapeWith_append, escapeWith, escapeWith, escapeWith,
      flatMap_letters h.letters, String.ofList_toList]
    rfl
  simp only [requoted, attributeValue_eq]
  rw [hread, escapeWith_append, escapeWith_append, hwritten]

end

inductive Bears (key raw : List Glyph) : List Glyph → Prop where
  | first {gs gs' rest : List Glyph} {g : Glyph} (hd : gs.dropWhile isSpace = g :: gs')
      (hw : Spells g gs' ⟨key, raw, rest⟩) : Bears key raw gs
  | later {gs gs' : List Glyph} {g : Glyph} {w : Written} (hd : gs.dropWhile isSpace = g :: gs')
      (hw : Spells g gs' w) (h : Bears key raw w.rest) : Bears key raw gs

/-- What stands behind the name of a tag, without the slash that ends an empty-element tag. -/
def tagBody (content : List Glyph) : List Glyph :=
  (if content.getLast? = some (.char '/') then content.dropLast else content).dropWhile (!isSpace ·)

/-- An attribute that stands among those that are read is one of them. -/
theorem Bears.mem {key raw gs : List Glyph} (h : Bears key raw gs) {seen : List (List Glyph)}
    {attributes : Attributes} (hr : readAttributes seen gs = .ok attributes) :
    ∃ value, strict? raw = some value ∧
      (lossy key, String.ofList (attributeValue value.toList)) ∈ attributes := by
  induction h generalizing seen attributes with
  | first hd hw =>
    rcases readAttributes_cases hr with ⟨hd', _⟩ | ⟨_, _, w, value, others, hd', hw', _, _, hv, rfl⟩
    · rw [hd'] at hd
      cases hd
    · rw [hd'] at hd
      cases hd
      have hw := (written_iff.2 hw').symm.trans (written_iff.2 hw)
      cases hw
      exact ⟨value, hv, List.mem_cons_self⟩
  | later hd hw _ ih =>
    rcases readAttributes_cases hr with ⟨hd', _⟩ | ⟨_, _, w, value, others, hd', hw', _, ho, _, rfl⟩
    · rw [hd'] at hd
      cases hd
    · rw [hd'] at hd
      cases hd
      have hw := (written_iff.2 hw').symm.trans (written_iff.2 hw)
      cases hw
      obtain ⟨value, hv, hm⟩ := ih ho
      exact ⟨value, hv, List.mem_cons_of_mem _ hm⟩

/-- The event of a start tag or an empty-element tag has the attributes that stand in the tag. -/
theorem readOpening_body {opened opened' : List (List Glyph)} {content : List Glyph} {event : Event}
    (h : readOpening opened content = .ok (event, opened')) :
    ∃ name attributes, (event = .start name attributes ∨ event = .empty name attributes) ∧
      readAttributes [] (tagBody content) = .ok attributes := by
  unfold readOpening at h
  rw [tagBody]
  split at h
  · rename_i hl
    obtain ⟨attributes, ha, he⟩ := bind_eq_ok.1 h
    cases he
    exact ⟨_, attributes, .inr rfl, by rw [if_pos hl]; exact ha⟩
  · rename_i hl
    obtain ⟨attributes, ha, he⟩ := bind_eq_ok.1 h
    cases he
    exact ⟨_, attributes, .inl rfl, by rw [if_neg hl]; exact ha⟩

/-- An attribute is written with its value between double quotes, wherever it stands among the others. -/
theorem exists_writeAttributes {attributes : Attributes} {name value : String} (escape : String → String)
    (h : (name, value) ∈ attributes) :
    ∃ before after, writeAttributes escape attributes =
      before ++ (" " ++ name ++ "=\"" ++ escape value ++ "\"") ++ after := by
  obtain ⟨front, back, rfl⟩ := List.append_of_mem h
  refine ⟨writeAttributes escape front, writeAttributes escape back, ?_⟩
  rw [writeAttributes, List.map_append, String.join_append, String.append_assoc]
  exact congrArg _ (writeAttributes_cons escape name value back)

end QuizPress.Xml
