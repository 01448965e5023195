import QuizPress.Proofs.Text
import QuizPress.Proofs.Xml.Escape
import QuizPress.Xml.Attribute
import QuizPress.Xml.Escape

/-! Attributes read back from a tag in which they were written. -/
namespace QuizPress.Xml
open Text

/-- What a reader takes for a key: no blank begins it, and behind the first glyph there is neither
a blank nor an equals sign. -/
def IsKey : List Glyph → Prop
  | [] => False
  | g :: gs => isSpace g = false ∧ ∀ x ∈ gs, inKey x = true

/-- Attributes that keep their names when they are written: all names are keys, and no name comes
twice. -/
structure Legible (attributes : Attributes) : Prop where
  keys : ∀ a ∈ attributes, IsKey (glyphs a.1)
  distinct : (attributes.map Prod.fst).Nodup

/-- The characters of plain names: ASCII letters, digits and four marks. -/
def isNameChar (c : Char) : Bool :=
  c.isAlphanum || c == '-' || c == '_' || c == '.' || c == ':'

def isName (s : String) : Bool := !s.isEmpty && s.toList.all isNameChar

theorem ne_of_isNameChar {c x : Char} (h : isNameChar c = true) (hx : isNameChar x = false) : c ≠ x := by
  rintro rfl
  rw [h] at hx
  cases hx

theorem mem_glyphs_of_isName {s : String} (h : isName s = true) {g : Glyph} (hg : g ∈ glyphs s) :
    ∃ c, g = .char c ∧ isNameChar c = true := by
  simp only [isName, Bool.and_eq_true, List.all_eq_true] at h
  obtain ⟨c, hc, rfl⟩ := List.mem_map.1 hg
  exact ⟨c, rfl, h.2 c hc⟩

/-- A plain name begins with one of its characters. -/
theorem glyphs_of_isName {s : String} (h : isName s = true) :
    ∃ c gs, glyphs s = .char c :: gs ∧ isNameChar c = true := by
  cases hs : s.toList with
  | nil => simp_all [isName]
  | cons c cs =>
    simp only [isName, hs, Bool.and_eq_true, List.all_cons] at h
    exact ⟨c, cs.map .char, by rw [glyphs, hs]; rfl, h.2.1⟩

theorem isSpace_of_isNameChar {c : Char} (h : isNameChar c = true) : isSpace (.char c) = false := by
  simp [isSpace, ne_of_isNameChar h (x := ' ') rfl, ne_of_isNameChar h (x := '\t') rfl,
    ne_of_isNameChar h (x := '\n') rfl, ne_of_isNameChar h (x := '\r') rfl]

theorem isSpace_of_isName {s : String} (h : isName s = true) : ∀ g ∈ glyphs s, isSpace g = false := by
  intro g hg
  obtain ⟨c, rfl, hc⟩ := mem_glyphs_of_isName h hg
  exact isSpace_of_isNameChar hc

/-- Plain names are keys. -/
theorem isKey_of_isName {s : String} (h : isName s = true) : IsKey (glyphs s) := by
  obtain ⟨c, gs, hs, hc⟩ := glyphs_of_isName h
  rw [hs]
  refine ⟨isSpace_of_isNameChar hc, fun g hg => ?_⟩
  obtain ⟨x, rfl, hx⟩ := mem_glyphs_of_isName h (g := g) (by rw [hs]; simp [hg])
  simp [inKey, isSpace_of_isNameChar hx, ne_of_isNameChar hx (x := '=') rfl]

theorem legible_of_isName {attributes : Attributes} (h : ∀ a ∈ attributes, isName a.1 = true)
    (hd : (attributes.map Prod.fst).Nodup) : Legible attributes :=
  ⟨fun a ha => isKey_of_isName (h a ha), hd⟩

inductive Spells (g : Glyph) : List Glyph → Written → Prop where
  | intro {key blanks blanks' value rest : List Glyph} {q : Char} (hk : ∀ x ∈ key, inKey x = true)
      (hb : ∀ x ∈ blanks, isSpace x = true) (hb' : ∀ x ∈ blanks', isSpace x = true)
      (hq : q = '"' ∨ q = '\'') (hv : .char q ∉ value) :
      Spells g (key ++ (blanks ++ .char '=' :: (blanks' ++ .char q :: (value ++ .char q :: rest))))
        ⟨g :: key, value, rest⟩

theorem of_mem_takeWhile {p : Glyph → Bool} {gs : List Glyph} {g : Glyph}
    (h : g ∈ gs.takeWhile p) : p g = true :=
  List.all_eq_true.1 List.all_takeWhile g h

theorem dropWhile_cons_false {p : Glyph → Bool} {gs rest : List Glyph} {g : Glyph}
    (h : gs.dropWhile p = g :: rest) : p g = false := by
  have hp := List.head?_dropWhile_not p gs
  rw [h] at hp
  simpa using hp

private theorem quoted_some {key gs : List Glyph} {w : Written} (h : quoted? key gs = some w) :
    ∃ q value rest, (q = '"' ∨ q = '\'') ∧ .char q ∉ value ∧
      gs = .char q :: (value ++ .char q :: rest) ∧ w = ⟨key, value, rest⟩ := by
  unfold quoted? at h
  split at h
  · rename_i q gs
    split at h
    · rename_i hq
      split at h
      · rename_i x rest hd
        cases h
        have hx : x = .char q := by
          have hp := dropWhile_cons_false hd
          simpa using hp
        have hs := List.takeWhile_append_dropWhile (p := (· != Glyph.char q)) (l := gs)
        refine ⟨q, _, rest, hq, fun hm => ?_, ?_, rfl⟩
        · have hp := of_mem_takeWhile hm
          simp at hp
        · rw [hd, hx] at hs
          rw [hs]
      · cases h
    · cases h
  · cases h

theorem quoted_eq (key : List Glyph) {q : Char} {value : List Glyph} (hq : q = '"' ∨ q = '\'')
    (hv : .char q ∉ value) (rest : List Glyph) :
    quoted? key (.char q :: (value ++ .char q :: rest)) = some ⟨key, value, rest⟩ := by
  have hp : ∀ x ∈ value, (x != Glyph.char q) = true := by
    intro x hx
    rw [bne_iff_ne]
    rintro rfl
    exact hv hx
  rw [quoted?, if_pos hq, List.dropWhile_append_of_pos hp, List.takeWhile_append_of_pos hp]
  simp

/-- An attribute is read where one is written, and nowhere else. -/
theorem written_iff {g : Glyph} {gs : List Glyph} {w : Written} :
    written? g gs = some w ↔ Spells g gs w := by
  constructor
  · intro h
    unfold written? at h
    split at h
    · rename_i gs' hd
      obtain ⟨q, value, rest, hq, hv, hg, rfl⟩ := quoted_some h
      have hk := List.takeWhile_append_dropWhile (p := inKey) (l := gs)
      have hb := List.takeWhile_append_dropWhile (p := isSpace) (l := gs.dropWhile inKey)
      have hb' := List.takeWhile_append_dropWhile (p := isSpace) (l := gs')
      rw [hg] at hb'
      rw [hd, ← hb'] at hb
      have hs : Spells g (gs.takeWhile inKey ++ ((gs.dropWhile inKey).takeWhile isSpace ++ .char '=' ::
          (gs'.takeWhile isSpace ++ .char q :: (value ++ .char q :: rest))))
          ⟨g :: gs.takeWhile inKey, value, rest⟩ :=
        .intro (fun _ => of_mem_takeWhile) (fun _ => of_mem_takeWhile) (fun _ => of_mem_takeWhile) hq hv
      rwa [hb, hk] at hs
    · cases h
  · rintro ⟨hk, hb, hb', hq, hv⟩
    rename_i key blanks blanks' value rest q
    have he : inKey (.char '=') = false := rfl
    have hs : isSpace (.char '=') = false := rfl
    have hqs : isSpace (.char q) = false := by
      rcases hq with rfl | rfl <;> rfl
    -- the key ends with its first blank, or with the sign if there is none
    have hd : ∀ tail, (blanks ++ .char '=' :: tail).dropWhile inKey = blanks ++ .char '=' :: tail ∧
        (blanks ++ .char '=' :: tail).takeWhile inKey = [] := by
      intro tail
      cases blanks with
      | nil => simp [he]
      | cons x blanks =>
        have hx : inKey x = false := by simp [inKey, hb x (by simp)]
        simp [hx]
    rw [written?, List.dropWhile_append_of_pos hk, List.takeWhile_append_of_pos hk, (hd _).1, (hd _).2,
      List.dropWhile_append_of_pos hb, List.append_nil, List.dropWhile_cons, if_neg (by simp [hs])]
    simp only [List.dropWhile_append_of_pos hb', List.dropWhile_cons, hqs, Bool.false_eq_true, if_false]
    exact quoted_eq _ hq hv rest

theorem Spells.append {g : Glyph} {gs : List Glyph} {w : Written} (h : Spells g gs w) (tail : List Glyph) :
    Spells g (gs ++ tail) { w with rest := w.rest ++ tail } := by
  obtain ⟨hk, hb, hb', hq, hv⟩ := h
  simp only [List.append_assoc, List.cons_append]
  exact .intro hk hb hb' hq hv

theorem Spells.isKey {g : Glyph} {gs : List Glyph} {w : Written} (h : Spells g gs w)
    (hg : isSpace g = false) : IsKey w.key := by
  obtain ⟨hk, _, _, _, _⟩ := h
  exact ⟨hg, hk⟩

/-- Key and rest are made of what is written. -/
theorem Spells.subset {g : Glyph} {gs : List Glyph} {w : Written} (h : Spells g gs w) :
    w.key ⊆ g :: gs ∧ w.rest ⊆ gs := by
  obtain ⟨hk, hb, hb', hq, hv⟩ := h
  constructor
  · intro x hx
    rcases List.mem_cons.1 hx with rfl | hx
    · exact List.mem_cons_self
    · exact List.mem_cons_of_mem _ (List.mem_append_left _ hx)
  · intro x hx
    simp [hx]

/-- An attribute without blanks, its value between double quotes. -/
theorem written_append {g : Glyph} {key value : List Glyph} (hk : ∀ x ∈ key, inKey x = true)
    (hv : .char '"' ∉ value) (rest : List Glyph) :
    written? g (key ++ .char '=' :: .char '"' :: (value ++ .char '"' :: rest)) =
      some ⟨g :: key, value, rest⟩ := by
  have none_blank : ∀ x ∈ ([] : List Glyph), isSpace x = true := fun _ hx => by cases hx
  exact written_iff.2 (.intro hk none_blank none_blank (.inl rfl) hv)

/-- The attributes read are those of the text behind the first blanks. -/
theorem readAttributes_eq (seen : List (List Glyph)) (gs : List Glyph) :
    readAttributes seen gs = match gs.dropWhile isSpace with
      | [] => .ok []
      | g :: gs' => match written? g gs' with
        | none => .error .badAttribute
        | some w =>
          if w.key ∈ seen then .error .badAttribute
          else match strict? w.value with
            | none => .error .badEncoding
            | some value => do
              let others ← readAttributes (w.key :: seen) w.rest
              return (lossy w.key, .ofList (attributeValue value.toList)) :: others := by
  rw [readAttributes]
  split
  · rename_i h
    simp only [h]
  · rename_i g gs' h
    simp only [h]
    split
    · rename_i hw
      simp only [hw]
    · rename_i w hw
      exact hw ▸ rfl

@[simp] theorem readAttributes_nil (seen : List (List Glyph)) : readAttributes seen [] = .ok [] := by
  rw [readAttributes_eq]
  rfl

section Written
variable {write : Char → List Char}

@[simp] theorem glyphs_writeAttributes_nil (escape : String → String) :
    glyphs (writeAttributes escape []) = [] := rfl

theorem glyphs_writeAttributes_cons (escape : String → String) (name value : String)
    (others : Attributes) :
    glyphs (writeAttributes escape ((name, value) :: others)) =
      .char ' ' :: (glyphs name ++ .char '=' :: .char '"' ::
        (glyphs (escape value) ++ .char '"' :: glyphs (writeAttributes escape others))) := by
  simp [writeAttributes, glyphs]

theorem quote_not_mem_escapeWith (hq : ∀ c, '"' ∉ write c) (s : String) :
    Glyph.char '"' ∉ glyphs (escapeWith write s) := by
  intro h
  rw [escapeWith, glyphs_ofList, List.mem_map] at h
  obtain ⟨x, hx, he⟩ := h
  cases he
  obtain ⟨c, _, hc⟩ := List.mem_flatMap.1 hx
  exact hq c hc

/-- One written attribute is read back, and the rest of the tag is read behind it. -/
theorem readAttributes_written (hf : Faithful write) (hq : ∀ c, '"' ∉ write c)
    {seen : List (List Glyph)} {name : String} (value : String) (hk : IsKey (glyphs name))
    (hs : glyphs name ∉ seen) (rest : List Glyph) :
    readAttributes seen (.char ' ' :: (glyphs name ++ .char '=' :: .char '"' ::
        (glyphs (escapeWith write value) ++ .char '"' :: rest))) =
      (readAttributes (glyphs name :: seen) rest).map ((name, value) :: ·) := by
  cases hn : glyphs name with
  | nil => rw [hn] at hk; exact hk.elim
  | cons g key =>
    rw [hn] at hk hs
    have hb : isSpace (.char ' ') = true := rfl
    have hw := written_append (g := g) hk.2 (quote_not_mem_escapeWith hq value) rest
    have hl : lossy (g :: key) = name := by rw [← hn, lossy_glyphs]
    rw [readAttributes_eq]
    simp only [List.cons_append, List.dropWhile_cons, hb, if_true, hk.1, Bool.false_eq_true, if_false,
      hw, hs, strict_glyphs, attributeValue_escapeWith hf, String.ofList_toList, hl]
    cases readAttributes ((g :: key) :: seen) rest <;> rfl

/-- Written attributes are read back, and the rest of the tag is read behind them. -/
theorem readAttributes_writeAttributes_append (hf : Faithful write) (hq : ∀ c, '"' ∉ write c)
    {attributes : Attributes} (hl : Legible attributes) {seen : List (List Glyph)}
    (hs : ∀ a ∈ attributes, glyphs a.1 ∉ seen) (rest : List Glyph) :
    readAttributes seen (glyphs (writeAttributes (escapeWith write) attributes) ++ rest) =
      (readAttributes ((attributes.map fun a => glyphs a.1).reverse ++ seen) rest).map
        (attributes ++ ·) := by
  induction attributes generalizing seen with
  | nil =>
    simp only [glyphs_writeAttributes_nil, List.map_nil, List.nil_append, List.reverse_nil]
    cases readAttributes seen rest <;> rfl
  | cons a others ih =>
    obtain ⟨name, value⟩ := a
    obtain ⟨hk, hd⟩ := hl
    rw [List.map_cons, List.nodup_cons] at hd
    have hn : ∀ a ∈ others, glyphs a.1 ∉ glyphs name :: seen := by
      intro a ha hm
      rcases List.mem_cons.1 hm with he | hm
      · exact hd.1 (List.mem_map.2 ⟨a, ha, glyphs_injective he⟩)
      · exact hs a (List.mem_cons_of_mem _ ha) hm
    rw [glyphs_writeAttributes_cons]
    simp only [List.cons_append, List.append_assoc]
    rw [readAttributes_written hf hq value (hk (name, value) (by simp)) (hs (name, value) (by simp)),
      ih ⟨fun a ha => hk a (List.mem_cons_of_mem _ ha), hd.2⟩ hn]
    simp only [List.map_cons, List.reverse_cons, List.append_assoc, List.singleton_append]
    cases readAttributes _ rest <;> rfl

theorem readAttributes_writeAttributes (hf : Faithful write) (hq : ∀ c, '"' ∉ write c)
    {attributes : Attributes} (hl : Legible attributes) :
    readAttributes [] (glyphs (writeAttributes (escapeWith write) attributes)) = .ok attributes := by
  have hs : ∀ a ∈ attributes, glyphs a.1 ∉ ([] : List (List Glyph)) := fun _ _ => List.not_mem_nil
  have h := readAttributes_writeAttributes_append hf hq hl hs []
  rw [List.append_nil, readAttributes_nil] at h
  simpa [Except.map] using h

end Written

end QuizPress.Xml
