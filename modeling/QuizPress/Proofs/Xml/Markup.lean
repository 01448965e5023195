import QuizPress.Proofs.Xml.Attribute
import QuizPress.Xml.Markup

/-! Tags, instructions and CDATA sections cut off the front of a document. -/
namespace QuizPress.Xml
open Text

/-- The quote that is open behind some glyphs of a tag, unless the tag ends in them. -/
def quoteThrough : Option Char → List Glyph → Option (Option Char)
  | quote, [] => some quote
  | quote, g :: gs =>
    if quote = none ∧ g = .char '>' then none else quoteThrough (quoteAfter quote g) gs

theorem quoteThrough_append (quote : Option Char) (gs rest : List Glyph) :
    quoteThrough quote (gs ++ rest) = (quoteThrough quote gs).bind (quoteThrough · rest) := by
  induction gs generalizing quote with
  | nil => rfl
  | cons g gs ih =>
    rw [List.cons_append, quoteThrough, quoteThrough]
    split
    · rfl
    · exact ih _

/-- Glyphs in which a tag does not end are the first ones of its content. -/
theorem cutTag_append {quote quote' : Option Char} {gs : List Glyph}
    (h : quoteThrough quote gs = some quote') (rest : List Glyph) :
    cutTag quote (gs ++ rest) = (cutTag quote' rest).map fun r => (gs ++ r.1, r.2) := by
  induction gs generalizing quote with
  | nil =>
    cases h
    rw [List.nil_append]
    cases cutTag quote' rest <;> rfl
  | cons g gs ih =>
    rw [quoteThrough] at h
    split at h
    · cases h
    · rename_i hg
      rw [List.cons_append, cutTag, if_neg hg, ih h]
      cases cutTag quote' rest <;> rfl

theorem cutTag_bracket {gs : List Glyph} (h : quoteThrough none gs = some none) (rest : List Glyph) :
    cutTag none (gs ++ .char '>' :: rest) = .ok (gs, rest) := by
  rw [cutTag_append h, cutTag, if_pos ⟨rfl, rfl⟩]
  simp [Except.map]

/-- A tag that is cut off ends at the first bracket that stands outside of quotes. -/
theorem eq_of_cutTag {quote : Option Char} {gs content after : List Glyph}
    (h : cutTag quote gs = .ok (content, after)) :
    gs = content ++ .char '>' :: after ∧ quoteThrough quote content = some none := by
  induction gs generalizing quote content with
  | nil => cases h
  | cons g gs ih =>
    rw [cutTag] at h
    split at h
    · rename_i hg
      cases h
      rw [hg.1, hg.2]
      exact ⟨rfl, rfl⟩
    · rename_i hg
      split at h
      · rename_i hc
        cases h
        obtain ⟨he, hq⟩ := ih hc
        rw [quoteThrough, if_neg hg, he]
        exact ⟨rfl, hq⟩
      · cases h

def isInert (g : Glyph) : Bool := g != .char '"' && g != .char '\'' && g != .char '>'

def IsQuote (quote : Option Char) : Prop := quote = none ∨ quote = some '"' ∨ quote = some '\''

theorem isQuote_quoteAfter {quote : Option Char} (h : IsQuote quote) (g : Glyph) :
    IsQuote (quoteAfter quote g) := by
  unfold quoteAfter
  split
  · split
    · exact .inr (.inl rfl)
    · split
      · exact .inr (.inr rfl)
      · exact .inl rfl
  · split
    · exact .inl rfl
    · exact h

theorem isQuote_quoteThrough {quote quote' : Option Char} {gs : List Glyph} (h : IsQuote quote)
    (hg : quoteThrough quote gs = some quote') : IsQuote quote' := by
  induction gs generalizing quote with
  | nil =>
    cases hg
    exact h
  | cons g gs ih =>
    rw [quoteThrough] at hg
    split at hg
    · cases hg
    · exact ih (isQuote_quoteAfter h g) hg

theorem quoteAfter_inert {quote : Option Char} {g : Glyph} (h : IsQuote quote) (hg : isInert g = true) :
    quoteAfter quote g = quote := by
  simp only [isInert, Bool.and_eq_true, bne_iff_ne] at hg
  rcases h with rfl | rfl | rfl
  · simp [quoteAfter, hg.1.1, hg.1.2]
  · simp [quoteAfter, hg.1.1]
  · simp [quoteAfter, hg.1.2]

theorem quoteThrough_inert {quote : Option Char} {gs : List Glyph} (h : IsQuote quote)
    (hg : ∀ g ∈ gs, isInert g = true) : quoteThrough quote gs = some quote := by
  induction gs with
  | nil => rfl
  | cons g gs ih =>
    have hi := hg g (by simp)
    have hn : ¬ (quote = none ∧ g = .char '>') := by
      rintro ⟨_, rfl⟩
      simp [isInert] at hi
    rw [quoteThrough, if_neg hn, quoteAfter_inert h hi]
    exact ih fun g hg' => hg g (List.mem_cons_of_mem _ hg')

/-- A double-quoted value leaves every quote as it is: open quotes it closes and opens again. -/
theorem quoteThrough_quoted {quote : Option Char} {value : List Glyph} (h : IsQuote quote)
    (hv : ∀ g ∈ value, isInert g = true) (rest : List Glyph) :
    quoteThrough quote (.char '"' :: (value ++ .char '"' :: rest)) = quoteThrough quote rest := by
  have none_quoted : IsQuote none := .inl rfl
  have double_quoted : IsQuote (some '"') := .inr (.inl rfl)
  rcases h with rfl | rfl | rfl
  · simp [quoteThrough, quoteAfter, quoteThrough_append, quoteThrough_inert double_quoted hv]
  · simp [quoteThrough, quoteAfter, quoteThrough_append, quoteThrough_inert none_quoted hv]
  · simp [quoteThrough, quoteAfter, quoteThrough_append,
      quoteThrough_inert (.inr (.inr rfl) : IsQuote (some '\'')) hv]

/-- The quotes in the names of some attributes close one another, and no bracket stands outside of
them. -/
def Balanced (attributes : Attributes) : Prop :=
  quoteThrough none (attributes.flatMap fun a => glyphs a.1) = some none

theorem isInert_of_isName {s : String} (h : isName s = true) : ∀ g ∈ glyphs s, isInert g = true := by
  intro g hg
  obtain ⟨c, rfl, hc⟩ := mem_glyphs_of_isName h hg
  simp [isInert, ne_of_isNameChar hc (x := '"') rfl, ne_of_isNameChar hc (x := '\'') rfl,
    ne_of_isNameChar hc (x := '>') rfl]

theorem balanced_of_isName {attributes : Attributes} (h : ∀ a ∈ attributes, isName a.1 = true) :
    Balanced attributes := by
  refine quoteThrough_inert (.inl rfl) fun g hg => ?_
  obtain ⟨a, ha, hg⟩ := List.mem_flatMap.1 hg
  exact isInert_of_isName (h a ha) g hg

structure Writable (attributes : Attributes) : Prop extends Legible attributes where
  balanced : Balanced attributes

theorem writable_of_isName {attributes : Attributes} (h : ∀ a ∈ attributes, isName a.1 = true)
    (hd : (attributes.map Prod.fst).Nodup) : Writable attributes :=
  ⟨legible_of_isName h hd, balanced_of_isName h⟩

/-- Only the names count for the quotes in written attributes, not the values. -/
theorem quoteThrough_writeAttributes {escape : String → String}
    (he : ∀ s, ∀ g ∈ glyphs (escape s), isInert g = true) (attributes : Attributes)
    {quote : Option Char} (h : IsQuote quote) :
    quoteThrough quote (glyphs (writeAttributes escape attributes)) =
      quoteThrough quote (attributes.flatMap fun a => glyphs a.1) := by
  induction attributes generalizing quote with
  | nil => rfl
  | cons a others ih =>
    obtain ⟨name, value⟩ := a
    have hb : ¬ (quote = none ∧ Glyph.char ' ' = .char '>') := by simp
    rw [glyphs_writeAttributes_cons, List.flatMap_cons, quoteThrough, if_neg hb,
      quoteAfter_inert h rfl, quoteThrough_append, quoteThrough_append]
    cases hn : quoteThrough quote (glyphs name) with
    | none => rfl
    | some quote' =>
      have h' := isQuote_quoteThrough h hn
      have hs : ¬ (quote' = none ∧ Glyph.char '=' = .char '>') := by simp
      simp only [Option.bind_some]
      rw [quoteThrough, if_neg hs, quoteAfter_inert h' rfl, quoteThrough_quoted h' (he value), ih h']

theorem isInert_escapeWith_markedChar (s : String) :
    ∀ g ∈ glyphs (escapeWith markedChar s), isInert g = true := by
  intro g hg
  obtain ⟨x, hx, rfl⟩ := List.mem_map.1 hg
  obtain ⟨_, hb, hd, hq⟩ := mem_escapeWith_markedChar hx
  simp [isInert, hb, hd, hq]

/-- A mark is found where it stands if its first glyph stands nowhere before. -/
theorem cutAt_append {g : Glyph} {mark before : List Glyph} (h : g ∉ before) (rest : List Glyph) :
    cutAt (g :: mark) (before ++ g :: (mark ++ rest)) = some (before, rest) := by
  induction before with
  | nil => simp [cutAt]
  | cons x before ih =>
    rw [List.mem_cons, not_or] at h
    rw [List.cons_append, cutAt, ih h.2]
    simp [h.1]

/-- A CDATA section that begins with this text ends where the text does. -/
def Uncut (cs : List Char) : Prop :=
  ∀ rest, cutAt (glyphs "]]>") (cs.map .char ++ (glyphs "]]>" ++ rest)) = some (cs.map .char, rest)

theorem uncut_nil : Uncut [] := by
  intro rest
  simp [glyphs, cutAt]

theorem Uncut.cons {c : Char} {cs : List Char} (h : Uncut cs)
    (hc : ∀ tail, c :: cs ≠ ']' :: ']' :: '>' :: tail) : Uncut (c :: cs) := by
  intro rest
  have hp : ¬ glyphs "]]>" <+: (c :: cs).map .char ++ (glyphs "]]>" ++ rest) := by
    match cs with
    | [] => simp [glyphs, List.cons_prefix_cons]
    | [x] => simp [glyphs, List.cons_prefix_cons]
    | x :: y :: tail =>
      have hm : glyphs "]]>" = [.char ']', .char ']', .char '>'] := rfl
      simp only [hm, List.map_cons, List.cons_append, List.cons_prefix_cons, Glyph.char.injEq]
      rintro ⟨rfl, rfl, rfl, _⟩
      exact hc tail rfl
  rw [← List.isPrefixOf_iff_prefix, List.map_cons, List.cons_append] at hp
  rw [List.map_cons, List.cons_append, cutAt, if_neg hp, h rest]
  rfl

theorem sectionBreak_eq : sectionBreak =
    [']', ']', ']', ']', '>', '<', '!', '[', 'C', 'D', 'A', 'T', 'A', '[', '>'] := by
  decide

theorem splitClosers_cons {c : Char} {cs : List Char}
    (h : ∀ tail, c :: cs ≠ ']' :: ']' :: '>' :: tail) : splitClosers (c :: cs) = c :: splitClosers cs := by
  rw [splitClosers]
  rintro tail rfl rfl
  exact h tail rfl

/-- A text either is uncut, or it is cut in its first closer: two brackets stay in the section, and
the angle bracket begins the next one. -/
theorem splitClosers_cases (cs : List Char) :
    (splitClosers cs = cs ∧ Uncut cs) ∨
    ∃ before after, cs = before ++ ']' :: ']' :: '>' :: after ∧ Uncut (before ++ [']', ']']) ∧
      splitClosers cs = before ++ sectionBreak ++ splitClosers after := by
  fun_induction splitClosers cs with
  | case1 cs _ =>
    refine .inr ⟨[], cs, rfl, ?_, rfl⟩
    exact (uncut_nil.cons (by simp)).cons (by simp)
  | case2 c cs hne ih =>
    rcases ih with ⟨he, hu⟩ | ⟨before, after, rfl, hu, he⟩
    · exact .inl ⟨by rw [he], hu.cons fun tail ht => hne tail (List.cons.inj ht).1 (List.cons.inj ht).2⟩
    · refine .inr ⟨c :: before, after, rfl, hu.cons fun tail ht => ?_, by rw [he]; rfl⟩
      -- the closer would have to end with a bracket that stands before the first closer
      match before, ht with
      | [], ht => simp at ht
      | [x], ht => simp at ht
      | x :: y :: before, ht =>
        simp only [List.cons_append, List.cons.injEq] at ht
        obtain ⟨rfl, rfl, rfl, _⟩ := ht
        exact hne _ rfl rfl
  | case3 => exact .inl ⟨rfl, uncut_nil⟩

/-- A tag begins where a bracket is followed by none of the marks of other markup. -/
theorem cutPiece_tag {c : Char} (hc : c ≠ '!' ∧ c ≠ '?' ∧ c ≠ '/') (gs : List Glyph) :
    cutPiece (.char '<') (.char c :: gs) = match cutTag none (.char c :: gs) with
      | .ok (content, rest) => .ok (.opening content, rest)
      | .error flaw => .error ⟨flaw, .char '<' :: .char c :: gs⟩ := by
  obtain ⟨h1, h2, h3⟩ := hc
  rw [cutPiece, if_pos rfl]
  unfold cutMarkup
  split
  · rename_i he
    exact absurd (Glyph.char.inj (List.cons.inj he).1) h1
  · rename_i he
    exact absurd (Glyph.char.inj (List.cons.inj he).1) h2
  · rename_i he
    exact absurd (Glyph.char.inj (List.cons.inj he).1) h3
  · cases cutTag none (.char c :: gs) with
    | error flaw => rfl
    | ok r => rfl

theorem cutPiece_opening {c : Char} {content : List Glyph} (hc : c ≠ '!' ∧ c ≠ '?' ∧ c ≠ '/')
    (hq : quoteThrough none (.char c :: content) = some none) (rest : List Glyph) :
    cutPiece (.char '<') (.char c :: (content ++ .char '>' :: rest)) =
      .ok (.opening (.char c :: content), rest) := by
  rw [cutPiece_tag hc, ← List.cons_append, cutTag_bracket hq]

theorem cutPiece_closing {content : List Glyph} (hq : quoteThrough none content = some none)
    (rest : List Glyph) :
    cutPiece (.char '<') (.char '/' :: (content ++ .char '>' :: rest)) =
      .ok (.closing content, rest) := by
  rw [cutPiece, if_pos rfl, cutMarkup]
  simp only [cutTag_bracket hq]

theorem cutPiece_section {cs : List Char} (h : Uncut cs) (rest : List Glyph) :
    cutPiece (.char '<') (glyphs "![CDATA[" ++ (cs.map .char ++ (glyphs "]]>" ++ rest))) =
      .ok (.text (cs.map .char), rest) := by
  have hm : glyphs "![CDATA[" = .char '!' :: .char '[' :: glyphs "CDATA[" := rfl
  have ha (gs : List Glyph) : after? "[CDATA[" (.char '[' :: (glyphs "CDATA[" ++ gs)) = some gs := by
    have hp : glyphs "[CDATA[" = .char '[' :: glyphs "CDATA[" := rfl
    rw [← List.cons_append, ← hp, after?, if_pos (List.isPrefixOf_iff_prefix.2 (List.prefix_append _ _)),
      List.drop_left]
  rw [cutPiece, if_pos rfl, hm]
  simp only [List.cons_append, cutMarkup, ha, Option.bind_some, h rest]

theorem cutPiece_instruction {c : Char} {content : List Glyph} (hc : c ≠ '>')
    (h : .char '?' ∉ .char c :: content) (rest : List Glyph) :
    cutPiece (.char '<') (.char '?' :: .char c :: (content ++ (glyphs "?>" ++ rest))) =
      .ok (.passive, rest) := by
  have hm : glyphs "?>" = .char '?' :: [.char '>'] := rfl
  have ht : cutAt (glyphs "?>") (.char c :: (content ++ (glyphs "?>" ++ rest))) =
      some (.char c :: content, rest) := by
    rw [hm]
    exact cutAt_append h rest
  rw [cutPiece, if_pos rfl, cutMarkup, ht]
  rintro _ he
  cases he
  exact hc rfl

end QuizPress.Xml
