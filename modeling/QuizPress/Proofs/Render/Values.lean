import QuizPress.Proofs.Quiz.Stable
import QuizPress.Proofs.Xml.Reference
import QuizPress.Render.Page.Markup
import QuizPress.Render.Source

/-! Values of attributes, wherever they are written: a reader takes them for what was escaped in them. -/
namespace QuizPress.Render
open Quiz Text Xml

inductive Medium where
  | inline
  | document
  | page
deriving DecidableEq, Repr

namespace Medium

def escape : Medium → String → String
  | inline => escapeWith quotedChar
  | document => escapeWith markedChar
  | page => Page.plain

def attributes : Medium → Attributes → String
  | inline => Builder.inlineAttributes
  | document => Source.attributes
  | page => Page.attributes

def write : Medium → Char → List Char
  | inline => quotedChar
  | document => markedChar
  | page => textChar

variable (medium : Medium)

theorem escape_eq : medium.escape = escapeWith medium.write := by
  cases medium <;> rfl

theorem attributes_eq : medium.attributes = writeAttributes (escapeWith medium.write) := by
  cases medium <;> rfl

theorem faithful_write : Faithful medium.write := by
  cases medium with
  | inline => exact faithful_quotedChar
  | document => exact faithful_markedChar
  | page => exact faithful_textChar

theorem mem_write {c x : Char} (h : x ∈ medium.write c) : x ≠ '<' ∧ x ≠ '"' := by
  cases medium with
  | inline => exact mem_quotedChar h
  | document =>
    obtain ⟨hl, _, hq, _⟩ := mem_markedChar h
    exact ⟨hl, hq⟩
  | page => exact mem_textChar h

theorem mem_escape {value : String} {x : Char} (h : x ∈ (medium.escape value).toList) :
    x ≠ '<' ∧ x ≠ '"' := by
  rw [escape_eq, escapeWith, String.toList_ofList] at h
  obtain ⟨c, _, hx⟩ := List.mem_flatMap.1 h
  exact medium.mem_write hx

theorem quote_not_mem_glyphs (value : String) : Glyph.char '"' ∉ glyphs (medium.escape value) := by
  rw [escape_eq]
  exact quote_not_mem_escapeWith (fun c h => (medium.mem_write h).2 rfl) value

end Medium

/-- A written value stands for another text: a reader cuts it out of its tag as it is, no tag ends in it, and
both decoders say the text, also where more stands behind it. -/
structure StandsFor (written value : String) : Prop where
  plain : '<' ∉ written.toList ∧ '"' ∉ written.toList
  cut : ∀ key rest, quoted? key (glyphs ("\"" ++ written ++ "\"") ++ rest) = some ⟨key, glyphs written, rest⟩
  whole : ∀ rest, cutTag none (glyphs ("\"" ++ written ++ "\"") ++ rest) =
    (cutTag none rest).map fun (content, after) => (glyphs ("\"" ++ written ++ "\"") ++ content, after)
  strict : unescape? written.toList = some value.toList
  known : unescapeKnown written.toList = value.toList
  decoded : attributeValue written.toList = value.toList
  beside : ∀ rest, unescape? (written.toList ++ rest) = (unescape? rest).map (value.toList ++ ·) ∧
    unescapeKnown (written.toList ++ rest) = value.toList ++ unescapeKnown rest

theorem glyphs_between (written : String) :
    glyphs ("\"" ++ written ++ "\"") = .char '"' :: (glyphs written ++ [.char '"']) := by
  simp [glyphs]

theorem standsFor_escape (medium : Medium) (value : String) : StandsFor (medium.escape value) value := by
  have hq := medium.quote_not_mem_glyphs value
  have hcs : (medium.escape value).toList = value.toList.flatMap medium.write := by
    rw [medium.escape_eq, escapeWith, String.toList_ofList]
  have hstrict : unescape? (medium.escape value).toList = some value.toList := by
    rw [hcs]
    exact unescape_flatMap medium.faithful_write _
  have hknown : unescapeKnown (medium.escape value).toList = value.toList := unescapeKnown_of_unescape hstrict
  refine ⟨⟨fun h => (medium.mem_escape h).1 rfl, fun h => (medium.mem_escape h).2 rfl⟩, fun key rest => ?_,
    fun rest => ?_, hstrict, hknown, ?_, fun rest => ?_⟩
  · rw [glyphs_between, List.cons_append, List.append_assoc]
    exact quoted_eq key (.inl rfl) hq rest
  · apply cutTag_append
    rw [glyphs_between]
    exact quoteThrough_between hq
  · rw [attributeValue_eq]
    exact hknown
  · rw [hcs]
    exact ⟨unescape_flatMap_append medium.faithful_write _ rest,
      unescapeKnown_flatMap_append medium.faithful_write _ rest⟩

/-- Whatever a value is, it stands for itself where it is written, and a tag that is written with plain names
is read as the tag that it is, with all its attributes. -/
theorem values_read_back (medium : Medium) :
    (∀ value, StandsFor (medium.escape value) value) ∧
    ∀ name attributes, isName name = true → Named attributes → ∀ size opened rest,
      readFrom size opened (glyphs ("<" ++ name ++ medium.attributes attributes ++ ">") ++ rest) =
        (readFrom size (glyphs name :: opened) rest).prepend [.start name attributes] ∧
      readFrom size opened (glyphs ("<" ++ name ++ medium.attributes attributes ++ "/>") ++ rest) =
        (readFrom size opened rest).prepend [.empty name attributes] := by
  have hq : ∀ c, '"' ∉ medium.write c := fun c h => (medium.mem_write h).2 rfl
  refine ⟨standsFor_escape medium, ?_⟩
  intro name attributes hn ha size opened rest
  have he := quoteThrough_named hq hn ha.plain
  rw [medium.attributes_eq]
  constructor
  · exact readFrom_opening hq medium.faithful_write hn ha.legible he size opened rest
  · exact readFrom_lone hq medium.faithful_write hn ha.legible he size opened rest

/-- A value in which references are written out, and ampersands and semicolons stand alone. -/
theorem values_read_back_references :
    let value := "&amp; &#x3c;&;&nbsp;\"<'>'\" ;&"
    let written := "&amp;amp; &amp;#x3c;&amp;;&amp;nbsp;&quot;&lt;'>'&quot; ;&amp;"
    isName "a" = true ∧ Named [("title", value), ("href", "")] ∧ StandsFor written value ∧
      readFrom 0 [] (glyphs ("<a title=\"" ++ written ++ "\" href=\"\">")) =
        ⟨[.start "a" [("title", value), ("href", "")]], none⟩ := by
  intro value written
  have hn : isName "a" = true := by decide
  have ha : Named [("title", value), ("href", "")] := ⟨by decide, by decide⟩
  have hwritten : Medium.inline.escape value = written := by decide +kernel
  have htag : "<" ++ "a" ++ Medium.inline.attributes [("title", value), ("href", "")] ++ ">" =
      "<a title=\"" ++ written ++ "\" href=\"\">" := by decide +kernel
  obtain ⟨hstands, htags⟩ := values_read_back .inline
  obtain ⟨hstart, _⟩ := htags "a" _ hn ha 0 [] []
  rw [htag, List.append_nil] at hstart
  refine ⟨hn, ha, hwritten ▸ hstands value, hstart.trans ?_⟩
  rw [readFrom]
  rfl

end QuizPress.Render
