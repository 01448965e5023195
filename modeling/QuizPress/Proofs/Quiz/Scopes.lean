import QuizPress.Proofs.Quiz.Gifts
import QuizPress.Proofs.Xml.Survey

/-! The text that is collected in an element is what stands between its tags, written again. -/
namespace QuizPress.Quiz
open Text Xml Builder

/-- What stands one after the other in an element. Each constructor but the first says what stands there
first, and the rest; what is passed over is a comment, an instruction, a declaration or a document type. -/
inductive Children where
  | nil
  | passed (rest : Children)
  | text (content : String) (rest : Children)
  | reference (name : String) (rest : Children)
  | empty (name : String) (attributes : Attributes) (rest : Children)
  | element (name : String) (attributes : Attributes) (inner rest : Children)
deriving DecidableEq, Repr

namespace Children

def marks : Children → List (Option Event)
  | nil => []
  | passed rest => none :: rest.marks
  | text content rest => some (.text content) :: rest.marks
  | reference name rest => some (.reference name) :: rest.marks
  | empty name attributes rest => some (.empty name attributes) :: rest.marks
  | element name attributes inner rest =>
    some (.start name attributes) :: (inner.marks ++ some (.close name) :: rest.marks)

/-- Children written as text: characters as they are, a reference as its character if it is known, and
markup if it is that of elements without meaning. All else is written as nothing. -/
def ser : Children → String
  | nil => ""
  | passed rest => rest.ser
  | text content rest => content ++ rest.ser
  | reference name rest =>
    (match referenced? name.toList with
      | some c => String.singleton c
      | none => "&" ++ name ++ ";") ++ rest.ser
  | empty name attributes rest =>
    (match Element.ofName? name with
      | some _ => ""
      | none => "<" ++ name ++ inlineAttributes attributes ++ "/>") ++ rest.ser
  | element name attributes inner rest =>
    (match Element.ofName? name with
      | some _ => ""
      | none => "<" ++ name ++ inlineAttributes attributes ++ ">" ++ inner.ser ++ "</" ++ name ++ ">") ++
      rest.ser

def content : Children → Content
  | nil => .nil
  | passed rest => rest.content
  | text content rest => .text content rest.content
  | reference name rest => .reference name rest.content
  | empty name attributes rest => .empty name attributes rest.content
  | element name attributes inner rest => .element name attributes inner.content rest.content

def append : Children → Children → Children
  | nil, later => later
  | passed rest, later => passed (rest.append later)
  | text content rest, later => text content (rest.append later)
  | reference name rest, later => reference name (rest.append later)
  | empty name attributes rest, later => empty name attributes (rest.append later)
  | element name attributes inner rest, later => element name attributes inner (rest.append later)

theorem marks_append (children later : Children) :
    (children.append later).marks = children.marks ++ later.marks := by
  induction children with
  | nil => rfl
  | passed rest ih | text content rest ih | reference name rest ih | empty name attributes rest ih =>
    exact congrArg (List.cons _) ih
  | element name attributes inner rest _ ih =>
    simp only [append, marks, ih, List.cons_append, List.append_assoc]

theorem events_content (children : Children) :
    children.content.events = children.marks.reduceOption := by
  induction children with
  | nil => rfl
  | passed rest ih => exact ih
  | text content rest ih | reference name rest ih | empty name attributes rest ih =>
    exact congrArg (List.cons _) ih
  | element name attributes inner rest ihi ih =>
    simp only [content, Content.events, marks, List.reduceOption_cons_of_some,
      List.reduceOption_append, ihi, ih]

theorem ownText_content (children : Children) : children.content.ownText = children.ser := by
  induction children with
  | nil => rfl
  | passed rest ih => exact ih
  | text content rest ih => exact congrArg (content ++ ·) ih
  | reference name rest ih =>
    rw [content, Content.ownText, ser, ih, expansion]
    cases referenced? name.toList with
    | some c => rfl
    | none =>
      have hname : String.ofList ('&' :: name.toList ++ [';']) = "&" ++ name ++ ";" := by
        simp [String.append_assoc]
      exact congrArg (· ++ rest.ser) hname
  | empty name attributes rest ih =>
    rw [content, Content.ownText, ser, ih]
    cases Element.ofName? name <;> rfl
  | element name attributes inner rest ihi ih =>
    rw [content, Content.ownText, ser, ihi, ih]
    cases Element.ofName? name <;> rfl

end Children

open Children

def tagsIn (marks : List (Option Event)) : List Tag := marks.reduceOption.flatMap tagsOf

theorem tagsIn_append (marks later : List (Option Event)) :
    tagsIn (marks ++ later) = tagsIn marks ++ tagsIn later := by
  rw [tagsIn, List.reduceOption_append, List.flatMap_append]
  rfl

/-- Marks behind which an element is open end with its start tag and what stands in it so far. -/
theorem exists_element {marks : List (Option Event)} {name : String} {names : List String}
    (hm : Matched [] (tagsIn marks)) (ho : openNames [] (tagsIn marks) = name :: names) :
    ∃ outer attributes children, marks = outer ++ some (.start name attributes) :: Children.marks children ∧
      openNames [] (tagsIn outer) = names := by
  induction hn : marks.length using Nat.strongRecOn generalizing marks name names with
  | _ n ih =>
    rcases marks.eq_nil_or_concat with rfl | ⟨init, mark, rfl⟩
    · cases ho
    rw [List.concat_eq_append] at hm ho hn ⊢
    rw [tagsIn_append, matched_append] at hm
    rw [tagsIn_append, openNames_append] at ho
    have hl : init.length < n := by
      rw [← hn, List.length_append]
      exact Nat.lt_succ_self _
    -- a mark without a tag stands behind the children so far
    have behind (children' : Children) (h : children'.marks = [mark])
        (ho : openNames [] (tagsIn init) = name :: names) : ∃ outer attributes children,
          init ++ [mark] = outer ++ some (.start name attributes) :: Children.marks children ∧
          openNames [] (tagsIn outer) = names := by
      obtain ⟨outer, attributes, children, rfl, houter⟩ := ih _ hl hm.1 ho rfl
      refine ⟨outer, attributes, children.append children', ?_, houter⟩
      rw [marks_append, h, List.append_assoc, List.cons_append]
    rcases mark with _ | event
    · exact behind (.passed .nil) rfl ho
    cases event with
    | text content => exact behind (.text content .nil) rfl ho
    | reference name => exact behind (.reference name .nil) rfl ho
    | empty name attributes => exact behind (.empty name attributes .nil) rfl ho
    | start name' attributes =>
      cases ho
      exact ⟨init, attributes, .nil, rfl, rfl⟩
    | close name' =>
      -- the element that ends here stands in the one that is open
      obtain ⟨names', hnames⟩ := List.head?_eq_some_iff.1 hm.2.1
      rw [hnames] at ho
      obtain ⟨outer', attributes', inner, rfl, houter'⟩ := ih _ hl hm.1 hnames rfl
      have ho' : openNames [] (tagsIn outer') = name :: names := houter'.trans ho
      have hm' := hm.1
      rw [tagsIn_append, matched_append] at hm'
      have hl' : outer'.length < n := by
        rw [List.length_append] at hl
        exact Nat.lt_of_le_of_lt (Nat.le_add_right _ _) hl
      obtain ⟨outer, attributes, children, rfl, houter⟩ := ih _ hl' hm'.1 ho' rfl
      refine ⟨outer, attributes, children.append (.element name' attributes' inner .nil), ?_, houter⟩
      simp only [marks_append, marks, List.append_assoc, List.cons_append]

/-- An end tag in a document ends an element. -/
theorem element_of_close {gs : List Glyph} {before after : List (Option Event)} {name : String}
    (h : survey gs = before ++ some (.close name) :: after) :
    ∃ outer attributes children, before = outer ++ some (.start name attributes) :: Children.marks children := by
  have hm := matched_of_read gs
  rw [← events_survey, h, ← tagsIn, tagsIn_append, matched_append] at hm
  obtain ⟨names, ho⟩ := List.head?_eq_some_iff.1 hm.2.1
  obtain ⟨outer, attributes, children, hb, _⟩ := exists_element hm.1 ho
  exact ⟨outer, attributes, children, hb⟩

section
variable {b b₀ b₁ : Builder} {name : String} {attributes : Attributes}

theorem scopes_of_start (h : b.start name attributes = .ok b₁) :
    ∃ scope, b₁.scopes = scope :: b.scopes ∧ scope.text = "" := by
  unfold Builder.start at h
  split at h
  · cases h
    exact ⟨_, rfl, rfl⟩
  · exact ⟨{}, opens_scopes (openElement_iff.1 h), rfl⟩

/-- What is read between the tags of an element comes to its scope, and to none around it. -/
theorem scopes_of_content {content : Content} (hs : b₀.start name attributes = .ok b₁)
    (hr : b₁.run content.events = .ok b) :
    ∃ scope, b.scopes = scope :: b₀.scopes ∧ scope.text = content.ownText := by
  have hsaid := (gains_of_run hr).1.scopes
  obtain ⟨scope, hscopes, htext⟩ := scopes_of_start hs
  rw [hscopes, List.modifyHead_cons] at hsaid
  exact ⟨_, hsaid, by rw [said, htext, String.empty_append]⟩

end

/-- The scope that an end tag finds has the text of what stands in the element, and the scopes around
it are as they were at the start tag. An empty-element tag with a meaning finds no text. -/
theorem scopes_collect (gs : List Glyph) :
    (survey gs).reduceOption = (Xml.read gs).events ∧
    (∀ before name after b, survey gs = before ++ some (.close name) :: after →
      Builder.run {} before.reduceOption = .ok b →
      (∃ outer attributes children,
        before = outer ++ some (.start name attributes) :: Children.marks children) ∧
      ∀ outer attributes children,
        before = outer ++ some (.start name attributes) :: Children.marks children →
        ∃ b₀ scope, Builder.run {} outer.reduceOption = .ok b₀ ∧
          b.scopes = scope :: b₀.scopes ∧ scope.text = children.ser) ∧
    ∀ before name attributes after b element b₁,
      survey gs = before ++ some (.empty name attributes) :: after →
      Builder.run {} before.reduceOption = .ok b →
      Element.ofName? name = some element → b.start name attributes = .ok b₁ →
      ∃ scope, b₁.scopes = scope :: b.scopes ∧ scope.text = Children.ser .nil := by
  refine ⟨events_survey gs, fun before name after b h hb => ⟨element_of_close h, ?_⟩,
    fun _ _ _ _ _ _ _ _ _ _ hs => scopes_of_start hs⟩
  rintro outer attributes children rfl
  rw [List.reduceOption_append, List.reduceOption_cons_of_some] at hb
  obtain ⟨b₀, hb₀, hrun⟩ := run_append_eq_ok.1 hb
  obtain ⟨b₁, hs, hr⟩ := run_cons_eq_ok.1 hrun
  rw [← events_content] at hr
  obtain ⟨scope, hscopes, htext⟩ := scopes_of_content hs hr
  exact ⟨b₀, scope, hb₀, hscopes, htext.trans (ownText_content children)⟩

/-- A text with a comment, markup that holds another text, and references known and unknown. -/
theorem scopes_collect_markup :
    let outer : List (Option Event) := [some (.start "quiz" []), some (.start "question" [])]
    let inner : Children := .text "c" (.element "tag" [] (.text "d" .nil)
      (.reference "amp" (.reference "nbsp" .nil)))
    let children : Children := .text "a" (.passed (.element "em" [("class", "<")] inner
      (.empty "br" [] (.text "<" .nil))))
    let gs := glyphs ("<quiz><question><text>a<!-- b --><em class='&lt;'>c<tag>d</tag>&amp;&nbsp;</em>" ++
      "<br/><![CDATA[<]]></text><answer/>")
    survey gs = outer ++ some (.start "text" []) :: Children.marks children ++
      some (.close "text") :: [some (.empty "answer" [])] ∧
    children.ser = "a<em class=\"&lt;\">c&&nbsp;</em><br/><" ∧
    ∃ b b₀ scope, Builder.run {} (outer ++ some (.start "text" []) :: Children.marks children).reduceOption =
        .ok b ∧
      Builder.run {} outer.reduceOption = .ok b₀ ∧ b.scopes = scope :: b₀.scopes ∧
      scope.text = children.ser := by
  intro outer inner children gs
  have hsurvey : survey gs = outer ++ some (.start "text" []) :: Children.marks children ++
      some (.close "text") :: [some (.empty "answer" [])] := by decide +kernel
  have hser : children.ser = "a<em class=\"&lt;\">c&&nbsp;</em><br/><" := by decide +kernel
  obtain ⟨b, hb⟩ : ∃ b, Builder.run {}
    (outer ++ some (.start "text" []) :: Children.marks children).reduceOption = .ok b := ⟨_, rfl⟩
  obtain ⟨b₀, scope, hb₀, hscopes, htext⟩ :=
    ((scopes_collect gs).2.1 _ _ _ b hsurvey hb).2 outer [] children rfl
  exact ⟨hsurvey, hser, b, b₀, scope, hb, hb₀, hscopes, htext⟩

end QuizPress.Quiz
