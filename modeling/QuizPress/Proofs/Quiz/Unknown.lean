import QuizPress.Proofs.Quiz.Inline
import QuizPress.Proofs.Quiz.Stable
import QuizPress.Proofs.Xml.Unknown

/-! References that are not known, in inline markup. Wherever the markup stands in a text element, what is
stored of it says what each of its events says, one after the other. -/
namespace QuizPress.Quiz
open Text Xml Builder

def trimStart (s : String) : String := .ofList (s.toList.dropWhile isBlank)

def trimEnd (s : String) : String := .ofList (s.toList.rdropWhile isBlank)

theorem Solid.trim {s : String} (h : Solid s.toList) (before after : String) :
    Text.trim (before ++ s ++ after) = trimStart before ++ s ++ trimEnd after := by
  rw [Text.trim, String.toList_append, String.toList_append, h.trimmed, String.ofList_append,
    String.ofList_append, String.ofList_toList]
  rfl

namespace Content

def append : Content → Content → Content
  | nil, later => later
  | text content rest, later => text content (rest.append later)
  | reference name rest, later => reference name (rest.append later)
  | empty name attributes rest, later => empty name attributes (rest.append later)
  | element name attributes inner rest, later => element name attributes inner (rest.append later)

theorem events_append (content later : Content) :
    (content.append later).events = content.events ++ later.events := by
  induction content with
  | nil => rfl
  | text s rest ih | reference name rest ih | empty name attributes rest ih => exact congrArg (List.cons _) ih
  | element name attributes inner rest _ ih =>
    simp only [append, events, ih, List.cons_append, List.append_assoc]

theorem ownText_append (content later : Content) :
    (content.append later).ownText = content.ownText ++ later.ownText := by
  induction content with
  | nil => exact String.empty_append.symm
  | text s rest ih | reference name rest ih | empty name attributes rest ih
  | element name attributes inner rest _ ih =>
    simp only [append, ownText, ih, String.append_assoc]

end Content

/-- A place in the content of an element, with what stands in front of it and behind it. The innermost
element around the place comes last. -/
inductive Hole where
  | here (left right : Content)
  | inside (left : Content) (name : String) (attributes : Attributes) (hole : Hole) (right : Content)
deriving DecidableEq, Repr

namespace Hole

def fill (fragment : Content) : Hole → Content
  | here left right => left.append (fragment.append right)
  | inside left name attributes hole right =>
    left.append (.element name attributes (hole.fill fragment) right)

def Foreign : Hole → Prop
  | here _ _ => True
  | inside _ name _ hole _ => Element.ofName? name = none ∧ hole.Foreign

def before : Hole → List Event
  | here left _ => left.events
  | inside left name attributes hole _ => left.events ++ .start name attributes :: hole.before

def after : Hole → List Event
  | here _ right => right.events
  | inside _ name _ hole right => hole.after ++ .close name :: right.events

def front : Hole → String
  | here left _ => left.ownText
  | inside left name attributes hole _ =>
    left.ownText ++ ("<" ++ name ++ inlineAttributes attributes ++ ">") ++ hole.front

def back : Hole → String
  | here _ right => right.ownText
  | inside _ name _ hole right => hole.back ++ ("</" ++ name ++ ">") ++ right.ownText

theorem events_fill (hole : Hole) (fragment : Content) :
    (hole.fill fragment).events = hole.before ++ fragment.events ++ hole.after := by
  induction hole with
  | here left right => simp only [fill, Content.events_append, before, after, List.append_assoc]
  | inside left name attributes hole right ih =>
    simp only [fill, Content.events_append, Content.events, ih, before, after, List.append_assoc,
      List.cons_append]

theorem Foreign.ownText_fill {hole : Hole} (h : hole.Foreign) (fragment : Content) :
    (hole.fill fragment).ownText = hole.front ++ fragment.ownText ++ hole.back := by
  induction hole with
  | here left right => simp only [fill, Content.ownText_append, front, back, String.append_assoc]
  | inside left name attributes hole right ih =>
    rw [fill, Content.ownText_append, Content.ownText, if_pos (by rw [h.1]; rfl), ih h.2]
    simp only [front, back, String.append_assoc]

end Hole

section
variable {b : Builder} {kind : Element} {tag text : String} {attributes : Attributes}
  {content fragment : Content} {outer : List Event}

/-- The innermost open part is given the text of a text element; where none is open the text is dropped. -/
theorem closeElement_textual (ht : kind ∈ Element.textual) :
    b.closeElement kind text = .ok { b with nodes := b.nodes.modifyHead (takeText kind text) } := by
  obtain ⟨quiz, nodes, scopes⟩ := b
  cases nodes with
  | nil => exact closeElement_iff.2 (.idle ht rfl)
  | cons node nodes => exact closeElement_iff.2 (.text ht rfl)

/-- The end tag of a text element stores what stands in the element. -/
theorem stored_of_run (hk : Element.ofName? tag = some kind) (ht : kind ∈ Element.textual)
    (hr : Builder.run {} (outer ++ .start tag attributes :: content.events) = .ok b) :
    b.step (.close tag) = .ok { b with
      nodes := b.nodes.modifyHead (takeText kind (trim content.ownText)), scopes := b.scopes.tail } := by
  obtain ⟨b₀, _, hrun⟩ := run_append_eq_ok.1 hr
  obtain ⟨b₁, hs, hrun⟩ := run_cons_eq_ok.1 hrun
  obtain ⟨scope, hscopes, htext⟩ := scopes_of_content hs hrun
  obtain ⟨quiz, nodes, scopes⟩ := b
  cases hscopes
  rw [step, close, hk, ← htext]
  exact closeElement_textual ht

/-- What an event says in inline markup is stored as it is written again, if it is no blank. -/
theorem stored_of_event {hole : Hole} (hh : hole.Foreign) (hf : fragment.Foreign) {inner later : List Event}
    {event : Event} (he : fragment.events = inner ++ event :: later) (hs : Solid (written event).toList) :
    trim (hole.fill fragment).ownText =
      trimStart (hole.front ++ String.join (inner.map written)) ++ written event ++
        trimEnd (String.join (later.map written) ++ hole.back) := by
  rw [← hs.trim, hh.ownText_fill, hf.ownText_eq, he, List.map_append, List.map_cons, String.join_append,
    String.join_cons]
  simp only [String.append_assoc]

/-- A start tag and an empty-element tag are written with their attributes. -/
private theorem written_opening {name : String} {event : Event}
    (h : event = .start name attributes ∨ event = .empty name attributes) :
    Solid (written event).toList ∧
      ∃ last, written event = "<" ++ name ++ inlineAttributes attributes ++ last := by
  rcases h with rfl | rfl
  · refine ⟨?_, ">", rfl⟩
    have hs := solid_markup (name ++ inlineAttributes attributes)
    rwa [← String.append_assoc] at hs
  · exact ⟨solid_empty _ _, "/>", rfl⟩

/-- An event that is read at a place in some events is one of them. -/
private theorem exists_later {events inner more behind : List Event} {event : Event}
    (h : inner ++ event :: more = events ++ behind) (hl : inner.length < events.length) :
    ∃ later, events = inner ++ event :: later := by
  rcases List.append_eq_append_iff.1 h with ⟨later, rfl, hm⟩ | ⟨later, rfl, _⟩
  · cases later with
    | nil =>
      rw [List.append_nil] at hl
      exact absurd hl (Nat.lt_irrefl _)
    | cons e later =>
      cases hm
      exact ⟨later, rfl⟩
  · rw [List.length_append] at hl
    omega

end

section
variable {front : String} {events : List Event}

theorem read_reference {name : String} (h : Xml.read (glyphs front) = ⟨events, none⟩)
    (hn : ∀ c ∈ name.toList, isReference (.char c) = true) (rest : String) :
    ∃ more, (Xml.read (glyphs (front ++ ("&" ++ name ++ ";") ++ rest))).events =
      events ++ .reference name :: more := by
  obtain ⟨opened, honward⟩ := read_onward h
  obtain ⟨size, hread⟩ := honward (glyphs ("&" ++ name ++ ";") ++ glyphs rest) <| .inr fun g hg => by
    simp only [glyphs, String.toList_append] at hg
    cases hg
    rfl
  rw [readFrom_reference hn, Reading.prepend_prepend, ← glyphs_append, ← glyphs_append,
    ← String.append_assoc] at hread
  refine ⟨(readFrom size opened (glyphs rest)).events, ?_⟩
  rw [hread, Reading.prepend, List.append_assoc]
  rfl

/-- A tag is read with the attributes that stand in it, if there is no fault. -/
theorem read_opening {content rest : String} (h : Xml.read (glyphs front) = ⟨events, none⟩)
    (hc : cutPiece (.char '<') (glyphs (content ++ ">")) = .ok (.opening (glyphs content), []))
    (hfault : (Xml.read (glyphs (front ++ ("<" ++ content ++ ">") ++ rest))).fault = none) :
    ∃ event more name attributes,
      (Xml.read (glyphs (front ++ ("<" ++ content ++ ">") ++ rest))).events = events ++ event :: more ∧
      (event = .start name attributes ∨ event = .empty name attributes) ∧
      readAttributes [] (tagBody (glyphs content)) = .ok attributes := by
  obtain ⟨opened, honward⟩ := read_onward h
  obtain ⟨size, hread⟩ := honward (.char '<' :: (glyphs (content ++ ">") ++ glyphs rest)) <|
    .inr fun g hg => by cases hg; rfl
  have hgs : glyphs (front ++ ("<" ++ content ++ ">") ++ rest) =
      glyphs front ++ .char '<' :: (glyphs (content ++ ">") ++ glyphs rest) := by
    simp [glyphs]
  have hcut : cutPiece (.char '<') (glyphs (content ++ ">") ++ glyphs rest) =
      .ok (.opening (glyphs content), glyphs rest) :=
    cutPiece_onward hc (.inr (.inl fun _ h => by cases h))
  rw [hgs, hread] at hfault ⊢
  cases hm : mark? opened (.opening (glyphs content)) with
  | none => exact absurd hfault (fault_of_mark hcut hm)
  | some r =>
    obtain ⟨mark, opened'⟩ := r
    rw [readFrom_ok hcut hm, Reading.prepend_prepend]
    obtain ⟨⟨event, opened''⟩, hopening, hmark⟩ := exists_of_toOption hm
    cases hmark
    obtain ⟨name, attributes, hevent, hattributes⟩ := readOpening_body hopening
    refine ⟨event, (readFrom size opened' (glyphs rest)).events, name, attributes, ?_, hevent, hattributes⟩
    rw [Reading.prepend, List.append_assoc]
    rfl

end

/-- References that are not known, in inline markup of a text element. What is stored of the characters
has such a reference as it is written. A value is stored as it is written when it has been read, and so the
ampersand of the reference is escaped there. -/
theorem unknown_stored {document tag : String} {attributes : Attributes} {kind : Element}
    {outer behind : List Event} {hole : Hole} {fragment : Content} {quiz : Quiz}
    (hp : parse document = .ok quiz)
    (he : (Xml.read (glyphs document)).events =
      outer ++ .start tag attributes :: ((hole.fill fragment).events ++ .close tag :: behind))
    (hk : Element.ofName? tag = some kind) (ht : kind ∈ Element.textual)
    (hh : hole.Foreign) (hf : fragment.Foreign) :
    let stored := trim (hole.fill fragment).ownText
    (∃ b, Builder.run {} (outer ++ .start tag attributes :: (hole.fill fragment).events) = .ok b ∧
      b.step (.close tag) = .ok { b with
        nodes := b.nodes.modifyHead (takeText kind stored), scopes := b.scopes.tail }) ∧
    (∀ front inner, Xml.read (glyphs front) =
        ⟨outer ++ .start tag attributes :: (hole.before ++ inner), none⟩ →
      inner.length < fragment.events.length →
      let beginning := trimStart (hole.front ++ String.join (inner.map written))
      (∀ name rest, IsUnknown name → document = front ++ ("&" ++ name ++ ";") ++ rest →
        ∃ right, stored = beginning ++ ("&" ++ name ++ ";") ++ right) ∧
      ∀ content rest key raw, document = front ++ ("<" ++ content ++ ">") ++ rest →
        cutPiece (.char '<') (glyphs (content ++ ">")) = .ok (.opening (glyphs content), []) →
        Bears (glyphs key) (glyphs raw) (tagBody (glyphs content)) →
        ∃ left right, stored = beginning ++ left ++ (" " ++ key ++ "=\"" ++ requoted raw ++ "\"") ++ right) ∧
    ∀ before name after, IsUnknown name → requoted (before ++ ("&" ++ name ++ ";") ++ after) =
      requoted before ++ ("&amp;" ++ name ++ ";") ++ requoted after := by
  intro stored
  rw [parse, ofGlyphs, ofReading_eq, resume_eq_ok] at hp
  obtain ⟨hfault, _, hrun, _⟩ := hp
  refine ⟨?_, fun front inner hfront hl => ?_, fun before name after h => requoted_unknown h before after⟩
  · rw [he, ← List.cons_append, ← List.append_assoc] at hrun
    obtain ⟨b, hb, _⟩ := run_append_eq_ok.1 hrun
    exact ⟨b, hb, stored_of_run hk ht hb⟩
  -- what is read first behind the front is one of the events of the fragment
  have next {event : Event} {more : List Event} (hm : (Xml.read (glyphs document)).events =
        outer ++ .start tag attributes :: (hole.before ++ inner) ++ event :: more)
      (hs : Solid (written event).toList) :
      ∃ right, stored =
        trimStart (hole.front ++ String.join (inner.map written)) ++ written event ++ right := by
    rw [he, hole.events_fill] at hm
    simp only [List.append_assoc, List.cons_append, List.append_cancel_left_eq, List.cons.injEq,
      true_and] at hm
    obtain ⟨later, hlater⟩ := exists_later hm.symm hl
    exact ⟨_, stored_of_event hh hf hlater hs⟩
  refine ⟨fun name rest hname hd => ?_, fun content rest key raw hd hc hb => ?_⟩
  · obtain ⟨more, hread⟩ := read_reference hfront hname.isReference rest
    have hs : Solid ("&" ++ name ++ ";").toList :=
      ⟨⟨'&', by simp, rfl⟩, ';', by simp [List.getLast?_cons], rfl⟩
    rw [← hd] at hread
    rw [← hname.expansion_eq] at hs ⊢
    have hstored := next hread hs
    exact hstored
  · subst hd
    obtain ⟨event, more, name, attributes', hread, hevent, hattributes⟩ := read_opening hfront hc hfault
    obtain ⟨value, hv, hmem⟩ := hb.mem hattributes
    rw [strict_glyphs] at hv
    cases hv
    rw [lossy_glyphs] at hmem
    obtain ⟨before, after, hwritten⟩ := exists_writeAttributes (escapeWith quotedChar) hmem
    obtain ⟨hs, last, hlast⟩ := written_opening hevent
    obtain ⟨right, hstored⟩ := next hread hs
    refine ⟨"<" ++ name ++ before, after ++ last ++ right, ?_⟩
    rw [hstored, hlast, inlineAttributes, hwritten, requoted]
    simp only [String.append_assoc]

/-- The same reference in a value, behind one that is known, and in the characters behind the tag. -/
theorem unknown_stored_mixed :
    let document := "<quiz><question><text> a<b><em title=\"b&amp;&nbsp;\">c&nbsp;</em></b></text>" ++
      "<answer/></question></quiz>"
    let stored := "a<b><em title=\"b&amp;&amp;nbsp;\">c&nbsp;</em></b>"
    parse document = .ok { questions := [⟨stored, .answer {}⟩] } ∧
    (∃ right, stored = "a<b><em title=\"b&amp;&amp;nbsp;\">c" ++ "&nbsp;" ++ right) ∧
    (∃ left right, stored = "a<b>" ++ left ++ (" title=\"" ++ requoted "b&amp;&nbsp;" ++ "\"") ++ right) ∧
    requoted "b&amp;&nbsp;" = requoted "b&amp;" ++ "&amp;nbsp;" ++ requoted "" := by
  intro document stored
  let outer : List Event := [.start "quiz" [], .start "question" []]
  let hole : Hole := .inside (.text " a" .nil) "b" [] (.here .nil .nil) .nil
  let em : Event := .start "em" [("title", "b&&nbsp;")]
  let fragment : Content := .element "em" [("title", "b&&nbsp;")] (.text "c" (.reference "nbsp" .nil)) .nil
  have hp : parse document = .ok { questions := [⟨stored, .answer {}⟩] } := by
    rw [parse]
    decide +kernel
  have he : (Xml.read (glyphs document)).events =
      outer ++ .start "text" [] :: ((hole.fill fragment).events ++ .close "text" ::
        [.empty "answer" [], .close "question", .close "quiz"]) := by decide +kernel
  have hu : IsUnknown "nbsp" := by decide +kernel
  have hstored : trim (hole.fill fragment).ownText = stored := by decide +kernel
  have hfront : Xml.read (glyphs "<quiz><question><text> a<b>") =
      ⟨outer ++ .start "text" [] :: (hole.before ++ []), none⟩ := by decide +kernel
  have hfront' : Xml.read (glyphs "<quiz><question><text> a<b><em title=\"b&amp;&nbsp;\">c") =
      ⟨outer ++ .start "text" [] :: (hole.before ++ [em, .text "c"]), none⟩ := by decide +kernel
  have hsaid : trimStart (hole.front ++ String.join (([] : List Event).map written)) = "a<b>" := by
    decide +kernel
  have hsaid' : trimStart (hole.front ++ String.join ([em, .text "c"].map written)) =
      "a<b><em title=\"b&amp;&amp;nbsp;\">c" := by decide +kernel
  have hbears : Bears (glyphs "title") (glyphs "b&amp;&nbsp;")
      (tagBody (glyphs "em title=\"b&amp;&nbsp;\"")) := by
    have hd : (tagBody (glyphs "em title=\"b&amp;&nbsp;\"")).dropWhile isSpace =
        .char 't' :: (glyphs "itle" ++ .char '=' :: .char '"' ::
          (glyphs "b&amp;&nbsp;" ++ .char '"' :: [])) := by decide +kernel
    exact .first hd (written_iff.1 (written_append (by decide +kernel) (by decide +kernel) []))
  obtain ⟨_, hspots, hwritten⟩ := unknown_stored hp he rfl (by decide) ⟨rfl, trivial⟩ ⟨rfl, trivial, trivial⟩
  obtain ⟨_, hvalues⟩ := hspots _ [] hfront (by decide)
  obtain ⟨hcharacters, _⟩ := hspots _ [em, .text "c"] hfront' (by decide)
  refine ⟨hp, ?_, ?_, ?_⟩
  · obtain ⟨right, h⟩ := hcharacters "nbsp" "</em></b></text><answer/></question></quiz>" hu
      (by decide +kernel)
    rw [hstored, hsaid'] at h
    exact ⟨right, h⟩
  · obtain ⟨left, right, h⟩ := hvalues _ "c&nbsp;</em></b></text><answer/></question></quiz>" "title"
      "b&amp;&nbsp;" (by decide +kernel) (by decide +kernel) hbears
    rw [hstored, hsaid] at h
    exact ⟨left, right, h⟩
  · exact hwritten "b&amp;" "nbsp" "" hu

end QuizPress.Quiz
