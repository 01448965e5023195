import QuizPress.Proofs.Quiz.Acceptance

/-! Where a builder stops: the start tags that it refuses, the end tag that comes too early, and what the
errors say of the place. -/
namespace QuizPress.Quiz
open Text Xml Builder

/-- The start tags that a builder refuses, each with its error. -/
inductive Refuses (b : Builder) : Element → ParseError → Prop where
  | root (hq : b.quiz.isSome = true) : Refuses b .quiz (.misplaced .quiz none)
  | unrooted {element} (he : element = .discussion ∨ element = .question) (hq : b.quiz = none) :
      Refuses b element .missingRoot
  | within {element} (he : element = .discussion ∨ element = .question) (hn : b.nodes ≠ []) :
      Refuses b element (misplaced element b.nodes)
  | second {element own body outer} (he : element = .choice ∨ element = .answer)
      (hn : b.nodes = .question own (some body) :: outer) :
      Refuses b element (.duplicateAnswerBody b.questionNumber)
  | body {element} (he : element = .choice ∨ element = .answer)
      (hn : b.nodes.head?.map Open.element ≠ some .question) : Refuses b element (misplaced element b.nodes)
  | full {c outer} (hn : b.nodes = .choice c :: outer) (hl : Choice.maxItems ≤ c.items.length) :
      Refuses b .item (.tooManyItems b.questionNumber)
  | item (hn : b.nodes.head?.map Open.element ≠ some .choice) : Refuses b .item (misplaced .item b.nodes)

/-- How an event can fail: its start tag is refused, or it ends a question that has no answer body. -/
inductive Fails (b : Builder) : Event → ParseError → Prop where
  | start {name attributes element error} (hk : Element.ofName? name = some element)
      (hr : Refuses b element error) : Fails b (.start name attributes) error
  | empty {name attributes element error} (hk : Element.ofName? name = some element)
      (hr : Refuses b element error) : Fails b (.empty name attributes) error
  | close {name} (hk : Element.ofName? name = some .question) :
      Fails b (.close name) (.missingAnswerBody b.questionNumber)
  | hollow {name attributes b'} (hk : Element.ofName? name = some .question)
      (hs : b.start name attributes = .ok b') :
      Fails b (.empty name attributes) (.missingAnswerBody b'.questionNumber)

variable {b b' : Builder} {name : String} {names : List String} {element : Element}
  {attributes : Attributes} {event : Event} {error : ParseError}

private theorem refuses_of_openSection {node : Open} (he : element = .discussion ∨ element = .question)
    (h : b.openSection element node = .error error) : Refuses b element error := by
  unfold openSection at h
  split at h
  · rename_i hq
    cases h
    exact .unrooted he (Option.isNone_iff_eq_none.1 hq)
  · split at h
    · cases h
    · rename_i hn
      cases h
      exact .within he hn

private theorem refuses_of_openBody {node : Open} (he : element = .choice ∨ element = .answer)
    (h : b.openBody element node = .error error) : Refuses b element error := by
  unfold openBody at h
  split at h
  · rename_i hn
    cases h
    exact .second he hn
  · cases h
  · rename_i hsecond hbare
    cases h
    refine .body he fun hx => ?_
    obtain ⟨node, hh, hk⟩ := Option.map_eq_some_iff.1 hx
    obtain ⟨outer, hn⟩ := List.head?_eq_some_iff.1 hh
    cases node with
    | question own body =>
      cases body with
      | some body => exact hsecond _ _ _ hn
      | none => exact hbare _ _ hn
    | _ => cases hk

private theorem refuses_of_openItem {i : Item} (h : b.openItem i = .error error) : Refuses b .item error := by
  unfold openItem at h
  split at h
  · rename_i hn
    split at h
    · rename_i hl
      cases h
      exact .full hn hl
    · cases h
  · rename_i hother
    cases h
    refine .item fun hx => ?_
    obtain ⟨node, hh, hk⟩ := Option.map_eq_some_iff.1 hx
    obtain ⟨outer, hn⟩ := List.head?_eq_some_iff.1 hh
    cases node with
    | choice c => exact hother _ _ hn
    | _ => cases hk

/-- The rules say why a start tag is refused. -/
theorem refuses_of_openElement (h : b.openElement element attributes = .error error) :
    Refuses b element error := by
  cases element with
  | quiz =>
    simp only [openElement] at h
    split at h
    · rename_i hq
      cases h
      exact .root hq
    · cases h
  | discussion => exact refuses_of_openSection (.inl rfl) h
  | question => exact refuses_of_openSection (.inr rfl) h
  | choice => exact refuses_of_openBody (.inl rfl) h
  | answer => exact refuses_of_openBody (.inr rfl) h
  | item => exact refuses_of_openItem h
  | metaData | link | course | quizListItem | text | tag | response | whenRight | whenWrong => cases h

/-- The scopes have no part in a refusal. -/
private theorem Refuses.unscoped {scopes : List Scope} (h : Refuses { b with scopes } element error) :
    Refuses b element error := by
  cases h with
  | root hq => exact .root hq
  | unrooted he hq => exact .unrooted he hq
  | within he hn => exact .within he hn
  | second he hn => exact .second he hn
  | body he hn => exact .body he hn
  | full hn hl => exact .full hn hl
  | item hn => exact .item hn

theorem error_of_start (h : b.start name attributes = .error error) :
    ∃ element, Element.ofName? name = some element ∧ Refuses b element error := by
  unfold Builder.start at h
  split at h
  · cases h
  · rename_i element hk
    exact ⟨element, hk, (refuses_of_openElement h).unscoped⟩

theorem fails_of_step (hs : Sound names b) (hm : Matched names (tagsOf event))
    (h : b.step event = .error error) : Fails b event error := by
  cases event with
  | start name attributes =>
    obtain ⟨element, hk, hr⟩ := error_of_start h
    exact .start hk hr
  | close name =>
    obtain ⟨names', rfl⟩ := List.head?_eq_some_iff.1 hm.1
    obtain ⟨hk, rfl⟩ := error_of_close hs h
    exact .close hk
  | empty name attributes =>
    have h : b.empty name attributes = .error error := h
    unfold Builder.empty at h
    split at h
    · cases h
    · rcases bind_eq_error.1 h with h | ⟨b', ho, hc⟩
      · obtain ⟨element, hk, hr⟩ := error_of_start h
        exact .empty hk hr
      · obtain ⟨hk, rfl⟩ := error_of_close (sound_of_start hs ho) hc
        exact .hollow hk ho
  | text content | reference name => cases h

/-- Events that are taken one after the other, and the first one that is not. -/
structure Halt (events before : List Event) (event : Event) (b : Builder) (error : ParseError) : Prop where
  split : ∃ after, events = before ++ event :: after
  run : Builder.run {} before = .ok b
  step : b.step event = .error error

theorem run_eq_error {events : List Event} (h : b.run events = .error error) :
    ∃ before event after b', events = before ++ event :: after ∧ b.run before = .ok b' ∧
      b'.step event = .error error := by
  induction events generalizing b with
  | nil => cases h
  | cons first events ih =>
    rw [run, List.foldlM_cons] at h
    rcases bind_eq_error.1 h with h | ⟨b₁, hs, hr⟩
    · exact ⟨[], first, events, b, rfl, rfl, h⟩
    · obtain ⟨before, event, after, b', rfl, hb, he⟩ := ih hr
      exact ⟨first :: before, event, after, b', rfl, run_cons_eq_ok.2 ⟨b₁, hs, hb⟩, he⟩

/-- A document fails at an event, or else at its end or at the fault behind its events. -/
theorem halt_or_end {gs : List Glyph} (h : ofGlyphs gs = .error error) :
    (∃ before event b, Halt (Xml.read gs).events before event b error) ∨
    ∃ b, Builder.run {} (Xml.read gs).events = .ok b ∧
      ((∃ fault, error = .xml fault) ∨ (Xml.read gs).fault = none ∧ b.finish = .error error) := by
  have h : Builder.resume {} (Xml.read gs) = .error error := h
  rcases bind_eq_error.1 h with h | ⟨b, hr, he⟩
  · obtain ⟨before, event, after, b, hs, hb, he⟩ := run_eq_error h
    exact .inl ⟨before, event, b, ⟨after, hs⟩, hb, he⟩
  · refine .inr ⟨b, hr, ?_⟩
    split at he
    · cases he
      exact .inl ⟨_, rfl⟩
    · rename_i hf
      exact .inr ⟨hf, he⟩

namespace Halt
variable {gs : List Glyph} {before : List Event}

theorem matched (h : Halt (Xml.read gs).events before event b error) :
    Matched [] (before.flatMap tagsOf) ∧ Matched (openNames [] (before.flatMap tagsOf)) (tagsOf event) := by
  have hm := matched_of_read gs
  obtain ⟨after, hs⟩ := h.split
  rw [hs, List.append_cons, List.flatMap_append, matched_append, List.flatMap_append, matched_append,
    List.flatMap_singleton] at hm
  exact hm.1

theorem sound (h : Halt (Xml.read gs).events before event b error) :
    Sound (openNames [] (before.flatMap tagsOf)) b :=
  sound_of_run sound_start h.matched.1 h.run

theorem fails (h : Halt (Xml.read gs).events before event b error) : Fails b event error :=
  fails_of_step h.sound h.matched.2 h.step

end Halt

def innermost? (names : List String) : Option String := names.find? fun name => (part? name).isSome

/-- Parts and the root have one spelling. -/
theorem eq_name_of_ofName (h : Element.ofName? name = some element)
    (he : element.isPart = true ∨ element = .quiz) : name = element.name := by
  obtain ⟨before, after, hl, _⟩ := List.lookup_eq_some_iff.1 h
  have hmem : (name, element) ∈ before ++ (name, element) :: after := by simp
  rw [← hl] at hmem
  refine (?_ : ∀ entry ∈ _, (entry.2.isPart = true ∨ entry.2 = .quiz) → entry.1 = entry.2.name)
    (name, element) hmem he
  decide

theorem innermost_eq (names : List String) : innermost? names = (context names).map Element.name := by
  induction names with
  | nil => rfl
  | cons name names ih =>
    rw [innermost?, List.find?_cons, context, parts_cons]
    cases hp : part? name with
    | none => exact ih
    | some element =>
      obtain ⟨hk, hpart⟩ := Option.filter_eq_some_iff.1 hp
      simp [eq_name_of_ofName hk (.inl hpart)]

/-- A part is refused with the name of the innermost part that is open; a second root is not. -/
theorem parent_of_refuses {other : Element} {parent : Option Element}
    (h : Refuses b other (.misplaced element parent)) :
    other = element ∧ (element.isPart = true ∨ element = .quiz) ∧
      parent = if element = .quiz then none else b.nodes.head?.map Open.element := by
  generalize he : ParseError.misplaced element parent = error at h
  cases h with
  | root =>
    cases he
    exact ⟨rfl, .inr rfl, rfl⟩
  | within hk | body hk =>
    cases he
    rcases hk with rfl | rfl <;> exact ⟨rfl, .inl rfl, rfl⟩
  | item =>
    cases he
    exact ⟨rfl, .inl rfl, rfl⟩
  | unrooted | second | full => cases he

/-- Only the end of a document is unexpected. -/
theorem Fails.ne_unexpectedEnd (h : Fails b event error) (element : Element) :
    error ≠ .unexpectedEnd element := by
  rintro rfl
  cases h with
  | start hk hr | empty hk hr => nomatch hr

/-- A part is refused by its own name, in the part whose name the error has. -/
theorem Halt.parent_eq {gs : List Glyph} {before : List Event} {parent : Option Element}
    (h : Halt (Xml.read gs).events before event b (.misplaced element parent)) :
    (∃ attributes, event = .start element.name attributes ∨ event = .empty element.name attributes) ∧
      (parent.getD .quiz).name = if element = .quiz then "quiz"
        else (innermost? (openNames [] (before.flatMap tagsOf))).getD "quiz" := by
  have hname {name : String} {other : Element} (hk : Element.ofName? name = some other)
      (hr : Refuses b other (.misplaced element parent)) : name = element.name ∧
        (parent.getD .quiz).name = if element = .quiz then "quiz"
          else (innermost? (openNames [] (before.flatMap tagsOf))).getD "quiz" := by
    obtain ⟨rfl, he, rfl⟩ := parent_of_refuses hr
    refine ⟨eq_name_of_ofName hk he, ?_⟩
    rw [innermost_eq, h.sound.context_eq]
    by_cases hq : other = .quiz
    · rw [if_pos hq, if_pos hq]
      rfl
    · rw [if_neg hq, if_neg hq]
      cases b.nodes.head? <;> rfl
  generalize he : ParseError.misplaced element parent = error at h
  cases h.fails with
  | start hk hr =>
    subst he
    obtain ⟨rfl, hp⟩ := hname hk hr
    exact ⟨⟨_, .inl rfl⟩, hp⟩
  | empty hk hr =>
    subst he
    obtain ⟨rfl, hp⟩ := hname hk hr
    exact ⟨⟨_, .inr rfl⟩, hp⟩
  | close | hollow => cases he

theorem finish_unexpectedEnd (h : b.finish = .error (.unexpectedEnd element)) :
    b.nodes.head?.map Open.element = some element := by
  obtain ⟨root, nodes, scopes⟩ := b
  cases nodes with
  | nil => cases root <;> cases h
  | cons node outer =>
    cases h
    rfl

/-- An element that is refused is named as its start tag has it, and so is the innermost part around it;
a second root is said to be in a root wherever it is. What a document ends in is the innermost part that is
open at its end. -/
theorem parent_of_error (gs : List Glyph) :
    (∀ element parent, ofGlyphs gs = .error (.misplaced element parent) →
      ∃ before event b, Halt (Xml.read gs).events before event b (.misplaced element parent) ∧
        (∃ attributes, event = .start element.name attributes ∨ event = .empty element.name attributes) ∧
        (parent.getD .quiz).name = if element = .quiz then "quiz"
          else (innermost? (openNames [] (before.flatMap tagsOf))).getD "quiz") ∧
    ∀ element, ofGlyphs gs = .error (.unexpectedEnd element) →
      (Xml.read gs).fault = none ∧
        innermost? (openNames [] ((Xml.read gs).events.flatMap tagsOf)) = some element.name := by
  constructor
  · intro element parent h
    rcases halt_or_end h with ⟨before, event, b, hh⟩ | ⟨b, _, ⟨_, he⟩ | ⟨_, he⟩⟩
    · exact ⟨before, event, b, hh, hh.parent_eq⟩
    · cases he
    · rw [finish] at he
      split at he <;> cases he
  · intro element h
    rcases halt_or_end h with ⟨before, event, b, hh⟩ | ⟨b, hr, ⟨_, he⟩ | ⟨hf, he⟩⟩
    · exact absurd rfl (hh.fails.ne_unexpectedEnd element)
    · cases he
    · have hs := sound_of_run sound_start (matched_of_read gs) hr
      rw [innermost_eq, hs.context_eq, finish_unexpectedEnd he]
      exact ⟨hf, rfl⟩

/-- An item in markup, a second root in a question, and a document that ends in a choice. -/
theorem parent_of_error_second_root :
    let astray := glyphs "<quiz><question><b><item/></b><answer/></question></quiz>"
    let nested := glyphs "<quiz><question><quiz/><answer/></question></quiz>"
    let broken := glyphs "<quiz><question><choice><b>"
    ofGlyphs astray = .error (.misplaced .item (some .question)) ∧
      ofGlyphs nested = .error (.misplaced .quiz none) ∧
      ofGlyphs broken = .error (.unexpectedEnd .choice) ∧
      (∃ before event b, Halt (Xml.read astray).events before event b (.misplaced .item (some .question)) ∧
        "question" = (innermost? (openNames [] (before.flatMap tagsOf))).getD "quiz") ∧
      (∃ before event b, Halt (Xml.read nested).events before event b (.misplaced .quiz none) ∧
        ∃ attributes, event = .start "quiz" attributes ∨ event = .empty "quiz" attributes) ∧
      innermost? (openNames [] ((Xml.read broken).events.flatMap tagsOf)) = some "choice" := by
  intro astray nested broken
  have hastray : Xml.read astray =
      ⟨[.start "quiz" [], .start "question" [], .start "b" [], .empty "item" [], .close "b",
        .empty "answer" [], .close "question", .close "quiz"], none⟩ := by decide +kernel
  have hnested : Xml.read nested =
      ⟨[.start "quiz" [], .start "question" [], .empty "quiz" [], .empty "answer" [], .close "question",
        .close "quiz"], none⟩ := by decide +kernel
  have hbroken : Xml.read broken =
      ⟨[.start "quiz" [], .start "question" [], .start "choice" [], .start "b" []], none⟩ := by decide +kernel
  have ha : ofGlyphs astray = .error (.misplaced .item (some .question)) := congrArg ofReading hastray
  have hn : ofGlyphs nested = .error (.misplaced .quiz none) := congrArg ofReading hnested
  have hb : ofGlyphs broken = .error (.unexpectedEnd .choice) := congrArg ofReading hbroken
  obtain ⟨before, event, b, hh, _, hp⟩ := (parent_of_error astray).1 _ _ ha
  obtain ⟨before', event', b', hh', he', _⟩ := (parent_of_error nested).1 _ _ hn
  exact ⟨ha, hn, hb, ⟨before, event, b, hh, hp⟩, ⟨before', event', b', hh', he'⟩,
    ((parent_of_error broken).2 _ hb).2⟩

end QuizPress.Quiz
