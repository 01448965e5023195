import QuizPress.Proofs.Quiz.NormalForm
import QuizPress.Proofs.Render.Source

/-! A written quiz read again: the document leads from place to place through the quiz, and what
is read at its end is the normal form of the quiz. -/
namespace QuizPress.Render.Source
open Quiz Text Xml Place

private theorem writable_of_names {attributes : Attributes} (names : List String)
    (hs : attributes.map Prod.fst = names) (hn : names.all isName = true) (hd : names.Nodup) :
    Writable attributes := by
  subst hs
  refine writable_of_isName (fun a ha => ?_) hd
  exact List.all_eq_true.1 hn _ (List.mem_map_of_mem ha)

def inQuiz (q : Quiz) : Place := { quiz := some q, names := ["quiz"] }

def inDiscussion (q : Quiz) (heading : String) : Place :=
  { quiz := some q, nodes := [.discussion { heading }], names := ["discussion", "quiz"] }

def inQuestion (q : Quiz) (text : String) (body : Option AnswerBody) : Place :=
  { quiz := some q, nodes := [.question text body], names := ["question", "quiz"] }

def inChoice (q : Quiz) (text : String) (c : Choice) : Place :=
  { quiz := some q, nodes := [.choice c, .question text none], names := ["choice", "question", "quiz"] }

def inItem (q : Quiz) (text : String) (c : Choice) (i : Item) : Place :=
  { quiz := some q
    nodes := [.item i, .choice c, .question text none]
    names := ["item", "choice", "question", "quiz"] }

def inAnswer (q : Quiz) (text : String) (a : Answer) : Place :=
  { quiz := some q, nodes := [.answer a, .question text none], names := ["answer", "question", "quiz"] }

theorem takes_item (q : Quiz) (text : String) (c : Choice) (i : Item)
    (h : c.items.length < Choice.maxItems) :
    (inChoice q text c).Takes (item i)
      (inChoice q text { c with items := c.items ++ [i.normal] }) := by
  have start : (inChoice q text c).Takes (startTag "item" [("expect", toString i.expect)])
      (inItem q text c { expect := i.expect }) := by
    refine takes_startTag .item (writable_of_names ["expect"] rfl (by decide) (by decide)) ?_ rfl
    have hl : ¬ Choice.maxItems ≤ c.items.length := by omega
    have he : (Attributes.value? [("expect", toString i.expect)] "expect" == some "true") = i.expect := by
      cases i.expect <;> rfl
    simp only [Builder.openElement, he]
    simp [inChoice, inItem, Place.builder, Builder.openItem, hl, Builder.pushNode]
  have body : (inItem q text c { expect := i.expect }).Takes (field "text" [] i.text)
      (inItem q text c { expect := i.expect, text := trim i.text }) :=
    takes_ownText .text (by decide) _
  have response : (inItem q text c { expect := i.expect, text := trim i.text }).Takes
      (if i.response.isEmpty then "" else line "        " (field "response" [] i.response))
      (inItem q text c i.normal) := by
    split
    · rename_i hr
      have hn : i.normal = { expect := i.expect, text := trim i.text } := by
        rw [Item.normal, String.isEmpty_iff.1 hr, trim_empty]
      rw [hn]
      exact takes_empty _
    · exact takes_line (by decide)
        (takes_ownText .response (by decide) _)
  have stop : (inItem q text c i.normal).Takes (endTag "item")
      (inChoice q text { c with items := c.items ++ [i.normal] }) :=
    takes_endTag .item rfl fun _ => rfl
  rw [item_eq]
  exact (((takes_line (by decide) start).append (takes_line (by decide) body)).append response).append
    (takes_line (by decide) stop)

/-- The items of a choice, as long as there are labels for them. -/
theorem takes_items (q : Quiz) (text : String) (c : Choice) (items : List Item)
    (h : items.length ≤ Choice.maxItems) :
    (inChoice q text { c with items := [] }).Takes (String.join (items.map item))
      (inChoice q text { c with items := items.map Item.normal }) := by
  refine takes_join item
    (fun before => inChoice q text { c with items := before.map Item.normal }) items ?_
  intro before i after hi
  have hl : before.length < Choice.maxItems := by
    have he := congrArg List.length hi
    rw [List.length_append, List.length_cons] at he
    omega
  have ht := takes_item q text { c with items := before.map Item.normal } i (by simpa using hl)
  simpa using ht

/-- An item is refused where there is no label for it. -/
theorem refuses_item (q : Quiz) (text : String) (c : Choice) (i : Item)
    (h : Choice.maxItems ≤ c.items.length) :
    (inChoice q text c).Decides (item i) (· = .error (.tooManyItems (q.questions.length + 1))) := by
  have start : (inChoice q text c).Decides (startTag "item" [("expect", toString i.expect)])
      (· = .error (.tooManyItems (q.questions.length + 1))) := by
    refine refuses_startTag .item (writable_of_names ["expect"] rfl (by decide) (by decide)) ?_
    simp [inChoice, Place.builder, Builder.openElement, Builder.openItem, h, Builder.questionNumber]
  rw [item_eq]
  exact (((decides_line (by decide) start).append _).append _).append _

private theorem columns_toString (n : Columns) : Builder.columns (some (toString n.val)) = n := by
  rw [Builder.columns, Option.bind_some, trim_toString, count_toString n.lt_bound, Option.bind_some,
    Columns.ofNat?, dif_pos ⟨n.pos, n.lt_bound⟩]
  rfl

private theorem takes_choiceTag (q : Quiz) (text : String) (c : Choice) :
    (inQuestion q text none).Takes
      (startTag "choice" [("type", c.mode.name), ("cols", toString c.columns.val)])
      (inChoice q text { c.normal with items := [] }) := by
  refine takes_startTag .choice (writable_of_names ["type", "cols"] rfl (by decide) (by decide)) ?_ rfl
  have hc : Attributes.value? [("type", c.mode.name), ("cols", toString c.columns.val)] "cols" =
      some (toString c.columns.val) := rfl
  simp only [Builder.openElement, hc, columns_toString]
  rfl

theorem takes_choice (q : Quiz) (text : String) (c : Choice) (h : c.items.length ≤ Choice.maxItems) :
    (inQuestion q text none).Takes (choice c) (inQuestion q text (some (.choice c.normal))) := by
  have stop : (inChoice q text c.normal).Takes (endTag "choice")
      (inQuestion q text (some (.choice c.normal))) :=
    takes_endTag .choice rfl fun _ => rfl
  rw [choice_eq]
  exact ((takes_line (by decide) (takes_choiceTag q text c)).append
    (takes_items q text c.normal c.items h)).append (takes_line (by decide) stop)

theorem refuses_choice (q : Quiz) (text : String) (c : Choice) (h : Choice.maxItems < c.items.length) :
    (inQuestion q text none).Decides (choice c) (· = .error (.tooManyItems (q.questions.length + 1))) := by
  -- the labels last for the first items, and the next one is refused
  have hs : c.items = c.items.take Choice.maxItems ++
      c.items[Choice.maxItems] :: c.items.drop (Choice.maxItems + 1) := by
    rw [← List.drop_eq_getElem_cons h, List.take_append_drop]
  have hl : (c.items.take Choice.maxItems).length = Choice.maxItems := by
    rw [List.length_take]
    omega
  have items := takes_items q text c.normal (c.items.take Choice.maxItems) (by omega)
  have next := refuses_item q text
    { c.normal with items := (c.items.take Choice.maxItems).map Item.normal }
    c.items[Choice.maxItems] (Nat.le_of_eq (by rw [List.length_map, hl]))
  rw [choice_eq, hs, List.map_append, List.map_cons, String.join_append, String.join_cons]
  exact ((takes_line (by decide) (takes_choiceTag q text c)).decides (items.decides (next.append _))).append _

theorem takes_answer (q : Quiz) (text : String) (a : Answer) :
    (inQuestion q text none).Takes (answer a) (inQuestion q text (some (.answer a.normal))) := by
  have start : (inQuestion q text none).Takes (startTag "answer" [("value", a.value)])
      (inAnswer q text { value := a.value }) :=
    takes_startTag .answer (writable_of_names ["value"] rfl (by decide) (by decide)) rfl rfl
  have right : (inAnswer q text { value := a.value, tag := a.normal.tag }).Takes
      (field "when_right" [] a.whenRight)
      (inAnswer q text { value := a.value, tag := a.normal.tag, whenRight := trim a.whenRight }) :=
    takes_ownText .whenRight (by decide) _
  have wrong : (inAnswer q text
        { value := a.value, tag := a.normal.tag, whenRight := trim a.whenRight }).Takes
      (field "when_wrong" [] a.whenWrong) (inAnswer q text a.normal) :=
    takes_ownText .whenWrong (by decide) _
  have stop : (inAnswer q text a.normal).Takes (endTag "answer")
      (inQuestion q text (some (.answer a.normal))) :=
    takes_endTag .answer rfl fun _ => rfl
  rw [answer_eq]
  refine ((((takes_line (by decide) start).append ?_).append (takes_line (by decide) right)).append
    (takes_line (by decide) wrong)).append (takes_line (by decide) stop)
  -- the tag, if there is one
  unfold Answer.normal
  cases a.tag with
  | none => exact takes_empty _
  | some tag =>
    have ht : (Option.map trim (some tag)).filter (!·.isEmpty) =
        if (trim tag).isEmpty then none else some (trim tag) := by
      simp only [Option.map_some, Option.filter_some]
      cases (trim tag).isEmpty with
      | false | true => rfl
    rw [ht]
    exact takes_line (by decide) (takes_ownText .tag (by decide) tag)

private theorem takes_questionText (q : Quiz) (x : Question) :
    (inQuiz q).Takes (line "  " (startTag "question" []) ++ line "    " (field "text" [] x.text))
      (inQuestion q (trim x.text) none) := by
  have start : (inQuiz q).Takes (startTag "question" []) (inQuestion q "" none) :=
    takes_startTag .question (writable_of_names [] rfl (by decide) (by decide)) rfl rfl
  have body : (inQuestion q "" none).Takes (field "text" [] x.text) (inQuestion q (trim x.text) none) :=
    takes_ownText .text (by decide) _
  exact (takes_line (by decide) start).append (takes_line (by decide) body)

theorem takes_question (q : Quiz) (x : Question) (h : x.body.fits = true) :
    (inQuiz q).Takes (question x) (inQuiz { q with questions := q.questions ++ [x.normal] }) := by
  have stop : (inQuestion q (trim x.text) (some x.body.normal)).Takes (endTag "question")
      (inQuiz { q with questions := q.questions ++ [x.normal] }) :=
    takes_endTag .question rfl fun _ => rfl
  rw [question_eq]
  refine ((takes_questionText q x).append ?_).append (takes_line (by decide) stop)
  cases hb : x.body with
  | choice c =>
    rw [hb] at h
    exact takes_choice q (trim x.text) c (of_decide_eq_true h)
  | answer a => exact takes_answer q (trim x.text) a

theorem refuses_question (q : Quiz) (x : Question) (h : x.body.fits = false) :
    (inQuiz q).Decides (question x) (· = .error (.tooManyItems (q.questions.length + 1))) := by
  rw [question_eq]
  cases hb : x.body with
  | choice c =>
    rw [hb] at h
    have hc : Choice.maxItems < c.items.length := Nat.lt_of_not_le (of_decide_eq_false h)
    exact ((takes_questionText q x).decides (refuses_choice q (trim x.text) c hc)).append _
  | answer a =>
    rw [hb] at h
    cases h

theorem takes_discussion (q : Quiz) (d : Discussion) :
    (inQuiz q).Takes (discussion d) (inQuiz { q with discussions := q.discussions ++ [d.normal] }) := by
  rw [discussion_eq]
  exact takes_line (by decide) (takes_field (q := inDiscussion q d.heading) .discussion
    (writable_of_names ["heading"] rfl (by decide) (by decide)) rfl rfl rfl)

theorem takes_bag {values : Attributes} {q q' : Quiz} (element : Element) (hw : Writable values)
    (ho : (inQuiz q).builder.openElement element values = .ok (inQuiz q').builder)
    (hc : (inQuiz q').builder.closeElement element "" = .ok (inQuiz q').builder) :
    (inQuiz q).Takes (bag element.name values) (inQuiz q') := by
  rw [bag_eq]
  exact takes_line (by decide) (takes_emptyTag element hw ho hc rfl)

/-- What stands before the bags. -/
theorem takes_opening (q : Quiz) :
    Place.Takes {}
      (line "" declaration ++
        line "" (startTag "quiz" [("title", q.title), ("breadcrumb", q.breadcrumb), ("src", q.source)]) ++
        course q.course)
      (inQuiz { title := q.title, breadcrumb := q.breadcrumb, source := q.source, course := q.course }) := by
  have start : Place.Takes {} (startTag "quiz"
        [("title", q.title), ("breadcrumb", q.breadcrumb), ("src", q.source)])
      (inQuiz { title := q.title, breadcrumb := q.breadcrumb, source := q.source }) :=
    takes_startTag .quiz (writable_of_names ["title", "breadcrumb", "src"] rfl (by decide) (by decide)) rfl rfl
  have course : (inQuiz { title := q.title, breadcrumb := q.breadcrumb, source := q.source }).Takes
      (course q.course)
      (inQuiz { title := q.title, breadcrumb := q.breadcrumb, source := q.source, course := q.course }) := by
    unfold Source.course
    split
    · rename_i he
      simp only [Course.isEmpty, Bool.and_eq_true, String.isEmpty_iff] at he
      have hc : q.course = {} := by
        obtain ⟨⟨hn, hc⟩, hu⟩ := he
        cases hq : q.course with
        | mk name code url => simp_all
      rw [hc]
      exact takes_empty _
    · exact takes_bag .course
        (writable_of_names ["name", "code", "url"] rfl (by decide) (by decide)) rfl rfl
  exact ((takes_line (by decide) (takes_declaration _)).append (takes_line (by decide) start)).append course

theorem takes_metas (q : Quiz) (bags : List Attributes) (hw : ∀ bag ∈ bags, Writable bag) :
    (inQuiz { q with metas := [] }).Takes (String.join (bags.map (bag "meta")))
      (inQuiz { q with metas := bags }) :=
  takes_join (bag "meta") (fun before => inQuiz { q with metas := before }) bags fun _ x _ hx =>
    takes_bag .metaData (hw x (by simp [hx])) rfl rfl

theorem takes_links (q : Quiz) (bags : List Attributes) (hw : ∀ bag ∈ bags, Writable bag) :
    (inQuiz { q with links := [] }).Takes (String.join (bags.map (bag "link")))
      (inQuiz { q with links := bags }) :=
  takes_join (bag "link") (fun before => inQuiz { q with links := before }) bags fun _ x _ hx =>
    takes_bag .link (hw x (by simp [hx])) rfl rfl

/-- What stands before the discussions takes the quiz without them and without questions. -/
theorem takes_head (q : Quiz) (hw : ∀ bag ∈ q.metas ++ q.links, Writable bag) :
    Place.Takes {} (head q) (inQuiz { q with discussions := [], questions := [] }) := by
  have metas := takes_metas
    { title := q.title, breadcrumb := q.breadcrumb, source := q.source, course := q.course } q.metas
    fun bag hb => hw bag (List.mem_append_left _ hb)
  have links := takes_links { q with index := [], discussions := [], questions := [] } q.links
    fun bag hb => hw bag (List.mem_append_right _ hb)
  have index := takes_join indexEntry
    (fun before => inQuiz { q with index := before, discussions := [], questions := [] }) q.index
    fun before x after _ => takes_bag .quizListItem
      (writable_of_names ["title", "url"] rfl (by decide) (by decide)) rfl rfl
  rw [head_eq]
  exact (((takes_opening q).append metas).append links).append index

private theorem parse_eq {s : String} {gs : List Glyph} (h : glyphs s = .char '<' :: gs) :
    parse s = Cursor.outcome ⟨[], {}⟩ (width (glyphs s)) (glyphs s) := by
  have hr : Xml.read (glyphs s) = readFrom (width (glyphs s)) [] (glyphs s) := by
    rw [h, Xml.read]
    rintro _ he
    cases he
  rw [parse, ofGlyphs, hr, ofReading_eq]
  rfl

private theorem at_start : Place.At {} ⟨[], {}⟩ := ⟨[], rfl, rfl⟩

/-- A document that leads to the end of a quiz is read as this quiz. -/
theorem parse_of_takes {s : String} {gs : List Glyph} {q : Quiz} (hs : glyphs s = .char '<' :: gs)
    (h : Place.Takes {} s { quiz := some q }) : parse s = .ok q := by
  obtain ⟨c, hc, he⟩ := h _ at_start
  obtain ⟨scopes, hn, rfl⟩ := hc
  have ho := he (width (glyphs s)) []
  rw [List.append_nil] at ho
  rw [parse_eq hs, ho, Cursor.outcome_nil]
  rfl

theorem parse_of_decides {s : String} {gs : List Glyph} {P : Except ParseError Quiz → Prop}
    (hs : glyphs s = .char '<' :: gs) (h : Place.Decides {} s P) : P (parse s) := by
  have ho := h _ at_start (width (glyphs s)) []
  rw [List.append_nil] at ho
  rw [parse_eq hs]
  exact ho

theorem glyphs_document (q : Quiz) : ∃ gs, glyphs (document q) = .char '<' :: gs := by
  have hd : glyphs declaration = .char '<' :: (glyphs declaration).tail := rfl
  rw [document_eq, head_eq, line, String.empty_append, glyphs_append, glyphs_append, glyphs_append,
    glyphs_append, glyphs_append, glyphs_append, glyphs_append, glyphs_append, glyphs_append, hd]
  exact ⟨_, rfl⟩

private theorem takes_discussions (q : Quiz) (hw : ∀ bag ∈ q.metas ++ q.links, Writable bag) :
    Place.Takes {} (head q ++ String.join (q.discussions.map discussion))
      (inQuiz { q with discussions := q.discussions.map Discussion.normal, questions := [] }) := by
  have hd := takes_join discussion (fun before => inQuiz
      { q with discussions := before.map Discussion.normal, questions := [] }) q.discussions
    fun before d after _ => by
      have ht := takes_discussion
        { q with discussions := before.map Discussion.normal, questions := [] } d
      simpa using ht
  exact (takes_head q hw).append hd

private theorem takes_questions (q : Quiz) (questions : List Question)
    (hf : ∀ x ∈ questions, x.body.fits = true) :
    (inQuiz { q with questions := [] }).Takes (String.join (questions.map question))
      (inQuiz { q with questions := questions.map Question.normal }) := by
  refine takes_join question (fun before => inQuiz { q with questions := before.map Question.normal })
    questions fun before x after hx => ?_
  have ht := takes_question { q with questions := before.map Question.normal } x (hf x (by simp [hx]))
  simpa using ht

/-- A written quiz is read as its normal form. -/
theorem parse_document_of_writable (q : Quiz) (hw : ∀ bag ∈ q.metas ++ q.links, Writable bag)
    (hf : ∀ x ∈ q.questions, x.body.fits = true) : parse (document q) = .ok q.normal := by
  obtain ⟨gs, hs⟩ := glyphs_document q
  have stop : (inQuiz q.normal).Takes (endTag "quiz") { quiz := some q.normal } :=
    takes_endTag .quiz rfl fun _ => rfl
  refine parse_of_takes hs ?_
  rw [document_eq]
  exact ((takes_discussions q hw).append (takes_questions q.normal q.questions hf)).append
    (takes_line (by decide) stop)

/-- A written quiz is refused at the first choice that has no labels for its items. -/
theorem parse_document_of_overfull {q : Quiz} {before after : List Question} {x : Question}
    (hw : ∀ bag ∈ q.metas ++ q.links, Writable bag) (hq : q.questions = before ++ x :: after)
    (hf : ∀ y ∈ before, y.body.fits = true) (hx : x.body.fits = false) :
    parse (document q) = .error (.tooManyItems (before.length + 1)) := by
  obtain ⟨gs, hs⟩ := glyphs_document q
  have next := refuses_question
    { q with discussions := q.discussions.map Discussion.normal
             questions := before.map Question.normal } x hx
  rw [List.length_map] at next
  refine parse_of_decides (P := (· = .error (.tooManyItems (before.length + 1)))) hs ?_
  rw [document_eq, hq, List.map_append, List.map_cons, String.join_append, String.join_cons]
  exact ((takes_discussions q hw).decides
    ((takes_questions q.normal before hf).decides (next.append _))).append _

end QuizPress.Render.Source
