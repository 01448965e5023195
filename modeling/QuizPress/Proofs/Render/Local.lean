import QuizPress.Proofs.Render.Page

/-! Each question has a part of every document that is its own: what stands around it does not depend on
what the question says, and it does not depend on what stands around it. -/
namespace QuizPress.Render
open Quiz Page

/-- The blocks of a document, and what stands around them. The head is told nothing of the discussions
and the questions. -/
structure Blocks where
  head : Quiz → String
  discussion : Discussion → String
  question : Question → String
  tail : String

def bare (quiz : Quiz) : Quiz := { quiz with discussions := [], questions := [] }

def Blocks.document (blocks : Blocks) (quiz : Quiz) : String :=
  blocks.head (bare quiz) ++ String.join (quiz.discussions.map blocks.discussion) ++
    String.join (quiz.questions.map blocks.question) ++ blocks.tail

def Source.blocks : Blocks where
  head := Source.head
  discussion := Source.discussion
  question := Source.question
  tail := "</quiz>\n"

/-- The head of a paper tells how many questions there are: it is that of so many empty ones. -/
def Paper.blocks (answerSlots count : Nat) : Blocks where
  head quiz := Paper.head answerSlots { quiz with questions := List.replicate count {} }
  discussion := Paper.discussion
  question := Paper.question
  tail := "\\bye\n"

def outlineBlocks : Blocks where
  head quiz := "Quiz: " ++ quiz.title ++ "\n"
  discussion d := d.outline ++ "\n"
  question q := q.outline ++ "\n"
  tail := ""

theorem document_source (quiz : Quiz) : Source.blocks.document quiz = Source.document quiz := by
  rw [Source.document_written]
  rfl

theorem document_paper (answerSlots : Nat) (quiz : Quiz) :
    (Paper.blocks answerSlots quiz.questions.length).document quiz =
      Paper.document answerSlots quiz := by
  rw [Paper.document_written]
  unfold Blocks.document Paper.blocks Paper.head bare
  dsimp only
  rw [List.length_replicate]

theorem document_outline (quiz : Quiz) : outlineBlocks.document quiz = quiz.outline := by
  simp only [Blocks.document, outlineBlocks, Quiz.outline_eq, bare, String.append_empty]

/-- All of a text but one part of it is fixed. -/
def Slot (part text : Question → String) : Prop :=
  ∃ lead trail, ∀ question, text question = lead ++ part question ++ trail

def TwoSlots (first second text : Question → String) : Prop :=
  ∃ lead middle trail, ∀ question,
    text question = lead ++ first question ++ middle ++ second question ++ trail

section
variable {part inner first second text : Question → String}

theorem Slot.after (h : Slot part text) (s : String) : Slot part fun question => s ++ text question := by
  obtain ⟨u, v, h⟩ := h
  exact ⟨s ++ u, v, fun question => by simp only [h, String.append_assoc]⟩

theorem Slot.before (h : Slot part text) (s : String) : Slot part fun question => text question ++ s := by
  obtain ⟨u, v, h⟩ := h
  exact ⟨u, v ++ s, fun question => by simp only [h, String.append_assoc]⟩

theorem Slot.element (h : Slot part text) (name : String) (values : List (String × String)) :
    Slot part fun question => Page.element name values (text question) :=
  (((h.after ("<" ++ name ++ attributes values ++ ">")).before "</").before name).before ">"

theorem Slot.append {text' : Question → String} (h : Slot first text) (h' : Slot second text') :
    TwoSlots first second fun question => text question ++ text' question := by
  obtain ⟨u, v, h⟩ := h
  obtain ⟨u', v', h'⟩ := h'
  exact ⟨u, v ++ u', v', fun question => by simp only [h, h', String.append_assoc]⟩

/-- A part of a part is a part. -/
theorem TwoSlots.trans {part' inner' : Question → String} (h : TwoSlots inner inner' text)
    (hi : Slot part inner) (hi' : Slot part' inner') : TwoSlots part part' text := by
  obtain ⟨lead, middle, trail, h⟩ := h
  obtain ⟨u, v, hi⟩ := hi
  obtain ⟨u', v', hi'⟩ := hi'
  exact ⟨lead ++ u, v ++ middle ++ u', v' ++ trail, fun question => by
    simp only [h, hi, hi', String.append_assoc]⟩

theorem TwoSlots.after (h : TwoSlots first second text) (s : String) :
    TwoSlots first second fun question => s ++ text question := by
  obtain ⟨u, v, w, h⟩ := h
  exact ⟨s ++ u, v, w, fun question => by simp only [h, String.append_assoc]⟩

theorem TwoSlots.before (h : TwoSlots first second text) (s : String) :
    TwoSlots first second fun question => text question ++ s := by
  obtain ⟨u, v, w, h⟩ := h
  exact ⟨u, v, w ++ s, fun question => by simp only [h, String.append_assoc]⟩

theorem TwoSlots.element (h : TwoSlots first second text) (name : String)
    (values : List (String × String)) :
    TwoSlots first second fun question => Page.element name values (text question) :=
  (((h.after ("<" ++ name ++ attributes values ++ ">")).before "</").before name).before ">"

end

def between (quiz : Quiz) (before after : List Question) (question : Question) : Quiz :=
  { quiz with questions := before ++ question :: after }

variable (quiz : Quiz) (before after : List Question)

theorem length_between (question : Question) :
    (between quiz before after question).questions.length = before.length + (after.length + 1) := by
  simp [between]

@[simp] theorem discussions_between (question : Question) :
    (between quiz before after question).discussions = quiz.discussions := rfl

@[simp] theorem metas_between (question : Question) :
    (between quiz before after question).metas = quiz.metas := rfl

@[simp] theorem links_between (question : Question) :
    (between quiz before after question).links = quiz.links := rfl

theorem isEmpty_between (question : Question) :
    (between quiz before after question).questions.isEmpty = false := by
  simp [between]

theorem slot_map (block : Question → String) :
    Slot block fun question => String.join ((between quiz before after question).questions.map block) :=
  ⟨_, _, fun question => by
    dsimp only [between]
    rw [List.map_append, List.map_cons, String.join_append, String.join_cons,
      ← String.append_assoc]⟩

/-- Of blocks that are numbered, the one of the question between the others has its place as number. -/
theorem slot_zipIdx (block : Nat → Question → String) (start : Nat) :
    Slot (block (start + before.length)) fun question =>
      String.join (((between quiz before after question).questions.zipIdx start).map
        fun (question, number) => block number question) :=
  ⟨_, _, fun question => by
    dsimp only [between]
    rw [List.zipIdx_append, List.map_append, List.zipIdx_cons, List.map_cons,
      String.join_append, String.join_cons, ← String.append_assoc]⟩

theorem slot_document (blocks : Blocks) :
    Slot blocks.question fun question => blocks.document (between quiz before after question) :=
  ((slot_map quiz before after blocks.question).after (blocks.head (bare quiz) ++
    String.join (quiz.discussions.map blocks.discussion))).before blocks.tail

theorem slot_source :
    Slot Source.question fun question => Source.document (between quiz before after question) := by
  simp only [← document_source]
  exact slot_document quiz before after Source.blocks

theorem slot_paper (answerSlots : Nat) : Slot Paper.question fun question =>
    Paper.document answerSlots (between quiz before after question) := by
  simp only [← document_paper, length_between]
  exact slot_document quiz before after _

theorem slot_outline : Slot (fun question => question.outline ++ "\n") fun question =>
    (between quiz before after question).outline := by
  simp only [← document_outline]
  exact slot_document quiz before after outlineBlocks

theorem slot_answerKey : Slot (questionKey before.length) fun question =>
    answerKey (between quiz before after question) := by
  have h := slot_zipIdx quiz before after questionKey 0
  rw [Nat.zero_add] at h
  simp only [answerKey_eq]
  exact h

theorem slot_questionBlocks : Slot (questionBlock · (before.length + 1)) fun question =>
    questionBlocks (between quiz before after question) := by
  have h := slot_zipIdx quiz before after (fun number question => questionBlock question number) 1
  rw [Nat.add_comm] at h
  exact h

theorem slot_startScript (quizName : String) :
    Slot (fun question => answerKey (between quiz before after question)) fun question =>
      startScript quizName (between quiz before after question) :=
  ⟨"\n", _, fun question => by
    simp only [startScript, length_between, discussions_between, String.append_assoc]
    rfl⟩

theorem slot_head (options : Options) :
    Slot (fun question => answerKey (between quiz before after question)) fun question =>
      head options (between quiz before after question) := by
  unfold head
  simp only [metas_between, links_between]
  exact (((slot_startScript quiz before after options.quizName).element "script"
    [("type", "text/javascript")]).after _).before "\n"

theorem sideMenu_between (question : Question) :
    sideMenu (between quiz before after question) = sideMenu (between quiz before after {}) := by
  unfold sideMenu
  rw [length_between, length_between]
  rfl

theorem quizHeader_between (question : Question) :
    quizHeader (between quiz before after question) = quizHeader (between quiz before after {}) := by
  unfold quizHeader
  rw [isEmpty_between, isEmpty_between]
  rfl

theorem discussionBlocks_between (question : Question) :
    discussionBlocks (between quiz before after question) =
      discussionBlocks (between quiz before after {}) := by
  unfold discussionBlocks
  rw [isEmpty_between, isEmpty_between]
  rfl

theorem slot_questions (options : Options) :
    Slot (fun question => questionBlocks (between quiz before after question)) fun question =>
      (parts options (between quiz before after question)).questions :=
  ⟨discussionBlocks (between quiz before after {}) ++ indexList quiz, "", fun question => by
    rw [String.append_empty, ← discussionBlocks_between quiz before after question]
    exact parts_questions options (between quiz before after question)⟩

theorem slot_columns (options : Options) :
    Slot (fun question => questionBlocks (between quiz before after question)) fun question =>
      Layout.columns (parts options (between quiz before after question)) := by
  have hmenu (question : Question) : (parts options (between quiz before after question)).sideMenu = _ :=
    sideMenu_between quiz before after question
  have hheader (question : Question) : (parts options (between quiz before after question)).quizHeader = _ :=
    quizHeader_between quiz before after question
  unfold Layout.columns
  simp only [hmenu, hheader]
  exact (((((slot_questions quiz before after options).after _).before "    ").element "div"
    [("class", "quiz_questions")]).after _).before "\n"

theorem breadcrumbs_between (layout : Layout) (question : Question) :
    layout.breadcrumbs (between quiz before after question) = layout.breadcrumbs quiz := rfl

theorem slot_body (options : Options) (layout : Layout) :
    Slot (fun question => questionBlocks (between quiz before after question)) fun question =>
      layout.body (between quiz before after question)
        (parts options (between quiz before after question)) := by
  have h := slot_columns quiz before after options
  unfold Layout.body
  cases layout with
  | standard =>
    simp only [breadcrumbs_between]
    exact ((((h.after "\n").before "  ").element "div" [("class", "quiz_page")]).after _).before "\n"
  | course =>
    simp only [breadcrumbs_between]
    exact (((((h.after _).before "  ").element "div" [("class", "quizpage")]).after "\n  ").before "\n")

/-- The scripts and the questions of a page are the two places where a question stands. -/
theorem twoSlots_page (options : Options) (layout : Layout) :
    TwoSlots (questionKey before.length) (questionBlock · (before.length + 1)) fun question =>
      layout.page (between quiz before after question)
        (parts options (between quiz before after question)) := by
  -- the answer key stands in the head, the blocks of the questions in the body
  have hhead := ((slot_head quiz before after options).after
    ("\n  " ++ element "title" [] (plain quiz.title) ++ "\n")).element "head" []
  have hbody := (slot_body quiz before after options layout).element "body" []
  have hpage := (((((hhead.after "\n").before "\n\n").append hbody).before "\n").element "html"
    [("lang", "en")]).after "<!DOCTYPE HTML>\n"
  exact (hpage.before "\n").trans (slot_answerKey quiz before after)
    (slot_questionBlocks quiz before after)

theorem warnings_between : ∃ earlier later, ∀ question,
    warnings (between quiz before after question) =
      earlier ++ (warnings? question (before.length + 1)).toList ++ later :=
  ⟨_, _, fun question => by
    unfold warnings between
    dsimp only
    rw [List.zipIdx_append, List.zipIdx_cons, List.filterMap_append, Nat.add_comm 1,
      ← List.singleton_append, List.filterMap_append, ← List.append_assoc]
    rfl⟩

theorem page_between (options : Options) :
    (∃ error, ∀ question, page options (between quiz before after question) = .error error) ∨
    ∃ lead middle trail artifacts earlier later, ∀ question,
      page options (between quiz before after question) = .ok {
        document := lead ++ questionKey before.length question ++ middle ++
          questionBlock question (before.length + 1) ++ trail
        artifacts
        warnings := earlier ++ (warnings? question (before.length + 1)).toList ++ later } := by
  cases hlayout : Layout.ofName options.layout with
  | error error =>
    exact .inl ⟨error, fun question => by rw [page_eq, hlayout]; rfl⟩
  | ok layout =>
    obtain ⟨lead, middle, trail, hpage⟩ := twoSlots_page quiz before after options layout
    obtain ⟨earlier, later, hwarnings⟩ := warnings_between quiz before after
    refine .inr ⟨lead, middle, trail, artifacts quiz, earlier, later, fun question => ?_⟩
    rw [← hpage, ← hwarnings, page_eq, hlayout]
    rfl

theorem answerKey_numbered : answerKey quiz = String.join ((quiz.questions.zipIdx 1).map
    fun (question, number) => questionKey (number - 1) question) := by
  rw [answerKey_eq, List.zipIdx_succ, List.map_map]
  rfl

/-- Whatever is written, drawn and told before a question, a visit to it adds its own block, and on a page what
there is to say of it. So a document that is no page is a head, a block for each discussion, a block for each
question and a tail; on a page the questions and the answer key have a block for each question, which knows its
number. Of a question between others all that any format tells stands in blocks of its own. -/
theorem render_local (options : Options) :
    ((∀ number question,
        Appends (Source.writing.visit (.question number question)) (Source.question question)) ∧
      (∀ number question,
        Appends (Paper.writing.visit (.question number question)) (Paper.question question)) ∧
      (∀ question : Question, Appends question.write question.outline) ∧
      (∀ position question, Appends (writeKey position question) (questionKey position question)) ∧
      ∀ number question canvas, (drawing quiz).visit (.question number question) canvas =
        ⟨canvas.text ++ questionBlock question number, number,
          canvas.warnings ++ (warnings? question number).toList⟩) ∧
    (render .xml options quiz = .ok { document := Source.blocks.document quiz } ∧
      render .tex options quiz = .ok {
        document := (Paper.blocks options.answerSlots quiz.questions.length).document quiz } ∧
      render .text options quiz = .ok { document := outlineBlocks.document quiz }) ∧
    ((parts options quiz).questions = discussionBlocks quiz ++ indexList quiz ++
        String.join ((quiz.questions.zipIdx 1).map
          fun (question, number) => questionBlock question number) ∧
      answerKey quiz = String.join ((quiz.questions.zipIdx 1).map
        fun (question, number) => questionKey (number - 1) question)) ∧
    ((∃ lead trail, ∀ question, render .xml options (between quiz before after question) =
        .ok { document := lead ++ Source.question question ++ trail }) ∧
      (∃ lead trail, ∀ question, render .tex options (between quiz before after question) =
        .ok { document := lead ++ Paper.question question ++ trail }) ∧
      (∃ lead trail, ∀ question, render .text options (between quiz before after question) =
        .ok { document := lead ++ (question.outline ++ "\n") ++ trail })) ∧
    ((∃ error, ∀ question,
        render .html options (between quiz before after question) = .error error) ∨
      ∃ lead middle trail artifacts earlier later, ∀ question,
        render .html options (between quiz before after question) = .ok {
          document := lead ++ questionKey before.length question ++ middle ++
            questionBlock question (before.length + 1) ++ trail
          artifacts
          warnings := earlier ++ (warnings? question (before.length + 1)).toList ++ later }) := by
  refine ⟨⟨Source.appends_question, Paper.appends_question, Question.appends_write, appends_writeKey,
      visit_question quiz⟩,
    ⟨?_, ?_, ?_⟩, ⟨parts_questions options quiz, answerKey_numbered quiz⟩, ⟨?_, ?_, ?_⟩,
    page_between quiz before after options⟩
  · rw [document_source]
    rfl
  · rw [document_paper]
    rfl
  · rw [document_outline]
    rfl
  · obtain ⟨lead, trail, h⟩ := slot_source quiz before after
    exact ⟨lead, trail, fun question => by rw [← h]; rfl⟩
  · obtain ⟨lead, trail, h⟩ := slot_paper quiz before after options.answerSlots
    exact ⟨lead, trail, fun question => by rw [← h]; rfl⟩
  · obtain ⟨lead, trail, h⟩ := slot_outline quiz before after
    exact ⟨lead, trail, fun question => by rw [← h]; rfl⟩

end QuizPress.Render
