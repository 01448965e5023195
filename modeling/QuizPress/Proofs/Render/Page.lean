import QuizPress.Proofs.Render.AnswerKey
import QuizPress.Proofs.Render.Balance
import QuizPress.Proofs.Render.Drawing
import QuizPress.Proofs.Render.Rows

/-! Pages are balanced if what they copy from a quiz is. -/
namespace QuizPress.Render.Page
open Quiz

inductive BalancedBody : AnswerBody → Prop where
  | choice {c : Choice} (texts : ∀ item ∈ c.items, Balanced item.text)
      (responses : ∀ item ∈ c.items, Balanced item.response) : BalancedBody (.choice c)
  | answer {a : Answer} (tag : ∀ tag, a.tag = some tag → Balanced tag)
      (right : Balanced a.whenRight) (wrong : Balanced a.whenWrong) : BalancedBody (.answer a)

/-- All that a page copies from a quiz as it stands is balanced, and the names of attributes that it
copies are plain. -/
structure Embeddable (quiz : Quiz) : Prop where
  breadcrumb : Balanced quiz.breadcrumb
  discussions : ∀ d ∈ quiz.discussions, Balanced d.body
  questions : ∀ q ∈ quiz.questions, Balanced q.text ∧ BalancedBody q.body
  names : ∀ bag ∈ quiz.metas ++ quiz.links, wellNamed bag = true

theorem balanced_styleSheet (url : String) : Balanced (styleSheet url) :=
  balanced_lone rfl rfl

theorem balanced_scriptFile (url : String) : Balanced (scriptFile url) :=
  balanced_element rfl rfl (balanced_text rfl)

theorem balanced_startScript (quizName : String) (quiz : Quiz) :
    Balanced (startScript quizName quiz) := by
  have hkey : Balanced (answerKey quiz) := .text (Script.says_answerKey quiz).plain
  have hname : Balanced (scriptText quizName) := .text fun h => (Script.mem_scriptText h).1 rfl
  exact hkey.afterText rfl
    |>.andText rfl |>.andText rfl |>.append (balanced_number _)
    |>.andText rfl |>.append (balanced_number _)
    |>.andText rfl |>.append hname
    |>.andText rfl |>.andText rfl

theorem balanced_head (options : Options) {quiz : Quiz} (h : Embeddable quiz) :
    Balanced (head options quiz) := by
  have hmetas : Balanced (String.join
      (quiz.metas.map fun values => "  " ++ slashed "meta" values ++ "\n")) :=
    balanced_join fun bag hb =>
      balanced_line rfl (balanced_slashed rfl (h.names bag (List.mem_append_left _ hb)))
  have hlinks : Balanced (String.join
      (quiz.links.map fun values => "  " ++ slashed "link" values ++ "\n")) :=
    balanced_join fun bag hb =>
      balanced_line rfl (balanced_slashed rfl (h.names bag (List.mem_append_right _ hb)))
  exact balanced_line rfl (balanced_lone rfl rfl)
    |>.line rfl (balanced_slashed rfl rfl)
    |>.line rfl (balanced_lone rfl rfl)
    |>.line rfl (balanced_styleSheet (options.baseUrl ++ "mathquiz.css"))
    |>.line rfl (balanced_styleSheet (options.quizName ++ ".css"))
    |>.append hmetas
    |>.append hlinks
    |>.line rfl (balanced_scriptFile (options.baseUrl ++ "mathquiz.js"))
    |>.line rfl (balanced_scriptFile titlesFile)
    |>.line rfl (balanced_element rfl rfl (balanced_startScript options.quizName quiz))

theorem balanced_discussionList (quiz : Quiz) : Balanced (discussionList quiz) := by
  have hentry (d : Discussion) (index : Nat) : Balanced (discussionEntry d index) :=
    balanced_line rfl (balanced_element rfl rfl (balanced_plain d.heading))
  unfold discussionList
  refine balanced_if (fun _ => balanced_text rfl) fun _ => ?_
  refine balanced_line rfl (balanced_element rfl rfl ?_)
  exact (balanced_join fun x _ => hentry x.1 x.2).afterText rfl |>.andText rfl

theorem balanced_questionButton (selectFirst : Bool) (number : Nat) :
    Balanced (questionButton selectFirst number) :=
  balanced_line rfl (balanced_element rfl rfl (balanced_number number))

theorem balanced_markingRow (style : String) {sign meaning : String} (hs : Balanced sign)
    (hm : Balanced meaning) : Balanced (markingRow style sign meaning) :=
  balanced_line rfl (balanced_element rfl rfl
    (.append (balanced_element rfl rfl hs) (balanced_element rfl rfl hm)))

theorem balanced_markingKey : Balanced markingKey := by
  have hfirst : Balanced ("right first" ++ lone "br" [] ++ "attempt") :=
    (balanced_lone rfl rfl).afterText rfl |>.andText rfl
  refine balanced_line rfl (balanced_element rfl rfl ?_)
  exact (balanced_markingRow _ (balanced_text rfl) hfirst).afterText rfl
    |>.append (balanced_markingRow _ (balanced_text rfl) (balanced_text rfl))
    |>.append (balanced_markingRow _ (balanced_text rfl) (balanced_text rfl))
    |>.andText rfl

theorem balanced_sideMenu (quiz : Quiz) : Balanced (sideMenu quiz) := by
  have hbuttons : Balanced (String.join ((List.range' 1 quiz.questions.length).map
      (questionButton quiz.discussions.isEmpty))) :=
    balanced_join fun number _ => balanced_questionButton _ number
  refine balanced_line rfl (balanced_element rfl rfl (balanced_text rfl))
    |>.append (balanced_discussionList quiz)
    |>.line rfl (balanced_element rfl rfl ?_)
    |>.line rfl (balanced_element rfl rfl (balanced_text rfl))
    |>.append balanced_markingKey
  exact (balanced_element rfl rfl (balanced_text rfl)).afterText rfl
    |>.andText rfl |>.append (balanced_lone rfl rfl)
    |>.andText rfl |>.append hbuttons
    |>.andText rfl

theorem balanced_arrow (step : String) {hint sign : String} (hh : Balanced hint)
    (hs : Balanced sign) : Balanced (arrow step hint sign) :=
  balanced_line rfl (balanced_element rfl rfl ((balanced_element rfl rfl hh).append hs))

theorem balanced_navigation : Balanced navigation := by
  refine balanced_line rfl (balanced_element rfl rfl ?_)
  exact (balanced_arrow _ (balanced_text rfl) (balanced_text rfl)).afterText rfl
    |>.line rfl (balanced_element rfl rfl (balanced_text rfl))
    |>.append (balanced_arrow _ (balanced_text rfl) (balanced_text rfl))
    |>.andText rfl

theorem balanced_quizHeader (quiz : Quiz) : Balanced (quizHeader quiz) := by
  have hnumber : Balanced (if quiz.questions.isEmpty then ""
      else "        " ++ element "div" [("id", "question_number"), ("class", "question_label")]
        "Question 1" ++ "\n" ++ navigation) :=
    balanced_if (fun _ => balanced_text rfl) fun _ =>
      balanced_line rfl (balanced_element rfl rfl (balanced_text rfl))
        |>.append balanced_navigation
  refine balanced_line rfl (balanced_element rfl rfl ?_)
  exact (balanced_element rfl rfl (balanced_plain quiz.title)).afterText rfl
    |>.andText rfl |>.append (balanced_element rfl rfl (balanced_text rfl))
    |>.andText rfl |>.append hnumber
    |>.andText rfl

theorem balanced_indexLine (entry : IndexEntry) : Balanced (indexLine entry) :=
  balanced_line rfl (balanced_element rfl rfl
    (balanced_element rfl rfl (balanced_plain entry.title)))

theorem balanced_indexList (quiz : Quiz) : Balanced (indexList quiz) := by
  have hlines : Balanced (String.join (quiz.index.map indexLine)) :=
    balanced_join fun entry _ => balanced_indexLine entry
  have hheading : Balanced (plain quiz.course.name ++ " Quizzes") :=
    (balanced_plain quiz.course.name).andText rfl
  unfold indexList
  refine balanced_if (fun _ => balanced_text rfl) fun _ => ?_
  refine balanced_line rfl (balanced_element rfl rfl ?_)
  exact (balanced_element rfl rfl hheading).andText rfl
    |>.append (balanced_element rfl rfl (hlines.afterText rfl |>.andText rfl))
    |>.andText rfl

theorem balanced_discussionBlock (leads : Bool) {d : Discussion} (h : Balanced d.body)
    (index : Nat) : Balanced (discussionBlock leads d index) := by
  have hstart : Balanced (if leads then startButton else "") :=
    balanced_if (fun _ => (balanced_slashed rfl rfl).afterText rfl) fun _ => balanced_text rfl
  refine balanced_line rfl (balanced_element rfl rfl ?_)
  exact (balanced_element rfl rfl (balanced_plain d.heading)).andText rfl
    |>.append (balanced_element rfl rfl h)
    |>.append hstart
    |>.andText rfl

theorem balanced_discussionBlocks {quiz : Quiz} (h : Embeddable quiz) :
    Balanced (discussionBlocks quiz) :=
  balanced_join fun _ hx =>
    balanced_discussionBlock _ (h.discussions _ (List.fst_mem_of_mem_zipIdx hx)) _

theorem balanced_itemLabel (index : Nat) : Balanced (itemLabel index) :=
  .text (not_mem_itemLabel index)

/-- What is said in place of a control for an unknown mode is a comment, whatever the mode is
called. -/
theorem balanced_unknownMode (name : String) :
    Balanced ("<!-- internal error: unknown choice type " ++ commentText name ++ " -->") := by
  have hs : "<!-- internal error: unknown choice type " ++ commentText name ++ " -->" =
      "<!--" ++ (" internal error: unknown choice type " ++ commentText name ++ " ") ++ "-->" := by
    have hopen : "<!-- internal error: unknown choice type " =
      "<!--" ++ " internal error: unknown choice type " := rfl
    have hclose : " -->" = " " ++ "-->" := rfl
    rw [hopen, hclose]
    simp only [String.append_assoc]
  rw [hs]
  refine .comment ?_
  rw [String.toList_append, String.toList_append, List.append_assoc, List.append_assoc,
    hasDashes_append (by decide), hasDashes_commentText]
  rfl

theorem balanced_itemCells (number : Nat) (mode : ChoiceMode) {item : Item} (h : Balanced item.text)
    (index : Nat) : Balanced (itemCells number mode item index) := by
  have hselectable {control : String} (hc : Balanced control) :
      Balanced (selectable control item.text) :=
    (balanced_element rfl rfl hc).append
        (balanced_element rfl rfl (balanced_element rfl rfl h))
  have hcontrol : Balanced (itemControl number mode item index) := by
    cases mode with
    | single => exact hselectable (balanced_slashed rfl rfl)
    | multiple => exact hselectable (balanced_slashed rfl rfl)
    | other name => exact balanced_unknownMode name
  have hlabel : Balanced (itemLabel index ++ ")") := (balanced_itemLabel index).andText rfl
  exact (balanced_element rfl rfl hlabel).append hcontrol

theorem rowParts_balanced : RowParts Balanced where
  empty := balanced_text rfl
  lineEnd := balanced_text rfl
  append := .append
  row := balanced_element rfl rfl

theorem balanced_choiceTable (number : Nat) {choice : Choice}
    (h : ∀ item ∈ choice.items, Balanced item.text) : Balanced (choiceTable number choice) := by
  have hrows := rows_of_choice rowParts_balanced number choice
    fun item hi => balanced_itemCells number choice.mode (h item hi)
  have hhidden : Balanced (if choice.mode = .single then
      "\n" ++ slashed "input" [("type", "hidden"), ("name", "Q" ++ toString number ++ "hidden")]
    else "") :=
    balanced_if (fun _ => (balanced_slashed rfl rfl).afterText rfl) fun _ => balanced_text rfl
  exact (balanced_element rfl rfl (hrows.afterText rfl)).append hhidden

theorem balanced_answerField {answer : Answer} (h : ∀ tag, answer.tag = some tag → Balanced tag) :
    Balanced (answerField answer) := by
  unfold answerField
  refine Balanced.append (balanced_slashed rfl rfl) ?_
  cases ht : answer.tag with
  | none => exact balanced_text rfl
  | some tag => exact (balanced_element rfl rfl (h tag ht)).afterText rfl

theorem balanced_questionButtons : Balanced questionButtons := by
  refine balanced_line rfl (balanced_element rfl rfl ?_)
  exact (balanced_slashed rfl rfl).afterText rfl
    |>.andText rfl |>.append (balanced_slashed rfl rfl)
    |>.andText rfl

theorem balanced_responseBlock (id : String) {content : String} (h : Balanced content) :
    Balanced (responseBlock id content) :=
  balanced_line rfl (balanced_element rfl rfl h)

theorem balanced_answerResponse (number : Nat) (name : String) {verdict feedback : String}
    (hv : Balanced verdict) (hf : Balanced feedback) :
    Balanced (answerResponse number name verdict feedback) := by
  refine balanced_responseBlock _ ?_
  exact (balanced_element rfl rfl hv).andText rfl
    |>.append (balanced_element rfl rfl hf)
    |>.andText rfl

theorem balanced_singleResponse (number : Nat) {item : Item} (h : Balanced item.response)
    (index : Nat) : Balanced (singleResponse number item index) := by
  have hverdict : Balanced (if item.expect then "correct" else "incorrect") :=
    balanced_if (fun _ => balanced_text rfl) fun _ => balanced_text rfl
  refine balanced_responseBlock _ ?_
  exact (balanced_element rfl rfl ((balanced_itemLabel index).afterText rfl
      |>.andText rfl |>.append (balanced_element rfl rfl hverdict))).afterText rfl
    |>.append (balanced_element rfl rfl h)
    |>.andText rfl

theorem balanced_multipleResponse (number : Nat) {item : Item} (h : Balanced item.response)
    (index : Nat) : Balanced (multipleResponse number item index) := by
  have hexpect : Balanced (toString item.expect) := by
    cases item.expect
    · exact balanced_text rfl
    · exact balanced_text rfl
  have hlabel : Balanced ("(" ++ itemLabel index ++ ")") :=
    (balanced_itemLabel index).afterText rfl |>.andText rfl
  refine balanced_responseBlock _ ?_
  exact (balanced_element rfl rfl (balanced_text rfl)).afterText rfl
    |>.append (balanced_lone rfl rfl)
    |>.andText rfl |>.append (balanced_element rfl rfl hlabel)
    |>.andText rfl |>.append (balanced_element rfl rfl hexpect)
    |>.andText rfl |>.append (balanced_element rfl rfl h)
    |>.andText rfl

theorem balanced_solution (number : Nat) {choice : Choice}
    (h : ∀ item ∈ choice.items, Balanced item.response) : Balanced (solution number choice) := by
  have hline {item : Item} (hi : Balanced item.response) : Balanced (solutionLine item) := by
    have hverdict : Balanced (if item.expect then "True" else "False") :=
      balanced_if (fun _ => balanced_text rfl) fun _ => balanced_text rfl
    refine balanced_line rfl (balanced_element rfl rfl ?_)
    exact (balanced_element rfl rfl hverdict).andText rfl |>.append hi
  have hlines : Balanced (String.join (choice.items.map solutionLine)) :=
    balanced_join fun item hi => hline (h item hi)
  refine balanced_responseBlock _ ?_
  exact (balanced_element rfl rfl (balanced_text rfl)).andText rfl
    |>.append (balanced_element rfl rfl (hlines.afterText rfl |>.andText rfl))
    |>.andText rfl

theorem balanced_responses (number : Nat) {body : AnswerBody} (h : BalancedBody body) :
    Balanced (responses number body) := by
  cases h with
  | choice texts responses =>
    rename_i choice
    have heach {response : Nat → Item → Nat → String}
        (hr : ∀ item ∈ choice.items, ∀ index, Balanced (response number item index)) :
        Balanced (String.join ((choice.items.zipIdx 1).map fun x => response number x.1 x.2)) :=
      balanced_join fun x hx => hr x.1 (List.fst_mem_of_mem_zipIdx hx) x.2
    have hsingle := heach fun item hi => balanced_singleResponse number (responses item hi)
    have hmultiple := heach fun item hi => balanced_multipleResponse number (responses item hi)
    change Balanced (choiceResponses number choice)
    unfold choiceResponses
    split
    · exact hsingle
    · exact hmultiple.append (balanced_solution number responses)
    · exact balanced_text rfl
  | answer tag right wrong =>
    exact (balanced_answerResponse number _ (balanced_text rfl) right).append
      (balanced_answerResponse number _ (balanced_text rfl) wrong)

theorem balanced_bodyField (number : Nat) {body : AnswerBody} (h : BalancedBody body) :
    Balanced (bodyField number body) := by
  cases h with
  | choice texts _ => exact balanced_choiceTable number texts
  | answer tag _ _ => exact balanced_answerField tag

theorem balanced_questionForm (number : Nat) {body : AnswerBody} (h : BalancedBody body) :
    Balanced (questionForm number body) := by
  refine balanced_line rfl (balanced_element rfl rfl ?_)
  exact (balanced_bodyField number h).afterText rfl
    |>.andText rfl |>.append balanced_questionButtons
    |>.andText rfl

theorem balanced_questionBlock {q : Question} (ht : Balanced q.text) (hb : BalancedBody q.body)
    (number : Nat) : Balanced (questionBlock q number) := by
  have hnames : wellNamed ([("id", "question" ++ toString number), ("class", "question")] ++
      if number = 1 then [("style", "display: block;")] else []) = true := by
    split <;> rfl
  refine balanced_line rfl (balanced_element rfl hnames ?_)
  exact (balanced_element rfl rfl (ht.afterText rfl |>.andText rfl)).afterText rfl
    |>.andText rfl |>.append (balanced_questionForm number hb)
    |>.andText rfl |>.append (balanced_element rfl rfl
      ((balanced_responses number hb).afterText rfl |>.andText rfl))
    |>.andText rfl

theorem balanced_questionBlocks {quiz : Quiz} (h : Embeddable quiz) :
    Balanced (questionBlocks quiz) := by
  refine balanced_join fun x hx => ?_
  obtain ⟨ht, hb⟩ := h.questions x.1 (List.fst_mem_of_mem_zipIdx hx)
  exact balanced_questionBlock ht hb x.2

theorem balanced_breadcrumbs (layout : Layout) {quiz : Quiz} (h : Embeddable quiz) :
    Balanced (layout.breadcrumbs quiz) := by
  cases layout with
  | standard =>
    exact balanced_if (fun _ => balanced_text rfl) fun _ => balanced_element rfl rfl h.breadcrumb
  | course =>
    refine balanced_element rfl rfl ?_
    exact (balanced_element rfl rfl (balanced_plain quiz.course.code)).andText rfl
      |>.append (balanced_element rfl rfl (balanced_text rfl))
      |>.andText rfl |>.append (balanced_plain quiz.title)

theorem balanced_noScript : Balanced Layout.noScript := by
  refine balanced_element rfl rfl ?_
  refine .andText (.afterText (balanced_element rfl rfl ?_) rfl) rfl
  exact (balanced_text rfl).andText rfl |>.andText rfl

structure Parts.Balanced (parts : Parts) : Prop where
  head : Page.Balanced parts.head
  sideMenu : Page.Balanced parts.sideMenu
  quizHeader : Page.Balanced parts.quizHeader
  questions : Page.Balanced parts.questions

theorem balanced_parts (options : Options) {quiz : Quiz} (h : Embeddable quiz) :
    (parts options quiz).Balanced where
  head := balanced_head options h
  sideMenu := balanced_sideMenu quiz
  quizHeader := balanced_quizHeader quiz
  questions := parts_questions options quiz ▸
    ((balanced_discussionBlocks h).append (balanced_indexList quiz)).append (balanced_questionBlocks h)

theorem balanced_columns {parts : Parts} (h : parts.Balanced) : Balanced (Layout.columns parts) :=
  balanced_line rfl (balanced_element rfl rfl (h.sideMenu.afterText rfl |>.andText rfl))
    |>.line rfl (balanced_element rfl rfl
      (h.quizHeader.afterText rfl |>.append h.questions |>.andText rfl))

theorem balanced_body (layout : Layout) {quiz : Quiz} (h : Embeddable quiz) {parts : Parts}
    (hp : parts.Balanced) : Balanced (layout.body quiz parts) := by
  have hcrumbs := balanced_breadcrumbs layout h
  cases layout with
  | standard =>
    exact hcrumbs.afterText rfl
      |>.andText rfl |>.append balanced_noScript
      |>.line rfl (balanced_element rfl rfl ((balanced_columns hp).afterText rfl |>.andText rfl))
  | course =>
    refine balanced_line rfl (balanced_element rfl rfl ?_)
    exact hcrumbs.afterText rfl
      |>.andText rfl |>.append balanced_noScript
      |>.andText rfl |>.append (balanced_columns hp)
      |>.andText rfl

theorem balanced_html (layout : Layout) {quiz : Quiz} (h : Embeddable quiz) {parts : Parts}
    (hp : parts.Balanced) : Balanced (layout.html quiz parts) := by
  have hhead : Balanced ("\n  " ++ element "title" [] (plain quiz.title) ++ "\n" ++ parts.head) :=
    balanced_line rfl (balanced_element rfl rfl (balanced_plain quiz.title)) |>.append hp.head
  refine balanced_element rfl rfl ?_
  exact (balanced_element rfl rfl hhead).afterText rfl
    |>.andText rfl |>.append (balanced_element rfl rfl (balanced_body layout h hp))
    |>.andText rfl

/-- In each layout that there is, a page is rendered. -/
theorem page_of_layout (options : Options) (quiz : Quiz) {layout : Layout}
    (hl : options.layout = layout.name) : page options quiz = .ok {
      document := layout.page quiz (parts options quiz)
      artifacts := artifacts quiz
      warnings := warnings quiz } := by
  have hknown : Layout.ofName options.layout = .ok layout := by
    rw [hl]
    cases layout <;> rfl
  rw [page_eq, hknown]
  rfl

/-- In each layout that there is, a page is rendered, and what stands behind its first line is
balanced. -/
theorem page_balanced (options : Options) {quiz : Quiz} (h : Embeddable quiz) {layout : Layout}
    (hl : options.layout = layout.name) :
    ∃ rendered fragment, page options quiz = .ok rendered ∧
      rendered.document = "<!DOCTYPE HTML>\n" ++ fragment ∧ Balanced fragment := by
  exact ⟨_, layout.html quiz (parts options quiz) ++ "\n", page_of_layout options quiz hl, String.append_assoc,
    (balanced_html layout h (balanced_parts options h)).andText rfl⟩

/-- A title and a mode that would end the title and the comment that they stand in. -/
theorem page_balanced_closing_names :
    let quiz : Quiz := {
      title := "</title>"
      questions := [⟨"Is <em>2</em> prime?",
        .choice { mode := .other "--><table>", items := [{ text := "Yes" }, { text := "No" }] }⟩] }
    Embeddable quiz ∧ ∃ rendered fragment, page {} quiz = .ok rendered ∧
      rendered.document = "<!DOCTYPE HTML>\n" ++ fragment ∧ Balanced fragment := by
  intro quiz
  have hem : Balanced ("<" ++ "em" ++ "" ++ ">" ++ "2" ++ "</" ++ "em" ++ ">") :=
    .element rfl (.blank rfl) (balanced_text rfl)
  have htext : Balanced ("Is " ++ ("<" ++ "em" ++ "" ++ ">" ++ "2" ++ "</" ++ "em" ++ ">") ++
    " prime?") := hem.afterText rfl |>.andText rfl
  have h : Embeddable quiz := {
    breadcrumb := balanced_text rfl
    discussions := List.forall_mem_nil _
    questions := List.forall_mem_singleton.2 ⟨htext, .choice
      (List.forall_mem_cons.2 ⟨balanced_text rfl, List.forall_mem_singleton.2 (balanced_text rfl)⟩)
      (List.forall_mem_cons.2 ⟨balanced_text rfl, List.forall_mem_singleton.2 (balanced_text rfl)⟩)⟩
    names := List.forall_mem_nil _ }
  have hl : ({} : Options).layout = Layout.standard.name := rfl
  exact ⟨h, page_balanced {} h hl⟩

end QuizPress.Render.Page
