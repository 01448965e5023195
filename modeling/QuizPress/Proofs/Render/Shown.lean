import QuizPress.Proofs.Render.Anchor
import QuizPress.Proofs.Render.Drawing
import QuizPress.Proofs.Render.Rows
import QuizPress.Proofs.Render.Spots

/-! What each part of a page shows: its named elements, and the tags that lead to a question. -/
namespace QuizPress.Render.Page
open Quiz Tags

inductive TaglessBody : AnswerBody → Prop where
  | choice {c : Choice} (texts : ∀ item ∈ c.items, '<' ∉ item.text.toList)
      (responses : ∀ item ∈ c.items, '<' ∉ item.response.toList) : TaglessBody (.choice c)
  | answer {a : Answer} (tag : ∀ tag, a.tag = some tag → '<' ∉ tag.toList)
      (right : '<' ∉ a.whenRight.toList) (wrong : '<' ∉ a.whenWrong.toList) : TaglessBody (.answer a)

/-- What a page copies from a quiz as it stands holds no tag. -/
structure Tagless (quiz : Quiz) : Prop where
  breadcrumb : '<' ∉ quiz.breadcrumb.toList
  discussions : ∀ d ∈ quiz.discussions, '<' ∉ d.body.toList
  questions : ∀ q ∈ quiz.questions, '<' ∉ q.text.toList ∧ TaglessBody q.body

def named (as : List Anchor) : List Mark := as.map fun a => .named a.id

@[simp] theorem named_within (as : List Anchor) (around : List Tag) :
    (named as).map (Mark.within around) = named as := by
  rw [named, List.map_map]
  rfl

@[simp] theorem named_append (as bs : List Anchor) : named (as ++ bs) = named as ++ named bs :=
  List.map_append

section
variable {name content : String} {values : List (String × String)} {as : List Anchor}
  (hn : isOuter name = true) (hv : quiet values = true) (hc : Shows content (named as))
include hn hv hc

theorem shows_around : Shows (element name values content) (named as) := by
  have h := shows_quiet hn hv hc
  rwa [named_within] at h

theorem shows_anchor (a : Anchor) :
    Shows (element name (("id", a.id) :: values) content) (named (a :: as)) := by
  have h := shows_named hn hv a.id hc
  rwa [named_within] at h

end

theorem shows_itemLabel (index : Nat) : Shows (itemLabel index) [] :=
  .text (not_mem_itemLabel index)

theorem shows_unknownMode (name : String) :
    Shows ("<!-- internal error: unknown choice type " ++ commentText name ++ " -->") [] := by
  have hs : "<!-- internal error: unknown choice type " ++ commentText name ++ " -->" =
      "<!-- " ++ ("internal error: unknown choice type " ++ commentText name ++ " ") ++ "-->" := by
    have hopen : "<!-- internal error: unknown choice type " =
      "<!-- " ++ "internal error: unknown choice type " := rfl
    have hclose : " -->" = " " ++ "-->" := rfl
    rw [hopen, hclose]
    simp only [String.append_assoc]
  rw [hs]
  refine shows_comment ?_
  rw [String.toList_append, String.toList_append, List.append_assoc, List.append_assoc,
    hasDashes_append (by decide), hasDashes_commentText]
  rfl

theorem shows_itemCells (number : Nat) (mode : ChoiceMode) {item : Item} (h : '<' ∉ item.text.toList)
    (index : Nat) : Shows (itemCells number mode item index) [] := by
  have hselectable {control : String} (hc : Shows control []) : Shows (selectable control item.text) [] :=
    (shows_bare rfl rfl hc).append (shows_bare rfl rfl (shows_bare rfl rfl (.text h)))
  have hcontrol : Shows (itemControl number mode item index) [] := by
    cases mode with
    | single => exact hselectable (shows_slashed_quiet rfl rfl)
    | multiple => exact hselectable (shows_slashed_quiet rfl rfl)
    | other name => exact shows_unknownMode name
  have hlabel : Shows (itemLabel index ++ ")") [] := (shows_itemLabel index).andText rfl
  exact (shows_bare rfl rfl hlabel).append hcontrol

theorem rowParts_shows : RowParts (Shows · []) where
  empty := shows_text rfl
  lineEnd := shows_text rfl
  append := .append
  row := shows_bare rfl rfl

theorem shows_choiceTable (number : Nat) {choice : Choice}
    (h : ∀ item ∈ choice.items, '<' ∉ item.text.toList) : Shows (choiceTable number choice) [] := by
  have hrows := rows_of_choice rowParts_shows number choice
    fun item hi => shows_itemCells number choice.mode (h item hi)
  have hhidden : Shows (if choice.mode = .single then
      "\n" ++ slashed "input" [("type", "hidden"), ("name", "Q" ++ toString number ++ "hidden")]
    else "") [] :=
    shows_if (fun _ => (shows_slashed_quiet rfl rfl).afterText rfl) fun _ => shows_text rfl
  exact (shows_bare rfl rfl (hrows.afterText rfl)).append hhidden

theorem shows_answerField {answer : Answer} (h : ∀ tag, answer.tag = some tag → '<' ∉ tag.toList) :
    Shows (answerField answer) [] := by
  unfold answerField
  refine Shows.append (shows_slashed_quiet rfl rfl) ?_
  cases ht : answer.tag with
  | none => exact shows_text rfl
  | some tag => exact (shows_bare rfl rfl (.text (h tag ht))).afterText rfl

theorem shows_bodyField (number : Nat) {body : AnswerBody} (h : TaglessBody body) :
    Shows (bodyField number body) [] := by
  cases h with
  | choice texts _ => exact shows_choiceTable number texts
  | answer tag _ _ => exact shows_answerField tag

theorem shows_questionButtons : Shows questionButtons [] := by
  have hcheck : (Tag.written "input" [("type", "button"), ("value", "Check Answer"),
      ("name", "answer"), ("class", "input_button"), ("onClick", "checkAnswer();")]).marks "" = [] := by
    decide +kernel
  have hnext : (Tag.written "input" [("type", "button"), ("value", "Next Question"),
      ("class", "input_button"), ("title", "Next unanswered question"), ("name", "next"),
      ("onClick", "nextQuestion(1);")]).marks "" = [] := by
    decide +kernel
  refine shows_line rfl (shows_bare rfl rfl ?_)
  exact (hcheck ▸ shows_slashed rfl rfl).afterText rfl
    |>.andText rfl |>.append (hnext ▸ shows_slashed rfl rfl)
    |>.andText rfl

theorem shows_responseBlock (id : String) {content : String} (h : Shows content []) :
    Shows (responseBlock id content) [.named id] :=
  shows_line rfl (shows_named rfl rfl id h)

theorem shows_answerResponse (number : Nat) (name : String) {verdict feedback : String}
    (hv : Shows verdict []) (hf : '<' ∉ feedback.toList) :
    Shows (answerResponse number name verdict feedback) [.named (responseId number name)] := by
  refine shows_responseBlock _ ?_
  exact (shows_bare rfl rfl hv).andText rfl
    |>.append (shows_bare rfl rfl (.text hf))
    |>.andText rfl

theorem shows_singleResponse (number : Nat) {item : Item} (h : '<' ∉ item.response.toList)
    (index : Nat) : Shows (singleResponse number item index) (named [.response number index]) := by
  have hverdict : Shows (if item.expect then "correct" else "incorrect") [] :=
    shows_if (fun _ => shows_text rfl) fun _ => shows_text rfl
  have hid : responseId number ("response" ++ toString index) = (Anchor.response number index).id := by
    rw [responseId, ← String.append_assoc]
    rfl
  rw [singleResponse, hid]
  refine shows_responseBlock _ ?_
  exact (shows_bare rfl rfl ((shows_itemLabel index).afterText rfl
      |>.andText rfl |>.append (shows_bare rfl rfl hverdict))).afterText rfl
    |>.append (shows_bare rfl rfl (.text h))
    |>.andText rfl

theorem shows_multipleResponse (number : Nat) {item : Item} (h : '<' ∉ item.response.toList)
    (index : Nat) : Shows (multipleResponse number item index) (named [.response number index]) := by
  have hexpect : Shows (toString item.expect) [] := by
    cases item.expect
    · exact shows_text rfl
    · exact shows_text rfl
  have hlabel : Shows ("(" ++ itemLabel index ++ ")") [] :=
    (shows_itemLabel index).afterText rfl |>.andText rfl
  have hid : responseId number ("response" ++ toString index) = (Anchor.response number index).id := by
    rw [responseId, ← String.append_assoc]
    rfl
  rw [multipleResponse, hid]
  refine shows_responseBlock _ ?_
  exact (shows_bare rfl rfl (shows_text rfl)).afterText rfl
    |>.append (shows_lone_quiet rfl rfl)
    |>.andText rfl |>.append (shows_bare rfl rfl hlabel)
    |>.andText rfl |>.append (shows_bare rfl rfl hexpect)
    |>.andText rfl |>.append (shows_bare rfl rfl (.text h))
    |>.andText rfl

theorem shows_solution (number : Nat) {choice : Choice}
    (h : ∀ item ∈ choice.items, '<' ∉ item.response.toList) :
    Shows (solution number choice) (named [.response number 0]) := by
  have hline {item : Item} (hi : '<' ∉ item.response.toList) : Shows (solutionLine item) [] := by
    have hverdict : Shows (if item.expect then "True" else "False") [] :=
      shows_if (fun _ => shows_text rfl) fun _ => shows_text rfl
    refine shows_line rfl (shows_bare rfl rfl ?_)
    exact (shows_bare rfl rfl hverdict).andText rfl |>.append (.text hi)
  have hlines : Shows (String.join (choice.items.map solutionLine)) [] :=
    shows_join_nil fun item hi => hline (h item hi)
  have hid : responseId number "response0" = (Anchor.response number 0).id := by
    have hzero : "response0" = "response" ++ toString 0 := rfl
    rw [responseId, hzero, ← String.append_assoc]
    rfl
  rw [solution, hid]
  refine shows_responseBlock _ ?_
  exact (shows_bare rfl rfl (shows_text rfl)).andText rfl
    |>.append (shows_bare rfl rfl (hlines.afterText rfl |>.andText rfl))
    |>.andText rfl

/-- Numbers that go with a list. -/
private theorem flatMap_number {α : Type} (xs : List α) (f : Nat → Anchor) :
    (xs.zipIdx 1).flatMap (fun x => named [f x.2]) = named ((List.range' 1 xs.length).map f) := by
  rw [named, List.map_map, ← List.zipIdx_map_snd, List.map_map, List.map_eq_flatMap]
  rfl

theorem shows_responses (number : Nat) {body : AnswerBody} (h : TaglessBody body) :
    Shows (responses number body) (named (responseAnchors number body)) := by
  cases h with
  | choice texts responses =>
    rename_i choice
    have heach {response : Nat → Item → Nat → String}
        (hr : ∀ item ∈ choice.items, ∀ index,
          Shows (response number item index) (named [.response number index])) :
        Shows (String.join ((choice.items.zipIdx 1).map fun x => response number x.1 x.2))
          (named ((List.range' 1 choice.items.length).map (.response number))) := by
      rw [← flatMap_number]
      exact shows_join fun x hx => hr x.1 (List.fst_mem_of_mem_zipIdx hx) x.2
    have hsingle := heach fun item hi => shows_singleResponse number (responses item hi)
    have hmultiple := heach fun item hi => shows_multipleResponse number (responses item hi)
    change Shows (choiceResponses number choice) _
    simp only [choiceResponses, responseAnchors]
    cases choice.mode with
    | single => exact hsingle
    | multiple =>
      simp only [named_append]
      exact hmultiple.append (shows_solution number responses)
    | other name => exact shows_text rfl
  | answer tag right wrong =>
    exact (shows_answerResponse number _ (shows_text rfl) right).append
      (shows_answerResponse number _ (shows_text rfl) wrong)

theorem shows_questionForm (number : Nat) {body : AnswerBody} (h : TaglessBody body) :
    Shows (questionForm number body) (named [.form number]) := by
  have hcontent : Shows ("\n        " ++ bodyField number body ++ "\n" ++ questionButtons ++
      "        ") (named []) :=
    (shows_bodyField number h).afterText rfl
      |>.andText rfl |>.append shows_questionButtons
      |>.andText rfl
  exact shows_line rfl (shows_anchor rfl rfl hcontent (.form number))

theorem shows_questionBlock {q : Question} (ht : '<' ∉ q.text.toList) (hb : TaglessBody q.body)
    (number : Nat) : Shows (questionBlock q number) (named (questionAnchors q number)) := by
  have hquiet : quiet (("class", "question") :: if number = 1 then [("style", "display: block;")]
      else []) = true := by
    split <;> rfl
  have htext : Shows ("\n          " ++ q.text ++ "\n        ") [] :=
    Shows.afterText (.text ht) rfl |>.andText rfl
  have hresponses : Shows ("\n" ++ responses number q.body ++ "        ")
      (named (responseAnchors number q.body)) :=
    (shows_responses number hb).afterText rfl |>.andText rfl
  refine shows_line rfl (shows_anchor rfl hquiet
    (?_ : Shows _ (named (.form number :: responseAnchors number q.body))) (.question number))
  exact (shows_bare rfl rfl htext).afterText rfl
    |>.andText rfl |>.append (shows_questionForm number hb)
    |>.andText rfl |>.append (shows_around rfl rfl hresponses)
    |>.andText rfl

theorem shows_questionBlocks {quiz : Quiz} (h : Tagless quiz) : Shows (questionBlocks quiz)
    (named ((quiz.questions.zipIdx 1).flatMap fun (question, number) =>
      questionAnchors question number)) := by
  rw [named, List.map_flatMap]
  refine shows_join fun x hx => ?_
  obtain ⟨ht, hb⟩ := h.questions x.1 (List.fst_mem_of_mem_zipIdx hx)
  exact shows_questionBlock ht hb x.2

/-- The code that shows a question or, for a negative number, a discussion. -/
def call (target : Int) : String := "gotoQuestion(" ++ toString target ++ ")"

theorem calls_of_call {tag : Tag} {target : Int} (h : tag.value? "onclick" = some (call target)) :
    tag.calls = true := by
  have hcall : (call target).toList = "gotoQuestion".toList ++ '(' :: (toString target ++ ")").toList := by
    simp [call]
  rw [Tag.calls, h, Option.any_some, hcall]
  rfl

def entryTag (index : Nat) : Tag :=
  .written "li" [("class", "discussion"), ("onClick", call (-index))]

def buttonTag (selectFirst : Bool) (number : Nat) : Tag :=
  .written "div" [("id", "button" ++ toString number),
    ("class", if number = 1 ∧ selectFirst then "button button-selected" else "button"),
    ("content", ""), ("onClick", call number)]

theorem entryTag_code (index : Nat) : (entryTag index).value? "onclick" = some (call (-index)) := by
  simp [entryTag, value_written_cons, small]

theorem buttonTag_code (selectFirst : Bool) (number : Nat) :
    (buttonTag selectFirst number).value? "onclick" = some (call number) := by
  simp [buttonTag, value_written_cons, small]

theorem marks_entryTag (index : Nat) (label : String) :
    (entryTag index).marks label = [.lead ⟨entryTag index, label, []⟩] := by
  have hid : (entryTag index).value? "id" = none := by simp [entryTag, value_written_cons, small]
  rw [marks_calling (calls_of_call (entryTag_code index)), hid]
  rfl

theorem marks_buttonTag (selectFirst : Bool) (number : Nat) (label : String) :
    (buttonTag selectFirst number).marks label =
      [.named (Anchor.button number).id, .lead ⟨buttonTag selectFirst number, label, []⟩] := by
  have hid : (buttonTag selectFirst number).value? "id" = some (Anchor.button number).id := by
    simp [buttonTag, value_written_cons, small, Anchor.id]
  rw [marks_calling (calls_of_call (buttonTag_code selectFirst number)), hid]
  rfl

/-- Positions are counted from one. -/
theorem shows_discussionEntry (d : Discussion) {index : Nat} (h : 0 < index) :
    Shows (discussionEntry d index) [.lead ⟨entryTag index, d.heading, []⟩] := by
  have hcall : "gotoQuestion(-" ++ toString index ++ ")" = call (-index) := by
    obtain ⟨n, rfl⟩ := Nat.exists_eq_add_of_le' h
    rfl
  have htag : Shows (element "li" [("class", "discussion"), ("onClick", call (-index))]
      (plain d.heading)) ((entryTag index).marks d.heading) :=
    shows_labelled_plain rfl rfl d.heading
  rw [marks_entryTag] at htag
  rw [discussionEntry, hcall]
  exact shows_line rfl htag

theorem shows_questionButton (selectFirst : Bool) (number : Nat) :
    Shows (questionButton selectFirst number)
      [.named (Anchor.button number).id, .lead ⟨buttonTag selectFirst number, toString number, []⟩] := by
  rw [← marks_buttonTag]
  exact shows_line rfl (shows_labelled_number rfl rfl number)

def entryMarks (quiz : Quiz) : List Mark :=
  (quiz.discussions.zipIdx 1).map fun (d, index) =>
    .lead ⟨entryTag index, d.heading, [.written "ul" []]⟩

def buttonMarks (quiz : Quiz) : List Mark :=
  (List.range' 1 quiz.questions.length).flatMap fun number =>
    [.named (Anchor.button number).id, .lead ⟨buttonTag quiz.discussions.isEmpty number,
      toString number, [.written "div" [("class", "buttons")]]⟩]

theorem shows_discussionList (quiz : Quiz) : Shows (discussionList quiz) (entryMarks quiz) := by
  unfold discussionList
  split
  · rename_i h
    rw [List.isEmpty_iff] at h
    rw [entryMarks, h]
    exact shows_text rfl
  · have hentries : Shows (String.join ((quiz.discussions.zipIdx 1).map fun (d, index) =>
        discussionEntry d index)) ((quiz.discussions.zipIdx 1).flatMap fun x =>
          [.lead ⟨entryTag x.2, x.1.heading, []⟩]) :=
      shows_join fun x hx => shows_discussionEntry x.1 (List.le_snd_of_mem_zipIdx hx)
    have hmarks : entryMarks quiz = ((quiz.discussions.zipIdx 1).flatMap fun x =>
        [.lead ⟨entryTag x.2, x.1.heading, []⟩]).map (Mark.within [.written "ul" []]) := by
      rw [entryMarks, List.map_flatMap, List.map_eq_flatMap]
      rfl
    rw [hmarks]
    exact shows_line rfl (shows_quiet rfl rfl (hentries.afterText rfl |>.andText rfl))

theorem shows_markingRow (style : String) {sign meaning : String} (hs : Shows sign [])
    (hm : Shows meaning []) : Shows (markingRow style sign meaning) [] :=
  shows_line rfl (shows_bare rfl rfl (.append (shows_bare rfl rfl hs) (shows_bare rfl rfl hm)))

theorem shows_markingKey : Shows markingKey [] := by
  have hfirst : Shows ("right first" ++ lone "br" [] ++ "attempt") [] :=
    (shows_lone_quiet rfl rfl).afterText rfl |>.andText rfl
  refine shows_line rfl (shows_bare rfl rfl ?_)
  exact (shows_markingRow _ (shows_text rfl) hfirst).afterText rfl
    |>.append (shows_markingRow _ (shows_text rfl) (shows_text rfl))
    |>.append (shows_markingRow _ (shows_text rfl) (shows_text rfl))
    |>.andText rfl

theorem shows_sideMenu (quiz : Quiz) :
    Shows (sideMenu quiz) (entryMarks quiz ++ buttonMarks quiz) := by
  have hbuttons : Shows (String.join ((List.range' 1 quiz.questions.length).map
      (questionButton quiz.discussions.isEmpty))) ((List.range' 1 quiz.questions.length).flatMap
        fun number => [.named (Anchor.button number).id,
          .lead ⟨buttonTag quiz.discussions.isEmpty number, toString number, []⟩]) :=
    shows_join fun number _ => shows_questionButton _ number
  have hmarks : buttonMarks quiz = ((List.range' 1 quiz.questions.length).flatMap fun number =>
      [.named (Anchor.button number).id, .lead ⟨buttonTag quiz.discussions.isEmpty number,
        toString number, []⟩]).map (Mark.within [.written "div" [("class", "buttons")]]) := by
    rw [buttonMarks, List.map_flatMap]
    rfl
  rw [hmarks, ← List.append_nil (entryMarks quiz ++ _), ← List.append_nil (entryMarks quiz ++ _ ++ _)]
  refine shows_line rfl (shows_bare rfl rfl (shows_text rfl))
    |>.append (shows_discussionList quiz)
    |>.line rfl (shows_quiet rfl rfl ?_)
    |>.line rfl (shows_bare rfl rfl (shows_text rfl))
    |>.append shows_markingKey
  exact (shows_bare rfl rfl (shows_text rfl)).afterText rfl
    |>.andText rfl |>.append (shows_lone_quiet rfl rfl)
    |>.andText rfl |>.append hbuttons
    |>.andText rfl

theorem shows_arrow {step hint sign : String}
    (ht : (Tag.written "div" [("onClick", "nextQuestion(" ++ step ++ ");")]).marks "" = [])
    (hh : Shows hint []) (hs : Shows sign []) : Shows (arrow step hint sign) [] :=
  shows_line rfl (shows_element rfl rfl (marks_nil ht) ((shows_bare rfl rfl hh).append hs))

theorem shows_navigation : Shows navigation [] := by
  refine shows_line rfl (shows_bare rfl rfl ?_)
  exact (shows_arrow (by decide +kernel) (shows_text rfl) (shows_text rfl)).afterText rfl
    |>.line rfl (shows_bare rfl rfl (shows_text rfl))
    |>.append (shows_arrow (by decide +kernel) (shows_text rfl) (shows_text rfl))
    |>.andText rfl

theorem shows_quizHeader (quiz : Quiz) : Shows (quizHeader quiz)
    (named (if quiz.questions.isEmpty then [] else [.questionNumber])) := by
  have hnumber : Shows (if quiz.questions.isEmpty then ""
      else "        " ++ element "div" [("id", "question_number"), ("class", "question_label")]
        "Question 1" ++ "\n" ++ navigation)
      (named (if quiz.questions.isEmpty then [] else [.questionNumber])) := by
    split
    · exact shows_text rfl
    · have hlabel : Shows "Question 1" (named []) := shows_text rfl
      exact (shows_line rfl (shows_anchor rfl rfl hlabel .questionNumber)).append shows_navigation
  refine shows_line rfl (shows_around rfl rfl ?_)
  exact (shows_bare rfl rfl (shows_plain quiz.title)).afterText rfl
    |>.andText rfl |>.append (shows_bare rfl rfl (shows_text rfl))
    |>.andText rfl |>.append hnumber
    |>.andText rfl

theorem shows_indexList (quiz : Quiz) : Shows (indexList quiz) [] := by
  have hline (entry : IndexEntry) : Shows (indexLine entry) [] :=
    shows_line rfl (shows_bare rfl rfl (shows_bare rfl rfl (shows_plain entry.title)))
  have hlines : Shows (String.join (quiz.index.map indexLine)) [] :=
    shows_join_nil fun entry _ => hline entry
  have hheading : Shows (plain quiz.course.name ++ " Quizzes") [] :=
    (shows_plain quiz.course.name).andText rfl
  unfold indexList
  refine shows_if (fun _ => shows_text rfl) fun _ => ?_
  refine shows_line rfl (shows_bare rfl rfl ?_)
  exact (shows_bare rfl rfl hheading).andText rfl
    |>.append (shows_bare rfl rfl (hlines.afterText rfl |>.andText rfl))
    |>.andText rfl

def startTag : Tag :=
  .written "input" [("type", "button"), ("name", "next"), ("value", "Start quiz"),
    ("onClick", "return gotoQuestion(1);")]

def discussionTag (index : Nat) : Tag :=
  .written "div" [("id", "question-" ++ toString index), ("class", "question")]

theorem marks_startTag : startTag.marks "" = [.lead ⟨startTag, "", []⟩] := by
  decide +kernel

theorem shows_discussionBlock (leads : Bool) {d : Discussion} (h : '<' ∉ d.body.toList) (index : Nat) :
    Shows (discussionBlock leads d index) (.named (Anchor.discussion index).id ::
      if leads then [.lead ⟨startTag, "", [discussionTag index]⟩] else []) := by
  have hstart : Shows (if leads then startButton else "")
      (if leads then [.lead ⟨startTag, "", []⟩] else []) := by
    cases leads with
    | false => exact shows_text rfl
    | true =>
      have hbutton : Shows startButton (startTag.marks "") := (shows_slashed rfl rfl).afterText rfl
      rwa [marks_startTag] at hbutton
  have hmarks : (if leads then [Mark.lead ⟨startTag, "", [discussionTag index]⟩] else []) =
      (if leads then [Mark.lead ⟨startTag, "", []⟩] else []).map (Mark.within [discussionTag index]) := by
    cases leads <;> rfl
  rw [hmarks]
  refine shows_line rfl (shows_named rfl rfl _ ?_)
  exact (shows_bare rfl rfl (shows_plain d.heading)).andText rfl
    |>.append (shows_bare rfl rfl (.text h))
    |>.append hstart
    |>.andText rfl

/-- The last discussion before questions leads to them. -/
def discussionMarks (quiz : Quiz) : List Mark :=
  (quiz.discussions.zipIdx 1).flatMap fun (_, index) =>
    .named (Anchor.discussion index).id ::
      if !quiz.questions.isEmpty && index == quiz.discussions.length then
        [.lead ⟨startTag, "", [discussionTag index]⟩] else []

theorem shows_discussionBlocks {quiz : Quiz} (h : Tagless quiz) :
    Shows (discussionBlocks quiz) (discussionMarks quiz) :=
  shows_join fun x hx =>
    shows_discussionBlock _ (h.discussions x.1 (List.fst_mem_of_mem_zipIdx hx)) x.2

theorem shows_breadcrumbs (layout : Layout) {quiz : Quiz} (h : Tagless quiz) :
    Shows (layout.breadcrumbs quiz) [] := by
  cases layout with
  | standard =>
    exact shows_if (fun _ => shows_text rfl) fun _ => shows_bare rfl rfl (.text h.breadcrumb)
  | course =>
    refine shows_bare rfl rfl ?_
    exact (shows_bare rfl rfl (shows_plain quiz.course.code)).andText rfl
      |>.append (shows_bare rfl rfl (shows_text rfl))
      |>.andText rfl |>.append (shows_plain quiz.title)

theorem shows_noScript : Shows Layout.noScript [] := by
  refine shows_bare rfl rfl ?_
  refine .andText (.afterText (shows_bare rfl rfl ?_) rfl) rfl
  exact (shows_text rfl).andText rfl |>.andText rfl

def menuTag : Tag := .written "div" [("class", "side_menu")]

def questionsTag : Tag := .written "div" [("class", "quiz_questions")]

def frameTag : Layout → Tag
  | .standard => .written "div" [("class", "quiz_page")]
  | .course => .written "div" [("class", "quizpage")]

def questionsMarks (quiz : Quiz) : List Mark :=
  named (if quiz.questions.isEmpty then [] else [.questionNumber]) ++ (discussionMarks quiz ++
    named ((quiz.questions.zipIdx 1).flatMap fun (question, number) => questionAnchors question number))

def columnMarks (quiz : Quiz) : List Mark :=
  (entryMarks quiz ++ buttonMarks quiz).map (Mark.within [menuTag]) ++
    (questionsMarks quiz).map (Mark.within [questionsTag])

theorem shows_columns (options : Options) {quiz : Quiz} (h : Tagless quiz) :
    Shows (Layout.columns (parts options quiz)) (columnMarks quiz) := by
  have hblocks : Shows (discussionBlocks quiz ++ indexList quiz) (discussionMarks quiz) := by
    have hb := (shows_discussionBlocks h).append (shows_indexList quiz)
    rwa [List.append_nil] at hb
  have hquestions := hblocks.append (shows_questionBlocks h)
  rw [← parts_questions options quiz] at hquestions
  exact shows_line rfl (shows_quiet rfl rfl ((shows_sideMenu quiz).afterText rfl |>.andText rfl))
    |>.line rfl (shows_quiet rfl rfl
      ((shows_quizHeader quiz).afterText rfl |>.append hquestions |>.andText rfl))

def bodyMarks (layout : Layout) (quiz : Quiz) : List Mark :=
  (columnMarks quiz).map (Mark.within [frameTag layout])

theorem shows_body (options : Options) (layout : Layout) {quiz : Quiz} (h : Tagless quiz) :
    Shows (layout.body quiz (parts options quiz)) (bodyMarks layout quiz) := by
  have hcrumbs := shows_breadcrumbs layout h
  have hcolumns := shows_columns options h
  cases layout with
  | standard =>
    exact hcrumbs.afterText rfl
      |>.andText rfl |>.append shows_noScript
      |>.line rfl (shows_quiet rfl rfl (hcolumns.afterText rfl |>.andText rfl))
  | course =>
    refine shows_line rfl (shows_quiet rfl rfl ?_)
    exact hcrumbs.afterText rfl
      |>.andText rfl |>.append shows_noScript
      |>.andText rfl |>.append hcolumns
      |>.andText rfl

end QuizPress.Render.Page
