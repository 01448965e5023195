import QuizPress.Proofs.Render.Page
import QuizPress.Proofs.Render.Shown

/-! The wiring of a page: the names of its elements, the entries of its menu with the questions and
discussions that they lead to, and the button that starts the quiz. -/
namespace QuizPress.Render.Page
open Quiz Tags

def ids (found : List Spot) : List String :=
  found.filterMap fun spot => spot.tag.value? "id"

/-- What a click on an entry of the menu does, and what the entry is called. -/
def menuItem? (spot : Spot) : Option (String × String) :=
  if spot.tag.calls ∧ spot.around.any (fun tag => tag.value? "class" == some "side_menu") then
    (spot.tag.value? "onclick").map (·, spot.label)
  else none

def startButton? (spot : Spot) : Option (List String) :=
  if spot.tag.starts then some (spot.around.filterMap fun tag => tag.value? "id") else none

def nameOf? : Mark → Option String
  | .named id => some id
  | .lead _ => none

def leadOf? : Mark → Option Spot
  | .named _ => none
  | .lead spot => some spot

theorem ids_of_marks (found : List Spot) : ids found = (found.flatMap Spot.marks).filterMap nameOf? := by
  induction found with
  | nil => rfl
  | cons spot found ih =>
    rw [ids, List.filterMap_cons, List.flatMap_cons, List.filterMap_append, ← ih]
    have hspot : spot.marks.filterMap nameOf? = (spot.tag.value? "id").toList := by
      rw [Spot.marks]
      cases spot.tag.value? "id" <;> split <;> rfl
    rw [hspot]
    cases spot.tag.value? "id" <;> rfl

/-- What is asked of tags that lead to a question alone. -/
theorem filterMap_of_marks {α : Type} {f : Spot → Option α}
    (hf : ∀ spot : Spot, (spot.tag.calls || spot.tag.starts) = false → f spot = none) (found : List Spot) :
    found.filterMap f = ((found.flatMap Spot.marks).filterMap leadOf?).filterMap f := by
  induction found with
  | nil => rfl
  | cons spot found ih =>
    have hname : ((spot.tag.value? "id").toList.map Mark.named).filterMap leadOf? = [] := by
      cases spot.tag.value? "id" <;> rfl
    rw [List.flatMap_cons, List.filterMap_append, List.filterMap_append, ← ih, Spot.marks,
      List.filterMap_append, hname, List.nil_append]
    by_cases h : (spot.tag.calls || spot.tag.starts) = true
    · have hlead : [Mark.lead spot].filterMap leadOf? = [spot] := rfl
      rw [if_pos h, hlead, ← List.filterMap_append, List.singleton_append]
    · rw [if_neg h, List.filterMap_cons_none (hf spot (Bool.eq_false_iff.2 h))]
      rfl

theorem marks_allSpots {s : String} {ms : List Mark} (h : Shows s ms) :
    (allSpots s).flatMap Spot.marks = ms := by
  have hs := h [] []
  have hid : Mark.within [] = id := by
    funext m
    cases m with
    | named id => rfl
    | lead spot => simp [Mark.within]
  rw [List.append_nil, hid, List.map_id] at hs
  exact hs.trans (List.append_nil ms)

theorem nameOf_within (around : List Tag) : nameOf? ∘ Mark.within around = nameOf? := by
  funext m
  cases m <;> rfl

theorem filterMap_named (as : List Anchor) : (named as).filterMap nameOf? = as.map Anchor.id := by
  rw [named, List.filterMap_map]
  exact congrFun List.filterMap_eq_map as

theorem names_bodyMarks (layout : Layout) (quiz : Quiz) :
    (bodyMarks layout quiz).filterMap nameOf? = (anchors quiz).map Anchor.id := by
  have hentries : (entryMarks quiz).filterMap nameOf? = [] := by
    rw [entryMarks, List.filterMap_map]
    exact List.filterMap_eq_nil_iff.2 fun _ _ => rfl
  have hbuttons : (buttonMarks quiz).filterMap nameOf? =
      ((List.range' 1 quiz.questions.length).map Anchor.button).map Anchor.id := by
    rw [buttonMarks, List.filterMap_flatMap, List.map_map, List.map_eq_flatMap]
    rfl
  have hdiscussions : (discussionMarks quiz).filterMap nameOf? =
      ((List.range' 1 quiz.discussions.length).map Anchor.discussion).map Anchor.id := by
    have hblock (x : Discussion × Nat) : (Mark.named (Anchor.discussion x.2).id ::
        if !quiz.questions.isEmpty && x.2 == quiz.discussions.length then
          [Mark.lead ⟨startTag, "", [discussionTag x.2]⟩] else []).filterMap nameOf? =
        [(Anchor.discussion x.2).id] := by
      split <;> rfl
    rw [discussionMarks, List.filterMap_flatMap, List.map_map, ← List.zipIdx_map_snd, List.map_map,
      List.map_eq_flatMap]
    exact congrArg (List.flatMap · _) (funext hblock)
  simp only [bodyMarks, columnMarks, questionsMarks, List.map_append, List.filterMap_append,
    List.filterMap_map, nameOf_within, filterMap_named, hentries, hbuttons,
    hdiscussions, anchors, List.nil_append, List.append_assoc]

def entrySpots (layout : Layout) (quiz : Quiz) : List Spot :=
  (quiz.discussions.zipIdx 1).map fun (d, index) =>
    ⟨entryTag index, d.heading, [.written "ul" [], menuTag, frameTag layout]⟩

def buttonSpots (layout : Layout) (quiz : Quiz) : List Spot :=
  (List.range' 1 quiz.questions.length).map fun number =>
    ⟨buttonTag quiz.discussions.isEmpty number, toString number,
      [.written "div" [("class", "buttons")], menuTag, frameTag layout]⟩

def startSpots (layout : Layout) (quiz : Quiz) : List Spot :=
  (quiz.discussions.zipIdx 1).flatMap fun (_, index) =>
    if !quiz.questions.isEmpty && index == quiz.discussions.length then
      [⟨startTag, "", [discussionTag index, questionsTag, frameTag layout]⟩] else []

theorem leads_bodyMarks (layout : Layout) (quiz : Quiz) :
    (bodyMarks layout quiz).filterMap leadOf? =
      entrySpots layout quiz ++ buttonSpots layout quiz ++ startSpots layout quiz := by
  have hentries : (((entryMarks quiz).map (Mark.within [menuTag])).map
      (Mark.within [frameTag layout])).filterMap leadOf? = entrySpots layout quiz := by
    rw [entryMarks, List.map_map, List.map_map, List.filterMap_map]
    exact congrFun List.filterMap_eq_map _
  have hbuttons : (((buttonMarks quiz).map (Mark.within [menuTag])).map
      (Mark.within [frameTag layout])).filterMap leadOf? = buttonSpots layout quiz := by
    rw [buttonMarks, List.map_flatMap, List.map_flatMap, List.filterMap_flatMap, buttonSpots,
      List.map_eq_flatMap]
    rfl
  have hstarts : (((discussionMarks quiz).map (Mark.within [questionsTag])).map
      (Mark.within [frameTag layout])).filterMap leadOf? = startSpots layout quiz := by
    rw [discussionMarks, List.map_flatMap, List.map_flatMap, List.filterMap_flatMap, startSpots]
    refine congrArg (List.flatMap · _) (funext fun x => ?_)
    dsimp only
    split <;> rfl
  have hnamed (as : List Anchor) : (named as).filterMap leadOf? = [] := by
    rw [named, List.filterMap_map]
    exact List.filterMap_eq_nil_iff.2 fun _ _ => rfl
  simp only [bodyMarks, columnMarks, questionsMarks, List.map_append, List.filterMap_append, hentries,
    hbuttons, hstarts, named_within, hnamed, List.nil_append, List.append_nil]

/-- All that calls for a question in the menu is an entry of it. -/
theorem menuItem_inside {tag : Tag} {target : Int} (h : tag.value? "onclick" = some (call target))
    {around : List Tag} (hm : menuTag ∈ around) (label : String) :
    menuItem? ⟨tag, label, around⟩ = some (call target, label) := by
  have hclass : menuTag.value? "class" = some "side_menu" := by decide +kernel
  have hinside : around.any (fun tag => tag.value? "class" == some "side_menu") = true :=
    List.any_eq_true.2 ⟨menuTag, hm, by rw [hclass]; rfl⟩
  rw [menuItem?, if_pos ⟨calls_of_call h, hinside⟩, h]
  rfl

theorem discussionTag_class (index : Nat) : (discussionTag index).value? "class" = some "question" := by
  simp [discussionTag, value_written_cons, small]

theorem menuItem_outside (layout : Layout) (index : Nat) :
    menuItem? ⟨startTag, "", [discussionTag index, questionsTag, frameTag layout]⟩ = none := by
  have hquestions : (questionsTag.value? "class" == some "side_menu") = false := by decide +kernel
  have hframe : ((frameTag layout).value? "class" == some "side_menu") = false := by
    cases layout <;> decide +kernel
  have hdiscussion : ((discussionTag index).value? "class" == some "side_menu") = false := by
    rw [discussionTag_class]
    decide
  have hinside : [discussionTag index, questionsTag, frameTag layout].any
      (fun tag => tag.value? "class" == some "side_menu") = false := by
    rw [List.any_cons, List.any_cons, List.any_cons, hdiscussion, hquestions, hframe]
    rfl
  rw [menuItem?, hinside, if_neg fun h => nomatch h.2]

theorem menu_leads (layout : Layout) (quiz : Quiz) :
    (entrySpots layout quiz ++ buttonSpots layout quiz ++ startSpots layout quiz).filterMap menuItem? =
      ((quiz.discussions.zipIdx 1).map fun (d, index) => (call (-index), d.heading)) ++
        (List.range' 1 quiz.questions.length).map fun (number : Nat) => (call number, toString number) := by
  have hentries : (entrySpots layout quiz).filterMap menuItem? =
      (quiz.discussions.zipIdx 1).map fun (d, index) => (call (-index), d.heading) := by
    rw [entrySpots, List.filterMap_map, ← List.filterMap_eq_map]
    refine congrArg (List.filterMap · _) (funext fun x => ?_)
    exact menuItem_inside (entryTag_code x.2) (.tail _ (.head _)) x.1.heading
  have hbuttons : (buttonSpots layout quiz).filterMap menuItem? =
      (List.range' 1 quiz.questions.length).map fun (number : Nat) => (call number, toString number) := by
    rw [buttonSpots, List.filterMap_map, ← List.filterMap_eq_map]
    refine congrArg (List.filterMap · _) (funext fun number => ?_)
    exact menuItem_inside (buttonTag_code _ number) (.tail _ (.head _)) (toString number)
  have hstarts : (startSpots layout quiz).filterMap menuItem? = [] := by
    refine List.filterMap_eq_nil_iff.2 fun spot hs => ?_
    obtain ⟨⟨d, index⟩, _, hx⟩ := List.mem_flatMap.1 hs
    dsimp only at hx
    split at hx
    · rw [List.mem_singleton.1 hx]
      exact menuItem_outside layout index
    · cases hx
  rw [List.filterMap_append, List.filterMap_append, hentries, hbuttons, hstarts, List.append_nil]

/-- What is written for the last of a list alone. -/
private theorem flatMap_last {α β : Type} (xs : List α) (f : Nat → β) :
    ((xs.zipIdx 1).flatMap fun x => if x.2 = xs.length then [f x.2] else []) =
      if xs = [] then [] else [f xs.length] := by
  rcases List.eq_nil_or_concat xs with rfl | ⟨ys, y, rfl⟩
  · rfl
  · have hl : (ys ++ [y]).length = 1 + ys.length := by
      rw [List.length_append, List.length_singleton, Nat.add_comm]
    have hothers : ((ys.zipIdx 1).flatMap fun x => if x.2 = 1 + ys.length then [f x.2] else []) = [] := by
      refine List.flatMap_eq_nil_iff.2 fun x hx => ?_
      rw [if_neg (Nat.ne_of_lt (List.snd_lt_add_of_mem_zipIdx hx))]
    rw [List.concat_eq_append, if_neg (List.concat_ne_nil y ys), hl, List.zipIdx_append, List.flatMap_append, hothers]
    simp

theorem startButton_start (layout : Layout) (index : Nat) :
    startButton? ⟨startTag, "", [discussionTag index, questionsTag, frameTag layout]⟩ =
      some [(Anchor.discussion index).id] := by
  have hstarts : startTag.starts = true := by decide +kernel
  have hdiscussion : (discussionTag index).value? "id" = some (Anchor.discussion index).id := by
    simp [discussionTag, value_written_cons, small, Anchor.id]
  have hquestions : questionsTag.value? "id" = none := by decide +kernel
  have hframe : (frameTag layout).value? "id" = none := by cases layout <;> decide +kernel
  rw [startButton?, if_pos hstarts]
  simp only [List.filterMap_cons, hdiscussion, hquestions, hframe, List.filterMap_nil]

theorem start_leads (layout : Layout) (quiz : Quiz) :
    (entrySpots layout quiz ++ buttonSpots layout quiz ++ startSpots layout quiz).filterMap startButton? =
      if quiz.discussions ≠ [] ∧ quiz.questions ≠ [] then
        [[(Anchor.discussion quiz.discussions.length).id]] else [] := by
  have hentry (index : Nat) : (entryTag index).starts = false := by
    simp [Tag.starts, entryTag, value_written_cons, small]
  have hbutton (number : Nat) : (buttonTag quiz.discussions.isEmpty number).starts = false := by
    simp [Tag.starts, buttonTag, value_written_cons, small]
  have hentries : (entrySpots layout quiz).filterMap startButton? = [] := by
    rw [entrySpots, List.filterMap_map]
    exact List.filterMap_eq_nil_iff.2 fun x _ => if_neg (by simp [hentry])
  have hbuttons : (buttonSpots layout quiz).filterMap startButton? = [] := by
    rw [buttonSpots, List.filterMap_map]
    exact List.filterMap_eq_nil_iff.2 fun number _ => if_neg (by simp [hbutton])
  have hstarts : (startSpots layout quiz).filterMap startButton? =
      if quiz.discussions ≠ [] ∧ quiz.questions ≠ [] then
        [[(Anchor.discussion quiz.discussions.length).id]] else [] := by
    rw [startSpots, List.filterMap_flatMap]
    by_cases hq : quiz.questions = []
    · rw [if_neg fun h => h.2 hq]
      refine List.flatMap_eq_nil_iff.2 fun x _ => ?_
      simp [hq]
    · have hblock (x : Discussion × Nat) :
          (if !quiz.questions.isEmpty && x.2 == quiz.discussions.length then
            [(⟨startTag, "", [discussionTag x.2, questionsTag, frameTag layout]⟩ : Spot)]
            else []).filterMap startButton? =
          if x.2 = quiz.discussions.length then [[(Anchor.discussion x.2).id]] else [] := by
        by_cases hx : x.2 = quiz.discussions.length
        · simp [hq, hx, startButton_start]
        · simp [hx]
      rw [(congrArg (List.flatMap · _) (funext hblock) : _ = _),
        flatMap_last quiz.discussions fun index => [(Anchor.discussion index).id]]
      by_cases hd : quiz.discussions = []
      · rw [if_pos hd, if_neg fun h => h.1 hd]
      · rw [if_neg hd, if_pos ⟨hd, hq⟩]
  rw [List.filterMap_append, List.filterMap_append, hentries, hbuttons, hstarts]
  rfl

def beforeBody (options : Options) (quiz : Quiz) : String :=
  "<!DOCTYPE HTML>\n<html lang=\"en\">\n" ++
    element "head" [] ("\n  " ++ element "title" [] (plain quiz.title) ++ "\n" ++ head options quiz) ++
    "\n\n"

theorem page_around_body (options : Options) (layout : Layout) (quiz : Quiz) :
    layout.page quiz (parts options quiz) = beforeBody options quiz ++
      "<body>" ++ layout.body quiz (parts options quiz) ++ "</body>\n</html>\n" := by
  have hopen : "<!DOCTYPE HTML>\n<html lang=\"en\">\n" =
      "<!DOCTYPE HTML>\n" ++ ("<" ++ "html" ++ attributes [("lang", "en")] ++ ">" ++ "\n") := by
    decide +kernel
  have hbody : "<body>" = "<" ++ "body" ++ attributes [] ++ ">" := by
    decide +kernel
  have hclose : "</body>\n</html>\n" = "</" ++ "body" ++ ">" ++ "\n" ++ ("</" ++ "html" ++ ">") ++ "\n" := by
    decide +kernel
  unfold Layout.page Layout.html beforeBody
  rw [hopen, hbody, hclose]
  simp only [element, String.append_assoc, parts]

/-- In each layout, where what a page copies as it stands holds no tag, its elements have the names that
its script finds them by, in the order of the menu, the discussions and the questions, and no name is
given twice. The entries of the menu lead to all discussions and then to all questions. If there are both,
one button starts the quiz, and it stands in the last discussion. -/
theorem page_wired (options : Options) {quiz : Quiz} (h : Tagless quiz) {layout : Layout}
    (hl : options.layout = layout.name) :
    ∃ rendered body, page options quiz = .ok rendered ∧
      rendered.document = beforeBody options quiz ++ "<body>" ++ body ++ "</body>\n</html>\n" ∧
      ids (allSpots body) = (anchors quiz).map Anchor.id ∧
      (ids (allSpots body)).Nodup ∧
      (allSpots body).filterMap menuItem? =
        ((quiz.discussions.zipIdx 1).map fun (d, index) => (call (-index), d.heading)) ++
          (List.range' 1 quiz.questions.length).map
            (fun (number : Nat) => (call number, toString number)) ∧
      (allSpots body).filterMap startButton? =
        if quiz.discussions ≠ [] ∧ quiz.questions ≠ [] then
          [[(Anchor.discussion quiz.discussions.length).id]] else [] := by
  have hmarks := marks_allSpots (shows_body options layout h)
  have hids : ids (allSpots (layout.body quiz (parts options quiz))) = (anchors quiz).map Anchor.id := by
    rw [ids_of_marks, hmarks, names_bodyMarks]
  have hmenu (spot : Spot) (hs : (spot.tag.calls || spot.tag.starts) = false) : menuItem? spot = none := by
    rw [Bool.or_eq_false_iff] at hs
    rw [menuItem?, hs.1, if_neg fun h => nomatch h.1]
  have hstart (spot : Spot) (hs : (spot.tag.calls || spot.tag.starts) = false) :
      startButton? spot = none := by
    rw [Bool.or_eq_false_iff] at hs
    rw [startButton?, hs.2, if_neg (by decide)]
  refine ⟨_, layout.body quiz (parts options quiz), page_of_layout options quiz hl,
    page_around_body options layout quiz, hids, ?_, ?_, ?_⟩
  · rw [hids]
    exact ids_nodup quiz
  · rw [filterMap_of_marks hmenu, hmarks, leads_bodyMarks, menu_leads]
  · rw [filterMap_of_marks hstart, hmarks, leads_bodyMarks, start_leads]

/-- A discussion, and a question with a multiple choice. -/
theorem page_wired_discussion_and_question :
    let quiz : Quiz := {
      discussions := [{ heading := "Primes > 1", body := "No &lt; here." }]
      questions := [⟨"Is 2 prime?", .choice { mode := .multiple, items := [{ text := "Yes" }] }⟩] }
    Tagless quiz ∧ ∃ rendered body, page {} quiz = .ok rendered ∧
      rendered.document = beforeBody {} quiz ++ "<body>" ++ body ++ "</body>\n</html>\n" ∧
      ids (allSpots body) = ["button1", "question_number", "question-1", "question1", "Q1Form",
        "q1response1", "q1response0"] ∧
      (allSpots body).filterMap menuItem? =
        [("gotoQuestion(-1)", "Primes > 1"), ("gotoQuestion(1)", "1")] ∧
      (allSpots body).filterMap startButton? = [["question-1"]] := by
  intro quiz
  have h : Tagless quiz := {
    breadcrumb := List.not_mem_nil
    discussions := List.forall_mem_singleton.2 (by decide)
    questions := List.forall_mem_singleton.2 ⟨by decide, .choice
      (List.forall_mem_singleton.2 (by decide)) (List.forall_mem_singleton.2 (by decide))⟩ }
  have hl : ({} : Options).layout = Layout.standard.name := rfl
  obtain ⟨rendered, body, hp, hd, hids, -, hmenu, hstart⟩ := page_wired {} h hl
  refine ⟨h, rendered, body, hp, hd, hids.trans ?_, hmenu.trans ?_, hstart.trans ?_⟩
  · decide +kernel
  · decide +kernel
  · decide +kernel

end QuizPress.Render.Page
