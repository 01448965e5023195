import QuizPress.Proofs.Render.Drawing
import QuizPress.Proofs.Render.Page

/-! Pages of the layouts that there are: nothing but the name of the layout can keep a page from being
rendered, what is said of it is said of its questions, and all layouts are frames around the same parts. -/
namespace QuizPress.Render.Page
open Quiz

def layoutNames : List String := ["standard", "course"]

theorem layout_of_mem {name : String} (h : name ∈ layoutNames) : ∃ layout : Layout, name = layout.name := by
  rw [layoutNames, List.mem_pair] at h
  rcases h with rfl | rfl
  · exact ⟨.standard, rfl⟩
  · exact ⟨.course, rfl⟩

theorem page_of_unknown {options : Options} (h : options.layout ∉ layoutNames) (quiz : Quiz) :
    page options quiz = .error (.unknownLayout options.layout) := by
  rw [layoutNames, List.mem_pair, not_or] at h
  rw [page, Layout.ofName, if_neg h.1, if_neg h.2]
  rfl

/-- The questions with a choice of an unknown mode in their order, each once, with their numbers counted from
one and the names of the modes. -/
structure Reports (quiz : Quiz) (reports : List (Nat × String)) : Prop where
  ordered : reports.Pairwise fun r s => r.1 < s.1
  mem_iff : ∀ number name, (number, name) ∈ reports ↔ 0 < number ∧ ∃ question choice,
    quiz.questions[number - 1]? = some question ∧ question.body = .choice choice ∧
      choice.mode = .other name

def unknownMode? (question : Question) : Option String :=
  match question.body with
  | .choice { mode := .other name, .. } => some name
  | _ => none

def unknownModes (quiz : Quiz) : List (Nat × String) :=
  (quiz.questions.zipIdx 1).filterMap fun (question, number) =>
    (unknownMode? question).map (number, ·)

theorem unknownMode_eq_some {question : Question} {name : String} :
    unknownMode? question = some name ↔
      ∃ choice, question.body = .choice choice ∧ choice.mode = .other name := by
  obtain ⟨text, body⟩ := question
  rw [unknownMode?]
  constructor
  · intro h
    split at h
    · cases h
      exact ⟨_, ‹_›, rfl⟩
    · cases h
  · rintro ⟨⟨mode, columns, items⟩, rfl, rfl⟩
    rfl

theorem reports_unknownModes (quiz : Quiz) : Reports quiz (unknownModes quiz) where
  ordered := by
    have hnumbers : ((quiz.questions.zipIdx 1).map Prod.snd).Pairwise (· < ·) := by
      rw [List.zipIdx_map_snd]
      exact List.pairwise_lt_range'
    rw [List.pairwise_map] at hnumbers
    apply List.pairwise_filterMap.2
    apply hnumbers.imp
    intro x y hlt r hr s hs
    obtain ⟨_, _, rfl⟩ := Option.map_eq_some_iff.1 hr
    obtain ⟨_, _, rfl⟩ := Option.map_eq_some_iff.1 hs
    exact hlt
  mem_iff number name := by
    rw [unknownModes, List.mem_filterMap]
    constructor
    · rintro ⟨⟨question, _⟩, hmem, hr⟩
      obtain ⟨_, hname, he⟩ := Option.map_eq_some_iff.1 hr
      cases he
      obtain ⟨hpos, hget⟩ := List.mk_mem_zipIdx_iff_le_and_getElem?_sub.1 hmem
      obtain ⟨choice, hbody, hmode⟩ := unknownMode_eq_some.1 hname
      exact ⟨hpos, question, choice, hget, hbody, hmode⟩
    · rintro ⟨hpos, question, choice, hget, hbody, hmode⟩
      have hname := unknownMode_eq_some.2 ⟨choice, hbody, hmode⟩
      exact ⟨(question, number), List.mk_mem_zipIdx_iff_le_and_getElem?_sub.2 ⟨hpos, hget⟩,
        Option.map_eq_some_iff.2 ⟨name, hname, rfl⟩⟩

theorem warnings_eq (quiz : Quiz) : warnings quiz =
    (unknownModes quiz).map fun (number, name) => unknownChoice number name := by
  have hone (question : Question) (number : Nat) :
      warnings? question number = (unknownMode? question).map (unknownChoice number) := by
    obtain ⟨text, body⟩ := question
    cases body with
    | choice choice =>
      obtain ⟨mode, columns, items⟩ := choice
      cases mode <;> rfl
    | answer answer => rfl
  rw [warnings, unknownModes, List.map_filterMap]
  apply List.filterMap_congr
  rintro ⟨question, number⟩ -
  change warnings? question number = Option.map _ (Option.map _ (unknownMode? question))
  rw [hone, Option.map_map]
  rfl

/-- Texts that stand in another one, each behind the one before. -/
inductive Holds : List String → String → Prop where
  | nothing (s : String) : Holds [] s
  | text {texts : List String} {rest : String} (before s : String) (h : Holds texts rest) :
    Holds (s :: texts) (before ++ s ++ rest)

section
variable {texts texts' : List String} {s t : String}

theorem Holds.after (h : Holds texts s) (before : String) : Holds texts (before ++ s) := by
  cases h with
  | nothing => exact .nothing _
  | text lead part h =>
    rw [← String.append_assoc, ← String.append_assoc]
    exact .text (before ++ lead) part h

theorem Holds.append (h : Holds texts s) (h' : Holds texts' t) : Holds (texts ++ texts') (s ++ t) := by
  induction h with
  | nothing s => exact h'.after s
  | text before part _ ih =>
    rw [String.append_assoc]
    exact .text before part ih

theorem Holds.before (h : Holds texts s) (behind : String) : Holds texts (s ++ behind) := by
  have hs := h.append (.nothing behind)
  rwa [List.append_nil] at hs

theorem Holds.element (h : Holds texts s) (name : String) (values : List (String × String)) :
    Holds texts (Page.element name values s) :=
  (((h.after ("<" ++ name ++ attributes values ++ ">")).before "</").before name).before ">"

theorem holds_self (s : String) : Holds [s] s := by
  have h := Holds.text "" s (.nothing "")
  rwa [String.empty_append, String.append_empty] at h

end

def Parts.texts (parts : Parts) : List String :=
  [parts.head, parts.sideMenu, parts.quizHeader, parts.questions]

section
variable (parts : Parts) (layout : Layout) (quiz : Quiz)

theorem holds_columns :
    Holds [parts.sideMenu, parts.quizHeader, parts.questions] (Layout.columns parts) := by
  have hmenu := (((holds_self parts.sideMenu).after "\n").before "    ").element "div"
    [("class", "side_menu")]
  have hquestions := ((((holds_self parts.quizHeader).after "\n").append
    (holds_self parts.questions)).before "    ").element "div" [("class", "quiz_questions")]
  exact ((((hmenu.after "    ").before "\n").before "    ").append hquestions).before "\n"

theorem holds_body :
    Holds [parts.sideMenu, parts.quizHeader, parts.questions] (layout.body quiz parts) := by
  have h := holds_columns parts
  cases layout with
  | standard => exact ((((h.after "\n").before "  ").element "div" [("class", "quiz_page")]).after _).before "\n"
  | course =>
    exact ((((h.after _).before "  ").element "div" [("class", "quizpage")]).after "\n  ").before "\n"

/-- Every layout is a frame around the parts. -/
theorem holds_page : Holds parts.texts (layout.page quiz parts) := by
  have hhead := ((holds_self parts.head).after
    ("\n  " ++ element "title" [] (plain quiz.title) ++ "\n")).element "head" []
  have hbody := (holds_body parts layout quiz).element "body" []
  have hpage := ((((hhead.after "\n").before "\n\n").append hbody).before "\n").element "html"
    [("lang", "en")]
  exact (hpage.after "<!DOCTYPE HTML>\n").before "\n"

end

/-- A page is rendered if and only if there is a layout of the name, whatever the quiz is. What is said of it
is said of each question with an unknown mode, once and in order, and is what a walk through the quiz tells. In
two layouts a quiz has the same files beside it, the same is said of it, and both documents have the same head,
side menu and header, and behind them what a walk draws. -/
theorem page_in_layouts (options : Options) (quiz : Quiz) :
    ((∃ error, render .html options quiz = .error error) ↔ options.layout ∉ layoutNames) ∧
    (∀ error, render .html options quiz = .error error → error = .unknownLayout options.layout) ∧
    (∀ rendered, render .html options quiz = .ok rendered →
      rendered.warnings = (draw quiz).warnings ∧ ∃ reports, Reports quiz reports ∧
        rendered.warnings = reports.map fun (number, name) =>
          "question " ++ toString number ++ ": unknown choice type '" ++ name ++ "'") ∧
    ∀ layout, options.layout ∈ layoutNames → layout ∈ layoutNames → ∃ rendered other,
      render .html options quiz = .ok rendered ∧ render .html { options with layout } quiz = .ok other ∧
      other.warnings = rendered.warnings ∧ other.artifacts = rendered.artifacts ∧
      let texts := [head options quiz, sideMenu quiz, quizHeader quiz, (draw quiz).text]
      Holds texts rendered.document ∧ Holds texts other.document := by
  obtain ⟨number, hdraw⟩ := draw_eq quiz
  have hok {options : Options} (h : options.layout ∈ layoutNames) : ∃ layout : Layout,
      render .html options quiz =
        .ok ⟨layout.page quiz (parts options quiz), artifacts quiz, warnings quiz⟩ := by
    obtain ⟨layout, hl⟩ := layout_of_mem h
    exact ⟨layout, page_of_layout options quiz hl⟩
  refine ⟨⟨?_, fun h => ⟨_, page_of_unknown h quiz⟩⟩, ?_, ?_, ?_⟩
  · rintro ⟨error, he⟩ h
    obtain ⟨layout, hr⟩ := hok h
    cases hr.symm.trans he
  · intro error he
    by_cases h : options.layout ∈ layoutNames
    · obtain ⟨layout, hr⟩ := hok h
      cases hr.symm.trans he
    · cases (page_of_unknown h quiz).symm.trans he
      rfl
  · intro rendered hr
    by_cases h : options.layout ∈ layoutNames
    · obtain ⟨layout, hr'⟩ := hok h
      cases hr'.symm.trans hr
      rw [hdraw]
      exact ⟨rfl, unknownModes quiz, reports_unknownModes quiz, warnings_eq quiz⟩
    · cases (page_of_unknown h quiz).symm.trans hr
  · intro layout h h'
    obtain ⟨frame, hr⟩ := hok h
    obtain ⟨frame', hr'⟩ := hok (show ({ options with layout } : Options).layout ∈ layoutNames from h')
    refine ⟨_, _, hr, hr', rfl, rfl, ?_⟩
    -- the layout is no part of what the parts are made of
    exact ⟨holds_page (parts options quiz) frame quiz, holds_page (parts options quiz) frame' quiz⟩

/-- A choice of an unknown mode that has no items, between questions of which nothing is to say. -/
theorem page_in_layouts_no_items :
    let quiz : Quiz := {
      questions := [{ body := .answer { value := "7" } }, { body := .choice { mode := .other "ranked" } },
        { body := .choice { items := [{ text := "p" }] } }] }
    render .html { layout := "fancy" } quiz = .error (.unknownLayout "fancy") ∧
    ∃ rendered other, render .html {} quiz = .ok rendered ∧
      render .html { layout := "course" } quiz = .ok other ∧
      rendered.warnings = ["question 2: unknown choice type 'ranked'"] ∧
      other.warnings = ["question 2: unknown choice type 'ranked'"] ∧
      Holds [head {} quiz, sideMenu quiz, quizHeader quiz, (draw quiz).text] other.document := by
  intro quiz
  obtain ⟨hiff, honly, -, -⟩ := page_in_layouts { layout := "fancy" } quiz
  obtain ⟨error, he⟩ := hiff.2 (by decide)
  obtain ⟨-, -, hsaid, hframes⟩ := page_in_layouts {} quiz
  obtain ⟨rendered, other, hr, hr', hw, -, -, hother⟩ := hframes "course" (by decide) (by decide)
  obtain ⟨number, hdraw⟩ := draw_eq quiz
  have hwarnings : rendered.warnings = ["question 2: unknown choice type 'ranked'"] := by
    rw [(hsaid rendered hr).1, hdraw]
    change warnings quiz = _
    decide +kernel
  exact ⟨honly error he ▸ he, rendered, other, hr, hr', hwarnings, hw.trans hwarnings, hother⟩

end QuizPress.Render.Page
