import QuizPress.Proofs.Quiz.Visits
import QuizPress.Quiz.Outline
import QuizPress.Render.Page.AnswerKey
import QuizPress.Render.Paper
import QuizPress.Render.Source

/-! What is written on the way through a quiz stands behind all that is written before, and of each node it
is a text of its own around the texts of the nodes below. So a document is its head, a text for each
discussion, a text for each question, and its end. -/
namespace QuizPress.Render
open Quiz Methods

/-- A step puts this text behind what is written so far, whatever that is. -/
def Appends (step : String → String) (s : String) : Prop :=
  ∀ out, step out = out ++ s

section
variable {α : Type} {f g : String → String} {s t : String}

theorem appends_const (s : String) : Appends (· ++ s) s := fun _ => rfl

theorem Appends.andThen (hf : Appends f s) (hg : Appends g t) : Appends (g ∘ f) (s ++ t) :=
  fun out => by rw [Function.comp, hg, hf, String.append_assoc]

/-- A loop appends what its rounds append. -/
theorem foldl_appends {step : α → String → String} {text : α → String} (xs : List α)
    (h : ∀ x ∈ xs, Appends (step x) (text x)) (out : String) :
    xs.foldl (fun out x => step x out) out = out ++ String.join (xs.map text) := by
  induction xs generalizing out with
  | nil => rw [List.map_nil, String.join_nil, String.append_empty, List.foldl_nil]
  | cons x xs ih =>
    have hx := h x List.mem_cons_self out
    have hxs := ih (fun x hx => h x (List.mem_cons_of_mem _ hx)) (step x out)
    rw [List.foldl_cons, hxs, hx, List.map_cons, String.join_cons, String.append_assoc]

theorem foldl_lines {step : α → String → String} {text : α → String} (xs : List α)
    (h : ∀ x, Appends (step x) (text x)) (out : String) :
    xs.foldl (fun out x => step x out ++ "\n") out = out ++ String.join (xs.map fun x => text x ++ "\n") :=
  foldl_appends xs (fun x _ => (h x).andThen (appends_const "\n")) out

/-- What does not depend on positions. -/
theorem map_zipIdx {f : α × Nat → String} {text : α → String} (h : ∀ x, f x = text x.1) (xs : List α)
    (n : Nat) : (xs.zipIdx n).map f = xs.map text := by
  have hf : f = text ∘ Prod.fst := funext h
  rw [hf, ← List.map_map, List.zipIdx_map_fst]

end

end QuizPress.Render

namespace QuizPress.Quiz
open Render

def Node.text (frame : Node → String → String) (node : Node) : String :=
  frame node (String.join (node.children.attach.map fun ⟨child, _⟩ => child.text frame))
termination_by node.height
decreasing_by exact Node.height_lt_of_mem_children ‹_›

theorem Node.text_eq (frame : Node → String → String) (node : Node) :
    node.text frame = frame node (String.join (node.children.map (Node.text frame))) := by
  rw [Node.text]
  simp

namespace Methods
variable {m : Methods String} {frame : Node → String → String}

/-- Methods that append, at each node, a text around what the walk below appends. -/
def Frames (m : Methods String) (frame : Node → String → String) : Prop :=
  ∀ node walk s, Appends walk s → Appends (m.reach node walk) (frame node s)

/-- A step that appends at one node is a visit that appends: by induction from below. -/
theorem Frames.appends_visit (h : m.Frames frame) (node : Node) :
    Appends (m.visit node) (node.text frame) := by
  induction node using Node.induction with
  | below node ih =>
    rw [visit_eq, Node.text_eq]
    exact h node _ _ (foldl_appends node.children ih)

/-- Where the texts of discussions and questions are independent of their positions, a walk writes the texts
of all discussions and then those of all questions. -/
theorem Frames.visit_quiz (h : m.Frames frame) {discussion : Discussion → String}
    {question : Question → String}
    (hdiscussion : ∀ index d, (Node.discussion index d).text frame = discussion d)
    (hquestion : ∀ number q, (Node.question number q).text frame = question q)
    (hquiz : ∀ quiz s, frame (.quiz quiz) s = s) (quiz : Quiz) (out : String) :
    m.visit (.quiz quiz) (m.walkDiscussions quiz out) = out ++
      String.join (quiz.discussions.map discussion) ++ String.join (quiz.questions.map question) := by
  have hdiscussions : (discussionNodes quiz).map (Node.text frame) = quiz.discussions.map discussion := by
    rw [discussionNodes, List.map_map]
    exact map_zipIdx (fun d => hdiscussion d.2 d.1) _ _
  have hquestions : (Node.quiz quiz).children.map (Node.text frame) = quiz.questions.map question := by
    rw [Node.children, List.map_map]
    exact map_zipIdx (fun q => hquestion q.2 q.1) _ _
  have hwalk : Appends (m.walkDiscussions quiz) _ :=
    foldl_appends (discussionNodes quiz) fun node _ => h.appends_visit node
  have hvisit := h.appends_visit (.quiz quiz)
  rw [Node.text_eq, hquiz, hquestions] at hvisit
  rw [hvisit, hwalk, hdiscussions]

end Methods

end QuizPress.Quiz

namespace QuizPress.Render
open Quiz Methods

/-- The texts of the nodes of a choice's items, which do not depend on their positions. -/
theorem text_choice {frame : Node → String → String} {item : Item → String} (c : Choice)
    (h : ∀ index i, (Node.item index i c).text frame = item i) :
    (Node.choice c).text frame = frame (.choice c) (String.join (c.items.map item)) := by
  have hitems : (Node.choice c).children.map (Node.text frame) = c.items.map item := by
    rw [Node.children, List.map_map]
    exact map_zipIdx (fun i => h i.2 i.1) _ _
  rw [Node.text_eq, hitems]

theorem text_body (frame : Node → String → String) (number : Nat) (q : Question) :
    (Node.question number q).text frame = frame (.question number q) (q.body.node.text frame) := by
  rw [Node.text_eq, Node.children, List.map_singleton, String.join_cons, String.join_nil,
    String.append_empty]

namespace Source

def frame : Node → String → String
  | .quiz _, s => s
  | .discussion _ d, _ => discussion d
  | .question _ q, s => questionOpening q ++ s ++ questionClosing
  | .choice c, s => choiceOpening c ++ s ++ choiceClosing
  | .item _ i _, _ => item i
  | .answer a, _ => answer a

def choice (c : Choice) : String :=
  choiceOpening c ++ String.join (c.items.map item) ++ choiceClosing

def question (q : Question) : String :=
  questionOpening q ++
    (match q.body with
      | .choice c => choice c
      | .answer a => answer a) ++
    questionClosing

theorem frames_writing : writing.Frames frame := by
  intro node walk s h
  cases node with
  | quiz q => exact h
  | discussion index d => exact appends_const (discussion d)
  | question number q => exact ((appends_const (questionOpening q)).andThen h).andThen (appends_const _)
  | choice c => exact ((appends_const (choiceOpening c)).andThen h).andThen (appends_const _)
  | item index i c => exact appends_const (item i)
  | answer a => exact appends_const (answer a)

theorem text_discussion (index : Nat) (d : Discussion) :
    (Node.discussion index d).text frame = discussion d :=
  Node.text_eq frame (.discussion index d)

theorem text_item (index : Nat) (i : Item) (c : Choice) : (Node.item index i c).text frame = item i :=
  Node.text_eq frame (.item index i c)

theorem text_question (number : Nat) (q : Question) :
    (Node.question number q).text frame = question q := by
  rw [text_body, frame, question]
  cases q.body with
  | choice c =>
    rw [AnswerBody.node, text_choice c fun index i => text_item index i c]
    rfl
  | answer a =>
    rw [AnswerBody.node, Node.text_eq]
    rfl

/-- A question is written behind anything in the same way. -/
theorem appends_question (number : Nat) (q : Question) :
    Appends (writing.visit (.question number q)) (question q) :=
  text_question number q ▸ frames_writing.appends_visit _

theorem document_written (quiz : Quiz) : document quiz =
    head quiz ++ String.join (quiz.discussions.map discussion) ++
      String.join (quiz.questions.map question) ++ "</quiz>\n" := by
  rw [document, frames_writing.visit_quiz text_discussion text_question fun _ _ => rfl]

end Source

namespace Paper

def frame : Node → String → String
  | .quiz _, s => s
  | .discussion _ d, _ => discussion d
  | .question _ q, s => questionOpening q ++ s
  | .choice _, s => "\\beginparts\n" ++ s ++ "\\endparts\n"
  | .item _ i _, _ => item i
  | .answer _, _ => answerBox

def question (q : Question) : String :=
  questionOpening q ++
    match q.body with
    | .choice c => "\\beginparts\n" ++ String.join (c.items.map item) ++ "\\endparts\n"
    | .answer _ => answerBox

theorem frames_writing : writing.Frames frame := by
  intro node walk s h
  cases node with
  | quiz q => exact h
  | discussion index d => exact appends_const (discussion d)
  | question number q => exact (appends_const (questionOpening q)).andThen h
  | choice c => exact ((appends_const "\\beginparts\n").andThen h).andThen (appends_const _)
  | item index i c => exact appends_const (item i)
  | answer a => exact appends_const answerBox

theorem text_discussion (index : Nat) (d : Discussion) :
    (Node.discussion index d).text frame = discussion d :=
  Node.text_eq frame (.discussion index d)

theorem text_item (index : Nat) (i : Item) (c : Choice) : (Node.item index i c).text frame = item i :=
  Node.text_eq frame (.item index i c)

theorem text_question (number : Nat) (q : Question) :
    (Node.question number q).text frame = question q := by
  rw [text_body, frame, question]
  cases q.body with
  | choice c =>
    rw [AnswerBody.node, text_choice c fun index i => text_item index i c]
    rfl
  | answer a =>
    rw [AnswerBody.node, Node.text_eq]
    rfl

theorem appends_question (number : Nat) (q : Question) :
    Appends (writing.visit (.question number q)) (question q) :=
  text_question number q ▸ frames_writing.appends_visit _

theorem document_written (answerSlots : Nat) (quiz : Quiz) : document answerSlots quiz =
    head answerSlots quiz ++ String.join (quiz.discussions.map discussion) ++
      String.join (quiz.questions.map question) ++ "\\bye\n" := by
  rw [document, frames_writing.visit_quiz text_discussion text_question fun _ _ => rfl]

end Paper

namespace Page

def bodyKey (position : Nat) : AnswerBody → String
  | .answer a =>
    keyed position ++ ".value=" ++ valueLiteral a.value ++ ";\n" ++
      keyed position ++ ".type=\"input\";\n"
  | .choice c =>
    keyed position ++ ".type=\"" ++ scriptText c.mode.name ++ "\";\n" ++
      String.join (c.items.zipIdx.map fun (item, index) => itemKey position item index)

def questionKey (position : Nat) (question : Question) : String :=
  keyed position ++ "=new Array();\n" ++ bodyKey position question.body

theorem appends_writeKey (position : Nat) (question : Question) :
    Appends (writeKey position question) (questionKey position question) := by
  obtain ⟨text, body⟩ := question
  intro out
  cases body with
  | answer a => simp only [writeKey, questionKey, bodyKey, String.append_assoc]
  | choice c =>
    have hitems := foldl_appends c.items.zipIdx
      fun x _ => appends_const (itemKey position x.1 x.2)
    simp only [writeKey, questionKey, bodyKey]
    rw [hitems]
    simp only [String.append_assoc]

theorem answerKey_eq (quiz : Quiz) : answerKey quiz =
    String.join (quiz.questions.zipIdx.map fun (question, position) => questionKey position question) := by
  rw [answerKey, foldl_appends _ fun x _ => appends_writeKey x.2 x.1, String.empty_append]

end Page

end QuizPress.Render

namespace QuizPress.Quiz
open Render

theorem Discussion.appends_write (discussion : Discussion) :
    Appends discussion.write discussion.outline := by
  intro out
  simp only [Discussion.write, Discussion.outline, String.empty_append, String.append_assoc]

theorem Item.appends_write (item : Item) : Appends item.write item.outline := by
  intro out
  simp only [Item.write, Item.outline, String.empty_append]
  split
  · simp only [String.append_assoc]
  · simp only [String.append_assoc]

theorem Choice.appends_write (choice : Choice) : Appends choice.write choice.outline := by
  intro out
  rw [Choice.outline, Choice.write, Choice.write, foldl_lines choice.items Item.appends_write,
    foldl_lines choice.items Item.appends_write]
  simp only [String.empty_append, String.append_assoc]

theorem Answer.appends_write (answer : Answer) : Appends answer.write answer.outline := by
  intro out
  simp only [Answer.write, Answer.outline, String.empty_append, String.append_assoc]

theorem Question.appends_write (question : Question) : Appends question.write question.outline := by
  obtain ⟨text, body⟩ := question
  intro out
  cases body with
  | choice c =>
    simp only [Question.write, Question.outline, AnswerBody.write, c.appends_write _,
      String.empty_append, String.append_assoc]
  | answer a =>
    simp only [Question.write, Question.outline, AnswerBody.write, a.appends_write _,
      String.empty_append, String.append_assoc]

end QuizPress.Quiz

namespace QuizPress
open Quiz Render

theorem Quiz.outline_eq (quiz : Quiz) : quiz.outline = "Quiz: " ++ quiz.title ++ "\n" ++
    String.join (quiz.discussions.map fun discussion => discussion.outline ++ "\n") ++
    String.join (quiz.questions.map fun question => question.outline ++ "\n") := by
  simp only [outline, write]
  rw [foldl_lines _ Question.appends_write, foldl_lines _ Discussion.appends_write, String.empty_append]

end QuizPress
