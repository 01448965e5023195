import QuizPress.Quiz.Basic

/-! The parts of a quiz as nodes of one tree, and visitors that go through them. -/
namespace QuizPress.Quiz

inductive NodeKind where
  | quiz
  | discussion
  | question
  | choice
  | item
  | answer
deriving DecidableEq, Repr

/-- A part of a quiz. Discussions, questions and items come with their position, counted from
one, and an item with the choice it stands in. -/
inductive Node where
  | quiz (quiz : Quiz)
  | discussion (index : Nat) (discussion : Discussion)
  | question (number : Nat) (question : Question)
  | choice (choice : Choice)
  | item (index : Nat) (item : Item) (choice : Choice)
  | answer (answer : Answer)
deriving DecidableEq, Repr

def AnswerBody.node : AnswerBody → Node
  | choice c => .choice c
  | answer a => .answer a

namespace Node

def kind : Node → NodeKind
  | quiz _ => .quiz
  | discussion _ _ => .discussion
  | question _ _ => .question
  | choice _ => .choice
  | item _ _ _ => .item
  | answer _ => .answer

def position? : Node → Option Nat
  | discussion index _ => some index
  | question number _ => some number
  | item index _ _ => some index
  | quiz _ | choice _ | answer _ => none

/-- The nodes directly below a node. Discussions are below no node. -/
def children : Node → List Node
  | quiz q => (q.questions.zipIdx 1).map fun (x, number) => .question number x
  | question _ q => [q.body.node]
  | choice c => (c.items.zipIdx 1).map fun (x, index) => .item index x c
  | discussion _ _ | item _ _ _ | answer _ => []

def height : Node → Nat
  | quiz _ => 3
  | question _ _ => 2
  | choice _ => 1
  | discussion _ _ | item _ _ _ | answer _ => 0

theorem height_lt_of_mem_children {parent child : Node} (h : child ∈ parent.children) :
    child.height < parent.height := by
  cases parent with
  | quiz q =>
    obtain ⟨_, _, rfl⟩ := List.mem_map.1 h
    simp [height]
  | question n q =>
    rw [children, List.mem_singleton] at h
    subst h
    cases q.body <;> simp [AnswerBody.node, height]
  | choice c =>
    obtain ⟨_, _, rfl⟩ := List.mem_map.1 h
    simp [height]
  | discussion _ _ => cases h
  | item _ _ _ => cases h
  | answer _ => cases h

end Node

def discussionNodes (quiz : Quiz) : List Node :=
  (quiz.discussions.zipIdx 1).map fun (discussion, index) => .discussion index discussion

/-- What someone does who goes through a quiz: a method for each kind of node, which changes a state.
Where there may be nodes below, the method is given the walk through them, and without a method of its own
a kind is only walked through. The method for any node is given what is done at nodes of its kind, and the
walk as well. -/
structure Methods (σ : Type) where
  quiz : Quiz → (σ → σ) → σ → σ := fun _ walk => walk
  discussion : Nat → Discussion → σ → σ := fun _ _ => id
  question : Nat → Question → (σ → σ) → σ → σ := fun _ _ walk => walk
  choice : Choice → (σ → σ) → σ → σ := fun _ walk => walk
  item : Nat → Item → Choice → σ → σ := fun _ _ _ => id
  answer : Answer → σ → σ := fun _ => id
  node : Node → (σ → σ) → (σ → σ) → σ → σ := fun _ dispatch _ => dispatch

namespace Methods
variable {σ : Type}

def dispatch (m : Methods σ) (node : Node) (walk : σ → σ) : σ → σ :=
  match node with
  | .quiz quiz => m.quiz quiz walk
  | .discussion index discussion => m.discussion index discussion
  | .question number question => m.question number question walk
  | .choice choice => m.choice choice walk
  | .item index item choice => m.item index item choice
  | .answer answer => m.answer answer

def reach (m : Methods σ) (node : Node) (walk : σ → σ) : σ → σ :=
  m.node node (m.dispatch node walk) walk

def visit (m : Methods σ) (node : Node) : σ → σ :=
  m.reach node fun s => node.children.attach.foldl (fun s ⟨child, _⟩ => m.visit child s) s
termination_by node.height
decreasing_by exact Node.height_lt_of_mem_children ‹_›

def visitAll (m : Methods σ) (nodes : List Node) (s : σ) : σ :=
  nodes.foldl (fun s node => m.visit node s) s

/-- Visits the discussions of a quiz in order; a visit to the quiz does not come by them. -/
def walkDiscussions (m : Methods σ) (quiz : Quiz) : σ → σ :=
  m.visitAll (discussionNodes quiz)

end Methods

/-- Someone who takes notes: what is noted at a node, and whether the nodes below are visited as well. -/
structure Visitor (ω : Type) where
  note : Node → List ω
  enters : Node → Bool

namespace Visitor
variable {ω : Type}

def around (v : Visitor ω) (node : Node) (walk : List ω → List ω) (notes : List ω) : List ω :=
  let noted := notes ++ v.note node
  if v.enters node then walk noted else noted

def methods (v : Visitor ω) : Methods (List ω) where
  quiz quiz := v.around (.quiz quiz)
  discussion index discussion := v.around (.discussion index discussion) id
  question number question := v.around (.question number question)
  choice choice := v.around (.choice choice)
  item index item choice := v.around (.item index item choice) id
  answer answer := v.around (.answer answer) id

def visitQuiz (v : Visitor ω) (quiz : Quiz) : List ω := v.methods.visit (.quiz quiz) []

def visitDiscussions (v : Visitor ω) (quiz : Quiz) : List ω := v.methods.walkDiscussions quiz []

end Visitor

end QuizPress.Quiz
