import Mathlib.Data.List.Basic
import QuizPress.Quiz.Node

/-! Visits to a quiz: a visitor comes to the nodes in preorder, without those below nodes that it does not
enter, whichever of its methods it has of its own. -/
namespace QuizPress.Quiz

namespace Node

/-- What holds of a node if it holds of those directly below it holds of every node. -/
@[elab_as_elim]
theorem induction {P : Node → Prop} (below : ∀ node, (∀ child ∈ node.children, P child) → P node)
    (node : Node) : P node :=
  below node fun child _ => induction below child
termination_by node.height
decreasing_by exact height_lt_of_mem_children ‹_›

/-- A node and all below it in preorder, each with the nodes above it, the nearest first. -/
def trails (node : Node) (above : List Node) : List (Node × List Node) :=
  (node, above) :: node.children.attach.flatMap fun ⟨child, _⟩ => child.trails (node :: above)
termination_by node.height
decreasing_by exact height_lt_of_mem_children ‹_›

theorem trails_eq (node : Node) (above : List Node) : node.trails above =
    (node, above) :: node.children.flatMap fun child => child.trails (node :: above) := by
  rw [trails]
  simp

/-- The nodes from a node down, without those that are below a node which is not entered. -/
def reached (enters : Node → Bool) (node : Node) (above : List Node) : List Node :=
  ((node.trails above).filter fun trail => trail.2.all enters).map Prod.fst

variable {enters : Node → Bool}

theorem reached_cons (node : Node) (above : List Node) : reached enters node above =
    (if above.all enters then [node] else []) ++
      node.children.flatMap fun child => reached enters child (node :: above) := by
  rw [reached, trails_eq, List.filter_cons, List.filter_flatMap]
  cases above.all enters <;> simp [List.map_flatMap, reached]

/-- What is below a node that is not entered is not reached, and it matters nothing else what is above. -/
theorem reached_above (node : Node) (above : List Node) :
    reached enters node above = if above.all enters then reached enters node [] else [] := by
  induction node using Node.induction generalizing above with
  | below node ih =>
    rw [reached_cons, reached_cons node []]
    have hchildren (above : List Node) : (node.children.flatMap fun child =>
        reached enters child (node :: above)) = if (node :: above).all enters then
          node.children.flatMap fun child => reached enters child [] else [] := by
      rw [List.flatMap_congr fun child hchild => ih child hchild (node :: above)]
      split <;> simp
    rw [hchildren, hchildren]
    cases h : above.all enters <;> simp [h]

theorem reached_eq (node : Node) : reached enters node [] =
    node :: if enters node then node.children.flatMap (reached enters · []) else [] := by
  rw [reached_cons, List.flatMap_congr fun child _ => reached_above child [node]]
  cases h : enters node <;> simp [h]

theorem reached_leaf {node : Node} (h : node.children = []) : reached enters node [] = [node] := by
  rw [reached_eq, h]
  simp

theorem reached_choice (c : Choice) : reached enters (.choice c) [] =
    .choice c :: if enters (.choice c) then
      (c.items.zipIdx 1).map fun (x, index) => .item index x c
    else [] := by
  rw [reached_eq, children, List.flatMap_map, List.map_eq_flatMap]
  congr 2
  apply List.flatMap_congr
  rintro ⟨x, index⟩ -
  exact reached_leaf rfl

/-- The nodes of a quiz that are reached: questions with their numbers, and items with their positions in
their own choices. -/
theorem reached_quiz (q : Quiz) : reached enters (.quiz q) [] =
    .quiz q :: if enters (.quiz q) then
      (q.questions.zipIdx 1).flatMap fun (x, number) =>
        .question number x :: if enters (.question number x) then
          match x.body with
          | .choice c => .choice c :: if enters (.choice c) then
              (c.items.zipIdx 1).map fun (x, index) => .item index x c
            else []
          | .answer a => [.answer a]
        else []
    else [] := by
  rw [reached_eq, children, List.flatMap_map]
  congr 2
  apply List.flatMap_congr
  rintro ⟨x, number⟩ -
  dsimp only
  rw [reached_eq, children, List.flatMap_singleton]
  cases x.body with
  | choice c => rw [AnswerBody.node, reached_choice]
  | answer a => rw [AnswerBody.node, reached_leaf rfl]

theorem kind_of_mem_children {node child : Node} (h : child ∈ node.children) :
    child.kind ≠ .discussion := by
  cases node with
  | quiz q =>
    obtain ⟨_, _, rfl⟩ := List.mem_map.1 h
    nofun
  | question n x =>
    rw [List.mem_singleton.1 h]
    cases x.body <;> nofun
  | choice c =>
    obtain ⟨_, _, rfl⟩ := List.mem_map.1 h
    nofun
  | discussion _ _ => cases h
  | item _ _ _ => cases h
  | answer _ => cases h

/-- Discussions are reached from nowhere. -/
theorem kind_of_mem_reached {node n : Node} (h : n ∈ reached enters node [])
    (hkind : node.kind ≠ .discussion) : n.kind ≠ .discussion := by
  induction node using Node.induction with
  | below node ih =>
    rw [reached_eq, List.mem_cons] at h
    rcases h with rfl | h
    · exact hkind
    · split at h
      · obtain ⟨child, hchild, h⟩ := List.mem_flatMap.1 h
        exact ih child hchild h (kind_of_mem_children hchild)
      · cases h

end Node

namespace Methods
variable {σ ω : Type} {m : Methods σ} {log : σ → List ω} {v : Visitor ω}

theorem visit_eq (m : Methods σ) (node : Node) :
    m.visit node = m.reach node (m.visitAll node.children) := by
  rw [visit]
  congr 1
  funext s
  rw [visitAll]
  simp

/-- The log of the methods grows as a visitor takes notes: at each node by its notes, and then, if it is
entered, by what the walk below adds. -/
def Keeps (m : Methods σ) (log : σ → List ω) (v : Visitor ω) : Prop :=
  ∀ (node : Node) (walk : σ → σ) (parts : List ω), (∀ s, log (walk s) = log s ++ parts) →
    (node.children = [] → parts = []) →
    ∀ s, log (m.reach node walk s) = log s ++ (v.note node ++ if v.enters node then parts else [])

theorem log_visitAll {nodes : List Node} {notes : Node → List ω}
    (h : ∀ node ∈ nodes, ∀ s, log (m.visit node s) = log s ++ notes node) (s : σ) :
    log (m.visitAll nodes s) = log s ++ nodes.flatMap notes := by
  induction nodes generalizing s with
  | nil => simp [visitAll]
  | cons node nodes ih =>
    have hnode := h node List.mem_cons_self s
    have hnodes := ih (fun node hmem => h node (List.mem_cons_of_mem _ hmem)) (m.visit node s)
    rw [visitAll] at hnodes
    rw [visitAll, List.foldl_cons, hnodes, hnode, List.flatMap_cons, List.append_assoc]

/-- A step of the log at one node is a step of the whole visit: by induction from below. -/
theorem Keeps.log_visit (h : m.Keeps log v) (node : Node) (s : σ) :
    log (m.visit node s) = log s ++ (Node.reached v.enters node []).flatMap v.note := by
  induction node using Node.induction generalizing s with
  | below node ih =>
    have hwalk := log_visitAll ih
    rw [visit_eq, h node _ _ hwalk (by rintro h; rw [h]; rfl), Node.reached_eq, List.flatMap_cons]
    split <;> simp [List.flatMap_assoc]

theorem Keeps.log_walkDiscussions (h : m.Keeps log v) (quiz : Quiz) (s : σ) :
    log (m.walkDiscussions quiz s) = log s ++ (discussionNodes quiz).flatMap v.note := by
  apply log_visitAll
  intro node hnode s
  obtain ⟨_, _, rfl⟩ := List.mem_map.1 hnode
  rw [h.log_visit, Node.reached_leaf rfl, List.flatMap_singleton]

/-- With methods for items and answers alone, a visit to a quiz comes to each of these once and in order,
and to an item with its own choice. -/
theorem visit_leaves (item : Nat → Item → Choice → σ → σ) (answer : Answer → σ → σ) (quiz : Quiz)
    (s : σ) : Methods.visit { item, answer } (.quiz quiz) s =
      quiz.questions.foldl (fun s question => match question.body with
        | .choice c => (c.items.zipIdx 1).foldl (fun s (x, index) => item index x c s) s
        | .answer a => answer a s) s := by
  let m : Methods σ := { item, answer }
  have hchoice (c : Choice) (s : σ) : m.visit (.choice c) s =
      (c.items.zipIdx 1).foldl (fun s (x, index) => item index x c s) s := by
    have hitem (s : σ) (x : Item × Nat) : m.visit (.item x.2 x.1 c) s = item x.2 x.1 c s := by
      rw [visit_eq]
      rfl
    rw [visit_eq]
    simp only [← hitem]
    exact List.foldl_map
  have hquestion (s : σ) (x : Question × Nat) : m.visit (.question x.2 x.1) s =
      match x.1.body with
      | .choice c => (c.items.zipIdx 1).foldl (fun s (x, index) => item index x c s) s
      | .answer a => answer a s := by
    have hbody : m.visit (.question x.2 x.1) s = m.visit x.1.body.node s := by
      rw [visit_eq]
      rfl
    rw [hbody]
    cases x.1.body with
    | choice c => exact hchoice c s
    | answer a =>
      rw [AnswerBody.node, visit_eq]
      rfl
  rw [visit_eq]
  have hquestions : m.visitAll (Node.quiz quiz).children s = _ := List.foldl_map
  refine hquestions.trans ?_
  simp only [hquestion]
  conv_rhs => rw [← List.zipIdx_map_fst 1 quiz.questions, List.foldl_map]

end Methods

namespace Visitor
variable {ω : Type}

/-- The methods of a visitor keep its notes. -/
theorem keeps_methods (v : Visitor ω) : v.methods.Keeps id v := by
  intro node walk parts hwalk hleaf s
  have haround (walk : List ω → List ω) (hwalk : ∀ s, walk s = s ++ parts) :
      v.around node walk s = s ++ (v.note node ++ if v.enters node then parts else []) := by
    rw [around, hwalk]
    split <;> simp
  cases node with
  | quiz q => exact haround walk hwalk
  | question n x => exact haround walk hwalk
  | choice c => exact haround walk hwalk
  | discussion i d => exact haround id (by simp [hleaf rfl])
  | item i x c => exact haround id (by simp [hleaf rfl])
  | answer a => exact haround id (by simp [hleaf rfl])

theorem visitQuiz_eq (v : Visitor ω) (quiz : Quiz) :
    v.visitQuiz quiz = (Node.reached v.enters (.quiz quiz) []).flatMap v.note :=
  v.keeps_methods.log_visit (.quiz quiz) []

theorem visitDiscussions_eq (v : Visitor ω) (quiz : Quiz) :
    v.visitDiscussions quiz = (discussionNodes quiz).flatMap v.note :=
  v.keeps_methods.log_walkDiscussions quiz []

def recorder (recorded stopped : NodeKind → Bool) (event : Node → ω) : Visitor ω where
  note node := if recorded node.kind then [event node] else []
  enters node := !stopped node.kind

theorem notes_recorder (recorded stopped : NodeKind → Bool) (event : Node → ω) (nodes : List Node) :
    nodes.flatMap (recorder recorded stopped event).note =
      (nodes.filter (recorded ·.kind)).map event := by
  induction nodes with
  | nil => rfl
  | cons node nodes ih =>
    rw [List.flatMap_cons, List.filter_cons, ih, recorder]
    split <;> simp_all

end Visitor

/-- Methods that note the nodes of some kinds and walk on except at those of others come to the nodes of a
quiz in preorder, without those below where they do not walk on: to questions with the numbers from one, to
items with the positions from one in their choices, and to no discussion. A walk through the discussions
comes to these alone. Whoever has methods for items and answers only comes to each item with its choice, and
to each answer, once and in order. -/
theorem visit_recorded {σ ω : Type} {m : Methods σ} {log : σ → List ω}
    {recorded stopped : NodeKind → Bool} {event : Node → ω}
    (h : m.Keeps log (Visitor.recorder recorded stopped event)) (quiz : Quiz) (s : σ) :
    let reached := Node.reached (fun node => !stopped node.kind) (.quiz quiz) []
    log (m.visit (.quiz quiz) s) = log s ++ (reached.filter (recorded ·.kind)).map event ∧
      (reached = .quiz quiz :: if !stopped .quiz then
        (quiz.questions.zipIdx 1).flatMap fun (x, number) =>
          .question number x :: if !stopped .question then
            match x.body with
            | .choice c => .choice c :: if !stopped .choice then
                (c.items.zipIdx 1).map fun (x, index) => .item index x c
              else []
            | .answer a => [.answer a]
          else []
        else []) ∧
      (∀ node ∈ reached, node.kind ≠ .discussion) ∧
      log (m.walkDiscussions quiz s) = log s ++ (if recorded .discussion then
        (quiz.discussions.zipIdx 1).map fun (d, index) => event (.discussion index d) else []) ∧
      ∀ (τ : Type) (item : Nat → Item → Choice → τ → τ) (answer : Answer → τ → τ) (t : τ),
        Methods.visit { item, answer } (.quiz quiz) t =
          quiz.questions.foldl (fun t x => match x.body with
            | .choice c => (c.items.zipIdx 1).foldl (fun t (x, index) => item index x c t) t
            | .answer a => answer a t) t := by
  intro reached
  refine ⟨?_, Node.reached_quiz quiz, ?_, ?_, fun τ item answer t =>
    Methods.visit_leaves item answer quiz t⟩
  · rw [h.log_visit, Visitor.notes_recorder]
    rfl
  · intro node hnode
    exact Node.kind_of_mem_reached hnode nofun
  · rw [h.log_walkDiscussions, discussionNodes, List.flatMap_map]
    cases hrecorded : recorded .discussion <;>
      simp [Visitor.recorder, Node.kind, hrecorded, List.map_eq_flatMap]

/-- A visitor who counts all nodes, notes questions, choices and items, and does not walk through choices. -/
theorem visit_recorded_counted :
    let choice : Choice := { items := [{ text := "p" }, { text := "q" }] }
    let quiz : Quiz := {
      discussions := [{ heading := "A" }]
      questions := [{ body := .choice choice }, { body := .answer { value := "7" } }] }
    let m : Methods (Nat × List Node) := {
      question number x walk s := walk (s.1, s.2 ++ [.question number x])
      choice c _ s := (s.1, s.2 ++ [.choice c])
      item index x c s := (s.1, s.2 ++ [.item index x c])
      node _ dispatch _ s := dispatch (s.1 + 1, s.2) }
    let recorded (kind : NodeKind) := kind == .question || kind == .choice || kind == .item
    m.Keeps Prod.snd (Visitor.recorder recorded (· == .choice) id) ∧
      (m.visit (.quiz quiz) (0, [])).2 =
        [.question 1 { body := .choice choice }, .choice choice,
          .question 2 { body := .answer { value := "7" } }] ∧
      (m.walkDiscussions quiz (0, [])).2 = [] := by
  intro choice quiz m recorded
  have h : m.Keeps Prod.snd (Visitor.recorder recorded (· == .choice) id) := by
    intro node walk parts hwalk hleaf s
    cases node with
    | quiz q => exact (hwalk _).trans (by simp [Visitor.recorder, Node.kind, recorded])
    | question n x => exact (hwalk _).trans (by simp [Visitor.recorder, Node.kind, recorded])
    | choice c => simp [m, Methods.reach, Methods.dispatch, Visitor.recorder, Node.kind, recorded]
    | item i x c =>
      simp [m, Methods.reach, Methods.dispatch, Visitor.recorder, Node.kind, recorded, hleaf rfl]
    | discussion i d =>
      simp [m, Methods.reach, Methods.dispatch, Visitor.recorder, Node.kind, recorded, hleaf rfl]
    | answer a =>
      simp [m, Methods.reach, Methods.dispatch, Visitor.recorder, Node.kind, recorded, hleaf rfl]
  obtain ⟨hvisit, hreached, -, hdiscussions, -⟩ := visit_recorded h quiz (0, [])
  refine ⟨h, hvisit.trans ?_, hdiscussions⟩
  rw [hreached]
  rfl

end QuizPress.Quiz
