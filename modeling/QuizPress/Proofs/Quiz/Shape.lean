import QuizPress.Proofs.Quiz.Run

/-! The open parts of a quiz: what can lie above what, with room for the items of a choice. -/
namespace QuizPress.Quiz
open Text Xml Builder

/-- The stacks of open parts that there are. The question below a choice or an answer has no body
yet, and below an open item there is room for it. -/
inductive Shape : List Open → Prop where
  | nil : Shape []
  | discussion (d : Discussion) : Shape [.discussion d]
  | question (text : String) (body : Option AnswerBody) : Shape [.question text body]
  | choice (text : String) {c : Choice} (h : c.items.length ≤ Choice.maxItems) :
      Shape [.choice c, .question text none]
  | item (text : String) {c : Choice} (i : Item) (h : c.items.length < Choice.maxItems) :
      Shape [.item i, .choice c, .question text none]
  | answer (text : String) (a : Answer) : Shape [.answer a, .question text none]

variable {b b' : Builder} {element : Element} {attributes : Attributes} {text : String}

theorem shape_of_opens (ho : Opens b attributes element b') (h : Shape b.nodes) : Shape b'.nodes := by
  cases ho with
  | quiz | note | text => exact h
  | discussion hq hn =>
    rw [pushNode, hn]
    exact .discussion _
  | question hq hn =>
    rw [pushNode, hn]
    exact .question _ _
  | choice hn =>
    rw [hn] at h
    cases h
    rw [pushNode, hn]
    exact .choice _ (Nat.zero_le _)
  | answer hn =>
    rw [hn] at h
    cases h
    rw [pushNode, hn]
    exact .answer _ _
  | item hn hl =>
    rw [hn] at h
    cases h
    rw [pushNode, hn]
    exact .item _ _ hl

theorem shape_takeText (element : Element) (text : String) {node : Open} {outer : List Open}
    (h : Shape (node :: outer)) : Shape (takeText element text node :: outer) := by
  cases h with
  | discussion | question | answer => constructor
  | choice own hl => exact .choice own hl
  | item own i hl => exact .item own _ hl

theorem shape_of_closes (hc : Closes b text element b') (h : Shape b.nodes) : Shape b'.nodes := by
  cases hc with
  | margin | idle => exact h
  | discussion hn hq | question hn hq =>
    rw [hn] at h
    cases h
    exact .nil
  | choice he hn | answer he hn =>
    rw [hn] at h
    cases h
    exact .question _ _
  | item hn =>
    rw [hn] at h
    cases h with
    | item own i hl =>
      refine .choice own ?_
      rw [List.length_append, List.length_singleton]
      exact hl
  | text he hn =>
    rw [hn] at h
    exact shape_takeText element text h

/-- In every run from the start the open parts have one of the shapes. -/
theorem shape_of_run {events : List Event} (h : Builder.run {} events = .ok b) : Shape b.nodes :=
  run_keeps (P := fun _ nodes => Shape nodes) (fun _ _ _ _ _ => shape_of_opens)
    (fun _ _ _ _ => shape_of_closes) h .nil

end QuizPress.Quiz
