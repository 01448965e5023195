import QuizPress.Proofs.Quiz.NormalForm
import QuizPress.Proofs.Quiz.Shape
import QuizPress.Proofs.Xml.Legible

/-! A quiz that is built is its own normal form, and the bags of one that is read from a text can be
read from where they are written. -/
namespace QuizPress.Quiz
open Text Xml Builder

theorem ChoiceMode.ofName_name_ofName (name : String) :
    ChoiceMode.ofName (ChoiceMode.ofName name).name = ChoiceMode.ofName name := by
  by_cases hs : name = "single"
  · subst hs
    rfl
  · by_cases hm : name = "multiple"
    · subst hm
      rfl
    · have ho : ChoiceMode.ofName name = .other name := by
        rw [ChoiceMode.ofName, if_neg hs, if_neg hm]
      rw [ho, ChoiceMode.name, ho]

def Open.Tidy : Open → Prop
  | discussion d => d.normal = d
  | question text body => trim text = text ∧ ∀ x, body = some x → x.normal = x ∧ x.fits = true
  | choice c => c.normal = c
  | item i => i.normal = i
  | answer a => a.normal = a

end QuizPress.Quiz

namespace QuizPress
open Quiz Xml

/-- A quiz in normal form, in which no choice has more items than there are labels. -/
structure Quiz.Tidy (q : Quiz) : Prop where
  discussions : ∀ d ∈ q.discussions, d.normal = d
  questions : ∀ x ∈ q.questions, x.normal = x ∧ x.body.fits = true

theorem Quiz.Tidy.normal {q : Quiz} (h : q.Tidy) : q.normal = q := by
  have hd : q.discussions.map Discussion.normal = q.discussions :=
    (List.map_congr_left h.discussions).trans (List.map_id' _)
  have hx : q.questions.map Question.normal = q.questions :=
    (List.map_congr_left fun x hx => (h.questions x hx).1).trans (List.map_id' _)
  rw [Quiz.normal, hd, hx]

end QuizPress

namespace QuizPress.Quiz
open Text Xml Builder

/-- What a builder holds is tidy: the quiz, and all open parts. -/
structure Neat (root : Option Quiz) (stack : List Open) : Prop where
  quiz : ∀ q, root = some q → q.Tidy
  nodes : ∀ node ∈ stack, node.Tidy
  shape : Shape stack

variable {b b' : Builder} {element : Element} {attributes : Attributes} {text : String}

private theorem tidy_titled (attributes : Attributes) : (titled attributes).Tidy :=
  ⟨by simp [titled], by simp [titled]⟩

private theorem tidy_choiceOf (attributes : Attributes) : (Open.choice (choiceOf attributes)).Tidy := by
  rw [Open.Tidy, Choice.normal, choiceOf, ChoiceMode.ofName_name_ofName]
  rfl

theorem tidy_noted {f : Quiz → Quiz} {q : Quiz} (hf : noted? element attributes = some f)
    (h : q.Tidy) : (f q).Tidy := by
  cases element with
  | metaData | link | course | quizListItem =>
    cases hf
    exact ⟨h.discussions, h.questions⟩
  | _ => cases hf

private theorem neat_push {node : Open} (hn : node.Tidy) (hs : Shape (node :: b.nodes))
    (h : Neat b.quiz b.nodes) : Neat (b.pushNode node).quiz (b.pushNode node).nodes := by
  refine ⟨h.quiz, fun x hx => ?_, hs⟩
  rcases List.mem_cons.1 hx with rfl | hx
  · exact hn
  · exact h.nodes x hx

theorem neat_of_opens (ho : Opens b attributes element b') (h : Neat b.quiz b.nodes) : Neat b'.quiz b'.nodes := by
  have hs := shape_of_opens ho h.shape
  cases ho with
  | quiz hq =>
    refine ⟨fun q he => ?_, h.nodes, hs⟩
    cases he
    exact tidy_titled attributes
  | note hf =>
    refine ⟨fun q he => ?_, h.nodes, hs⟩
    obtain ⟨q', hq, rfl⟩ := Option.map_eq_some_iff.1 he
    exact tidy_noted hf (h.quiz q' hq)
  | text => exact h
  | choice => exact neat_push (tidy_choiceOf attributes) hs h
  | discussion | answer =>
    refine neat_push ?_ hs h
    simp [Open.Tidy, Discussion.normal, Answer.normal, trim_empty]
  | item | question =>
    refine neat_push ?_ hs h
    simp [Open.Tidy, Item.normal, trim_empty]

theorem tidy_takeText (element : Element) (ht : trim text = text) {node : Open} (h : node.Tidy) :
    (takeText element text node).Tidy := by
  cases node with
  | discussion d =>
    rw [takeText]
    split
    · simp only [Open.Tidy, Discussion.normal, ht]
    · exact h
  | question own body =>
    refine ⟨?_, h.2⟩
    split
    · exact ht
    · exact h.1
  | choice c => exact h
  | item i =>
    have hi := Item.mk.inj h
    cases element with
    | text => simp only [takeText, Open.Tidy, Item.normal, ht, hi.2.2]
    | response => simp only [takeText, Open.Tidy, Item.normal, ht, hi.2.1]
    | _ => exact h
  | answer a =>
    have ha := Answer.mk.inj h
    cases element with
    | tag =>
      simp only [takeText, Open.Tidy, Answer.normal, ha.2.2.1, ha.2.2.2]
      split
      · rfl
      · rename_i hne
        simp [ht, hne]
    | whenRight => simp only [takeText, Open.Tidy, Answer.normal, ht, ha.2.1, ha.2.2.2]
    | whenWrong => simp only [takeText, Open.Tidy, Answer.normal, ht, ha.2.1, ha.2.2.1]
    | _ => exact h

private theorem tidy_choice_push {c : Choice} {i : Item} (hc : (Open.choice c).Tidy)
    (hi : (Open.item i).Tidy) : (Open.choice { c with items := c.items ++ [i] }).Tidy := by
  have hm := Choice.mk.inj hc
  have hn : i.normal = i := hi
  simp only [Open.Tidy, Choice.normal, hm.1, List.map_append, hm.2.2, List.map_cons, List.map_nil, hn]

/-- The part on top is gone, and what is below it stays or changes for one that is tidy. -/
private theorem neat_top {root root' : Option Quiz} {node : Open} {outer stack : List Open}
    (hq : ∀ q, root' = some q → q.Tidy) (hn : ∀ node ∈ stack, node.Tidy ∨ node ∈ outer)
    (hs : Shape stack) (h : Neat root (node :: outer)) : Neat root' stack := by
  refine ⟨hq, fun x hx => ?_, hs⟩
  rcases hn x hx with ht | hm
  · exact ht
  · exact h.nodes x (List.mem_cons_of_mem _ hm)

theorem neat_of_closes (ht : trim text = text) (hc : Closes b text element b')
    (h : Neat b.quiz b.nodes) : Neat b'.quiz b'.nodes := by
  have hs := shape_of_closes hc h.shape
  cases hc with
  | margin | idle => exact h
  | @discussion d outer q hn hq =>
    rw [hn] at h
    have hd : d.normal = d := h.nodes (.discussion d) (by simp)
    have hq' := h.quiz q hq
    refine neat_top (fun q' he => ?_) (fun _ hx => .inr hx) hs h
    cases he
    refine ⟨fun x hx => ?_, hq'.questions⟩
    rcases List.mem_append.1 hx with hx | hx
    · exact hq'.discussions x hx
    · rw [List.mem_singleton.1 hx]
      split
      · simp only [Discussion.normal, ht]
      · exact hd
  | @question own body outer q hn hq =>
    rw [hn] at h
    obtain ⟨ho, hb⟩ : (Open.question own (some body)).Tidy := h.nodes _ (by simp)
    have hq' := h.quiz q hq
    refine neat_top (fun q' he => ?_) (fun _ hx => .inr hx) hs h
    cases he
    refine ⟨hq'.discussions, fun x hx => ?_⟩
    rcases List.mem_append.1 hx with hx | hx
    · exact hq'.questions x hx
    · rw [List.mem_singleton.1 hx]
      obtain ⟨hn', hf⟩ := hb body rfl
      exact ⟨by rw [Question.normal, ho, hn'], hf⟩
  | @choice _ c own old outer he hn =>
    rw [hn] at h
    have hc' : c.normal = c := h.nodes (.choice c) (by simp)
    obtain ⟨ho, _⟩ : (Open.question own old).Tidy := h.nodes _ (by simp)
    have hf : (AnswerBody.choice c).fits = true := by
      cases h.shape with
      | choice _ hl => exact decide_eq_true hl
    refine neat_top h.quiz (fun x hx => ?_) hs h
    rcases List.mem_cons.1 hx with rfl | hx
    · refine .inl ⟨ho, fun x he => ?_⟩
      cases he
      exact ⟨by rw [AnswerBody.normal, hc'], hf⟩
    · exact .inr (List.mem_cons_of_mem _ hx)
  | @answer _ a own old outer he hn =>
    rw [hn] at h
    have ha : a.normal = a := h.nodes (.answer a) (by simp)
    obtain ⟨ho, _⟩ : (Open.question own old).Tidy := h.nodes _ (by simp)
    refine neat_top h.quiz (fun x hx => ?_) hs h
    rcases List.mem_cons.1 hx with rfl | hx
    · refine .inl ⟨ho, fun x he => ?_⟩
      cases he
      exact ⟨by rw [AnswerBody.normal, ha], rfl⟩
    · exact .inr (List.mem_cons_of_mem _ hx)
  | @item i c outer hn =>
    rw [hn] at h
    have hi := h.nodes (.item i) (by simp)
    have hc' := h.nodes (.choice c) (by simp)
    refine neat_top h.quiz (fun x hx => ?_) hs h
    rcases List.mem_cons.1 hx with rfl | hx
    · exact .inl (tidy_choice_push hc' hi)
    · exact .inr (List.mem_cons_of_mem _ hx)
  | @text _ node outer he hn =>
    rw [hn] at h
    refine neat_top h.quiz (fun x hx => ?_) hs h
    rcases List.mem_cons.1 hx with rfl | hx
    · exact .inl (tidy_takeText element ht (h.nodes node (by simp)))
    · exact .inr hx

/-- In every run from the start what a builder holds is tidy. -/
theorem neat_of_run {events : List Event} (h : Builder.run {} events = .ok b) :
    Neat b.quiz b.nodes := by
  refine run_keeps (P := Neat) (fun _ _ _ _ _ => neat_of_opens)
    (fun _ _ _ text hc => neat_of_closes (trim_trim text) hc) h ⟨?_, ?_, .nil⟩
  · intro q he
    cases he
  · intro node hn
    cases hn

/-- Every quiz that is read is tidy. -/
theorem tidy_of_ofReading {reading : Reading} {q : Quiz} (h : ofReading reading = .ok q) : q.Tidy := by
  obtain ⟨_, b, hr, _, hq⟩ := resume_eq_ok.1 h
  exact (neat_of_run hr).quiz q hq

def LegibleBags (root : Option Quiz) : Prop :=
  ∀ q, root = some q → ∀ bag ∈ q.metas ++ q.links, Legible bag

private theorem bags_of_opens (hl : Legible attributes) (ho : Opens b attributes element b')
    (h : LegibleBags b.quiz) : LegibleBags b'.quiz := by
  cases ho with
  | quiz hq =>
    intro q he bag hb
    cases he
    cases hb
  | @note _ f hf =>
    intro q he bag hb
    obtain ⟨q', hq, rfl⟩ := Option.map_eq_some_iff.1 he
    have hq' := h q' hq
    cases element with
    | metaData | link =>
      cases hf
      simp only [List.mem_append, List.mem_singleton] at hb hq'
      grind
    | course | quizListItem =>
      cases hf
      exact hq' bag hb
    | _ => cases hf
  | text | discussion | question | choice | answer | item => exact h

private theorem bags_of_closes (hc : Closes b text element b') (h : LegibleBags b.quiz) :
    LegibleBags b'.quiz := by
  cases hc with
  | discussion hn hq | question hn hq =>
    have hb := h _ hq
    intro q' he
    cases he
    exact hb
  | margin | idle | choice | answer | item | text => exact h

/-- In every quiz that is read from a text the bags are legible. -/
theorem legible_of_parse {document : String} {q : Quiz} (h : parse document = .ok q) :
    ∀ bag ∈ q.metas ++ q.links, Legible bag := by
  obtain ⟨_, b, hr, _, hq⟩ := resume_eq_ok.1 h
  have hl := legible_of_read document
  refine run_keeps (P := fun root _ => LegibleBags root)
    (fun event he _ _ _ => bags_of_opens (hl event he)) (fun _ _ _ _ => bags_of_closes) hr ?_ q hq
  intro q he
  cases he

end QuizPress.Quiz
