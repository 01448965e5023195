import QuizPress.Proofs.Except
import QuizPress.Proofs.Quiz.Rules

/-! A builder that goes from event to event, up to the quiz at the end. -/
namespace QuizPress.Quiz
open Text Xml

namespace Builder
variable {b b' : Builder} {name : String} {attributes : Attributes} {event : Event} {events : List Event}

theorem characters_quiz (b : Builder) (text : String) : (b.characters text).quiz = b.quiz := by
  unfold characters
  split <;> rfl

theorem characters_nodes (b : Builder) (text : String) : (b.characters text).nodes = b.nodes := by
  unfold characters
  split <;> rfl

theorem characters_append (b : Builder) (s t : String) :
    (b.characters s).characters t = b.characters (s ++ t) := by
  obtain ⟨quiz, nodes, scopes⟩ := b
  cases scopes with
  | nil => rfl
  | cons scope outer => simp [characters, String.append_assoc]

theorem characters_empty (b : Builder) : b.characters "" = b := by
  obtain ⟨quiz, nodes, scopes⟩ := b
  cases scopes with
  | nil => rfl
  | cons scope outer => simp [characters]

/-- What an empty-element tag says: characters, or a start tag and an end tag. -/
theorem empty_cases (h : b.empty name attributes = .ok b') :
    (Element.ofName? name = none ∧ ∃ text, b' = b.characters text) ∨
      ∃ b₁, b.start name attributes = .ok b₁ ∧ b₁.close name = .ok b' := by
  unfold empty at h
  split at h
  · rename_i hu
    cases h
    exact .inl ⟨hu, _, rfl⟩
  · exact .inr (bind_eq_ok.1 h)

theorem run_cons_eq_ok :
    b.run (event :: events) = .ok b' ↔ ∃ b₁, b.step event = .ok b₁ ∧ b₁.run events = .ok b' := by
  rw [run, List.foldlM_cons, bind_eq_ok]
  rfl

theorem run_append_eq_ok {later : List Event} :
    b.run (events ++ later) = .ok b' ↔ ∃ b₁, b.run events = .ok b₁ ∧ b₁.run later = .ok b' := by
  rw [run, List.foldlM_append, bind_eq_ok]
  rfl

theorem finish_eq_ok {quiz : Quiz} : b.finish = .ok quiz ↔ b.nodes = [] ∧ b.quiz = some quiz := by
  obtain ⟨root, nodes, scopes⟩ := b
  cases nodes with
  | nil => cases root <;> simp [finish]
  | cons node outer => simp [finish]

/-- The quiz that a reading says to a builder that has taken the events before it. -/
def resume (b : Builder) (reading : Reading) : Except ParseError Quiz := do
  let b ← b.run reading.events
  match reading.fault with
  | some fault => .error (.xml fault)
  | none => b.finish

theorem resume_cons (b : Builder) (event : Event) (reading : Reading) :
    b.resume (reading.cons event) = b.step event >>= fun b => b.resume reading := by
  simp [resume, Reading.cons, run, List.foldlM_cons, bind_assoc]

theorem resume_eq_ok {reading : Reading} {quiz : Quiz} : b.resume reading = .ok quiz ↔
    reading.fault = none ∧ ∃ b', b.run reading.events = .ok b' ∧ b'.nodes = [] ∧ b'.quiz = some quiz := by
  rw [resume, bind_eq_ok]
  cases reading.fault with
  | some fault => simp
  | none => simp only [finish_eq_ok, true_and]

section Keeps
variable {P : Option Quiz → List Open → Prop} {attributes : Attributes}

private theorem start_keeps
    (ho : ∀ b b' element, Opens b attributes element b' → P b.quiz b.nodes → P b'.quiz b'.nodes)
    {b b' : Builder} {name : String} (h : b.start name attributes = .ok b') (hp : P b.quiz b.nodes) :
    P b'.quiz b'.nodes := by
  unfold start at h
  split at h
  · cases h
    exact hp
  · exact ho _ b' _ (openElement_iff.1 h) hp

/-- What the rules for end tags keep is kept by every end tag; the scopes have no part in it. -/
theorem close_keeps
    (hc : ∀ b b' element text, Closes b (trim text) element b' → P b.quiz b.nodes → P b'.quiz b'.nodes)
    {b b' : Builder} {name : String} (h : b.close name = .ok b') (hp : P b.quiz b.nodes) :
    P b'.quiz b'.nodes := by
  simp only [close] at h
  split at h
  · split at h
    · cases h
      rw [characters_quiz, characters_nodes]
      exact hp
    · cases h
      exact hp
  · exact hc _ b' _ _ (closeElement_iff.1 h) hp

/-- What all rules keep is kept by every event; the scopes have no part in it. -/
theorem step_keeps {event : Event}
    (ho : ∀ b b' element, Opens b event.attributes element b' → P b.quiz b.nodes → P b'.quiz b'.nodes)
    (hc : ∀ b b' element text, Closes b (trim text) element b' → P b.quiz b.nodes → P b'.quiz b'.nodes)
    {b b' : Builder} (h : b.step event = .ok b') (hp : P b.quiz b.nodes) : P b'.quiz b'.nodes := by
  cases event with
  | start name attributes => exact start_keeps ho h hp
  | close name => exact close_keeps hc h hp
  | empty name attributes =>
    rcases empty_cases h with ⟨_, text, rfl⟩ | ⟨b₁, hs, hl⟩
    · rw [characters_quiz, characters_nodes]
      exact hp
    · exact close_keeps hc hl (start_keeps ho hs hp)
  | text content | reference name =>
    cases h
    rw [characters_quiz, characters_nodes]
    exact hp

/-- What all rules keep is kept by every run. -/
theorem run_keeps {events : List Event}
    (ho : ∀ event ∈ events, ∀ b b' element, Opens b event.attributes element b' →
      P b.quiz b.nodes → P b'.quiz b'.nodes)
    (hc : ∀ b b' element text, Closes b (trim text) element b' → P b.quiz b.nodes → P b'.quiz b'.nodes)
    {b b' : Builder} (h : b.run events = .ok b') (hp : P b.quiz b.nodes) : P b'.quiz b'.nodes := by
  induction events generalizing b with
  | nil =>
    cases h
    exact hp
  | cons event events ih =>
    obtain ⟨b₁, hs, hr⟩ := run_cons_eq_ok.1 h
    have hp₁ := step_keeps (ho event (by simp)) hc hs hp
    exact ih (fun e he => ho e (List.mem_cons_of_mem _ he)) hr hp₁

end Keeps

end Builder

theorem ofReading_eq (reading : Reading) : ofReading reading = Builder.resume {} reading := rfl

end QuizPress.Quiz
