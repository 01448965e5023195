import QuizPress.Proofs.Quiz.Run

/-! What a quiz notes of the tags behind its root, wherever they are: the bags, the entries of the
index, and the course. -/
namespace QuizPress.Quiz
open Text Xml Builder

/-- The attributes of an event that begins this element; an empty-element tag begins it too. -/
def begun? (element : Element) : Event → Option Attributes
  | .start name attributes | .empty name attributes =>
    if Element.ofName? name = some element then some attributes else none
  | .close _ | .text _ | .reference _ => none

def starts (element : Element) (events : List Event) : List Attributes :=
  events.filterMap (begun? element)

def entryOf (attributes : Attributes) : IndexEntry :=
  { title := attributes.valueD "title" "", url := attributes.valueD "url" "" }

def courseOf (attributes : Attributes) : Course :=
  { name := attributes.valueD "name" ""
    code := attributes.valueD "code" ""
    url := attributes.valueD "url" "" }

/-- A quiz that came of another one by start tags of which these are the attributes. Of several
courses the last one counts. -/
structure Noted (q : Quiz) (given : Element → List Attributes) (q' : Quiz) : Prop where
  metas : q'.metas = q.metas ++ given .metaData
  links : q'.links = q.links ++ given .link
  index : q'.index = q.index ++ (given .quizListItem).map entryOf
  course : q'.course = ((given .course).map courseOf).getLastD q.course

variable {q q' q'' : Quiz} {given given' : Element → List Attributes}

theorem Noted.refl (q : Quiz) : Noted q (fun _ => []) q := by
  constructor <;> simp

theorem getLastD_append {α : Type} (xs ys : List α) (a : α) :
    (xs ++ ys).getLastD a = ys.getLastD (xs.getLastD a) := by
  rw [List.getLastD_eq_getLast?, List.getLastD_eq_getLast?, List.getLastD_eq_getLast?,
    List.getLast?_append]
  cases ys.getLast? <;> rfl

theorem Noted.trans (h : Noted q given q') (h' : Noted q' given' q'') :
    Noted q (fun element => given element ++ given' element) q'' where
  metas := by rw [h'.metas, h.metas, List.append_assoc]
  links := by rw [h'.links, h.links, List.append_assoc]
  index := by rw [h'.index, h.index, List.map_append, List.append_assoc]
  course := by rw [h'.course, h.course, List.map_append, getLastD_append]

variable {b b' : Builder} {element : Element} {attributes : Attributes} {text : String} {event : Event}
  {events : List Event}

private theorem noted_of_opens (ho : Opens b attributes element b') (hb : b.quiz = some q) :
    ∃ q', b'.quiz = some q' ∧
      Noted q (fun e => if element = e then [attributes] else []) q' := by
  cases ho with
  | quiz hn =>
    rw [hb] at hn
    cases hn
  | @note _ f hf =>
    refine ⟨f q, by rw [mapQuiz, hb]; rfl, ?_⟩
    cases element with
    | metaData | link | course | quizListItem =>
      cases hf
      constructor <;> simp [entryOf, courseOf]
    | _ => cases hf
  | text he =>
    refine ⟨q, hb, ?_⟩
    simp only [Element.textual, List.mem_cons, List.not_mem_nil, or_false] at he
    rcases he with rfl | rfl | rfl | rfl | rfl <;> constructor <;> simp
  | discussion | question | choice | answer | item =>
    refine ⟨q, hb, ?_⟩
    constructor <;> simp

private theorem noted_of_closes (hc : Closes b text element b') (hb : b.quiz = some q) :
    ∃ q', b'.quiz = some q' ∧ Noted q (fun _ => []) q' := by
  cases hc with
  | discussion hn hq | question hn hq =>
    cases hb.symm.trans hq
    refine ⟨_, rfl, ?_⟩
    constructor <;> simp
  | margin | idle | choice | answer | item | text => exact ⟨q, hb, .refl q⟩

private theorem noted_of_start {name : String} (h : b.start name attributes = .ok b')
    (hb : b.quiz = some q) :
    ∃ q', b'.quiz = some q' ∧
      Noted q (fun e => (begun? e (.start name attributes)).toList) q' := by
  unfold start at h
  split at h
  · rename_i hu
    cases h
    refine ⟨q, hb, ?_⟩
    constructor <;> simp [begun?, hu]
  · rename_i element hk
    obtain ⟨q', hq', hn⟩ := noted_of_opens (openElement_iff.1 h) hb
    refine ⟨q', hq', ?_⟩
    simpa only [begun?, hk, Option.some_inj, apply_ite Option.toList, Option.toList_some,
      Option.toList_none] using hn

private theorem noted_of_close {name : String} (h : b.close name = .ok b') (hb : b.quiz = some q) :
    ∃ q', b'.quiz = some q' ∧ Noted q (fun _ => []) q' := by
  simp only [close] at h
  split at h
  · split at h
    · cases h
      exact ⟨q, by rw [characters_quiz]; exact hb, .refl q⟩
    · cases h
      exact ⟨q, hb, .refl q⟩
  · exact noted_of_closes (closeElement_iff.1 h) hb

private theorem noted_of_step (h : b.step event = .ok b') (hb : b.quiz = some q) :
    ∃ q', b'.quiz = some q' ∧ Noted q (fun e => (begun? e event).toList) q' := by
  cases event with
  | start name attributes => exact noted_of_start h hb
  | close name => exact noted_of_close h hb
  | empty name attributes =>
    rcases empty_cases h with ⟨hu, text, rfl⟩ | ⟨b₁, hs, hc⟩
    · refine ⟨q, by rw [characters_quiz]; exact hb, ?_⟩
      constructor <;> simp [begun?, hu]
    · obtain ⟨q₁, hq₁, hn₁⟩ := noted_of_start hs hb
      obtain ⟨q', hq', hn'⟩ := noted_of_close hc hq₁
      have hn := hn₁.trans hn'
      simp only [List.append_nil] at hn
      exact ⟨q', hq', hn⟩
  | text content | reference name =>
    cases h
    exact ⟨q, by rw [characters_quiz]; exact hb, .refl q⟩

/-- A quiz notes all tags that come after it was begun. -/
theorem noted_of_run (h : b.run events = .ok b') (hb : b.quiz = some q) :
    ∃ q', b'.quiz = some q' ∧ Noted q (starts · events) q' := by
  induction events generalizing b q with
  | nil =>
    cases h
    exact ⟨q, hb, .refl q⟩
  | cons event events ih =>
    obtain ⟨b₁, hs, hr⟩ := run_cons_eq_ok.1 h
    obtain ⟨q₁, hq₁, hn₁⟩ := noted_of_step hs hb
    obtain ⟨q', hq', hn'⟩ := ih hr hq₁
    refine ⟨q', hq', ?_⟩
    have hc (e : Element) : (begun? e event).toList ++ starts e events = starts e (event :: events) := by
      rw [starts, starts, List.filterMap_cons]
      cases begun? e event <;> rfl
    simpa only [hc] using hn₁.trans hn'

end QuizPress.Quiz
