import Mathlib.Data.List.Induction
import QuizPress.Proofs.Quiz.Refusal

/-! Errors that are about a question: which question it is, what is complete before it, and which event is
the first to break a rule. -/
namespace QuizPress.Quiz
open Text Xml Builder

variable {s : Stage} {b b' : Builder} {name : String} {names above below : List String} {element : Element}
  {attributes : Attributes} {text : String} {event : Event} {events : List Event} {tags : List Tag}
  {error : ParseError}

/-- A document of the grammar begins with these tags. -/
def Viable (tags : List Tag) : Prop :=
  ∃ rest, Matched [] (tags ++ rest) ∧ Grammatical (tags ++ rest)

/-- A builder that has taken some events is at their stage, and the rest is up to that stage. -/
theorem accepts_of_run (h : Tracks s b) (hm : Matched s.names (events.flatMap tagsOf))
    (hr : b.run events = .ok b') : Tracks ((events.flatMap tagsOf).foldl Stage.after s) b' ∧
      ∀ rest, s.Accepts (events.flatMap tagsOf ++ rest) ↔
        ((events.flatMap tagsOf).foldl Stage.after s).Accepts rest := by
  induction events generalizing s b with
  | nil =>
    cases hr
    exact ⟨h, fun _ => Iff.rfl⟩
  | cons event events ih =>
    obtain ⟨b₁, hs, hr⟩ := run_cons_eq_ok.1 hr
    rw [List.flatMap_cons, matched_append] at hm
    have hm' : Matched ((tagsOf event).foldl Stage.after s).names (events.flatMap tagsOf) := by
      rw [Stage.foldl_names]
      exact hm.2
    obtain ⟨ht, ha⟩ := ih (tracks_of_step h hm.1 hs) hm' hr
    rw [List.flatMap_cons, List.foldl_append]
    refine ⟨ht, fun rest => ?_⟩
    rw [List.append_assoc, step_iff h hm.1, ← ha rest]
    exact and_iff_right ⟨b₁, hs⟩

/-- At every stage the document can be brought to an end: the open elements are closed one after the
other, and a question that has no answer body is given one before. -/
theorem exists_rest (h : Tracks s b) : ∃ rest, Matched s.names rest ∧ s.Accepts rest := by
  induction hn : s.names generalizing s b with
  | nil =>
    have hx : context s.names = none := by
      rw [hn]
      rfl
    cases hr : s.rooted with
    | true => exact ⟨[], trivial, hr, hx⟩
    | false =>
      refine ⟨[.opening "quiz"], trivial, hr, Bool.or_true _, ?_⟩
      rw [Stage.after_opening_names, hn]
      rfl
  | cons name names ih =>
    have closed {s : Stage} {b : Builder} (h : Tracks s b) (hn : s.names = name :: names)
        (ha : s.Allows (.closing name)) :
        ∃ rest, Matched names rest ∧ (s.after (.closing name)).Accepts rest := by
      obtain ⟨b', hc⟩ := (close_iff h hn).2 ha
      have hn' : (s.after (.closing name)).names = names := by
        rw [Stage.after_closing_names, hn]
        rfl
      exact ih (tracks_of_close h hn hc) hn'
    by_cases ha : s.Allows (.closing name)
    · obtain ⟨rest, hm, hr⟩ := closed h hn ha
      exact ⟨.closing name :: rest, ⟨rfl, hm⟩, ha, hr⟩
    · obtain ⟨hk, hb⟩ := Classical.not_imp.1 ha
      have hx : context s.names = some .question := by
        rw [context, hn, parts_cons, part_of_known hk]
        rfl
      obtain ⟨own, body, hnodes, hc⟩ := h.nodes_question hx
      have hnone : s.bodies = 0 := by
        cases body with
        | none => exact hc
        | some body => exact absurd hc hb
      have hopen : s.Allows (.opening "answer") := ⟨hx, hnone⟩
      have hanswer : Element.ofName? "answer" ≠ some .question := by decide
      obtain ⟨b₁, hs⟩ := (start_iff h []).2 hopen
      have h₁ := tracks_of_start h hs
      obtain ⟨b₂, hs⟩ := (close_iff h₁ rfl).2 fun hk => absurd hk hanswer
      have h₂ := tracks_of_close h₁ rfl hs
      have hbodies : ((s.after (.opening "answer")).after (.closing "answer")).bodies = 1 := by
        rw [Stage.after_closing_bodies]
        exact congrArg (· + 1) hnone
      obtain ⟨rest, hm, hr⟩ := closed h₂ hn fun _ => hbodies
      exact ⟨.opening "answer" :: .closing "answer" :: .closing name :: rest, ⟨rfl, rfl, hm⟩,
        hopen, fun hk => absurd hk hanswer, fun _ => hbodies, hr⟩

theorem viable_of_run (hm : Matched [] (events.flatMap tagsOf)) (hr : Builder.run {} events = .ok b) :
    Viable (events.flatMap tagsOf) := by
  obtain ⟨ht, ha⟩ := accepts_of_run tracks_start hm hr
  obtain ⟨rest, hmr, har⟩ := exists_rest ht
  rw [Stage.foldl_names] at hmr
  have hall : Matched [] (events.flatMap tagsOf ++ rest) := matched_append.2 ⟨hm, hmr⟩
  exact ⟨rest, hall, (grammatical_iff_accepts hall).2 ((ha rest).2 har)⟩

/-- An event that is not taken is the first that no document of the grammar has at its place. -/
theorem Halt.not_viable {gs : List Glyph} {before : List Event}
    (h : Halt (Xml.read gs).events before event b error) :
    Viable (before.flatMap tagsOf) ∧ ¬ Viable ((before ++ [event]).flatMap tagsOf) := by
  obtain ⟨hbefore, hevent⟩ := h.matched
  refine ⟨viable_of_run hbefore h.run, ?_⟩
  rintro ⟨rest, hall, hg⟩
  obtain ⟨ht, ha⟩ := accepts_of_run tracks_start hbefore h.run
  have hs := (grammatical_iff_accepts hall).1 hg
  rw [List.flatMap_append, List.append_assoc, ha, List.flatMap_singleton] at hs
  rw [← Stage.foldl_names {}] at hevent
  obtain ⟨⟨b', hb'⟩, _⟩ := (step_iff ht hevent).1 hs
  rw [h.step] at hb'
  cases hb'

def Tag.isQuestion (tag : Tag) : Bool := tag.begins = some .question

namespace Builder

def asked (b : Builder) : Nat :=
  b.quiz.elim 0 (·.questions.length) + b.nodes.countP (·.element = .question)

theorem asked_of_opens (ho : Opens b attributes element b') :
    b'.asked = b.asked + (decide (element = .question)).toNat := by
  obtain ⟨root, nodes, scopes⟩ := b
  cases ho with
  | quiz hq =>
    cases hq
    simp [asked, titled]
  | note hf =>
    cases element with
    | metaData | link | course | quizListItem =>
      cases hf
      cases root <;> rfl
    | _ => cases hf
  | text he =>
    cases element with
    | text | tag | response | whenRight | whenWrong => rfl
    | _ => simp [Element.textual] at he
  | discussion | choice | answer | item => simp [asked, pushNode, Open.element]
  | question => simp [asked, pushNode, Open.element, Nat.add_assoc]

theorem asked_of_closes (hc : Closes b text element b') : b'.asked = b.asked := by
  obtain ⟨root, nodes, scopes⟩ := b
  cases hc with
  | margin | idle => rfl
  | discussion hn hq =>
    cases hn
    cases hq
    simp [asked, Open.element]
  | question hn hq =>
    cases hn
    cases hq
    simp [asked, Open.element, Nat.add_assoc, Nat.add_comm 1]
  | choice _ hn | answer _ hn | item hn =>
    cases hn
    simp [asked, Open.element]
  | text _ hn =>
    cases hn
    simp [asked, List.countP_cons, element_takeText]

theorem asked_characters (b : Builder) (text : String) : (b.characters text).asked = b.asked := by
  rw [asked, characters_quiz, characters_nodes]
  rfl

theorem asked_of_start (h : b.start name attributes = .ok b') :
    b'.asked = b.asked + (Tag.opening name).isQuestion.toNat := by
  unfold Builder.start at h
  split at h
  · rename_i hu
    cases h
    simp [Tag.isQuestion, Tag.begins, hu, asked]
  · rename_i element hk
    have ha := asked_of_opens (openElement_iff.1 h)
    simp only [Tag.isQuestion, Tag.begins, hk, Option.some.injEq]
    exact ha

theorem asked_of_close (h : b.close name = .ok b') : b'.asked = b.asked := by
  simp only [close] at h
  split at h
  · split at h
    · cases h
      exact asked_characters _ _
    · cases h
      rfl
  · have ha := asked_of_closes (closeElement_iff.1 h)
    exact ha

/-- Every start tag of a question adds one to the questions. -/
theorem asked_of_step (h : b.step event = .ok b') :
    b'.asked = b.asked + (tagsOf event).countP Tag.isQuestion := by
  cases event with
  | start name attributes =>
    have ha := asked_of_start h
    cases hq : (Tag.opening name).isQuestion <;> simpa [tagsOf, hq] using ha
  | close name => exact asked_of_close h
  | empty name attributes =>
    have hc : (Tag.closing name).isQuestion = false := rfl
    rcases empty_cases h with ⟨hu, text, rfl⟩ | ⟨b₁, ho, hl⟩
    · have hq : (Tag.opening name).isQuestion = false := by simp [Tag.isQuestion, Tag.begins, hu]
      simpa [tagsOf, hq, hc] using asked_characters b text
    · have ha := (asked_of_close hl).trans (asked_of_start ho)
      cases hq : (Tag.opening name).isQuestion <;> simpa [tagsOf, hq, hc] using ha
  | text content | reference name =>
    cases h
    exact asked_characters _ _

theorem asked_of_run (h : b.run events = .ok b') :
    b'.asked = b.asked + (events.flatMap tagsOf).countP Tag.isQuestion := by
  induction events generalizing b with
  | nil =>
    cases h
    rfl
  | cons event events ih =>
    obtain ⟨b₁, hs, hr⟩ := run_cons_eq_ok.1 h
    rw [ih hr, asked_of_step hs, List.flatMap_cons, List.countP_append, Nat.add_assoc]

end Builder

/-- Behind these tags the elements `above` are open, the innermost first, and no element is closed that was
open before. -/
inductive Within : List Tag → List String → Prop where
  | nil : Within [] []
  | opening {tags : List Tag} {above : List String} (name : String) (h : Within tags above) :
      Within (tags ++ [.opening name]) (name :: above)
  | closing {tags : List Tag} {above : List String} {name : String} (h : Within tags (name :: above)) :
      Within (tags ++ [.closing name]) above

theorem Within.inside_append (h : Within tags above) (rest : List Tag) :
    inside 0 (tags ++ rest) = tags ++ inside above.length rest := by
  induction h generalizing rest with
  | nil => rfl
  | opening name h ih =>
    rw [List.append_assoc, ih, List.append_assoc]
    rfl
  | closing h ih =>
    rw [List.append_assoc, ih, List.append_assoc]
    rfl

theorem Within.append {later : List Tag} {further : List String} (h : Within tags above)
    (hl : Within later further) : Within (tags ++ later) (further ++ above) := by
  induction hl with
  | nil =>
    rw [List.append_nil]
    exact h
  | opening name hl ih =>
    rw [← List.append_assoc]
    exact .opening name ih
  | closing hl ih =>
    rw [← List.append_assoc]
    exact .closing ih

theorem mem_parts {names : List String} : element ∈ parts names ↔
    ∃ name ∈ names, part? name = some element := List.mem_filterMap

/-- An open part does not begin again. -/
theorem not_mem_of_opens (ho : Opens b attributes element b') (hs : Shape b.nodes)
    (hp : element.isPart = true) : element ∉ b.nodes.map Open.element := by
  cases ho with
  | quiz => cases hp
  | note hf =>
    cases element with
    | metaData | link | course | quizListItem => cases hp
    | _ => cases hf
  | text he => rw [not_isPart_of_textual he] at hp; cases hp
  | discussion hq hn | question hq hn => simp [hn]
  | choice hn | answer hn | item hn =>
    rw [hn] at hs ⊢
    cases hs
    simp [Open.element]

theorem not_begins_of_start (hs : Sound names b) (h : b.start name attributes = .ok b')
    (he : element ∈ parts names) : Element.ofName? name ≠ some element := by
  intro hk
  obtain ⟨_, _, hp⟩ := mem_parts.1 he
  simp only [Builder.start, hk] at h
  refine not_mem_of_opens (openElement_iff.1 h) hs.shape (Option.filter_eq_some_iff.1 hp).2 ?_
  rw [hs.nodes]
  exact he

theorem not_begins_of_step (hs : Sound names b) (h : b.step event = .ok b') (he : element ∈ parts names)
    {tag : Tag} (ht : tag ∈ tagsOf event) : tag.begins ≠ some element := by
  cases event with
  | start name attributes =>
    cases List.mem_singleton.1 ht
    exact not_begins_of_start hs h he
  | close name =>
    cases List.mem_singleton.1 ht
    exact nofun
  | empty name attributes =>
    rcases List.mem_cons.1 ht with rfl | ht
    · rcases empty_cases h with ⟨hu, _⟩ | ⟨b₁, ho, _⟩
      · simp [Tag.begins, hu]
      · exact not_begins_of_start hs ho he
    · cases List.mem_singleton.1 ht
      exact nofun
  | text content | reference name => cases ht

/-- An element that is open has its start tag among the events, and what stands behind that neither closes
the element nor begins one of the parts that are open with it. -/
theorem exists_start (hm : Matched [] (events.flatMap tagsOf)) (hr : Builder.run {} events = .ok b)
    (ho : openNames [] (events.flatMap tagsOf) = above ++ name :: below) :
    ∃ earlier attributes inner, events = earlier ++ .start name attributes :: inner ∧
      openNames [] (earlier.flatMap tagsOf) = below ∧ Within (inner.flatMap tagsOf) above ∧
      ∀ tag ∈ inner.flatMap tagsOf, ∀ element ∈ parts (name :: below), tag.begins ≠ some element := by
  -- from the end: every event but a start tag is behind one that is still open
  induction events using List.reverseRecOn generalizing b above with
  | nil => simp [openNames] at ho
  | append_singleton events event ih =>
    obtain ⟨b₁, hr₁, hs⟩ := run_append_eq_ok.1 hr
    obtain ⟨b₂, hs, he⟩ := run_cons_eq_ok.1 hs
    cases he
    rw [List.flatMap_append, List.flatMap_singleton] at hm ho
    rw [matched_append] at hm
    rw [openNames_append] at ho
    have hsound := sound_of_run sound_start hm.1 hr₁
    have behind {outer : List String}
        (houter : openNames [] (events.flatMap tagsOf) = outer ++ name :: below)
        (hw : ∀ tags, Within tags outer → Within (tags ++ tagsOf event) above) :
        ∃ earlier attributes inner, events ++ [event] = earlier ++ .start name attributes :: inner ∧
          openNames [] (earlier.flatMap tagsOf) = below ∧ Within (inner.flatMap tagsOf) above ∧
          ∀ tag ∈ inner.flatMap tagsOf, ∀ element ∈ parts (name :: below), tag.begins ≠ some element := by
      obtain ⟨earlier, attributes, inner, rfl, hb, hi, hf⟩ := ih hm.1 hr₁ houter
      refine ⟨earlier, attributes, inner ++ [event], by simp, hb, ?_, fun tag ht element he => ?_⟩
      · rw [List.flatMap_append, List.flatMap_singleton]
        exact hw _ hi
      · rw [List.flatMap_append, List.flatMap_singleton, List.mem_append] at ht
        rcases ht with ht | ht
        · exact hf tag ht element he
        · refine not_begins_of_step hsound hs ?_ ht
          rw [houter, parts, List.filterMap_append]
          exact List.mem_append_right _ he
    cases event with
    | start name' attributes =>
      cases above with
      | nil =>
        cases ho
        exact ⟨events, attributes, [], rfl, rfl, .nil, fun tag ht => absurd ht List.not_mem_nil⟩
      | cons first above =>
        obtain ⟨rfl, houter⟩ := List.cons.inj ho
        exact behind houter fun _ hw => .opening _ hw
    | close name' =>
      obtain ⟨names, hn⟩ := List.head?_eq_some_iff.1 hm.2.1
      rw [hn] at ho
      have houter : openNames [] (events.flatMap tagsOf) = name' :: above ++ name :: below := by
        rw [hn]
        exact congrArg (name' :: ·) ho
      exact behind houter fun _ hw => .closing hw
    | empty name' attributes =>
      refine behind ho fun tags hw => ?_
      have he : tags ++ tagsOf (.empty name' attributes) = tags ++ [.opening name'] ++ [.closing name'] := by
        simp [tagsOf]
      rw [he]
      exact .closing (.opening name' hw)
    | text content | reference name' =>
      refine behind ho fun tags hw => ?_
      rw [tagsOf, List.append_nil]
      exact hw

/-- Parts that are open lie above one another. -/
theorem exists_open {kinds : List Element} (h : parts names = element :: kinds) :
    ∃ above below, names = above ++ element.name :: below ∧ parts below = kinds := by
  obtain ⟨above, name, below, rfl, _, hk, hb⟩ := List.filterMap_eq_cons_iff.1 h
  obtain ⟨hk, hp⟩ := Option.filter_eq_some_iff.1 hk
  exact ⟨above, below, by rw [eq_name_of_ofName hk (.inl hp)], hb⟩

/-- What a stage counts in an open part since its start tag. -/
theorem count_of_open (count : Stage → Nat) {counted : Tag → Bool} {earlier inner : List Event}
    (hbegin : ∀ s : Stage, count (s.after (.opening name)) = 0)
    (hcount : ∀ (s : Stage) (tag : Tag), tag.begins ≠ some element →
      count (s.after tag) = count s + (counted tag).toNat)
    (hf : ∀ tag ∈ inner.flatMap tagsOf, tag.begins ≠ some element) :
    count (((earlier ++ .start name attributes :: inner).flatMap tagsOf).foldl Stage.after {}) =
      (inner.flatMap tagsOf).countP counted := by
  have hfold (s : Stage) {tags : List Tag} (hf : ∀ tag ∈ tags, tag.begins ≠ some element) :
      count (tags.foldl Stage.after s) = count s + tags.countP counted := by
    induction tags generalizing s with
    | nil => rfl
    | cons tag tags ih =>
      rw [List.foldl_cons, ih _ fun t ht => hf t (List.mem_cons_of_mem _ ht), hcount s tag (hf tag (by simp)),
        List.countP_cons]
      cases counted tag <;> simp [Nat.add_assoc, Nat.add_comm 1]
  rw [List.flatMap_append, List.flatMap_cons, List.foldl_append, List.foldl_append, hfold _ hf]
  exact (congrArg (· + _) (hbegin _)).trans (Nat.zero_add _)

def ParseError.question? : ParseError → Option Nat
  | duplicateAnswerBody n | missingAnswerBody n | tooManyItems n => some n
  | _ => none

/-- How the tags behind the start tag of a question break a rule with the last event: there is a second
answer body in the question, or the question ends and there is none in it, or there is one item too many in
a choice that is in the question. -/
def Breaks (tags : List Tag) : ParseError → Prop
  | .duplicateAnswerBody _ => inside 0 tags = tags ∧ tags.countP Tag.isBody = 2
  | .missingAnswerBody _ => ∃ own, tags = own ++ [.closing "question"] ∧ inside 0 tags = own ∧
      own.countP Tag.isBody = 0
  | .tooManyItems _ => inside 0 tags = tags ∧ ∃ outer items, tags = outer ++ .opening "choice" :: items ∧
      inside 0 items = items ∧ items.countP Tag.isItem = Choice.maxItems + 1
  | _ => False

/-- An error is about a question: its start tag is behind the events `earlier`, and behind the start tag are
`tags`, the last of which are those of the event that fails. The events before the question are a complete
quiz, and its questions are those that the builder has. -/
structure About (before : List Event) (event : Event) (b : Builder) (error : ParseError) (n : Nat)
    (earlier : List Event) (tags : List Tag) (complete : Quiz) : Prop where
  front : earlier <+: before
  read : (before ++ [event]).flatMap tagsOf = earlier.flatMap tagsOf ++ .opening "question" :: tags
  alone : ∀ tag ∈ tags, tag.isQuestion = false
  breaks : Breaks tags error
  number : n = (earlier.flatMap tagsOf ++ [Tag.opening "question"]).countP Tag.isQuestion
  whole : ofReading ⟨earlier, none⟩ = .ok complete
  questions : b.quiz.map Quiz.questions = some complete.questions
  size : complete.questions.length + 1 = n

/-- The events before a question are a complete quiz. -/
theorem complete_of_start (hr : Builder.run {} events = .ok b) (hs : b.start "question" attributes = .ok b') :
    ∃ complete, ofReading ⟨events, none⟩ = .ok complete ∧ b.quiz = some complete ∧ b'.quiz = some complete ∧
      complete.questions.length = (events.flatMap tagsOf).countP Tag.isQuestion := by
  have hk : Element.ofName? "question" = some .question := rfl
  simp only [Builder.start, hk] at hs
  cases openElement_iff.1 hs with
  | question hq hn =>
    obtain ⟨complete, hq⟩ := Option.isSome_iff_exists.1 hq
    have ha := asked_of_run hr
    have hn : b.nodes = [] := hn
    have hq : b.quiz = some complete := hq
    refine ⟨complete, resume_eq_ok.2 ⟨rfl, b, hr, hn, hq⟩, hq, hq, ?_⟩
    simpa [asked, hn, hq] using ha
  | note hf => cases hf
  | text he => simp [Element.textual] at he

/-- No question is lost from a quiz. -/
theorem questions_of_run {q : Quiz} (hr : b.run events = .ok b') (hq : b.quiz = some q) :
    ∃ q', b'.quiz = some q' ∧ q.questions <+: q'.questions := by
  refine run_keeps (P := fun root _ => ∃ q', root = some q' ∧ q.questions <+: q'.questions) ?_ ?_ hr
    ⟨q, hq, List.prefix_rfl⟩
  · rintro event - b₁ b₂ element ho ⟨q', hq', hp⟩
    cases ho with
    | quiz hq => cases hq.symm.trans hq'
    | note hf =>
      refine ⟨_, congrArg (Option.map _) hq', ?_⟩
      cases element with
      | metaData | link | course | quizListItem =>
        cases hf
        exact hp
      | _ => cases hf
    | _ => exact ⟨q', hq', hp⟩
  · rintro b₁ b₂ element text hc ⟨q', hq', hp⟩
    cases hc with
    | discussion hn hq =>
      cases hq.symm.trans hq'
      exact ⟨_, rfl, hp⟩
    | question hn hq =>
      cases hq.symm.trans hq'
      exact ⟨_, rfl, hp.trans (List.prefix_append _ _)⟩
    | _ => exact ⟨q', hq', hp⟩

/-- While a question is open no other is added to the quiz. -/
theorem complete_of_open {earlier inner : List Event}
    (hr : Builder.run {} (earlier ++ .start "question" attributes :: inner) = .ok b)
    (hn : b.nodes.countP (·.element = .question) = 1)
    (hf : ∀ tag ∈ inner.flatMap tagsOf, tag.isQuestion = false) :
    ∃ complete, ofReading ⟨earlier, none⟩ = .ok complete ∧
      b.quiz.map Quiz.questions = some complete.questions ∧
      complete.questions.length = (earlier.flatMap tagsOf).countP Tag.isQuestion := by
  obtain ⟨b₀, hr₀, hr₁⟩ := run_append_eq_ok.1 hr
  obtain ⟨b₁, hs, hr₂⟩ := run_cons_eq_ok.1 hr₁
  have hs : b₀.start "question" attributes = .ok b₁ := hs
  obtain ⟨complete, hc, hq, _, hl⟩ := complete_of_start hr₀ hs
  obtain ⟨q, hq', hp⟩ := questions_of_run hr₁ hq
  have hone : (tagsOf (.start "question" attributes)).countP Tag.isQuestion = 1 := rfl
  have hzero : (inner.flatMap tagsOf).countP Tag.isQuestion = 0 :=
    List.countP_eq_zero.2 fun tag ht => by rw [hf tag ht]; exact Bool.false_ne_true
  -- all start tags so far are counted, and one of them is that of the open question
  have ha := asked_of_run hr
  have hnone : asked {} = 0 := rfl
  rw [asked, hq', hn, hnone, List.flatMap_append, List.flatMap_cons, List.countP_append, List.countP_append,
    hone, hzero, ← hl] at ha
  have hlength : complete.questions.length = q.questions.length := by
    simp only [Option.elim_some] at ha
    omega
  refine ⟨complete, hc, ?_, hl⟩
  rw [hq', Option.map_some, hp.eq_of_length hlength]

private def Begins (event : Event) (name : String) : Prop :=
  tagsOf event = [.opening name] ∨ tagsOf event = [.opening name, .closing name]

private theorem inside_begins (he : Begins event name) (k : Nat) : inside k (tagsOf event) = tagsOf event := by
  rcases he with he | he <;> rw [he] <;> rfl

private theorem count_begins (he : Begins event name) {counted : Tag → Bool}
    (hc : counted (.closing name) = false) :
    (tagsOf event).countP counted = (counted (.opening name)).toNat := by
  rcases he with he | he <;> rw [he] <;> cases ho : counted (.opening name) <;> simp [hc, ho]

private theorem not_question_begins (he : Begins event name) (hk : Element.ofName? name = some element)
    (hq : element ≠ .question) : ∀ tag ∈ tagsOf event, tag.isQuestion = false := by
  have ho : (Tag.opening name).isQuestion = false :=
    decide_eq_false fun h => hq (Option.some.inj (hk.symm.trans h))
  have hc : (Tag.closing name).isQuestion = false := rfl
  rcases he with he | he <;> simp [he, ho, hc]

/-- A question that is open has its start tag among the events, and its bodies are counted from there. -/
private theorem exists_question (hm : Matched [] (events.flatMap tagsOf)) (hr : Builder.run {} events = .ok b)
    (hn : openNames [] (events.flatMap tagsOf) = above ++ "question" :: below) :
    ∃ earlier attributes inner, events = earlier ++ .start "question" attributes :: inner ∧
      Within (inner.flatMap tagsOf) above ∧ (∀ tag ∈ inner.flatMap tagsOf, tag.isQuestion = false) ∧
      (inner.flatMap tagsOf).countP Tag.isBody = ((events.flatMap tagsOf).foldl Stage.after {}).bodies := by
  obtain ⟨earlier, attributes, inner, he, _, hw, hf⟩ := exists_start hm hr hn
  have hq : ∀ tag ∈ inner.flatMap tagsOf, tag.begins ≠ some .question :=
    fun tag ht => hf tag ht _ List.mem_cons_self
  have hcount : Stage.bodies (((earlier ++ .start "question" attributes :: inner).flatMap tagsOf).foldl
      Stage.after {}) = (inner.flatMap tagsOf).countP Tag.isBody :=
    count_of_open Stage.bodies (fun _ => rfl) (fun _ _ ht => if_neg ht) hq
  rw [← he] at hcount
  exact ⟨earlier, attributes, inner, he, hw, fun tag ht => decide_eq_false (hq tag ht), hcount.symm⟩

/-- A choice that is open has its start tag among the events, in the question that is open, and its items are
counted from there. -/
private theorem exists_choice (hm : Matched [] (events.flatMap tagsOf)) (hr : Builder.run {} events = .ok b)
    (hp : parts (openNames [] (events.flatMap tagsOf)) = [.choice, .question]) :
    ∃ outside attributes items above further below,
      events = outside ++ .start "choice" attributes :: items ∧
      openNames [] (outside.flatMap tagsOf) = above ++ "question" :: below ∧
      Within (items.flatMap tagsOf) further ∧ (∀ tag ∈ items.flatMap tagsOf, tag.isQuestion = false) ∧
      (items.flatMap tagsOf).countP Tag.isItem = ((events.flatMap tagsOf).foldl Stage.after {}).items := by
  obtain ⟨further, under, hnames, hunder⟩ := exists_open hp
  obtain ⟨above, below, hquestion, _⟩ := exists_open hunder
  obtain ⟨outside, attributes, items, he, houtside, hw, hf⟩ := exists_start hm hr hnames
  have hopen : parts (Element.choice.name :: under) = [.choice, .question] :=
    congrArg (Element.choice :: ·) hunder
  rw [hopen] at hf
  have hcount : Stage.items (((outside ++ .start "choice" attributes :: items).flatMap tagsOf).foldl
      Stage.after {}) = (items.flatMap tagsOf).countP Tag.isItem :=
    count_of_open Stage.items (fun _ => rfl) (fun _ _ ht => if_neg ht)
      fun tag ht => hf tag ht .choice (by simp)
  rw [hquestion] at houtside
  refine ⟨outside, attributes, items, above, further, below, he, houtside, hw, ?_, ?_⟩
  · exact fun tag ht => decide_eq_false (hf tag ht .question (by simp))
  · rw [he]
    exact hcount.symm

namespace Halt
variable {gs : List Glyph} {before earlier inner : List Event} {outer : List Open}

theorem tracks (h : Halt (Xml.read gs).events before event b error) :
    Tracks ((before.flatMap tagsOf).foldl Stage.after {}) b ∧
      ((before.flatMap tagsOf).foldl Stage.after {}).names = openNames [] (before.flatMap tagsOf) :=
  ⟨(accepts_of_run tracks_start h.matched.1 h.run).1, Stage.foldl_names {} _⟩

/-- The error is about the question that is open. -/
theorem about_open (h : Halt (Xml.read gs).events before event b error)
    (hs : before = earlier ++ .start "question" attributes :: inner)
    (hn : b.nodes.countP (·.element = .question) = 1)
    (hf : ∀ tag ∈ inner.flatMap tagsOf, tag.isQuestion = false)
    (he : ∀ tag ∈ tagsOf event, tag.isQuestion = false)
    (hb : Breaks (inner.flatMap tagsOf ++ tagsOf event) error) :
    ∃ earlier tags complete, About before event b error b.questionNumber earlier tags complete := by
  have hr := h.run
  rw [hs] at hr
  obtain ⟨complete, hc, hq, hl⟩ := complete_of_open hr hn hf
  have hsize : complete.questions.length + 1 = b.questionNumber := by
    obtain ⟨q, hq', he⟩ := Option.map_eq_some_iff.1 hq
    rw [questionNumber, hq', ← he]
    rfl
  refine ⟨earlier, _, complete, ⟨_, hs.symm⟩, ?_, ?_, hb, ?_, hc, hq, hsize⟩
  · rw [hs]
    simp [tagsOf]
  · exact fun tag ht => (List.mem_append.1 ht).elim (hf tag) (he tag)
  · rw [← hsize, hl, List.countP_append]
    rfl

/-- A second answer body is in the question that is open. -/
private theorem about_second
    (h : Halt (Xml.read gs).events before event b (.duplicateAnswerBody b.questionNumber))
    (he : Begins event name) (hk : Element.ofName? name = some element)
    (hbody : element = .choice ∨ element = .answer) {own : String} {body : AnswerBody}
    (hn : b.nodes = .question own (some body) :: outer) :
    ∃ earlier tags complete, About before event b (.duplicateAnswerBody b.questionNumber) b.questionNumber
      earlier tags complete := by
  have hp := h.sound.nodes
  have hshape := h.sound.shape
  have hcounts := h.tracks.1.counts
  rw [hn] at hp hshape hcounts
  cases hshape
  obtain ⟨above, below, hnames, _⟩ := exists_open hp.symm
  obtain ⟨earlier, attributes, inner, hs, hw, hf, hcount⟩ := exists_question h.matched.1 h.run hnames
  have hone : (Tag.opening name).isBody = true := by simpa [Tag.isBody, Tag.begins, hk] using hbody
  refine h.about_open hs ?_ hf ?_ ⟨?_, ?_⟩
  · rw [hn]
    rfl
  · exact not_question_begins he hk (by rintro rfl; simp at hbody)
  · rw [hw.inside_append, inside_begins he]
  · rw [List.countP_append, hcount, hcounts, count_begins he rfl, hone]
    rfl

/-- The question that ends has no answer body. -/
private theorem about_missing
    (h : Halt (Xml.read gs).events before event b (.missingAnswerBody b.questionNumber))
    (he : event = .close name) (hk : Element.ofName? name = some .question) :
    ∃ earlier tags complete, About before event b (.missingAnswerBody b.questionNumber) b.questionNumber
      earlier tags complete := by
  obtain ⟨ht, hnames⟩ := h.tracks
  have hstep := h.step
  obtain rfl : name = "question" := eq_name_of_ofName hk (.inl rfl)
  subst he
  obtain ⟨below, hb⟩ := List.head?_eq_some_iff.1 h.matched.2.1
  rw [hb] at hnames
  have hx : context ((before.flatMap tagsOf).foldl Stage.after {}).names = some .question := by
    rw [hnames]
    rfl
  obtain ⟨own, body, hn, hcounts⟩ := ht.nodes_question hx
  have hzero : body.toList.length = 0 := by
    cases body with
    | none => rfl
    | some body =>
      -- with a body the end tag would be taken
      obtain ⟨b', hc⟩ := (close_iff ht hnames).2 fun _ => hcounts
      cases hstep.symm.trans hc
  have hb : openNames [] (before.flatMap tagsOf) = [] ++ "question" :: below := hb
  obtain ⟨earlier, attributes, inner, hs, hw, hf, hcount⟩ := exists_question h.matched.1 h.run hb
  refine h.about_open hs ?_ hf ?_ ⟨_, rfl, ?_, ?_⟩
  · rw [hn]
    rfl
  · intro tag ht
    cases List.mem_singleton.1 ht
    rfl
  · rw [hw.inside_append]
    exact List.append_nil _
  · rw [hcount, hcounts, hzero]

/-- The question is an empty element. -/
private theorem about_hollow {b' : Builder} (h : Halt (Xml.read gs).events before event b error)
    (he : event = .empty name attributes) (hk : Element.ofName? name = some .question)
    (hs : b.start name attributes = .ok b') :
    ∃ earlier tags complete, About before event b (.missingAnswerBody b'.questionNumber) b'.questionNumber
      earlier tags complete := by
  obtain rfl : name = "question" := eq_name_of_ofName hk (.inl rfl)
  obtain ⟨complete, hc, hq, hq', hl⟩ := complete_of_start h.run hs
  have hsize : complete.questions.length + 1 = b'.questionNumber := by
    rw [questionNumber, hq']
    rfl
  refine ⟨before, [.closing "question"], complete, List.prefix_rfl, ?_, ?_, ⟨[], rfl, rfl, rfl⟩, ?_, hc, ?_, hsize⟩
  · rw [he, List.flatMap_append, List.flatMap_singleton]
    rfl
  · intro tag ht
    cases List.mem_singleton.1 ht
    rfl
  · rw [← hsize, hl, List.countP_append]
    rfl
  · rw [hq]
    rfl

/-- The item is one too many for the choice that is open in the open question. -/
private theorem about_full (h : Halt (Xml.read gs).events before event b (.tooManyItems b.questionNumber))
    (he : Begins event name) (hk : Element.ofName? name = some .item) {c : Choice}
    (hn : b.nodes = .choice c :: outer) (hl : Choice.maxItems ≤ c.items.length) :
    ∃ earlier tags complete, About before event b (.tooManyItems b.questionNumber) b.questionNumber
      earlier tags complete := by
  have hshape := h.sound.shape
  have hcounts := h.tracks.1.counts
  rw [hn] at hshape hcounts
  cases hshape with
  | choice own hle =>
  have hp : parts (openNames [] (before.flatMap tagsOf)) = [.choice, .question] := by
    rw [← h.sound.nodes, hn]
    rfl
  obtain ⟨outside, choiceTag, items, above, further, below, hchoice, hquestion, hitems, hfresh, hcount⟩ :=
    exists_choice h.matched.1 h.run hp
  have hone : (Tag.opening name).isItem = true := decide_eq_true hk
  have hinside : inside 0 (items.flatMap tagsOf ++ tagsOf event) = items.flatMap tagsOf ++ tagsOf event := by
    rw [hitems.inside_append, inside_begins he]
  -- the question is open outside of the choice
  have hrun := h.run
  have hm := h.matched.1
  rw [hchoice] at hrun hm
  obtain ⟨b₀, hr₀, _⟩ := run_append_eq_ok.1 hrun
  rw [List.flatMap_append, matched_append] at hm
  obtain ⟨earlier, attributes, inner, hs, hw, hf, _⟩ := exists_question hm.1 hr₀ hquestion
  have hinner : (inner ++ .start "choice" choiceTag :: items).flatMap tagsOf =
      inner.flatMap tagsOf ++ ([.opening "choice"] ++ items.flatMap tagsOf) := by simp [tagsOf]
  have hbefore : before = earlier ++ .start "question" attributes ::
      (inner ++ .start "choice" choiceTag :: items) := by
    rw [hchoice, hs, List.append_assoc]
    rfl
  refine h.about_open hbefore ?_ ?_ ?_ ⟨?_, inner.flatMap tagsOf, items.flatMap tagsOf ++ tagsOf event,
    ?_, hinside, ?_⟩
  · rw [hn]
    rfl
  · intro tag ht
    rw [hinner, List.mem_append, List.mem_append, List.mem_singleton] at ht
    rcases ht with ht | rfl | ht
    · exact hf tag ht
    · rfl
    · exact hfresh tag ht
  · exact not_question_begins he hk (by decide)
  · have hbegin : Within [.opening "choice"] ["choice"] := Within.nil.opening "choice"
    rw [hinner, (hw.append (hbegin.append hitems)).inside_append, inside_begins he]
  · rw [hinner, List.append_assoc]
    rfl
  · rw [List.countP_append, hcount, hcounts.2, count_begins he rfl, hone, Nat.le_antisymm hle hl]
    rfl

end Halt

/-- An error that is about a question has its number: the start tags of questions so far are as many, up to
that of this question. The questions before it are complete in the quiz, and the event that fails is the
first one that breaks a rule of the grammar. -/
theorem question_of_error {gs : List Glyph} {n : Nat} (h : ofGlyphs gs = .error error)
    (hn : error.question? = some n) :
    ∃ before event b, Halt (Xml.read gs).events before event b error ∧
      Viable (before.flatMap tagsOf) ∧ ¬ Viable ((before ++ [event]).flatMap tagsOf) ∧
      ∃ earlier tags complete, About before event b error n earlier tags complete := by
  rcases halt_or_end h with ⟨before, event, b, hh⟩ | ⟨b, _, ⟨_, rfl⟩ | ⟨_, he⟩⟩
  · refine ⟨before, event, b, hh, hh.not_viable.1, hh.not_viable.2, ?_⟩
    have refused {name : String} {element : Element} (he : Begins event name)
        (hk : Element.ofName? name = some element) (hr : Refuses b element error) :
        ∃ earlier tags complete, About before event b error n earlier tags complete := by
      cases hr with
      | second hbody hnodes =>
        cases hn
        exact hh.about_second he hk hbody hnodes
      | full hnodes hl =>
        cases hn
        exact hh.about_full he hk hnodes hl
      | root | unrooted | within | body | item => cases hn
    cases hh.fails with
    | start hk hr => exact refused (.inl rfl) hk hr
    | empty hk hr => exact refused (.inr rfl) hk hr
    | close hk =>
      cases hn
      exact hh.about_missing rfl hk
    | hollow hk hs =>
      cases hn
      exact hh.about_hollow rfl hk hs
  · cases hn
  · rw [finish] at he
    split at he <;> cases he <;> cases hn

/-- A question in markup that has its choice in more markup, and is given an answer after that. -/
theorem question_of_error_marked_choice :
    let gs := glyphs ("<quiz><question><answer/></question><b><question><i><choice><item/></choice></i>" ++
      "<answer/></question></b></quiz>")
    ofGlyphs gs = .error (.duplicateAnswerBody 2) ∧
      (ParseError.duplicateAnswerBody 2).question? = some 2 ∧
      ∃ before event b, Halt (Xml.read gs).events before event b (.duplicateAnswerBody 2) ∧
        Viable (before.flatMap tagsOf) ∧ ¬ Viable ((before ++ [event]).flatMap tagsOf) ∧
        ∃ earlier tags complete, About before event b (.duplicateAnswerBody 2) 2 earlier tags complete := by
  intro gs
  have hr : Xml.read gs =
      ⟨[.start "quiz" [], .start "question" [], .empty "answer" [], .close "question", .start "b" [],
        .start "question" [], .start "i" [], .start "choice" [], .empty "item" [], .close "choice",
        .close "i", .empty "answer" [], .close "question", .close "b", .close "quiz"], none⟩ := by
    decide +kernel
  have h : ofGlyphs gs = .error (.duplicateAnswerBody 2) := congrArg ofReading hr
  exact ⟨h, rfl, question_of_error h rfl⟩

end QuizPress.Quiz
