import QuizPress.Proofs.Quiz.Grammar

/-! A builder takes the documents of the grammar and no others: the stages are what it knows of the
tags so far. -/
namespace QuizPress.Quiz
open Text Xml Builder

/-- What the open parts tell of the counts: an answer body that is begun or given counts for its
question, and an item that is begun or given counts for its choice. -/
def Counts (bodies items : Nat) : List Open → Prop
  | .question _ body :: _ => bodies = body.toList.length
  | .choice c :: _ => bodies = 1 ∧ items = c.items.length
  | .item _ :: .choice c :: _ => bodies = 1 ∧ items = c.items.length + 1
  | .answer _ :: _ => bodies = 1
  | _ => True

/-- A builder that has come to a stage. -/
structure Tracks (s : Stage) (b : Builder) : Prop where
  sound : Sound s.names b
  rooted : b.quiz.isSome = s.rooted
  counts : Counts s.bodies s.items b.nodes

theorem tracks_start : Tracks {} {} := ⟨sound_start, rfl, trivial⟩

variable {s : Stage} {b b' : Builder} {name : String} {element : Element} {attributes : Attributes}
  {text : String}

theorem Tracks.nodes_nil (h : Tracks s b) : context s.names = none ↔ b.nodes = [] := by
  rw [h.sound.context_eq, Option.map_eq_none_iff, List.head?_eq_none_iff]

theorem Tracks.nodes_question (h : Tracks s b) (hx : context s.names = some .question) :
    ∃ own body, b.nodes = [.question own body] ∧ s.bodies = body.toList.length := by
  rw [h.sound.context_eq] at hx
  have hs := h.sound.shape
  have hc := h.counts
  generalize b.nodes = nodes at hx hs hc ⊢
  cases hs with
  | question own body => exact ⟨own, body, rfl, hc⟩
  | _ => cases hx

/-- A question has room for an answer body where it is the innermost part and none is counted. -/
theorem Tracks.nodes_bare (h : Tracks s b) : (∃ own outer, b.nodes = .question own none :: outer) ↔
    context s.names = some .question ∧ s.bodies = 0 := by
  constructor
  · rintro ⟨own, outer, hn⟩
    have hc := h.counts
    rw [hn] at hc
    rw [h.sound.context_eq, hn]
    exact ⟨rfl, hc⟩
  · rintro ⟨hx, hb⟩
    obtain ⟨own, body, hn, hc⟩ := h.nodes_question hx
    cases body with
    | none => exact ⟨own, [], hn⟩
    | some body =>
      rw [hc] at hb
      cases hb

theorem Tracks.nodes_choice (h : Tracks s b) (hx : context s.names = some .choice) :
    ∃ c outer, b.nodes = .choice c :: outer ∧ s.items = c.items.length := by
  rw [h.sound.context_eq] at hx
  have hs := h.sound.shape
  have hc := h.counts
  generalize b.nodes = nodes at hx hs hc ⊢
  cases hs with
  | choice own hl => exact ⟨_, _, rfl, hc.2⟩
  | _ => cases hx

theorem tracks_characters (h : Tracks s b) (text : String) : Tracks s (b.characters text) := by
  refine ⟨sound_characters h.sound text, ?_, ?_⟩
  · rw [characters_quiz]
    exact h.rooted
  · rw [characters_nodes]
    exact h.counts

/-- The rules for start tags take only what can come next. -/
theorem allows_of_opens {scopes : List Scope} (h : Tracks s b) (hk : Element.ofName? name = some element)
    (ho : Opens { b with scopes } attributes element b') : s.Allows (.opening name) := by
  simp only [Stage.Allows, hk]
  cases ho with
  | quiz hq =>
    rw [← h.rooted, show b.quiz = none from hq]
    rfl
  | note hf =>
    cases element with
    | metaData | link | course | quizListItem => exact trivial
    | _ => cases hf
  | discussion hq hn | question hq hn =>
    rw [h.nodes_nil, ← h.rooted]
    exact ⟨hq, hn⟩
  | choice hn | answer hn => exact h.nodes_bare.1 ⟨_, _, hn⟩
  | item hn hl =>
    have hx : context s.names = some .choice := by
      rw [h.sound.context_eq, show b.nodes = _ from hn]
      rfl
    obtain ⟨c, outer, hn', hi⟩ := h.nodes_choice hx
    cases hn.symm.trans hn'
    rw [hi]
    exact ⟨hx, hl⟩
  | text he =>
    cases element with
    | text | tag | response | whenRight | whenWrong => exact trivial
    | _ => simp [Element.textual] at he

/-- There is a rule for every start tag that can come next. -/
theorem opens_of_allows {scopes : List Scope} (h : Tracks s b) (hk : Element.ofName? name = some element)
    (ha : s.Allows (.opening name)) : ∃ b', Opens { b with scopes } attributes element b' := by
  simp only [Stage.Allows, hk] at ha
  cases element with
  | quiz =>
    have hq : b.quiz.isSome = false := h.rooted.trans ha
    exact ⟨_, .quiz (Option.isNone_iff_eq_none.1 (Option.isSome_eq_false_iff.1 hq))⟩
  | metaData | link | course | quizListItem => exact ⟨_, .note rfl⟩
  | discussion =>
    rw [h.nodes_nil, ← h.rooted] at ha
    exact ⟨_, .discussion ha.1 ha.2⟩
  | question =>
    rw [h.nodes_nil, ← h.rooted] at ha
    exact ⟨_, .question ha.1 ha.2⟩
  | choice =>
    obtain ⟨own, outer, hn⟩ := h.nodes_bare.2 ha
    exact ⟨_, .choice hn⟩
  | answer =>
    obtain ⟨own, outer, hn⟩ := h.nodes_bare.2 ha
    exact ⟨_, .answer hn⟩
  | item =>
    obtain ⟨c, outer, hn, hi⟩ := h.nodes_choice ha.1
    rw [hi] at ha
    exact ⟨_, .item hn ha.2⟩
  | text | tag | response | whenRight | whenWrong => exact ⟨_, .text (by decide)⟩

theorem start_iff (h : Tracks s b) (attributes : Attributes) :
    (∃ b', b.start name attributes = .ok b') ↔ s.Allows (.opening name) := by
  rw [Builder.start]
  cases hk : Element.ofName? name with
  | none => simp [Stage.Allows, hk]
  | some element =>
    simp only [openElement_iff]
    constructor
    · rintro ⟨_, ho⟩
      exact allows_of_opens h hk ho
    · exact opens_of_allows h hk

theorem opens_rooted (ho : Opens b attributes element b') :
    b'.quiz.isSome = (b.quiz.isSome || decide (element = .quiz)) := by
  cases ho with
  | quiz => simp
  | note hf =>
    cases element with
    | quiz => cases hf
    | _ => simp [mapQuiz]
  | text he =>
    cases element with
    | quiz => simp [Element.textual] at he
    | _ => simp
  | _ => simp [pushNode]

theorem opens_counts (ho : Opens b attributes element b') (hk : Element.ofName? name = some element)
    (h : Counts s.bodies s.items b.nodes) :
    Counts (s.after (.opening name)).bodies (s.after (.opening name)).items b'.nodes := by
  simp only [Stage.after, Tag.isBody, Tag.isItem, Tag.begins, hk]
  cases ho with
  | quiz => exact h
  | note hf =>
    cases element with
    | metaData | link | course | quizListItem => exact h
    | _ => cases hf
  | discussion => exact trivial
  | question => rfl
  | choice hn =>
    rw [hn] at h
    exact ⟨congrArg (· + 1) h, rfl⟩
  | answer hn =>
    rw [hn] at h
    exact congrArg (· + 1) h
  | item hn =>
    rw [hn] at h
    simpa [pushNode, Counts, hn] using h
  | text he =>
    cases element with
    | text | tag | response | whenRight | whenWrong => exact h
    | _ => simp [Element.textual] at he

theorem tracks_of_start (h : Tracks s b) (hs : b.start name attributes = .ok b') :
    Tracks (s.after (.opening name)) b' := by
  have hsound : Sound (name :: s.names) b' := sound_of_start h.sound hs
  rw [Builder.start] at hs
  cases hk : Element.ofName? name with
  | none =>
    rw [hk] at hs
    cases hs
    refine ⟨hsound, ?_, ?_⟩
    · simpa [Stage.after, Tag.isRoot, Tag.begins, hk] using h.rooted
    · simpa [Stage.after, Tag.isBody, Tag.isItem, Tag.begins, hk] using h.counts
  | some element =>
    simp only [hk, openElement_iff] at hs
    refine ⟨hsound, ?_, opens_counts hs hk h.counts⟩
    rw [opens_rooted hs, h.rooted]
    simp [Stage.after, Tag.isRoot, Tag.begins, hk]

theorem closes_rooted (hc : Closes b text element b') : b'.quiz.isSome = b.quiz.isSome := by
  cases hc with
  | discussion hn hq | question hn hq => rw [hq]; rfl
  | _ => rfl

theorem counts_takeText {bodies items : Nat} {node : Open} {outer : List Open}
    (h : Counts bodies items (node :: outer)) :
    Counts bodies items (takeText element text node :: outer) := by
  cases node with
  | item i =>
    cases outer with
    | nil => exact h
    | cons below outer => cases below <;> exact h
  | _ => exact h

theorem closes_counts {bodies items : Nat} (hc : Closes b text element b') (hs : Shape b.nodes)
    (h : Counts bodies items b.nodes) : Counts bodies items b'.nodes := by
  cases hc with
  | margin | idle => exact h
  | discussion hn | question hn =>
    -- below a section nothing is open, and nothing is counted
    rw [hn] at hs
    cases hs
    exact trivial
  | choice he hn =>
    rw [hn] at h
    exact h.1
  | answer he hn =>
    rw [hn] at h
    exact h
  | item hn =>
    rw [hn] at h
    simpa [Counts] using h
  | text he hn =>
    rw [hn] at h
    exact counts_takeText h

theorem close_iff {names : List String} (h : Tracks s b) (hn : s.names = name :: names) :
    (∃ b', b.close name = .ok b') ↔ s.Allows (.closing name) := by
  have hsound : Sound (name :: names) b := hn ▸ h.sound
  simp only [Stage.Allows]
  constructor
  · rintro ⟨b', hs⟩ hk
    simp only [close, hk, closeElement_iff] at hs
    have hc := h.counts
    cases hs with
    | margin he => simp [Element.marginal] at he
    | question hb =>
      rw [show b.nodes = _ from hb] at hc
      exact hc
    | choice he => simp at he
    | answer he => simp at he
    | text he => simp [Element.textual] at he
    | idle he => simp [Element.textual] at he
  · intro hq
    cases hs : b.close name with
    | ok b' => exact ⟨b', rfl⟩
    | error error =>
      -- the only fault there could be is a question without a body, and one is counted
      obtain ⟨hk, rfl⟩ := error_of_close hsound hs
      have hx : context s.names = some .question := by
        rw [context, hn, parts_cons, part_of_known hk]
        rfl
      obtain ⟨own, body, hb, hc⟩ := h.nodes_question hx
      rw [hq hk] at hc
      cases body with
      | none => cases hc
      | some body =>
        simp only [close, hk, closeElement, hb, giveSection] at hs
        split at hs <;> cases hs

theorem tracks_of_close {names : List String} (h : Tracks s b) (hn : s.names = name :: names)
    (hs : b.close name = .ok b') : Tracks (s.after (.closing name)) b' := by
  have hsound : Sound (s.after (.closing name)).names b' := by
    rw [Stage.after, openNames, openNames, hn]
    exact sound_of_close (hn ▸ h.sound) hs
  have hkeeps := close_keeps (P := fun quiz nodes =>
    Shape nodes ∧ quiz.isSome = s.rooted ∧ Counts s.bodies s.items nodes)
    (fun _ _ _ _ hc hp => ⟨shape_of_closes hc hp.1, (closes_rooted hc).trans hp.2.1,
      closes_counts hc hp.1 hp.2.2⟩) hs ⟨h.sound.shape, h.rooted, h.counts⟩
  refine ⟨hsound, ?_, ?_⟩
  · rw [Stage.after_closing_rooted]
    exact hkeeps.2.1
  · rw [Stage.after_closing_bodies, Stage.after_closing_items]
    exact hkeeps.2.2

theorem empty_iff (h : Tracks s b) : (∃ b', b.empty name attributes = .ok b') ↔
    s.Allows (.opening name) ∧ (s.after (.opening name)).Allows (.closing name) := by
  rw [Builder.empty]
  cases hk : Element.ofName? name with
  | none => simp [Stage.Allows, hk]
  | some element =>
    rw [← start_iff h attributes]
    constructor
    · rintro ⟨b', hs⟩
      obtain ⟨b₁, ho, hc⟩ := bind_eq_ok.1 hs
      exact ⟨⟨b₁, ho⟩, (close_iff (tracks_of_start h ho) rfl).1 ⟨b', hc⟩⟩
    · rintro ⟨⟨b₁, ho⟩, ha⟩
      obtain ⟨b', hc⟩ := (close_iff (tracks_of_start h ho) rfl).2 ha
      exact ⟨b', bind_eq_ok.2 ⟨b₁, ho, hc⟩⟩

theorem tracks_of_step {event : Event} (h : Tracks s b) (hm : Matched s.names (tagsOf event))
    (hs : b.step event = .ok b') : Tracks ((tagsOf event).foldl Stage.after s) b' := by
  cases event with
  | start name attributes => exact tracks_of_start h hs
  | close name =>
    obtain ⟨names, hn⟩ := List.head?_eq_some_iff.1 hm.1
    exact tracks_of_close h hn hs
  | empty name attributes =>
    rcases empty_cases hs with ⟨hu, text, rfl⟩ | ⟨b₁, ho, hc⟩
    · rw [tagsOf, List.foldl_cons, List.foldl_cons, List.foldl_nil, Stage.after_unknown s hu]
      exact tracks_characters h text
    · exact tracks_of_close (tracks_of_start h ho) rfl hc
  | text content | reference name =>
    cases hs
    exact tracks_characters h _

/-- A builder takes an event where its tags can come next. -/
theorem step_iff {event : Event} {rest : List Tag} (h : Tracks s b) (hm : Matched s.names (tagsOf event)) :
    s.Accepts (tagsOf event ++ rest) ↔
      (∃ b', b.step event = .ok b') ∧ ((tagsOf event).foldl Stage.after s).Accepts rest := by
  cases event with
  | start name attributes => rw [Builder.step, start_iff h]; rfl
  | close name =>
    obtain ⟨names, hn⟩ := List.head?_eq_some_iff.1 hm.1
    rw [Builder.step, close_iff h hn]
    rfl
  | empty name attributes =>
    rw [Builder.step, empty_iff h, and_assoc]
    rfl
  | text content | reference name => exact ⟨fun ha => ⟨⟨_, rfl⟩, ha⟩, fun ha => ha.2⟩

/-- A builder goes through what is still to come where its tags can come one by one. -/
theorem resume_iff {events : List Event} (h : Tracks s b) (hm : Matched s.names (events.flatMap tagsOf)) :
    (∃ quiz, b.resume ⟨events, none⟩ = .ok quiz) ↔ s.Accepts (events.flatMap tagsOf) := by
  induction events generalizing s b with
  | nil =>
    rw [List.flatMap_nil, Stage.Accepts, h.nodes_nil, ← h.rooted, Option.isSome_iff_exists]
    constructor
    · rintro ⟨quiz, hq⟩
      obtain ⟨hn, hr⟩ := finish_eq_ok.1 hq
      exact ⟨⟨quiz, hr⟩, hn⟩
    · rintro ⟨⟨quiz, hr⟩, hn⟩
      exact ⟨quiz, finish_eq_ok.2 ⟨hn, hr⟩⟩
  | cons event events ih =>
    rw [List.flatMap_cons, matched_append] at hm
    have hm' : Matched ((tagsOf event).foldl Stage.after s).names (events.flatMap tagsOf) := by
      rw [Stage.foldl_names]
      exact hm.2
    have hcons : b.resume ⟨event :: events, none⟩ =
        b.step event >>= fun b => b.resume ⟨events, none⟩ :=
      resume_cons b event ⟨events, none⟩
    rw [List.flatMap_cons, step_iff h hm.1, hcons]
    constructor
    · rintro ⟨quiz, hq⟩
      obtain ⟨b₁, hs, hr⟩ := bind_eq_ok.1 hq
      exact ⟨⟨b₁, hs⟩, (ih (tracks_of_step h hm.1 hs) hm').1 ⟨quiz, hr⟩⟩
    · rintro ⟨⟨b₁, hs⟩, ha⟩
      obtain ⟨quiz, hr⟩ := (ih (tracks_of_step h hm.1 hs) hm').2 ha
      exact ⟨quiz, bind_eq_ok.2 ⟨b₁, hs, hr⟩⟩

/-- A document is a quiz where it reads without fault and its tags are those of the grammar. -/
theorem parse_ok_iff (document : String) : (∃ quiz, parse document = .ok quiz) ↔
    (Xml.read (glyphs document)).fault = none ∧
      Grammatical ((Xml.read (glyphs document)).events.flatMap tagsOf) := by
  have hm := matched_of_read (glyphs document)
  have hp : parse document = Builder.resume {} (Xml.read (glyphs document)) := rfl
  rw [hp]
  generalize Xml.read (glyphs document) = reading at hm
  obtain ⟨events, fault⟩ := reading
  rw [grammatical_iff_accepts hm, ← resume_iff tracks_start hm]
  constructor
  · rintro ⟨quiz, hq⟩
    obtain rfl : fault = none := (resume_eq_ok.1 hq).1
    exact ⟨rfl, quiz, hq⟩
  · rintro ⟨hf, hq⟩
    obtain rfl : fault = none := hf
    exact hq

/-- Of events whose end tags match, the quizzes are those with the tags of the grammar. -/
theorem ofReading_ok_iff {events : List Event} (hm : Matched [] (events.flatMap tagsOf)) :
    (∃ quiz, ofReading ⟨events, none⟩ = .ok quiz) ↔ Grammatical (events.flatMap tagsOf) := by
  rw [grammatical_iff_accepts hm]
  exact resume_iff tracks_start hm

/-- Markup without meaning lies around a question and around its choice, and the root is left open. -/
theorem ofReading_ok_iff_marked_question :
    let events : List Event := [.start "quiz" [], .start "b" [], .start "question" [], .start "i" [],
      .empty "choice" [], .close "i", .close "question"]
    Matched [] (events.flatMap tagsOf) ∧
      ofReading ⟨events, none⟩ = .ok { questions := [⟨"", .choice {}⟩] } ∧
      Grammatical (events.flatMap tagsOf) := by
  intro events
  have hm : Matched [] (events.flatMap tagsOf) := ⟨rfl, rfl, rfl, trivial⟩
  have hr : ofReading ⟨events, none⟩ = .ok { questions := [⟨"", .choice {}⟩] } := rfl
  exact ⟨hm, hr, (ofReading_ok_iff hm).1 ⟨_, hr⟩⟩

end QuizPress.Quiz
