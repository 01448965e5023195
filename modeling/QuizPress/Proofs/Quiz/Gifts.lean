import QuizPress.Proofs.Quiz.Content

/-! What a content gives to a builder that reads it: a text to the innermost scope, texts and parts to
the innermost open part, and discussions and questions to the quiz. -/
namespace QuizPress.Quiz
open Text Xml Builder Content

/-- An open part before and after it is given something. Of a question's answer bodies none is lost,
be it one too many. -/
inductive Feeds (gifts : List Gift) : Open → Open → Prop where
  | discussion (d : Discussion) : Feeds gifts (.discussion d)
      (.discussion { d with body := (textsOf .text gifts).getLastD d.body })
  | question (text : String) {old new : Option AnswerBody}
      (h : new.toList = old.toList ++ (partsOf [.choice, .answer] gifts).map Part.body) :
      Feeds gifts (.question text old) (.question ((textsOf .text gifts).getLastD text) new)
  | choice (c : Choice) : Feeds gifts (.choice c)
      (.choice { c with items := c.items ++ (partsOf [.item] gifts).map Part.item })
  | item (i : Item) : Feeds gifts (.item i)
      (.item { i with
        text := (textsOf .text gifts).getLastD i.text
        response := (textsOf .response gifts).getLastD i.response })
  | answer (a : Answer) : Feeds gifts (.answer a)
      (.answer { a with
        tag := ((textsOf .tag gifts).map tag?).getLastD a.tag
        whenRight := (textsOf .whenRight gifts).getLastD a.whenRight
        whenWrong := (textsOf .whenWrong gifts).getLastD a.whenWrong })

variable {gifts gifts' : List Gift} {node node' node'' : Open} {nodes nodes' nodes'' : List Open}

theorem Feeds.refl (node : Open) : Feeds [] node node := by
  cases node with
  | discussion d => exact .discussion d
  | question text body => exact .question text (List.append_nil _).symm
  | choice c =>
    have h : Feeds [] (.choice c) (.choice { c with items := c.items ++ [] }) := .choice c
    rwa [List.append_nil] at h
  | item i => exact .item i
  | answer a => exact .answer a

theorem Feeds.trans (h : Feeds gifts node node') (h' : Feeds gifts' node' node'') :
    Feeds (gifts ++ gifts') node node'' := by
  cases h with
  | discussion d =>
    cases h'
    rw [← getLastD_append, ← textsOf_append]
    exact .discussion d
  | question text hb =>
    cases h' with
    | question _ hb' =>
      rw [← getLastD_append, ← textsOf_append]
      refine .question text ?_
      rw [hb', hb, partsOf_append, List.map_append, List.append_assoc]
  | choice c =>
    cases h'
    simp only [List.append_assoc, ← List.map_append, ← partsOf_append]
    exact .choice c
  | item i =>
    cases h'
    simp only [← getLastD_append, ← textsOf_append]
    exact .item i
  | answer a =>
    cases h'
    simp only [← getLastD_append, ← List.map_append, ← textsOf_append]
    exact .answer a

inductive Fed (gifts : List Gift) : List Open → List Open → Prop where
  | nil : Fed gifts [] []
  | cons {node node' : Open} (outer : List Open) (h : Feeds gifts node node') :
      Fed gifts (node :: outer) (node' :: outer)

theorem Fed.of_cons {outer : List Open} (h : Fed gifts (node :: outer) nodes') :
    ∃ node', nodes' = node' :: outer ∧ Feeds gifts node node' := by
  cases h with
  | cons _ h => exact ⟨_, rfl, h⟩

theorem Fed.refl (nodes : List Open) : Fed [] nodes nodes := by
  cases nodes with
  | nil => exact .nil
  | cons node outer => exact .cons outer (.refl node)

theorem Fed.trans (h : Fed gifts nodes nodes') (h' : Fed gifts' nodes' nodes'') :
    Fed (gifts ++ gifts') nodes nodes'' := by
  cases h with
  | nil =>
    cases h'
    exact .nil
  | cons outer h =>
    cases h' with
    | cons _ h' => exact .cons outer (h.trans h')

/-- What a text element does to a part is what its text gives to the part. -/
theorem feeds_takeText (element : Element) (text : String) (node : Open) :
    Feeds [.text element text] node (takeText element text node) := by
  cases node with
  | discussion d =>
    have h : Feeds [.text element text] (.discussion d) _ := .discussion d
    rw [textsOf_text] at h
    rw [takeText]
    split at h <;> simp_all
  | question own body =>
    have h : Feeds [.text element text] (.question own body) _ :=
      .question own (List.append_nil body.toList).symm
    rw [textsOf_text] at h
    rw [takeText]
    split at h <;> simp_all
  | choice c =>
    have h : Feeds [.text element text] (.choice c) (.choice { c with items := c.items ++ [] }) :=
      .choice c
    rwa [List.append_nil] at h
  | item i =>
    have h : Feeds [.text element text] (.item i) _ := .item i
    cases element <;> exact h
  | answer a =>
    have h : Feeds [.text element text] (.answer a) _ := .answer a
    cases element <;> exact h

theorem takeText_marginal {element : Element} (h : element ∈ Element.marginal) (text : String)
    (node : Open) : takeText element text node = node := by
  simp only [Element.marginal, List.mem_cons, List.not_mem_nil, or_false] at h
  rcases h with rfl | rfl | rfl | rfl | rfl <;> cases node <;> rfl

def top (nodes : List Open) : Option Element := nodes.head?.map Open.element

def discussionsOf (root : Option Quiz) : List Discussion := root.elim [] (·.discussions)

def questionsOf (root : Option Quiz) : List Question := root.elim [] (·.questions)

structure Collected (root : Option Quiz) (gifts : List Gift) (root' : Option Quiz) : Prop where
  discussions : discussionsOf root' =
    discussionsOf root ++ (partsOf [.discussion] gifts).map Part.discussion
  questions : (questionsOf root').map some =
    (questionsOf root).map some ++ (partsOf [.question] gifts).map Part.question?

variable {root root' root'' : Option Quiz}

theorem Collected.refl (root : Option Quiz) : Collected root [] root :=
  ⟨(List.append_nil _).symm, (List.append_nil _).symm⟩

theorem Collected.trans (h : Collected root gifts root') (h' : Collected root' gifts' root'') :
    Collected root (gifts ++ gifts') root'' where
  discussions := by
    rw [h'.discussions, h.discussions, partsOf_append, List.map_append, List.append_assoc]
  questions := by
    rw [h'.questions, h.questions, partsOf_append, List.map_append, List.append_assoc]

/-- While a part is read no discussion and no question is added. -/
theorem Collected.of_placed {content : Content} {kind : Element}
    (h : Collected root content.gifts root') (hp : content.Placed (some kind)) :
    discussionsOf root' = discussionsOf root ∧ questionsOf root' = questionsOf root := by
  obtain ⟨hd, hq⟩ := h
  rw [partsOf_section hp (.inl rfl), List.map_nil, List.append_nil] at hd
  rw [partsOf_section hp (.inr rfl), List.map_nil, List.append_nil] at hq
  exact ⟨hd, (List.map_inj_right fun _ _ => Option.some.inj).1 hq⟩

/-- Parts other than discussions and questions leave both lists as they are. -/
theorem Collected.of_eq {kind : Element} {attributes : Attributes} {inner : Content}
    (hk : kind ≠ .discussion ∧ kind ≠ .question) (hd : discussionsOf root' = discussionsOf root)
    (hx : questionsOf root' = questionsOf root) :
    Collected root [.part ⟨kind, attributes, inner⟩] root' := by
  have hnone {section' : Element} (hne : kind ≠ section') :
      partsOf [section'] [.part ⟨kind, attributes, inner⟩] = [] :=
    List.filter_eq_nil_iff.2 fun part hp he => by
      cases List.mem_singleton.1 hp
      exact hne (List.mem_singleton.1 (of_decide_eq_true he))
  refine ⟨?_, ?_⟩
  · rw [hnone hk.1, hd, List.map_nil, List.append_nil]
  · rw [hnone hk.2, hx, List.map_nil, List.append_nil]

def said (text : String) (scope : Scope) : Scope := { scope with text := scope.text ++ text }

theorem characters_said (b : Builder) (text : String) :
    (b.characters text).scopes = b.scopes.modifyHead (said text) := by
  obtain ⟨quiz, nodes, scopes⟩ := b
  cases scopes <;> rfl

theorem modifyHead_said_empty (scopes : List Scope) : scopes.modifyHead (said "") = scopes := by
  cases scopes <;> simp [said]

/-- A builder that has been told a text, and that was given gifts. -/
structure Gains (b : Builder) (text : String) (gifts : List Gift) (b' : Builder) : Prop where
  scopes : b'.scopes = b.scopes.modifyHead (said text)
  nodes : Fed gifts b.nodes b'.nodes
  sections : Collected b.quiz gifts b'.quiz

variable {b b' b'' b₁ b₂ b₃ : Builder} {text text' name : String} {attributes : Attributes} {kind : Element}
  {inner : Content}

theorem Gains.refl (b : Builder) : Gains b "" [] b :=
  ⟨(modifyHead_said_empty _).symm, .refl _, .refl _⟩

theorem Gains.trans (h : Gains b text gifts b') (h' : Gains b' text' gifts' b'') :
    Gains b (text ++ text') (gifts ++ gifts') b'' where
  scopes := by
    rw [h'.scopes, h.scopes]
    cases b.scopes <;> simp [said, String.append_assoc]
  nodes := h.nodes.trans h'.nodes
  sections := h.sections.trans h'.sections

theorem gains_characters (b : Builder) (text : String) : Gains b text [] (b.characters text) := by
  refine ⟨characters_said b text, ?_, ?_⟩
  · rw [characters_nodes]
    exact .refl _
  · rw [characters_quiz]
    exact .refl _

/-- The tags of an element that is no part give its text to the part around it. -/
private theorem opens_plain (hk : kind.isPart = false) (ho : Opens b attributes kind b') :
    b'.nodes = b.nodes ∧ Collected b.quiz [] b'.quiz := by
  cases ho with
  | quiz hq =>
    refine ⟨rfl, ?_⟩
    rw [hq]
    exact ⟨rfl, rfl⟩
  | note hf =>
    refine ⟨rfl, ?_⟩
    cases kind with
    | metaData | link | course | quizListItem =>
      cases hf
      rw [mapQuiz]
      cases b.quiz with
      | none => exact .refl none
      | some q => exact ⟨(List.append_nil _).symm, (List.append_nil _).symm⟩
    | _ => cases hf
  | text => exact ⟨rfl, .refl _⟩
  | _ => cases hk

private theorem closes_plain (hk : kind.isPart = false) (hc : Closes b text kind b') :
    Fed [.text kind text] b.nodes b'.nodes ∧ b'.quiz = b.quiz := by
  cases hc with
  | margin he =>
    refine ⟨?_, rfl⟩
    cases b.nodes with
    | nil => exact .nil
    | cons node outer =>
      have h := feeds_takeText kind text node
      rw [takeText_marginal he] at h
      exact .cons outer h
  | text he hn =>
    rw [hn]
    exact ⟨.cons _ (feeds_takeText kind text _), rfl⟩
  | idle he hn =>
    rw [hn]
    exact ⟨.nil, rfl⟩
  | choice he | answer he => rcases he with rfl | rfl <;> cases hk
  | _ => cases hk

private theorem discussion_eq (kind : Element) (attributes : Attributes) (inner : Content) :
    Part.discussion ⟨kind, attributes, inner⟩ =
      if ((textsOf .text inner.gifts).getLastD "").isEmpty then
        ⟨attributes.valueD "heading" "Discussion", trim inner.ownText⟩
      else ⟨attributes.valueD "heading" "Discussion", (textsOf .text inner.gifts).getLastD ""⟩ := by
  rw [Part.discussion, Part.text]
  split <;> rfl

private theorem question_eq {body : AnswerBody}
    (h : (partsOf [.choice, .answer] inner.gifts).map Part.body = [body]) :
    Part.question? ⟨kind, attributes, inner⟩ =
      some ⟨(textsOf .text inner.gifts).getLastD "", body⟩ := by
  obtain ⟨part, hp, rfl⟩ := List.map_eq_singleton_iff.1 h
  rw [Part.question?, hp]
  rfl

private theorem getLastD_map_tag (texts : List String) :
    (texts.map tag?).getLastD none = tag? (texts.getLastD "") := by
  rw [List.getLastD_eq_getLast?, List.getLastD_eq_getLast?, List.getLast?_map]
  cases texts.getLast? <;> rfl

private theorem giveSection_eq_ok {outer : List Open} {f : Quiz → Quiz}
    (h : b.giveSection outer f = .ok b') :
    ∃ q, b.quiz = some q ∧ b' = { b with quiz := some (f q), nodes := outer } := by
  unfold giveSection at h
  split at h
  · rename_i q hq
    cases h
    exact ⟨q, hq, rfl⟩
  · cases h

/-- The tags of a part give the part to what is around it. -/
private theorem gives_part (hk : kind.isPart = true) (ho : Opens b attributes kind b₁)
    (hf : Fed inner.gifts b₁.nodes b₂.nodes) (hq : Collected b₁.quiz inner.gifts b₂.quiz)
    (hp : inner.Placed (some kind)) (hc : b₂.closeElement kind (trim inner.ownText) = .ok b₃) :
    Fed [.part ⟨kind, attributes, inner⟩] b.nodes b₃.nodes ∧
      Collected b.quiz [.part ⟨kind, attributes, inner⟩] b₃.quiz := by
  obtain ⟨hd, hx⟩ := hq.of_placed hp
  cases ho with
  | quiz => cases hk
  | note hf' =>
    cases kind with
    | discussion | question | choice | answer | item => cases hf'
    | _ => cases hk
  | text he =>
    rw [not_isPart_of_textual he] at hk
    cases hk
  | discussion hr hn =>
    obtain ⟨node', hn₂, hf⟩ := hf.of_cons
    cases hf
    simp only [closeElement, hn₂] at hc
    obtain ⟨q, hq₂, rfl⟩ := giveSection_eq_ok hc
    rw [hq₂] at hd hx
    rw [hn]
    refine ⟨.nil, ?_, (congrArg (List.map some) hx).trans (List.append_nil _).symm⟩
    change q.discussions ++ [_] = discussionsOf b.quiz ++ [Part.discussion ⟨_, attributes, inner⟩]
    rw [discussion_eq]
    exact congrArg (· ++ [_]) hd
  | question hr hn =>
    obtain ⟨node', hn₂, hf⟩ := hf.of_cons
    cases hf with
    | @question _ _ new hnew =>
      cases new with
      | none =>
        simp only [closeElement, hn₂] at hc
        cases hc
      | some body =>
        simp only [closeElement, hn₂] at hc
        obtain ⟨q, hq₂, rfl⟩ := giveSection_eq_ok hc
        rw [hq₂] at hd hx
        rw [hn]
        refine ⟨.nil, hd.trans (List.append_nil _).symm, ?_⟩
        change (q.questions ++ [_]).map some =
          (questionsOf b.quiz).map some ++ [Part.question? ⟨_, attributes, inner⟩]
        rw [List.map_append, question_eq hnew.symm]
        exact congrArg (List.map some · ++ [_]) hx
  | choice hn =>
    obtain ⟨node', hn₂, hf⟩ := hf.of_cons
    cases hf
    simp only [closeElement, hn₂, hn, giveBody] at hc
    cases hc
    rw [hn]
    exact ⟨.cons _ (.question _ rfl), .of_eq (by decide) hd hx⟩
  | answer hn =>
    obtain ⟨node', hn₂, hf⟩ := hf.of_cons
    cases hf
    simp only [closeElement, hn₂, hn, giveBody, getLastD_map_tag] at hc
    cases hc
    rw [hn]
    exact ⟨.cons _ (.question _ rfl), .of_eq (by decide) hd hx⟩
  | item hn hl =>
    obtain ⟨node', hn₂, hf⟩ := hf.of_cons
    cases hf
    simp only [closeElement, hn₂, hn] at hc
    cases hc
    rw [hn]
    exact ⟨.cons _ (.choice _), .of_eq (by decide) hd hx⟩

private theorem top_of_opens (ho : Opens b attributes kind b') :
    top b'.nodes = if kind.isPart then some kind else top b.nodes := by
  rw [top, ← List.head?_map, opens_nodes ho]
  split
  · rfl
  · rw [List.nil_append, List.head?_map, top]

private theorem top_of_start (h : b.start name attributes = .ok b') :
    top b'.nodes = (part? name).or (top b.nodes) := by
  unfold start at h
  split at h
  · rename_i hu
    cases h
    rw [part_of_unknown hu]
    rfl
  · rename_i kind hk
    rw [top_of_opens (openElement_iff.1 h), part_of_known hk]
    split <;> rfl

private theorem top_of_fed (h : Fed gifts nodes nodes') : top nodes' = top nodes := by
  cases h with
  | nil => rfl
  | cons outer h => cases h <;> rfl

/-- The start tags of parts are taken only where the parts are allowed. -/
private theorem allowed_of_start (h : b.start name attributes = .ok b') (hk : part? name = some kind) :
    Allowed (top b.nodes) kind := by
  unfold start at h
  split at h
  · rename_i hu
    rw [part_of_unknown hu] at hk
    cases hk
  · rename_i kind' hk'
    rw [part_of_known hk'] at hk
    split at hk
    · rename_i hpart
      cases hk
      cases openElement_iff.1 h with
      | quiz => cases hpart
      | note hf =>
        cases kind with
        | metaData | link | course | quizListItem => cases hpart
        | _ => cases hf
      | text he =>
        rw [not_isPart_of_textual he] at hpart
        cases hpart
      | discussion hr hn | question hr hn => exact congrArg top hn
      | choice hn | answer hn => exact congrArg top hn
      | item hn hl => exact congrArg top hn
    · cases hk

/-- An element without meaning tells its markup to the scope around it, with what stands in it. -/
private theorem gains_unknown (hu : Element.ofName? name = none)
    (hs : b.start name attributes = .ok b₁) (hi : Gains b₁ inner.ownText inner.gifts b₂)
    (hc : b₂.close name = .ok b₃) :
    Gains b ("<" ++ name ++ inlineAttributes attributes ++ ">" ++ inner.ownText ++ "</" ++ name ++ ">")
      inner.gifts b₃ := by
  simp only [start, hu] at hs
  cases hs
  have hsc : b₂.scopes = _ :: b.scopes := hi.scopes
  simp only [close, hsc, List.headD_cons, List.tail_cons, hu, said] at hc
  cases hc
  refine ⟨?_, ?_, ?_⟩
  · rw [characters_said, String.empty_append]
  · rw [characters_nodes]
    exact hi.nodes
  · rw [characters_quiz]
    exact hi.sections

/-- An element that has a meaning tells nothing, and gives its text behind what it was given or, if it
is a part, the part. -/
private theorem gains_known (hk : Element.ofName? name = some kind)
    (hs : b.start name attributes = .ok b₁) (hi : Gains b₁ inner.ownText inner.gifts b₂)
    (hp : inner.Placed (top b₁.nodes)) (hc : b₂.close name = .ok b₃) :
    Gains b "" (given name attributes inner inner.gifts) b₃ := by
  simp only [start, hk] at hs
  have ho := openElement_iff.1 hs
  have hsc := hi.scopes
  rw [opens_scopes ho] at hsc
  have hsc : b₂.scopes = _ :: b.scopes := hsc
  simp only [close, hsc, List.headD_cons, List.tail_cons, hk, said, String.empty_append] at hc
  have hcl := closeElement_iff.1 hc
  have hscopes := (closes_scopes hcl).trans (modifyHead_said_empty b.scopes).symm
  rw [top_of_opens ho] at hp
  cases hpart : kind.isPart with
  | true =>
    rw [hpart, if_pos rfl] at hp
    have hg : given name attributes inner inner.gifts = [.part ⟨kind, attributes, inner⟩] := by
      simp only [given, hk, hpart, if_true]
    -- the scopes have no part in it
    have hnodes : Fed inner.gifts b₁.nodes { b₂ with scopes := b.scopes }.nodes := hi.nodes
    obtain ⟨hf, hq⟩ := gives_part hpart ho hnodes hi.sections hp hc
    rw [hg]
    exact ⟨hscopes, hf, hq⟩
  | false =>
    have hg : given name attributes inner inner.gifts =
        inner.gifts ++ [.text kind (trim inner.ownText)] := by
      simp only [given, hk, hpart, if_neg Bool.false_ne_true]
    obtain ⟨hn, ho⟩ := opens_plain hpart ho
    obtain ⟨hf, hq⟩ := closes_plain hpart hcl
    have hnodes := hi.nodes
    rw [hn] at hnodes
    have htext : Collected b₂.quiz [.text kind (trim inner.ownText)] b₃.quiz := by
      rw [hq]
      exact ⟨(List.append_nil _).symm, (List.append_nil _).symm⟩
    rw [hg]
    exact ⟨hscopes, hnodes.trans hf, (ho.trans hi.sections).trans htext⟩

/-- An element tells its markup to the scope around it, if it has no meaning, and gives what it has to
give. -/
theorem gains_element (hs : b.start name attributes = .ok b₁)
    (hi : Gains b₁ inner.ownText inner.gifts b₂) (hp : inner.Placed (top b₁.nodes))
    (hc : b₂.close name = .ok b₃) :
    Gains b (if (Element.ofName? name).isNone then
        "<" ++ name ++ inlineAttributes attributes ++ ">" ++ inner.ownText ++ "</" ++ name ++ ">"
      else "") (given name attributes inner inner.gifts) b₃ := by
  cases hk : Element.ofName? name with
  | none =>
    have hg : given name attributes inner inner.gifts = inner.gifts := by rw [given, hk]
    rw [hg, if_pos Option.isNone_none]
    exact gains_unknown hk hs hi hc
  | some kind =>
    rw [if_neg (by simp)]
    exact gains_known hk hs hi hp hc

private theorem gains_empty (h : b.empty name attributes = .ok b') :
    Gains b (if (Element.ofName? name).isNone then
        "<" ++ name ++ inlineAttributes attributes ++ "/>" else "") (given name attributes nil []) b' ∧
      ∀ kind, part? name = some kind → Allowed (top b.nodes) kind := by
  unfold Builder.empty at h
  split at h
  · rename_i hu
    cases h
    have hg : given name attributes nil [] = [] := by rw [given, hu]
    rw [hg, hu, if_pos Option.isNone_none, part_of_unknown hu]
    exact ⟨gains_characters b _, fun _ hk => by cases hk⟩
  · rename_i kind hk
    obtain ⟨b₁, hs, hc⟩ := bind_eq_ok.1 h
    have hnil : Gains b₁ nil.ownText nil.gifts b₁ := .refl b₁
    have hg := gains_element hs hnil trivial hc
    rw [hk, if_neg (by simp)] at hg ⊢
    exact ⟨hg, fun _ => allowed_of_start hs⟩

/-- A run over the events of a content gives what the content gives, and it ends well only if all
parts are allowed where they are. -/
theorem gains_of_run {content : Content} (h : b.run content.events = .ok b') :
    Gains b content.ownText content.gifts b' ∧ content.Placed (top b.nodes) := by
  induction content generalizing b b' with
  | nil =>
    cases h
    exact ⟨.refl b, trivial⟩
  | text content rest ih | reference name rest ih =>
    obtain ⟨b₁, hs, hr⟩ := run_cons_eq_ok.1 h
    cases hs
    obtain ⟨hg, hp⟩ := ih hr
    rw [characters_nodes] at hp
    exact ⟨(gains_characters b _).trans hg, hp⟩
  | empty name attributes rest ih =>
    obtain ⟨b₁, hs, hr⟩ := run_cons_eq_ok.1 h
    obtain ⟨hg₁, ha⟩ := gains_empty hs
    obtain ⟨hg, hp⟩ := ih hr
    rw [top_of_fed hg₁.nodes] at hp
    exact ⟨hg₁.trans hg, ha, hp⟩
  | element name attributes inner rest ihi ihr =>
    obtain ⟨b₁, hs, h₁⟩ := run_cons_eq_ok.1 h
    obtain ⟨b₂, hi, h₂⟩ := run_append_eq_ok.1 h₁
    obtain ⟨b₃, hc, hr⟩ := run_cons_eq_ok.1 h₂
    obtain ⟨hgi, hpi⟩ := ihi hi
    have hg₁ := gains_element hs hgi hpi hc
    obtain ⟨hg, hp⟩ := ihr hr
    rw [top_of_fed hg₁.nodes] at hp
    rw [top_of_start hs] at hpi
    exact ⟨hg₁.trans hg, fun _ => allowed_of_start hs, hpi, hp⟩

end QuizPress.Quiz
