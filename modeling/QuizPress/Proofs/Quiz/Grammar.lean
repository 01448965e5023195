import QuizPress.Proofs.Quiz.Nesting

/-! Which tags make a quiz: a grammar of whole documents, and a machine that reads tags one by one
and takes the same documents. -/
namespace QuizPress.Quiz

def Tag.begins : Tag → Option Element
  | .opening name => Element.ofName? name
  | .closing _ => none

namespace Tag

def isRoot (tag : Tag) : Bool := tag.begins = some .quiz

def isBody (tag : Tag) : Bool := tag.begins = some .choice ∨ tag.begins = some .answer

def isItem (tag : Tag) : Bool := tag.begins = some .item

end Tag

def context (names : List String) : Option Element := (parts names).head?

theorem Sound.context_eq {names : List String} {b : Builder} (h : Sound names b) :
    context names = b.nodes.head?.map Open.element := by
  rw [context, ← h.nodes, List.head?_map]

/-- The tags in front of the one that closes an element with `depth` elements open in it. -/
def inside : Nat → List Tag → List Tag
  | _, [] => []
  | depth, .opening name :: tags => .opening name :: inside (depth + 1) tags
  | 0, .closing _ :: _ => []
  | depth + 1, .closing name :: tags => .closing name :: inside depth tags

def Each (P : List Tag → Tag → List Tag → Prop) (tags : List Tag) : Prop :=
  ∀ before tag after, tags = before ++ tag :: after → P before tag after

/-- The documents that are quizzes. What is between two parts is of no account. -/
structure Grammatical (tags : List Tag) : Prop where
  /-- There is one root. -/
  root : tags.countP Tag.isRoot = 1
  /-- Discussions and questions come after the root, and in no other part. -/
  sections : Each (fun before tag _ =>
    tag.begins = some .discussion ∨ tag.begins = some .question →
      before.any Tag.isRoot = true ∧ context (openNames [] before) = none) tags
  /-- Choices and answers come in questions. -/
  bodies : Each (fun before tag _ => tag.isBody = true →
    context (openNames [] before) = some .question) tags
  /-- A question holds one choice or answer. -/
  answered : Each (fun _ tag after => tag.begins = some .question →
    (inside 0 after).countP Tag.isBody = 1) tags
  /-- Items come in choices. -/
  items : Each (fun before tag _ => tag.isItem = true →
    context (openNames [] before) = some .choice) tags
  /-- A choice has labels for its items. -/
  labelled : Each (fun _ tag after => tag.begins = some .choice →
    (inside 0 after).countP Tag.isItem ≤ Choice.maxItems) tags
  /-- No part is left open. -/
  closed : context (openNames [] tags) = none

/-- What counts of the tags so far: whether there was a root, the open elements, the answer bodies
in the open question, and the items in the open choice. -/
structure Stage where
  rooted : Bool := false
  names : List String := []
  bodies : Nat := 0
  items : Nat := 0

namespace Stage

def after (s : Stage) (tag : Tag) : Stage where
  rooted := s.rooted || tag.isRoot
  names := openNames s.names [tag]
  bodies := if tag.begins = some .question then 0 else s.bodies + tag.isBody.toNat
  items := if tag.begins = some .choice then 0 else s.items + tag.isItem.toNat

def Allows (s : Stage) : Tag → Prop
  | .opening name =>
    match Element.ofName? name with
    | some .quiz => s.rooted = false
    | some .discussion | some .question => s.rooted = true ∧ context s.names = none
    | some .choice | some .answer => context s.names = some .question ∧ s.bodies = 0
    | some .item => context s.names = some .choice ∧ s.items < Choice.maxItems
    | _ => True
  | .closing name => Element.ofName? name = some .question → s.bodies = 1

def Accepts (s : Stage) : List Tag → Prop
  | [] => s.rooted = true ∧ context s.names = none
  | tag :: tags => s.Allows tag ∧ (s.after tag).Accepts tags

variable (s : Stage)

/-- An element without meaning that is empty leaves a stage as it is. -/
theorem after_unknown {name : String} (h : Element.ofName? name = none) :
    (s.after (.opening name)).after (.closing name) = s := by
  simp [after, Tag.isRoot, Tag.isBody, Tag.isItem, Tag.begins, h, openNames]

theorem foldl_names (tags : List Tag) : (tags.foldl after s).names = openNames s.names tags := by
  induction tags generalizing s with
  | nil => rfl
  | cons tag tags ih =>
    rw [List.foldl_cons, ih]
    cases tag <;> rfl

variable (name : String)

@[simp] theorem after_opening_names : (s.after (.opening name)).names = name :: s.names := rfl

@[simp] theorem after_closing_names : (s.after (.closing name)).names = s.names.tail := rfl

@[simp] theorem after_closing_rooted : (s.after (.closing name)).rooted = s.rooted :=
  Bool.or_false s.rooted

@[simp] theorem after_closing_bodies : (s.after (.closing name)).bodies = s.bodies := rfl

@[simp] theorem after_closing_items : (s.after (.closing name)).items = s.items := rfl

end Stage

theorem each_nil (P : List Tag → Tag → List Tag → Prop) : Each P [] := by
  intro before tag after h
  cases before <;> cases h

theorem each_cons {P : List Tag → Tag → List Tag → Prop} {tag : Tag} {tags : List Tag} :
    Each P (tag :: tags) ↔ P [] tag tags ∧ Each (fun before => P (tag :: before)) tags := by
  constructor
  · intro h
    refine ⟨h [] tag tags rfl, fun before t after he => h (tag :: before) t after ?_⟩
    rw [he]
    rfl
  · rintro ⟨hf, hr⟩ before t after he
    cases before with
    | nil =>
      cases he
      exact hf
    | cons first before =>
      cases he
      exact hr before t after rfl

def depth? (element : Element) (names : List String) : Option Nat :=
  names.findIdx? (part? · == some element)

theorem depth_cons (element : Element) (name : String) (names : List String) :
    depth? element (name :: names) =
      if part? name = some element then some 0 else (depth? element names).map (· + 1) := by
  rw [depth?, List.findIdx?_cons, depth?]
  simp only [beq_iff_eq]

theorem parts_cons (name : String) (names : List String) :
    parts (name :: names) = (part? name).toList ++ parts names := by
  rw [parts, List.filterMap_cons]
  cases part? name <;> rfl

theorem depth_eq_none {element : Element} {names : List String} (h : element ∉ parts names) :
    depth? element names = none := by
  refine List.findIdx?_eq_none_iff.2 fun name hn => ?_
  rw [beq_eq_false_iff_ne]
  exact fun he => h (List.mem_filterMap.2 ⟨name, hn, he⟩)

theorem depth_of_context {element : Element} {names : List String} (h : context names = some element) :
    ∃ k, depth? element names = some k := by
  cases hd : depth? element names with
  | some k => exact ⟨k, rfl⟩
  | none =>
    obtain ⟨name, hn, he⟩ := List.mem_filterMap.1 (List.mem_of_mem_head? h)
    have hf := List.findIdx?_eq_none_iff.1 hd name hn
    rw [he] at hf
    simp at hf

/-- A count in the open part `element`, with what is still to come in it. -/
def OpenCount (element : Element) (counted : Tag → Bool) (R : Nat → Prop) (count : Nat)
    (names : List String) (tags : List Tag) : Prop :=
  ∀ k, depth? element names = some k → R (count + (inside k tags).countP counted)

section OpenCount
variable {element : Element} {counted : Tag → Bool} {R : Nat → Prop} {count : Nat} {name other : String}
  {names : List String} {tags : List Tag}

theorem openCount_of_not_mem (h : element ∉ parts names) :
    OpenCount element counted R count names tags := by
  intro k hk
  rw [depth_eq_none h] at hk
  cases hk

/-- Another element is opened in the part. -/
theorem openCount_opening (h : part? name ≠ some element) :
    OpenCount element counted R count names (.opening name :: tags) ↔
      OpenCount element counted R (count + (counted (.opening name)).toNat) (name :: names) tags := by
  have hc : ∀ k, count + (inside k (.opening name :: tags)).countP counted =
      count + (counted (.opening name)).toNat + (inside (k + 1) tags).countP counted := by
    intro k
    rw [inside, List.countP_cons]
    cases counted (.opening name) with
    | false => simp
    | true =>
      simp only [if_true, Bool.toNat_true]
      omega
  constructor
  · intro ho k hk
    rw [depth_cons, if_neg h] at hk
    obtain ⟨j, hj, rfl⟩ := Option.map_eq_some_iff.1 hk
    rw [← hc]
    exact ho j hj
  · intro ho k hk
    rw [hc]
    exact ho (k + 1) (by rw [depth_cons, if_neg h, hk]; rfl)

/-- The part itself is opened. -/
theorem openCount_begin (h : part? name = some element) :
    OpenCount element counted R count (name :: names) tags ↔
      R (count + (inside 0 tags).countP counted) := by
  have hd : depth? element (name :: names) = some 0 := by rw [depth_cons, if_pos h]
  constructor
  · exact fun ho => ho 0 hd
  · intro hr k hk
    rw [hd] at hk
    cases hk
    exact hr

/-- Another element is closed in the part. -/
theorem openCount_closing (h : part? name ≠ some element) (hf : counted (.closing other) = false) :
    OpenCount element counted R count (name :: names) (.closing other :: tags) ↔
      OpenCount element counted R count names tags := by
  have hc : ∀ k, (inside (k + 1) (.closing other :: tags)).countP counted =
      (inside k tags).countP counted := by
    intro k
    rw [inside, List.countP_cons, hf]
    rfl
  constructor
  · intro ho k hk
    rw [← hc]
    exact ho (k + 1) (by rw [depth_cons, if_neg h, hk]; rfl)
  · intro ho k hk
    rw [depth_cons, if_neg h] at hk
    obtain ⟨j, hj, rfl⟩ := Option.map_eq_some_iff.1 hk
    rw [hc]
    exact ho j hj

/-- The part itself is closed. -/
theorem openCount_end (h : part? name = some element) :
    OpenCount element counted R count (name :: names) (.closing other :: tags) ↔ R count := by
  have hd : depth? element (name :: names) = some 0 := by rw [depth_cons, if_pos h]
  constructor
  · exact fun ho => ho 0 hd
  · intro hr k hk
    rw [hd] at hk
    cases hk
    exact hr

/-- In a part that is open below another element the count so far is part of a count that counts. -/
theorem openCount_so_far (hx : context names = some element) (h : part? name ≠ some element)
    (ho : OpenCount element counted R count (name :: names) tags) : ∃ n, R (count + n) := by
  obtain ⟨k, hk⟩ := depth_of_context hx
  exact ⟨_, ho (k + 1) (by rw [depth_cons, if_neg h, hk]; rfl)⟩

end OpenCount

/-- The rules of the grammar behind a stage, but for the parts that are open there. -/
structure Steady (s : Stage) (tags : List Tag) : Prop where
  root : tags.countP Tag.isRoot + s.rooted.toNat = 1
  sections : Each (fun before tag _ =>
    tag.begins = some .discussion ∨ tag.begins = some .question →
      (s.rooted || before.any Tag.isRoot) = true ∧ context (openNames s.names before) = none) tags
  bodies : Each (fun before tag _ => tag.isBody = true →
    context (openNames s.names before) = some .question) tags
  answered : Each (fun _ tag after => tag.begins = some .question →
    (inside 0 after).countP Tag.isBody = 1) tags
  items : Each (fun before tag _ => tag.isItem = true →
    context (openNames s.names before) = some .choice) tags
  labelled : Each (fun _ tag after => tag.begins = some .choice →
    (inside 0 after).countP Tag.isItem ≤ Choice.maxItems) tags
  closed : context (openNames s.names tags) = none

def Suits (s : Stage) (tag : Tag) (tags : List Tag) : Prop :=
  match tag.begins with
  | some .quiz => s.rooted = false
  | some .discussion => s.rooted = true ∧ context s.names = none
  | some .question =>
    (s.rooted = true ∧ context s.names = none) ∧ (inside 0 tags).countP Tag.isBody = 1
  | some .choice =>
    context s.names = some .question ∧ (inside 0 tags).countP Tag.isItem ≤ Choice.maxItems
  | some .answer => context s.names = some .question
  | some .item => context s.names = some .choice
  | _ => True

theorem suits_iff {s : Stage} {tag : Tag} {tags : List Tag} :
    Suits s tag tags ↔
      (tag.isRoot = true → s.rooted = false) ∧
      (tag.begins = some .discussion ∨ tag.begins = some .question →
        s.rooted = true ∧ context s.names = none) ∧
      (tag.isBody = true → context s.names = some .question) ∧
      (tag.begins = some .question → (inside 0 tags).countP Tag.isBody = 1) ∧
      (tag.isItem = true → context s.names = some .choice) ∧
      (tag.begins = some .choice → (inside 0 tags).countP Tag.isItem ≤ Choice.maxItems) := by
  unfold Suits Tag.isRoot Tag.isBody Tag.isItem
  cases tag.begins with
  | none => simp
  | some element => cases element <;> simp

theorem grammatical_iff_steady {tags : List Tag} : Grammatical tags ↔ Steady {} tags :=
  ⟨fun h => ⟨h.root, h.sections, h.bodies, h.answered, h.items, h.labelled, h.closed⟩,
    fun h => ⟨h.root, h.sections, h.bodies, h.answered, h.items, h.labelled, h.closed⟩⟩

theorem openNames_cons (names : List String) (tag : Tag) (tags : List Tag) :
    openNames names (tag :: tags) = openNames (openNames names [tag]) tags :=
  openNames_append names [tag] tags

private theorem root_cons {s : Stage} {tag : Tag} {tags : List Tag} :
    (tag :: tags).countP Tag.isRoot + s.rooted.toNat = 1 ↔
      (tag.isRoot = true → s.rooted = false) ∧
        tags.countP Tag.isRoot + (s.after tag).rooted.toNat = 1 := by
  rw [List.countP_cons, Stage.after]
  cases tag.isRoot with
  | false => simp
  | true =>
    cases s.rooted with
    | false => simp
    | true => simp

theorem steady_cons {s : Stage} {tag : Tag} {tags : List Tag} :
    Steady s (tag :: tags) ↔ Suits s tag tags ∧ Steady (s.after tag) tags := by
  have hr : ∀ before, (s.rooted || (tag :: before).any Tag.isRoot) =
      ((s.after tag).rooted || before.any Tag.isRoot) := by
    intro before
    rw [List.any_cons, Stage.after, Bool.or_assoc]
  have hn : ∀ before, openNames s.names (tag :: before) = openNames (s.after tag).names before :=
    openNames_cons s.names tag
  have hb : (s.rooted || [].any Tag.isRoot) = s.rooted := Bool.or_false _
  rw [suits_iff]
  constructor
  · rintro ⟨root, sections, bodies, answered, items, labelled, closed⟩
    rw [root_cons] at root
    rw [each_cons] at sections bodies answered items labelled
    simp only [hr, hn, hb] at sections bodies items closed
    exact ⟨⟨root.1, sections.1, bodies.1, answered.1, items.1, labelled.1⟩,
      ⟨root.2, sections.2, bodies.2, answered.2, items.2, labelled.2, closed⟩⟩
  · rintro ⟨⟨root, sections, bodies, answered, items, labelled⟩, ht⟩
    refine ⟨root_cons.2 ⟨root, ht.root⟩, each_cons.2 ⟨?_, ?_⟩, each_cons.2 ⟨bodies, ?_⟩,
      each_cons.2 ⟨answered, ht.answered⟩, each_cons.2 ⟨items, ?_⟩,
      each_cons.2 ⟨labelled, ht.labelled⟩, ?_⟩
    · rw [hb]
      exact sections
    · simp only [hr, hn]
      exact ht.sections
    · simp only [hn]
      exact ht.bodies
    · simp only [hn]
      exact ht.items
    · rw [hn]
      exact ht.closed

/-- The open parts have one of the shapes, and there is a label for each item so far. -/
structure Coherent (s : Stage) : Prop where
  shape : parts s.names ∈ [[], [.discussion], [.question], [.choice, .question],
    [.item, .choice, .question], [.answer, .question]]
  items : s.items ≤ Choice.maxItems

theorem parts_of_context_none {names : List String} (h : context names = none) : parts names = [] :=
  List.head?_eq_none_iff.1 h

theorem Coherent.parts_of_question {s : Stage} (hc : Coherent s) (h : context s.names = some .question) :
    parts s.names = [.question] := by
  have hp := hc.shape
  rw [context] at h
  generalize parts s.names = ps at hp h
  revert ps
  decide

theorem Coherent.parts_of_choice {s : Stage} (hc : Coherent s) (h : context s.names = some .choice) :
    parts s.names = [.choice, .question] := by
  have hp := hc.shape
  rw [context] at h
  generalize parts s.names = ps at hp h
  revert ps
  decide

/-- What is still to come fits what is begun: the open question gets one body, and the open choice
no more items than there are labels. -/
def Fulfils (s : Stage) (tags : List Tag) : Prop :=
  OpenCount .question Tag.isBody (· = 1) s.bodies s.names tags ∧
    OpenCount .choice Tag.isItem (· ≤ Choice.maxItems) s.items s.names tags

theorem coherent_opening {s : Stage} {name : String} (hc : Coherent s) (ha : s.Allows (.opening name)) :
    Coherent (s.after (.opening name)) := by
  have hs := hc.shape
  have hi := hc.items
  cases he : Element.ofName? name with
  | none =>
    refine ⟨?_, ?_⟩
    · rw [Stage.after, openNames, openNames, parts_cons, part_of_unknown he]
      exact hs
    · simpa [Stage.after, Tag.isItem, Tag.begins, he] using hi
  | some element =>
    simp only [Stage.Allows, he] at ha
    refine ⟨?_, ?_⟩
    · rw [Stage.after, openNames, openNames, parts_cons, part_of_known he]
      cases element with
      | discussion | question =>
        rw [parts_of_context_none ha.2]
        decide
      | choice | answer =>
        rw [hc.parts_of_question ha.1]
        decide
      | item =>
        rw [hc.parts_of_choice ha.1]
        decide
      | _ => exact hs
    · cases element with
      | choice => simp [Stage.after, Tag.begins, he]
      | item =>
        simp only [Stage.after, Tag.isItem, Tag.begins, he]
        exact ha.2
      | _ => simpa [Stage.after, Tag.isItem, Tag.begins, he] using hi

private theorem not_mem_of_question {names : List String} (h : parts names = [.question]) :
    Element.choice ∉ parts names := by
  rw [h]
  decide

/-- The open counts go on in an element that begins none of them. -/
private theorem fulfils_within {s : Stage} {name : String} {tags : List Tag}
    (hq : Element.ofName? name ≠ some .question) (hl : Element.ofName? name ≠ some .choice) :
    Fulfils s (.opening name :: tags) ↔ Fulfils (s.after (.opening name)) tags := by
  have hb : (s.after (.opening name)).bodies = s.bodies + (Tag.opening name).isBody.toNat := if_neg hq
  have hi : (s.after (.opening name)).items = s.items + (Tag.opening name).isItem.toNat := if_neg hl
  rw [Fulfils, Fulfils, openCount_opening (mt Option.eq_some_of_filter_eq_some hq),
    openCount_opening (mt Option.eq_some_of_filter_eq_some hl), hb, hi, Stage.after_opening_names]

theorem fulfils_opening {s : Stage} {name : String} {tags : List Tag} (hc : Coherent s) :
    Suits s (.opening name) tags ∧ Fulfils s (.opening name :: tags) ↔
      s.Allows (.opening name) ∧ Fulfils (s.after (.opening name)) tags := by
  cases he : Element.ofName? name with
  | none =>
    rw [fulfils_within (by simp [he]) (by simp [he])]
    simp only [Suits, Stage.Allows, Tag.begins, he]
  | some element =>
    have hp := part_of_known he
    simp only [Suits, Stage.Allows, Tag.begins, he]
    cases element with
    | quiz | metaData | link | course | quizListItem | text | tag | response | whenRight | whenWrong
    | discussion => rw [fulfils_within (by simp [he]) (by simp [he])]
    | question =>
      have hb : (s.after (.opening name)).bodies = 0 := by simp [Stage.after, Tag.begins, he]
      simp only [Fulfils, Stage.after_opening_names, hb]
      rw [openCount_begin hp, Nat.zero_add]
      constructor
      · rintro ⟨⟨hx, hq⟩, _⟩
        refine ⟨hx, hq, openCount_of_not_mem ?_⟩
        rw [parts_cons, hp, parts_of_context_none hx.2]
        decide
      · rintro ⟨hx, hq, _⟩
        have hn : ∀ element, element ∉ parts s.names := by
          rw [parts_of_context_none hx.2]
          exact fun _ => List.not_mem_nil
        exact ⟨⟨hx, hq⟩, openCount_of_not_mem (hn _), openCount_of_not_mem (hn _)⟩
    | choice =>
      have hne : part? name ≠ some .question := by simp [hp, Element.isPart]
      have hb : (s.after (.opening name)).bodies = s.bodies + 1 := by
        simp [Stage.after, Tag.isBody, Tag.begins, he]
      have hi : (s.after (.opening name)).items = 0 := by simp [Stage.after, Tag.begins, he]
      have hbody : Tag.isBody (.opening name) = true := by simp [Tag.isBody, Tag.begins, he]
      simp only [Fulfils, Stage.after_opening_names, hb, hi]
      rw [openCount_begin hp, Nat.zero_add, openCount_opening hne, hbody, Bool.toNat_true]
      constructor
      · rintro ⟨⟨hx, hl⟩, hq, _⟩
        -- this body is the one that the question gets, so there was none before it
        obtain ⟨n, hn⟩ := openCount_so_far hx hne hq
        exact ⟨⟨hx, by omega⟩, hq, hl⟩
      · rintro ⟨hx, hq, hl⟩
        exact ⟨⟨hx.1, hl⟩, hq, openCount_of_not_mem (not_mem_of_question (hc.parts_of_question hx.1))⟩
    | answer =>
      have hb : (s.after (.opening name)).bodies = s.bodies + 1 := by
        simp [Stage.after, Tag.isBody, Tag.begins, he]
      rw [fulfils_within (by simp [he]) (by simp [he])]
      constructor
      · rintro ⟨hx, hf⟩
        obtain ⟨n, hn⟩ := openCount_so_far hx (by simp [hp, Element.isPart]) hf.1
        exact ⟨⟨hx, by omega⟩, hf⟩
      · rintro ⟨hx, hf⟩
        exact ⟨hx.1, hf⟩
    | item =>
      have hi : (s.after (.opening name)).items = s.items + 1 := by
        simp [Stage.after, Tag.isItem, Tag.begins, he]
      rw [fulfils_within (by simp [he]) (by simp [he])]
      constructor
      · rintro ⟨hx, hf⟩
        obtain ⟨n, hn⟩ := openCount_so_far hx (by simp [hp, Element.isPart]) hf.2
        exact ⟨⟨hx, by omega⟩, hf⟩
      · rintro ⟨hx, hf⟩
        exact ⟨hx.1, hf⟩

theorem coherent_closing {s : Stage} {name : String} {names : List String} (hc : Coherent s)
    (hn : s.names = name :: names) : Coherent (s.after (.closing name)) := by
  have hs := hc.shape
  refine ⟨?_, ?_⟩
  · rw [Stage.after, openNames, openNames, hn, List.tail_cons]
    rw [hn, parts_cons] at hs
    cases hp : part? name with
    | none =>
      rw [hp] at hs
      exact hs
    | some element =>
      rw [hp] at hs
      generalize parts names = ps at hs ⊢
      simp only [Option.toList_some, List.singleton_append, List.mem_cons, List.not_mem_nil, or_false,
        List.cons.injEq, reduceCtorEq, false_or] at hs
      rcases hs with ⟨_, rfl⟩ | ⟨_, rfl⟩ | ⟨_, rfl⟩ | ⟨_, rfl⟩ | ⟨_, rfl⟩ <;> decide
  · simpa [Stage.after, Tag.isItem, Tag.begins] using hc.items

/-- Below the innermost part there is no other one of its kind. -/
private theorem not_mem_below {s : Stage} {name : String} {names : List String} {element : Element}
    (hc : Coherent s) (hn : s.names = name :: names) (hp : part? name = some element) :
    element ∉ parts names := by
  have hs := hc.shape
  rw [hn, parts_cons, hp] at hs
  generalize parts names = ps at hs ⊢
  simp only [Option.toList_some, List.singleton_append, List.mem_cons, List.not_mem_nil, or_false,
    List.cons.injEq, reduceCtorEq, false_or] at hs
  rcases hs with ⟨rfl, rfl⟩ | ⟨rfl, rfl⟩ | ⟨rfl, rfl⟩ | ⟨rfl, rfl⟩ | ⟨rfl, rfl⟩ <;> decide

theorem fulfils_closing {s : Stage} {name : String} {names : List String} {tags : List Tag}
    (hc : Coherent s) (hn : s.names = name :: names) :
    Fulfils s (.closing name :: tags) ↔
      s.Allows (.closing name) ∧ Fulfils (s.after (.closing name)) tags := by
  have hbody : Tag.isBody (.closing name) = false := by simp [Tag.isBody, Tag.begins]
  have hitem : Tag.isItem (.closing name) = false := by simp [Tag.isItem, Tag.begins]
  simp only [Fulfils, Stage.Allows, Stage.after_closing_bodies, Stage.after_closing_items,
    Stage.after_closing_names, hn, List.tail_cons]
  by_cases hq : part? name = some .question
  · have hk : Element.ofName? name = some .question := (Option.filter_eq_some_iff.1 hq).1
    rw [openCount_end hq, openCount_closing (by simp [hq]) hitem]
    constructor
    · rintro ⟨hbodies, hl⟩
      exact ⟨fun _ => hbodies, openCount_of_not_mem (not_mem_below hc hn hq), hl⟩
    · rintro ⟨ha, _, hl⟩
      exact ⟨ha hk, hl⟩
  · have hk : Element.ofName? name ≠ some .question := fun hk => hq (by rw [part_of_known hk]; rfl)
    rw [openCount_closing hq hbody]
    by_cases hl : part? name = some .choice
    · rw [openCount_end hl]
      constructor
      · rintro ⟨ho, _⟩
        exact ⟨fun h => absurd h hk, ho, openCount_of_not_mem (not_mem_below hc hn hl)⟩
      · rintro ⟨_, ho, _⟩
        exact ⟨ho, hc.items⟩
    · rw [openCount_closing hl hitem]
      constructor
      · exact fun ho => ⟨fun h => absurd h hk, ho⟩
      · exact fun ho => ho.2

private theorem suits_closing (s : Stage) (name : String) (tags : List Tag) :
    Suits s (.closing name) tags := trivial

/-- Tags can come one by one where the grammar takes all of them. -/
theorem accepts_iff {s : Stage} {tags : List Tag} (hc : Coherent s) (hm : Matched s.names tags) :
    s.Accepts tags ↔ Steady s tags ∧ Fulfils s tags := by
  -- on the tags, from any coherent stage: what is begun there is paid for by `Fulfils`
  induction tags generalizing s with
  | nil =>
    constructor
    · rintro ⟨hr, hx⟩
      have hn : ∀ element, element ∉ parts s.names := by
        rw [parts_of_context_none hx]
        exact fun _ => List.not_mem_nil
      exact ⟨⟨by simp [hr], each_nil _, each_nil _, each_nil _, each_nil _, each_nil _, hx⟩,
        openCount_of_not_mem (hn _), openCount_of_not_mem (hn _)⟩
    · rintro ⟨hs, _⟩
      have hr := hs.root
      cases hrooted : s.rooted with
      | false =>
        rw [hrooted] at hr
        cases hr
      | true => exact ⟨hrooted, hs.closed⟩
  | cons tag tags ih =>
    rw [Stage.Accepts, steady_cons]
    cases tag with
    | opening name =>
      rw [and_right_comm, fulfils_opening hc]
      constructor
      · rintro ⟨ha, hr⟩
        obtain ⟨hs, hf⟩ := (ih (coherent_opening hc ha) hm).1 hr
        exact ⟨⟨ha, hf⟩, hs⟩
      · rintro ⟨⟨ha, hf⟩, hs⟩
        exact ⟨ha, (ih (coherent_opening hc ha) hm).2 ⟨hs, hf⟩⟩
    | closing name =>
      obtain ⟨hh, ht⟩ := hm
      obtain ⟨names, hn⟩ : ∃ names, s.names = name :: names := by
        cases hn : s.names with
        | nil =>
          rw [hn] at hh
          cases hh
        | cons top names =>
          rw [hn] at hh
          cases hh
          exact ⟨names, rfl⟩
      have hi := ih (coherent_closing hc hn) ht
      rw [fulfils_closing hc hn]
      constructor
      · rintro ⟨ha, hr⟩
        obtain ⟨hs, hf⟩ := hi.1 hr
        exact ⟨⟨suits_closing s name tags, hs⟩, ha, hf⟩
      · rintro ⟨⟨_, hs⟩, ha, hf⟩
        exact ⟨ha, hi.2 ⟨hs, hf⟩⟩

/-- The grammar is the machine from its first stage. -/
theorem grammatical_iff_accepts {tags : List Tag} (hm : Matched [] tags) :
    Grammatical tags ↔ Stage.Accepts {} tags := by
  have hc : Coherent {} := ⟨by decide, by decide⟩
  have hf : Fulfils {} tags := ⟨openCount_of_not_mem (by decide), openCount_of_not_mem (by decide)⟩
  rw [grammatical_iff_steady, accepts_iff hc hm]
  exact ⟨fun hs => ⟨hs, hf⟩, fun h => h.1⟩

end QuizPress.Quiz
