import QuizPress.Proofs.Quiz.Nesting
import QuizPress.Proofs.Quiz.Notes

/-! A document as a tree: what stands in each element, which parts of a quiz are there, and what a
part is said to be by its start tag and by what stands in it. -/
namespace QuizPress.Quiz
open Text Xml Builder

/-- What stands one after the other between two tags. Each constructor but the first says what
stands there first, and the rest. -/
inductive Content where
  | nil
  | text (content : String) (rest : Content)
  | reference (name : String) (rest : Content)
  | empty (name : String) (attributes : Attributes) (rest : Content)
  | element (name : String) (attributes : Attributes) (inner rest : Content)
deriving DecidableEq, Repr

structure Part where
  element : Element
  attributes : Attributes
  inner : Content
deriving DecidableEq, Repr

/-- What the innermost part around it is given: the text of an element, or a part. -/
inductive Gift where
  | text (element : Element) (text : String)
  | part (part : Part)
deriving DecidableEq, Repr

namespace Content

def events : Content → List Event
  | nil => []
  | text content rest => .text content :: rest.events
  | reference name rest => .reference name :: rest.events
  | empty name attributes rest => .empty name attributes :: rest.events
  | element name attributes inner rest =>
    .start name attributes :: (inner.events ++ .close name :: rest.events)

/-- The characters of a content, with the markup of elements without meaning. What stands in other
elements is theirs. -/
def ownText : Content → String
  | nil => ""
  | text content rest => content ++ rest.ownText
  | reference name rest => .ofList (expansion name.toList) ++ rest.ownText
  | empty name attributes rest =>
    (if (Element.ofName? name).isNone then "<" ++ name ++ inlineAttributes attributes ++ "/>" else "") ++
      rest.ownText
  | element name attributes inner rest =>
    (if (Element.ofName? name).isNone then
      "<" ++ name ++ inlineAttributes attributes ++ ">" ++ inner.ownText ++ "</" ++ name ++ ">"
    else "") ++ rest.ownText

/-- What an element gives to the part around it, if this is what stands in the element and what that
gives in turn. A part keeps what it is given. -/
def given (name : String) (attributes : Attributes) (inner : Content) (gifts : List Gift) : List Gift :=
  match Element.ofName? name with
  | none => gifts
  | some kind =>
    if kind.isPart then [.part ⟨kind, attributes, inner⟩]
    else gifts ++ [.text kind (trim inner.ownText)]

/-- What a content gives to the part around it, in the order of the end tags. -/
def gifts : Content → List Gift
  | nil => []
  | text _ rest | reference _ rest => rest.gifts
  | empty name attributes rest => given name attributes nil [] ++ rest.gifts
  | element name attributes inner rest => given name attributes inner inner.gifts ++ rest.gifts

/-- All elements of a kind in a content, however deep, in the order of the start tags. -/
def all (kind : Element) : Content → List Part
  | nil => []
  | text _ rest | reference _ rest => rest.all kind
  | empty name attributes rest =>
    (if Element.ofName? name = some kind then [⟨kind, attributes, nil⟩] else []) ++ rest.all kind
  | element name attributes inner rest =>
    (if Element.ofName? name = some kind then [⟨kind, attributes, inner⟩] else []) ++
      (inner.all kind ++ rest.all kind)

end Content

def tag? (text : String) : Option String := if text.isEmpty then none else some text

def textsOf (kind : Element) (gifts : List Gift) : List String :=
  gifts.filterMap fun
    | .text element text => if element = kind then some text else none
    | .part _ => none

def partsIn (gifts : List Gift) : List Part :=
  gifts.filterMap fun
    | .text _ _ => none
    | .part part => some part

def partsOf (kinds : List Element) (gifts : List Gift) : List Part :=
  (partsIn gifts).filter (·.element ∈ kinds)

namespace Part

def text (part : Part) (kind : Element) : String :=
  (textsOf kind part.inner.gifts).getLastD ""

def discussion (part : Part) : Discussion where
  heading := part.attributes.valueD "heading" "Discussion"
  body := if (part.text .text).isEmpty then trim part.inner.ownText else part.text .text

def item (part : Part) : Item where
  expect := part.attributes.value? "expect" == some "true"
  text := part.text .text
  response := part.text .response

def choice (part : Part) : Choice :=
  { choiceOf part.attributes with items := (partsOf [.item] part.inner.gifts).map item }

def answer (part : Part) : Answer where
  value := part.attributes.valueD "value" ""
  tag := tag? (part.text .tag)
  whenRight := part.text .whenRight
  whenWrong := part.text .whenWrong

def body (part : Part) : AnswerBody :=
  if part.element = .choice then .choice part.choice else .answer part.answer

def question? (part : Part) : Option Question :=
  match partsOf [.choice, .answer] part.inner.gifts with
  | [body] => some ⟨part.text .text, body.body⟩
  | _ => none

end Part

namespace Content

end Content

open Content

theorem textsOf_append (kind : Element) (gifts gifts' : List Gift) :
    textsOf kind (gifts ++ gifts') = textsOf kind gifts ++ textsOf kind gifts' :=
  List.filterMap_append

theorem partsOf_append (kinds : List Element) (gifts gifts' : List Gift) :
    partsOf kinds (gifts ++ gifts') = partsOf kinds gifts ++ partsOf kinds gifts' := by
  rw [partsOf, partsIn, List.filterMap_append, List.filter_append]
  rfl

theorem textsOf_text (kind element : Element) (text : String) :
    textsOf kind [.text element text] = if element = kind then [text] else [] := by
  by_cases h : element = kind <;> simp [textsOf, h]

def Allowed (around : Option Element) : Element → Prop
  | .discussion | .question => around = none
  | .choice | .answer => around = some .question
  | .item => around = some .choice
  | _ => False

def Content.Placed : Content → Option Element → Prop
  | nil, _ => True
  | text _ rest, around | reference _ rest, around => rest.Placed around
  | empty name _ rest, around =>
    (∀ kind, part? name = some kind → Allowed around kind) ∧ rest.Placed around
  | element name _ inner rest, around =>
    (∀ kind, part? name = some kind → Allowed around kind) ∧
      inner.Placed ((part? name).or around) ∧ rest.Placed around

/-- What is given is a text, or the part that a name stands for. -/
theorem given_cases (name : String) (attributes : Attributes) (inner : Content) (gifts : List Gift) :
    (∃ kind, part? name = some kind ∧ Element.ofName? name = some kind ∧
      given name attributes inner gifts = [.part ⟨kind, attributes, inner⟩]) ∨
    (part? name = none ∧ ∃ texts, given name attributes inner gifts = gifts ++ texts ∧
      ∀ gift ∈ texts, ∃ kind text, gift = .text kind text) := by
  unfold given
  split
  · rename_i hu
    exact .inr ⟨part_of_unknown hu, [], (List.append_nil _).symm, by simp⟩
  · rename_i kind hk
    rw [part_of_known hk]
    split
    · exact .inl ⟨kind, rfl, hk, rfl⟩
    · exact .inr ⟨rfl, _, rfl, by simp⟩

theorem mem_partsIn {gifts : List Gift} {part : Part} : part ∈ partsIn gifts ↔ .part part ∈ gifts := by
  rw [partsIn, List.mem_filterMap]
  constructor
  · rintro ⟨gift, hg, he⟩
    cases gift with
    | text => cases he
    | part => exact Option.some.inj he ▸ hg
  · exact fun h => ⟨_, h, rfl⟩

/-- The parts that a content gives are allowed, and so is what is in them. -/
theorem placed_of_mem_parts {content : Content} {around : Option Element} (h : content.Placed around)
    {part : Part} (hp : part ∈ partsIn content.gifts) :
    Allowed around part.element ∧ part.inner.Placed (some part.element) := by
  rw [mem_partsIn] at hp
  induction content generalizing around with
  | nil => cases hp
  | text _ rest ih | reference _ rest ih => exact ih h hp
  | empty name attributes rest ih =>
    rw [Content.gifts, List.mem_append] at hp
    rcases hp with hp | hp
    · rcases given_cases name attributes nil [] with ⟨kind, hk, _, hg⟩ | ⟨_, texts, hg, ht⟩
      · rw [hg, List.mem_singleton] at hp
        cases hp
        exact ⟨h.1 kind hk, trivial⟩
      · rw [hg, List.nil_append] at hp
        obtain ⟨_, _, hp⟩ := ht _ hp
        cases hp
    · exact ih h.2 hp
  | element name attributes inner rest ihi ihr =>
    rw [Content.gifts, List.mem_append] at hp
    rcases hp with hp | hp
    · rcases given_cases name attributes inner inner.gifts with ⟨kind, hk, _, hg⟩ | ⟨hk, texts, hg, ht⟩
      · rw [hg, List.mem_singleton] at hp
        cases hp
        refine ⟨h.1 kind hk, ?_⟩
        have hi := h.2.1
        rwa [hk] at hi
      · rw [hg, List.mem_append] at hp
        rcases hp with hp | hp
        · have hi := h.2.1
          rw [hk] at hi
          exact ihi hi hp
        · obtain ⟨_, _, hp⟩ := ht _ hp
          cases hp
    · exact ihr h.2.2 hp

/-- There is no discussion and no question in a part. -/
theorem partsOf_section {content : Content} {kind section' : Element}
    (h : content.Placed (some kind)) (hs : section' = .discussion ∨ section' = .question) :
    partsOf [section'] content.gifts = [] := by
  refine List.filter_eq_nil_iff.2 fun part hp he => ?_
  have ha := (placed_of_mem_parts h hp).1
  rw [List.mem_singleton.1 (of_decide_eq_true he)] at ha
  rcases hs with rfl | rfl <;> cases ha

end QuizPress.Quiz
