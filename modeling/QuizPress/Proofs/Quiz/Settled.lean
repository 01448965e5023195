import QuizPress.Proofs.Quiz.Tidy
import QuizPress.Render.Page.Section

/-! What holds of each part of a quiz that is read, from whatever octets. -/
namespace QuizPress.Quiz
open Text Render.Page

def Trimmed (s : String) : Prop := trim s = s

/-- A choice with trimmed texts and a mode that has no name of another one, in which each item has
a letter of its own. -/
structure Choice.Settled (c : Choice) : Prop where
  texts : ∀ item ∈ c.items, Trimmed item.text ∧ Trimmed item.response
  mode : c.mode ≠ .other "single" ∧ c.mode ≠ .other "multiple"
  size : c.items.length ≤ 26
  labels : ∀ index, 1 ≤ index → index ≤ c.items.length →
    ∃ letter, label? index = some letter ∧ letter ≠ '?' ∧ itemLabel index = letter.toString
  distinct : ∀ index index', 1 ≤ index → index ≤ c.items.length → 1 ≤ index' →
    index' ≤ c.items.length → label? index = label? index' → index = index'

/-- An answer with trimmed texts, and a tag only if there is something to show. -/
structure Answer.Settled (a : Answer) : Prop where
  tag : ∀ tag, a.tag = some tag → tag ≠ "" ∧ Trimmed tag
  whenRight : Trimmed a.whenRight
  whenWrong : Trimmed a.whenWrong

def AnswerBody.Settled : AnswerBody → Prop
  | choice c => c.Settled
  | answer a => a.Settled

end QuizPress.Quiz

namespace QuizPress
open Quiz

structure Quiz.Settled (q : Quiz) : Prop where
  discussions : ∀ d ∈ q.discussions, Trimmed d.body
  questions : ∀ x ∈ q.questions, Trimmed x.text ∧ x.body.Settled

end QuizPress

namespace QuizPress.Quiz
open Text Render.Page

theorem ChoiceMode.ne_of_ofName_name {mode : ChoiceMode} (h : ofName mode.name = mode) :
    mode ≠ .other "single" ∧ mode ≠ .other "multiple" := by
  constructor
  · rintro rfl
    cases h
  · rintro rfl
    cases h

theorem Choice.label_of_le {index : Nat} (hpos : 1 ≤ index) (hle : index ≤ maxItems) :
    ∃ letter, label? index = some letter ∧ letter ∈ labels := by
  obtain ⟨n, rfl⟩ := Nat.exists_eq_add_of_le' hpos
  have hn : n < labels.length := hle
  exact ⟨labels[n], List.getElem?_eq_getElem hn, List.getElem_mem hn⟩

theorem Choice.eq_of_label_eq {index index' : Nat} (hpos : 1 ≤ index) (hle : index ≤ maxItems)
    (hpos' : 1 ≤ index') (h : label? index = label? index') : index = index' := by
  obtain ⟨n, rfl⟩ := Nat.exists_eq_add_of_le' hpos
  obtain ⟨n', rfl⟩ := Nat.exists_eq_add_of_le' hpos'
  have hd : labels.Nodup := by decide
  have hn : n < labels.length := hle
  exact congrArg (· + 1) ((List.getElem?_inj hn hd).1 h)

theorem Choice.settled_of_normal {c : Choice} (hn : c.normal = c) (hl : c.items.length ≤ maxItems) :
    c.Settled where
  texts item hi := by
    have hitems : c.items.map Item.normal = c.items.map id :=
      (congrArg Choice.items hn).trans (List.map_id _).symm
    have hitem : item.normal = item := List.map_inj_left.1 hitems item hi
    exact ⟨congrArg Item.text hitem, congrArg Item.response hitem⟩
  mode := ChoiceMode.ne_of_ofName_name (congrArg Choice.mode hn)
  size := hl
  labels index hpos hle := by
    obtain ⟨letter, hs, hm⟩ := label_of_le hpos (Nat.le_trans hle hl)
    refine ⟨letter, hs, ?_, ?_⟩
    · rintro rfl
      exact absurd hm (by decide)
    · rw [itemLabel, hs]
      rfl
  distinct index index' hpos hle hpos' _ h := eq_of_label_eq hpos (Nat.le_trans hle hl) hpos' h

theorem Answer.settled_of_normal {a : Answer} (hn : a.normal = a) : a.Settled where
  tag tag ht := by
    have htag : (a.tag.map trim).filter (!·.isEmpty) = a.tag := congrArg Answer.tag hn
    rw [ht, Option.map_some] at htag
    obtain ⟨hs, he⟩ := Option.filter_eq_some_iff.1 htag
    refine ⟨?_, Option.some.inj hs⟩
    rintro rfl
    cases he
  whenRight := congrArg Answer.whenRight hn
  whenWrong := congrArg Answer.whenWrong hn

theorem AnswerBody.settled_of_normal {body : AnswerBody} (hn : body.normal = body)
    (hf : body.fits = true) : body.Settled := by
  cases body with
  | choice c => exact Choice.settled_of_normal (AnswerBody.choice.inj hn) (of_decide_eq_true hf)
  | answer a => exact Answer.settled_of_normal (AnswerBody.answer.inj hn)

/-- A tidy quiz is settled in all its parts. -/
theorem Tidy.settled {q : Quiz} (h : q.Tidy) : q.Settled where
  discussions d hd := congrArg Discussion.body (h.discussions d hd)
  questions x hx := by
    obtain ⟨hn, hf⟩ := h.questions x hx
    exact ⟨congrArg Question.text hn, AnswerBody.settled_of_normal (congrArg Question.body hn) hf⟩

/-- Every quiz that is read is settled, be it from the octets of a file or from a text. -/
theorem settled_of_read :
    (∀ (octets : List UInt8) (q : Quiz), parseOctets octets = .ok q → q.Settled) ∧
    ∀ (document : String) (q : Quiz), parse document = .ok q → q.Settled :=
  ⟨fun _ _ h => (tidy_of_ofReading h).settled, fun _ _ h => (tidy_of_ofReading h).settled⟩

/-- A no-break space before a text, and an octet that is no character in the name of a tag. -/
theorem settled_of_read_odd_name :
    ∃ q, parseOctets (encode "<quiz><question><text>&#160;x <b" ++ 0xFF ::
      encode "/></text><answer/></question></quiz>") = .ok q ∧ q.Settled := by
  have hd : decode (encode "<quiz><question><text>&#160;x <b" ++ 0xFF ::
      encode "/></text><answer/></question></quiz>") =
      glyphs "<quiz><question><text>&#160;x <b" ++ .invalid [0xFF] ::
        glyphs "/></text><answer/></question></quiz>" := by decide +kernel
  have hr : Xml.read (glyphs "<quiz><question><text>&#160;x <b" ++ .invalid [0xFF] ::
      glyphs "/></text><answer/></question></quiz>") =
      ⟨[.start "quiz" [], .start "question" [], .start "text" [], .reference "#160", .text "x ",
        .empty "b\uFFFD" [], .close "text", .empty "answer" [], .close "question", .close "quiz"],
        none⟩ := by decide +kernel
  have hq : ofGlyphs (glyphs "<quiz><question><text>&#160;x <b" ++ .invalid [0xFF] ::
      glyphs "/></text><answer/></question></quiz>") =
      .ok { questions := [⟨"x <b\uFFFD/>", .answer {}⟩] } := congrArg ofReading hr
  have h := hd ▸ hq
  exact ⟨_, h, settled_of_read.1 _ _ h⟩

end QuizPress.Quiz
