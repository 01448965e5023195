import Mathlib.Data.List.Nodup
import QuizPress.Proofs.Text
import QuizPress.Quiz.Basic

/-! The names by which the script of a page finds its elements. No two elements have one name. -/
namespace QuizPress.Render.Page
open Quiz Text

/-- An element that the script of a page looks for. -/
inductive Anchor where
  | button (number : Nat)
  | questionNumber
  | discussion (index : Nat)
  | question (number : Nat)
  | form (number : Nat)
  | verdict (number : Nat) (right : Bool)
  | response (number index : Nat)
deriving DecidableEq, Repr

namespace Anchor

def id : Anchor → String
  | button number => "button" ++ toString number
  | questionNumber => "question_number"
  | discussion index => "question-" ++ toString index
  | question number => "question" ++ toString number
  | form number => "Q" ++ toString number ++ "Form"
  | verdict number right => "q" ++ toString number ++ toString right
  | response number index => "q" ++ toString number ++ "response" ++ toString index

end Anchor

/-- The blocks with what is said about the answers to a question. An unknown mode has none. -/
def responseAnchors (number : Nat) : AnswerBody → List Anchor
  | .answer _ => [.verdict number true, .verdict number false]
  | .choice choice =>
    let each := (List.range' 1 choice.items.length).map (.response number)
    match choice.mode with
    | .single => each
    | .multiple => each ++ [.response number 0]
    | .other _ => []

def questionAnchors (question : Question) (number : Nat) : List Anchor :=
  .question number :: .form number :: responseAnchors number question.body

def anchors (quiz : Quiz) : List Anchor :=
  (List.range' 1 quiz.questions.length).map .button ++
    (if quiz.questions.isEmpty then [] else [.questionNumber]) ++
    (List.range' 1 quiz.discussions.length).map .discussion ++
    (quiz.questions.zipIdx 1).flatMap fun (question, number) => questionAnchors question number

private def isLetter (c : Char) : Bool := !c.isDigit

/-- A text cut before and behind its first digits. -/
private def cut (cs : List Char) : List Char × List Char × List Char :=
  let numbered := cs.dropWhile isLetter
  (cs.takeWhile isLetter, numbered.takeWhile Char.isDigit, numbered.dropWhile Char.isDigit)

private theorem cut_append {front digits back : List Char} (hf : front.all isLetter = true)
    (hd : digits.all Char.isDigit = true) (hb : back.head?.all isLetter = true)
    (he : digits = [] → back = []) : cut (front ++ (digits ++ back)) = (front, digits, back) := by
  have hlate : (digits ++ back).takeWhile isLetter = [] ∧
      (digits ++ back).dropWhile isLetter = digits ++ back := by
    cases digits with
    | nil => simp [he rfl]
    | cons d digits =>
      rw [List.all_cons, Bool.and_eq_true] at hd
      simp [isLetter, hd.1]
  have hback : back.takeWhile Char.isDigit = [] ∧ back.dropWhile Char.isDigit = back := by
    cases back with
    | nil => simp
    | cons c back =>
      have hc : c.isDigit = false := by simpa [isLetter] using hb
      simp [hc]
  simp only [cut, List.takeWhile_append_of_pos (List.all_eq_true.1 hf),
    List.dropWhile_append_of_pos (List.all_eq_true.1 hf), hlate.1, hlate.2,
    List.takeWhile_append_of_pos (List.all_eq_true.1 hd),
    List.dropWhile_append_of_pos (List.all_eq_true.1 hd), hback.1, hback.2, List.append_nil]

namespace Anchor

private def front : Anchor → String
  | button _ => "button"
  | questionNumber => "question_number"
  | discussion _ => "question-"
  | question _ => "question"
  | form _ => "Q"
  | verdict _ _ | response _ _ => "q"

private def number? : Anchor → Option Nat
  | questionNumber => none
  | button n | discussion n | question n | form n | verdict n _ | response n _ => some n

private def back : Anchor → String
  | form _ => "Form"
  | verdict _ right => toString right
  | response _ index => "response" ++ toString index
  | _ => ""

private def digits (a : Anchor) : List Char := a.number?.elim [] (Nat.toDigits 10)

private theorem toList_id (a : Anchor) : a.id.toList = a.front.toList ++ (a.digits ++ a.back.toList) := by
  cases a <;> simp [id, front, digits, number?, back]

private theorem cut_id (a : Anchor) : cut a.id.toList = (a.front.toList, a.digits, a.back.toList) := by
  have hnumber (n : Nat) : (Nat.toDigits 10 n).all Char.isDigit = true :=
    List.all_eq_true.2 fun c hc => Nat.isDigit_of_mem_toDigits (by decide) (by decide) hc
  have hne (n : Nat) (back : List Char) : Nat.toDigits 10 n = [] → back = [] :=
    fun h => absurd h Nat.toDigits_ne_nil
  have hf : a.front.toList.all isLetter = true := by
    cases a <;> simp only [front] <;> decide
  have hb : a.back.toList.head?.all isLetter = true := by
    cases a with
    | verdict n right =>
      rw [back]
      cases right <;> decide
    | response n index =>
      rw [back, String.toList_append]
      rfl
    | form n | button n | discussion n | question n | questionNumber => simp only [back]; decide
  rw [toList_id]
  cases a with
  | questionNumber => exact cut_append hf rfl hb fun _ => rfl
  | button n | discussion n | question n | form n | verdict n right | response n index =>
    exact cut_append hf (hnumber n) hb (hne n _)

private theorem toDigits_inj {m n : Nat} (h : Nat.toDigits 10 m = Nat.toDigits 10 n) : m = n := by
  have hu := congrArg (unsigned? 10) h
  rw [unsigned_toDigits, unsigned_toDigits] at hu
  exact Option.some.inj hu

private theorem number_inj {a b : Anchor} (h : a.digits = b.digits) : a.number? = b.number? := by
  rw [digits, digits] at h
  cases ha : a.number? with
  | none =>
    cases hb : b.number? with
    | none => rfl
    | some n =>
      rw [ha, hb] at h
      exact absurd h.symm Nat.toDigits_ne_nil
  | some m =>
    cases hb : b.number? with
    | none =>
      rw [ha, hb] at h
      exact absurd h Nat.toDigits_ne_nil
    | some n =>
      rw [ha, hb] at h
      exact congrArg some (toDigits_inj h)

private theorem verdict_ne_response (right : Bool) (index : Nat) :
    toString right ≠ "response" ++ toString index := by
  intro h
  have hhead : (toString right).toList.head? = some 'r' := by
    rw [h, String.toList_append]
    rfl
  cases right <;> exact absurd hhead (by decide)

private theorem response_inj {m n : Nat} (h : "response" ++ toString m = "response" ++ toString n) :
    m = n := by
  have hl := congrArg String.toList h
  rw [String.toList_append, String.toList_append] at hl
  have hd := List.append_cancel_left hl
  rw [Nat.toString_eq_ofList_toDigits, Nat.toString_eq_ofList_toDigits, String.toList_ofList,
    String.toList_ofList] at hd
  exact toDigits_inj hd

theorem id_injective : Function.Injective id := by
  intro a b h
  have hc := congrArg (fun s => cut s.toList) h
  simp only [cut_id, Prod.mk.injEq, String.toList_inj] at hc
  obtain ⟨hfront, hdigits, hback⟩ := hc
  have hnumber := number_inj hdigits
  cases a <;> cases b <;> simp only [front, String.reduceEq] at hfront <;>
    simp only [number?, Option.some.injEq] at hnumber <;> try subst hnumber
  case verdict.verdict n right right' =>
    have hname : toString right = toString right' := hback
    cases right <;> cases right' <;> first | rfl | exact absurd hname (by decide)
  case verdict.response n right index => exact absurd hback (verdict_ne_response right index)
  case response.verdict n index right => exact absurd hback.symm (verdict_ne_response right index)
  case response.response n index index' => rw [response_inj hback]
  all_goals rfl

def owner? : Anchor → Option Nat
  | question n | form n | verdict n _ | response n _ => some n
  | _ => none

end Anchor

theorem mem_responseAnchors {number : Nat} {body : AnswerBody} {a : Anchor}
    (h : a ∈ responseAnchors number body) :
    (∃ right, a = .verdict number right) ∨ ∃ index, a = .response number index := by
  cases body with
  | answer answer =>
    rcases List.mem_cons.1 h with rfl | h
    · exact .inl ⟨true, rfl⟩
    · exact .inl ⟨false, List.mem_singleton.1 h⟩
  | choice choice =>
    have heach (h : a ∈ (List.range' 1 choice.items.length).map (.response number)) :
        ∃ index, a = .response number index := by
      obtain ⟨index, _, rfl⟩ := List.mem_map.1 h
      exact ⟨index, rfl⟩
    simp only [responseAnchors] at h
    split at h
    · exact .inr (heach h)
    · rcases List.mem_append.1 h with h | h
      · exact .inr (heach h)
      · exact .inr ⟨0, List.mem_singleton.1 h⟩
    · cases h

theorem owner_of_mem {question : Question} {number : Nat} {a : Anchor}
    (h : a ∈ questionAnchors question number) : a.owner? = some number := by
  rcases List.mem_cons.1 h with rfl | h
  · rfl
  rcases List.mem_cons.1 h with rfl | h
  · rfl
  rcases mem_responseAnchors h with ⟨right, rfl⟩ | ⟨index, rfl⟩ <;> rfl

private theorem numbered_nodup {f : Nat → Anchor} (h : Function.Injective f) (count : Nat) :
    ((List.range' 1 count).map f).Nodup :=
  List.Nodup.map h List.nodup_range'

theorem responseAnchors_nodup (number : Nat) (body : AnswerBody) : (responseAnchors number body).Nodup := by
  cases body with
  | answer answer => simp [responseAnchors]
  | choice choice =>
    have heach : ((List.range' 1 choice.items.length).map (Anchor.response number)).Nodup :=
      numbered_nodup (fun m n h => by cases h; rfl) _
    simp only [responseAnchors]
    split
    · exact heach
    · refine List.nodup_append.2 ⟨heach, List.nodup_singleton _, ?_⟩
      -- the items are counted from one
      intro a ha b hb hab
      obtain ⟨index, hi, rfl⟩ := List.mem_map.1 ha
      cases List.mem_singleton.1 hb
      cases hab
      exact absurd (List.mem_range'_1.1 hi).1 (by decide)
    · exact List.nodup_nil

theorem questionAnchors_nodup (question : Question) (number : Nat) :
    (questionAnchors question number).Nodup := by
  refine List.nodup_cons.2 ⟨fun h => ?_, List.nodup_cons.2 ⟨fun h => ?_, responseAnchors_nodup _ _⟩⟩
  · rcases List.mem_cons.1 h with h | h
    · cases h
    · rcases mem_responseAnchors h with ⟨_, h⟩ | ⟨_, h⟩ <;> cases h
  · rcases mem_responseAnchors h with ⟨_, h⟩ | ⟨_, h⟩ <;> cases h

theorem anchors_nodup (quiz : Quiz) : (anchors quiz).Nodup := by
  have hquestions : ((quiz.questions.zipIdx 1).flatMap fun (question, number) =>
      questionAnchors question number).Nodup := by
    refine List.nodup_flatMap.2 ⟨fun x _ => questionAnchors_nodup x.1 x.2, ?_⟩
    have hnumbers : ((quiz.questions.zipIdx 1).map Prod.snd).Nodup := by
      rw [List.zipIdx_map_snd]
      exact List.nodup_range'
    refine (List.pairwise_map.1 hnumbers).imp fun hne a hx hy => hne ?_
    exact Option.some.inj ((owner_of_mem hx).symm.trans (owner_of_mem hy))
  have hbuttons : ((List.range' 1 quiz.questions.length).map Anchor.button).Nodup :=
    numbered_nodup (fun m n h => by cases h; rfl) _
  have hdiscussions : ((List.range' 1 quiz.discussions.length).map Anchor.discussion).Nodup :=
    numbered_nodup (fun m n h => by cases h; rfl) _
  have hnumber : (if quiz.questions.isEmpty then [] else [Anchor.questionNumber]).Nodup := by
    split
    · exact List.nodup_nil
    · exact List.nodup_singleton _
  have hmem {a : Anchor} (h : a ∈ if quiz.questions.isEmpty then [] else [Anchor.questionNumber]) :
      a = .questionNumber := by
    split at h
    · cases h
    · exact List.mem_singleton.1 h
  rw [anchors]
  refine List.nodup_append.2 ⟨List.nodup_append.2 ⟨List.nodup_append.2 ⟨hbuttons, hnumber, ?_⟩,
    hdiscussions, ?_⟩, hquestions, ?_⟩
  · intro a ha b hb hab
    obtain ⟨n, _, rfl⟩ := List.mem_map.1 ha
    rw [hmem hb] at hab
    cases hab
  · intro a ha b hb hab
    obtain ⟨n, _, rfl⟩ := List.mem_map.1 hb
    rcases List.mem_append.1 ha with ha | ha
    · obtain ⟨m, _, rfl⟩ := List.mem_map.1 ha
      cases hab
    · rw [hmem ha] at hab
      cases hab
  · -- the elements before the questions belong to none
    intro a ha b hb hab
    have howner : a.owner? = none := by
      rcases List.mem_append.1 ha with ha | ha
      · rcases List.mem_append.1 ha with ha | ha
        · obtain ⟨m, _, rfl⟩ := List.mem_map.1 ha
          rfl
        · rw [hmem ha]
          rfl
      · obtain ⟨m, _, rfl⟩ := List.mem_map.1 ha
        rfl
    obtain ⟨x, _, hx⟩ := List.mem_flatMap.1 hb
    rw [hab, owner_of_mem hx] at howner
    cases howner

/-- No name is given twice on a page. -/
theorem ids_nodup (quiz : Quiz) : ((anchors quiz).map Anchor.id).Nodup :=
  (anchors_nodup quiz).map Anchor.id_injective

end QuizPress.Render.Page
