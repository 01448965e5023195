import QuizPress.Proofs.Render.Unread

/-! Quizzes that are written and read again. -/
namespace QuizPress.Render.Source
open Quiz Text Xml

/-- A property holds of all elements of a list, or there is a first one of which it does not. -/
private theorem all_or_first {α : Type} (p : α → Prop) (xs : List α) :
    (∀ x ∈ xs, p x) ∨ ∃ before x after, xs = before ++ x :: after ∧ (∀ y ∈ before, p y) ∧ ¬ p x := by
  induction xs with
  | nil => exact .inl fun _ hx => by cases hx
  | cons x xs ih =>
    by_cases hp : p x
    · rcases ih with ha | ⟨before, y, after, rfl, hb, hy⟩
      · exact .inl (List.forall_mem_cons.2 ⟨hp, ha⟩)
      · exact .inr ⟨x :: before, y, after, rfl, List.forall_mem_cons.2 ⟨hp, hb⟩, hy⟩
    · exact .inr ⟨[], x, xs, rfl, fun _ hy => (by cases hy), hp⟩

/-- A quiz whose bags have plain and distinct names is read as its normal form, or it is refused at
its first choice that has no labels for its items. It comes back as it was if all choices have
labels and it is its own normal form. -/
theorem parse_document (q : Quiz)
    (hn : ∀ bag ∈ q.metas ++ q.links, (∀ a ∈ bag, isName a.1 = true) ∧ (bag.map Prod.fst).Nodup) :
    (parse (document q) = match q.questions.findIdx? (!·.body.fits) with
      | none => .ok q.normal
      | some i => .error (.tooManyItems (i + 1))) ∧
    (parse (document q) = .ok q ↔ (∀ x ∈ q.questions, x.body.fits = true) ∧ q.normal = q) := by
  have hw : ∀ bag ∈ q.metas ++ q.links, Writable bag := fun bag hb =>
    writable_of_isName (hn bag hb).1 (hn bag hb).2
  rcases all_or_first (·.body.fits = true) q.questions with hf | ⟨before, x, after, hs, hb, hx⟩
  · have hi : q.questions.findIdx? (!·.body.fits) = none :=
      List.findIdx?_eq_none_iff.2 fun x hx => by simp [hf x hx]
    have hp := parse_document_of_writable q hw hf
    rw [hi, hp]
    refine ⟨rfl, fun he => ⟨hf, Except.ok.inj he⟩, fun he => ?_⟩
    rw [he.2]
  · have hi : q.questions.findIdx? (!·.body.fits) = some before.length := by
      have hn : before.findIdx? (!·.body.fits) = none :=
        List.findIdx?_eq_none_iff.2 fun y hy => by simp [hb y hy]
      rw [hs, List.findIdx?_append, hn, List.findIdx?_cons]
      simp [hx]
    have hp := parse_document_of_overfull hw hs hb (Bool.eq_false_iff.2 hx)
    rw [hi, hp]
    refine ⟨rfl, fun he => (by cases he), fun he => ?_⟩
    exact absurd (he.1 x (by simp [hs])) hx

/-- A quiz whose texts look like markup, with a blank tag and a mode under a borrowed name. -/
def entangled : Quiz where
  title := "<\"'&>"
  metas := [[("name", "a&amp;b"), ("content", "")]]
  discussions := [⟨"", " a]]>b "⟩]
  questions := [
    ⟨" x<b>", .choice ⟨.other "single", .one, [⟨true, "", " "⟩]⟩⟩,
    ⟨"", .answer ⟨"]]>", some "\n", "yes", " no"⟩⟩]

theorem parse_document_entangled :
    (∀ bag ∈ entangled.metas ++ entangled.links,
      (∀ a ∈ bag, isName a.1 = true) ∧ (bag.map Prod.fst).Nodup) ∧
    parse (document entangled) = .ok { entangled with
      discussions := [⟨"", "a]]>b"⟩]
      questions := [
        ⟨"x<b>", .choice ⟨.single, .one, [⟨true, "", ""⟩]⟩⟩,
        ⟨"", .answer ⟨"]]>", none, "yes", "no"⟩⟩] } := by
  have hn : ∀ bag ∈ entangled.metas ++ entangled.links,
      (∀ a ∈ bag, isName a.1 = true) ∧ (bag.map Prod.fst).Nodup := by decide
  exact ⟨hn, (parse_document entangled hn).1⟩

/-- What is read from a document comes back from the document that is written of it if the quotes in
the names of each bag close one another, and only then. -/
theorem parse_document_of_parse {d : String} {q : Quiz} (h : parse d = .ok q) :
    parse (document q) = .ok q ↔ ∀ bag ∈ q.metas ++ q.links, Balanced bag := by
  have ht := tidy_of_ofReading h
  have hl := legible_of_parse h
  have hw : ∀ {bag}, bag ∈ q.metas ++ q.links → Balanced bag → Writable bag := fun hm hb =>
    ⟨hl _ hm, hb⟩
  constructor
  · intro hp
    have hm : ∀ bag ∈ q.metas, Balanced bag := by
      rcases all_or_first Balanced q.metas with ha | ⟨before, bag, after, hs, hb, hx⟩
      · exact ha
      · have hmem : ∀ y ∈ before ++ bag :: after, y ∈ q.metas ++ q.links := fun y hy =>
          List.mem_append_left _ (hs ▸ hy)
        exact absurd hp (parse_document_ne_of_unbalanced_meta hs
          (fun y hy => hw (hmem y (List.mem_append_left _ hy)) (hb y hy))
          (hl bag (hmem bag (by simp))) hx)
    have hl : ∀ bag ∈ q.links, Balanced bag := by
      rcases all_or_first Balanced q.links with ha | ⟨before, bag, after, hs, hb, hx⟩
      · exact ha
      · have hmem : ∀ y ∈ before ++ bag :: after, y ∈ q.metas ++ q.links := fun y hy =>
          List.mem_append_right _ (hs ▸ hy)
        exact absurd hp (parse_document_ne_of_unbalanced_link
          (fun y hy => hw (List.mem_append_left _ hy) (hm y hy)) hs
          (fun y hy => hw (hmem y (List.mem_append_left _ hy)) (hb y hy))
          (hl bag (hmem bag (by simp))) hx)
    intro bag hb
    rcases List.mem_append.1 hb with hb | hb
    · exact hm bag hb
    · exact hl bag hb
  · intro hb
    have hp := parse_document_of_writable q (fun bag hm => hw hm (hb bag hm)) fun x hx =>
      (ht.questions x hx).2
    rw [hp, ht.normal]

/-- A quote of each kind stands in the names of a bag, and neither is closed. -/
theorem parse_document_open_quotes :
    parse "<quiz><meta a'=\"x'\" b\"=\"y\"/></quiz>" =
      .ok { metas := [[("a'", "x'"), ("b\"", "y")]] } ∧
    parse (document { metas := [[("a'", "x'"), ("b\"", "y")]] }) ≠
      .ok { metas := [[("a'", "x'"), ("b\"", "y")]] } := by
  have hr : Xml.read (glyphs "<quiz><meta a'=\"x'\" b\"=\"y\"/></quiz>") = ⟨[.start "quiz" [],
      .empty "meta" [("a'", "x'"), ("b\"", "y")], .close "quiz"], none⟩ := by decide +kernel
  have h : parse "<quiz><meta a'=\"x'\" b\"=\"y\"/></quiz>" =
      .ok { metas := [[("a'", "x'"), ("b\"", "y")]] } := congrArg ofReading hr
  refine ⟨h, fun hp => ?_⟩
  have hb := (parse_document_of_parse h).1 hp _ List.mem_cons_self
  cases hb

end QuizPress.Render.Source
