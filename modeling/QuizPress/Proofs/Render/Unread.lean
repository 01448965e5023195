import QuizPress.Proofs.Quiz.Notes
import QuizPress.Proofs.Quiz.Tidy
import QuizPress.Proofs.Render.Reread
import QuizPress.Proofs.Xml.Unbalanced

/-! Bags whose names leave a quote open: no document in which one is written is read as the quiz
that was written. -/
namespace QuizPress.Quiz
open Text Xml Builder

/-- A quiz that has the bags of another one, and perhaps more behind them. -/
structure Extends (q₀ q : Quiz) : Prop where
  metas : q₀.metas <+: q.metas
  links : q₀.links <+: q.links

/-- The bags that a quiz has while it is read are never lost. -/
theorem extends_of_resume {b : Builder} {q₀ q : Quiz} {reading : Reading} (hb : b.quiz = some q₀)
    (h : b.resume reading = .ok q) : Extends q₀ q := by
  obtain ⟨_, b', hr, _, hq⟩ := resume_eq_ok.1 h
  obtain ⟨q', hq', hn⟩ := noted_of_run hr hb
  cases hq.symm.trans hq'
  exact ⟨hn.metas ▸ List.prefix_append _ _, hn.links ▸ List.prefix_append _ _⟩

namespace Cursor

/-- Whatever is read from an unbalanced tag, it is not what was written. -/
theorem outcome_unbalanced {c : Cursor} {size : Nat} {element : Element} {attributes : Attributes}
    {rest : List Glyph} {q : Quiz} (hl : Legible attributes) (hb : ¬ Balanced attributes)
    (h : c.outcome size (glyphs (emptyTag element.name attributes) ++ rest) = .ok q) :
    ∃ attributes' reading, attributes' ≠ attributes ∧
      (c.builder.start element.name attributes' >>= fun b => b.resume reading) = .ok q := by
  obtain ⟨x, gs, hg, hx⟩ := glyphs_of_isName element.isName_name
  have hs : glyphs (emptyTag element.name attributes) ++ rest = .char '<' :: .char x :: (gs ++
      (glyphs (writeAttributes (escapeWith markedChar) attributes) ++
        .char '/' :: .char '>' :: rest)) := by
    have he : glyphs (emptyTag element.name attributes) = .char '<' :: (glyphs element.name ++
        (glyphs (writeAttributes (escapeWith markedChar) attributes) ++ [.char '/', .char '>'])) := by
      simp [emptyTag, glyphs, Render.Source.attributes]
    rw [he, hg]
    simp
  have hp := cutPiece_tag (ne_mark_of_isNameChar hx) (gs ++
    (glyphs (writeAttributes (escapeWith markedChar) attributes) ++ .char '/' :: .char '>' :: rest))
  rw [hs] at h
  split at hp
  · rename_i content after hc
    rw [← List.cons_append, ← hg] at hc
    rw [c.outcome_cons size hp, behind] at h
    split at h
    · rename_i event opened hr
      obtain ⟨attributes', hne, he⟩ := readOpening_unbalanced element.isName_name hl hb hc hr
      rcases he with rfl | rfl
      · exact ⟨attributes', readFrom size opened after, hne, h⟩
      · refine ⟨attributes', (readFrom size opened after).cons (.close element.name), hne, ?_⟩
        simp only [Builder.step, Builder.empty, element.ofName?_name] at h
        obtain ⟨b', hb', hr'⟩ := bind_eq_ok.1 h
        obtain ⟨b, ho, hc⟩ := bind_eq_ok.1 hb'
        refine bind_eq_ok.2 ⟨b, ho, ?_⟩
        rw [resume_cons]
        exact bind_eq_ok.2 ⟨b', hc, hr'⟩
    · cases h
  · rw [c.outcome_snag size hp] at h
    cases h

end Cursor

end QuizPress.Quiz

namespace QuizPress.Render.Source
open Quiz Text Xml Place Builder

/-- An unbalanced bag is not read as itself, and what is read in its place is not lost again. -/
theorem decides_unbalanced {q : Quiz} (element : Element) (q₀ : Quiz) {f : Attributes → Quiz → Quiz}
    {values : Attributes} (hf : ∀ values, noted? element values = some (f values)) (hl : Legible values)
    (hb : ¬ Balanced values) (hx : ∀ values', Extends (f values' q₀) q → values' = values) :
    (inQuiz q₀).Decides (bag element.name values) (· ≠ .ok q) := by
  rw [bag_eq]
  refine decides_line (by decide) ?_
  rintro c ⟨scopes, _, rfl⟩ size rest h
  obtain ⟨values', reading, hne, hr⟩ := Cursor.outcome_unbalanced hl hb h
  have ho := openElement_iff.2 (Opens.note (b := { (inQuiz q₀).builder with scopes := {} :: scopes })
    (hf values'))
  rw [start, element.ofName?_name] at hr
  simp only [ho, ok_bind] at hr
  exact hne (hx values' (extends_of_resume rfl hr))

private theorem eq_of_prefix {before after bags : List Attributes} {values values' : Attributes}
    (hb : bags = before ++ values :: after) (h : before ++ [values'] <+: bags) : values' = values := by
  rw [hb, List.prefix_append_right_inj] at h
  exact (List.cons_prefix_cons.1 h).1

theorem parse_document_ne_of_unbalanced_meta {q : Quiz} {before after : List Attributes}
    {values : Attributes} (hq : q.metas = before ++ values :: after)
    (hw : ∀ bag ∈ before, Writable bag) (hl : Legible values) (hb : ¬ Balanced values) :
    parse (document q) ≠ .ok q := by
  obtain ⟨gs, hs⟩ := glyphs_document q
  have metas := takes_metas
    { title := q.title, breadcrumb := q.breadcrumb, source := q.source, course := q.course } before hw
  have next := decides_unbalanced (q := q) .metaData
    { title := q.title, breadcrumb := q.breadcrumb, source := q.source, course := q.course,
      metas := before } (fun _ => rfl) hl hb fun _ he => eq_of_prefix hq he.metas
  refine parse_of_decides (P := (· ≠ .ok q)) hs ?_
  rw [document_eq, head_eq, hq, List.map_append, List.map_cons, String.join_append, String.join_cons]
  exact ((((((takes_opening q).decides (metas.decides (next.append _))).append _).append _).append
    _).append _).append _

theorem parse_document_ne_of_unbalanced_link {q : Quiz} {before after : List Attributes}
    {values : Attributes} (hm : ∀ bag ∈ q.metas, Writable bag) (hq : q.links = before ++ values :: after)
    (hw : ∀ bag ∈ before, Writable bag) (hl : Legible values) (hb : ¬ Balanced values) :
    parse (document q) ≠ .ok q := by
  obtain ⟨gs, hs⟩ := glyphs_document q
  have metas := takes_metas
    { title := q.title, breadcrumb := q.breadcrumb, source := q.source, course := q.course } q.metas hm
  have links := takes_links
    { title := q.title, breadcrumb := q.breadcrumb, source := q.source, course := q.course,
      metas := q.metas } before hw
  have next := decides_unbalanced (q := q) .link
    { title := q.title, breadcrumb := q.breadcrumb, source := q.source, course := q.course,
      metas := q.metas, links := before } (fun _ => rfl) hl hb fun _ he => eq_of_prefix hq he.links
  refine parse_of_decides (P := (· ≠ .ok q)) hs ?_
  rw [document_eq, head_eq, hq, List.map_append, List.map_cons, String.join_append, String.join_cons]
  exact ((((((takes_opening q).append metas).decides (links.decides (next.append _))).append _).append
    _).append _).append _

end QuizPress.Render.Source
