import QuizPress.Proofs.Xml.Markup

/-! Every piece of a document is cut off its front: what is left is an end of the document. -/
namespace QuizPress.Xml
open Text

theorem suffix_of_cutAt {mark gs before after : List Glyph} (h : cutAt mark gs = some (before, after)) :
    after <:+ gs := by
  induction gs generalizing before with
  | nil => cases h
  | cons g gs ih =>
    unfold cutAt at h
    split at h
    · cases h
      exact List.drop_suffix _ _
    · obtain ⟨⟨b, a⟩, hc, he⟩ := Option.map_eq_some_iff.1 h
      cases he
      exact (ih hc).trans (List.suffix_cons g gs)

theorem suffix_of_cutTag {quote : Option Char} {gs content after : List Glyph}
    (h : cutTag quote gs = .ok (content, after)) : after <:+ gs := by
  rw [(eq_of_cutTag h).1]
  exact (List.suffix_cons _ after).trans (List.suffix_append _ _)

theorem suffix_of_after {mark : String} {gs rest : List Glyph} (h : after? mark gs = some rest) :
    rest <:+ gs := by
  unfold after? at h
  split at h
  · cases h
    exact List.drop_suffix _ _
  · cases h

private theorem suffix_of_mark {mark stop : String} {gs before rest : List Glyph}
    (h : (after? mark gs).bind (cutAt (glyphs stop)) = some (before, rest)) : rest <:+ gs := by
  obtain ⟨inner, hi, hr⟩ := Option.bind_eq_some_iff.1 h
  exact (suffix_of_cutAt hr).trans (suffix_of_after hi)

theorem suffix_of_afterDeclaration {gs rest : List Glyph} (h : afterDeclaration? gs = some rest) :
    rest <:+ gs := by
  unfold afterDeclaration? at h
  split at h
  · rename_i inner hi
    obtain ⟨⟨b, a⟩, hc, he⟩ := Option.map_eq_some_iff.1 h
    cases he
    exact (suffix_of_cutAt hc).trans (suffix_of_after hi)
  · split at h
    · rename_i inner hi
      obtain ⟨⟨b, a⟩, hc, he⟩ := Option.map_eq_some_iff.1 h
      cases he
      exact (suffix_of_cutAt hc).trans (suffix_of_after hi)
    · split at h
      · obtain ⟨⟨b, a⟩, hc, he⟩ := Option.map_eq_some_iff.1 h
        cases he
        cases ht : cutTag none gs with
        | error flaw =>
          rw [ht] at hc
          cases hc
        | ok r =>
          rw [ht] at hc
          cases hc
          exact suffix_of_cutTag ht
      · obtain ⟨⟨b, a⟩, hc, he⟩ := Option.map_eq_some_iff.1 h
        cases he
        exact suffix_of_cutAt hc

theorem suffix_of_afterSubset {gs rest : List Glyph} (h : afterSubset? gs = some rest) : rest <:+ gs := by
  fun_induction afterSubset? gs with
  | case1 => cases h
  | case2 gs =>
    cases h
    exact List.suffix_cons _ _
  | case3 gs inner hi _ _ ih =>
    exact ((ih h).trans (suffix_of_afterDeclaration hi)).trans (List.suffix_cons _ _)
  | case4 => cases h
  | case5 g gs _ _ ih => exact (ih h).trans (List.suffix_cons _ _)

theorem suffix_of_endOfDoctype {quote : Option Char} {gs rest : List Glyph}
    (h : endOfDoctype? quote gs = some rest) : rest <:+ gs := by
  induction gs generalizing quote with
  | nil => cases h
  | cons g gs ih =>
    unfold endOfDoctype? at h
    split at h
    · cases h
      exact List.suffix_rfl
    · split at h
      · split at h
        · rename_i g' gs' hm
          cases h
          obtain ⟨inner, hi, he⟩ := Option.map_eq_some_iff.1 hm
          have hd := List.dropWhile_suffix (· != Glyph.char '>') (l := inner)
          rw [he] at hd
          exact (hd.trans (suffix_of_afterSubset hi)).trans (List.suffix_cons _ _)
        · cases h
      · exact (ih h).trans (List.suffix_cons _ _)

theorem suffix_of_cutDoctype {gs inner rest : List Glyph} (h : cutDoctype gs inner = .ok rest) :
    rest <:+ inner := by
  unfold cutDoctype at h
  split at h
  · rename_i bracket rest' he
    have hs := suffix_of_endOfDoctype he
    dsimp only at h
    split at h
    · cases h
    · split at h
      · cases h
      · cases h
        exact (List.suffix_cons _ _).trans hs
  · cases h

private theorem suffix_of_doctype {gs inner rest : List Glyph} {piece : Piece}
    (h : (cutDoctype gs inner).map (Piece.passive, ·) = .ok (piece, rest)) :
    rest <:+ inner ∧ piece = .passive := by
  cases hc : cutDoctype gs inner with
  | error snag =>
    rw [hc] at h
    cases h
  | ok r =>
    rw [hc] at h
    cases h
    exact ⟨suffix_of_cutDoctype hc, rfl⟩

private def Inside (gs : List Glyph) (piece : Piece) (rest : List Glyph) : Prop :=
  rest <:+ gs ∧ ∀ content, piece = .opening content → content ⊆ gs

private theorem inside_of_suffix {g : Glyph} {gs rest : List Glyph} {piece : Piece}
    (h : rest <:+ gs) (hp : ∀ content, piece ≠ .opening content) : Inside (g :: gs) piece rest :=
  ⟨h.trans (List.suffix_cons _ _), fun content he => absurd he (hp content)⟩

private theorem inside_of_cutMarkup {gs inner rest : List Glyph} {piece : Piece}
    (h : cutMarkup gs inner = .ok (piece, rest)) : Inside inner piece rest := by
  unfold cutMarkup at h
  split at h
  · split at h
    · split at h
      · rename_i hc
        cases h
        exact inside_of_suffix (suffix_of_mark hc) fun _ he => by cases he
      · cases h
    · split at h
      · rename_i hc
        cases h
        exact inside_of_suffix (suffix_of_mark hc) fun _ he => by cases he
      · cases h
    · obtain ⟨hs, rfl⟩ := suffix_of_doctype h
      exact inside_of_suffix hs fun _ he => by cases he
    · obtain ⟨hs, rfl⟩ := suffix_of_doctype h
      exact inside_of_suffix hs fun _ he => by cases he
    · cases h
  · split at h
    · cases h
    · split at h
      · rename_i hc
        cases h
        exact inside_of_suffix (suffix_of_cutAt hc) fun _ he => by cases he
      · cases h
  · split at h
    · rename_i hc
      cases h
      exact inside_of_suffix (suffix_of_cutTag hc) fun _ he => by cases he
    · cases h
  · split at h
    · rename_i hc
      cases h
      refine ⟨suffix_of_cutTag hc, fun content he => ?_⟩
      cases he
      rw [(eq_of_cutTag hc).1]
      exact List.subset_append_left _ _
    · cases h

private theorem inside_of_cutPiece {g : Glyph} {gs rest : List Glyph} {piece : Piece}
    (h : cutPiece g gs = .ok (piece, rest)) : Inside gs piece rest := by
  unfold cutPiece at h
  split at h
  · exact inside_of_cutMarkup h
  · split at h
    · split at h
      · rename_i rest' hd
        have hs := List.dropWhile_suffix isReference (l := gs)
        rw [hd] at hs
        cases h
        exact ⟨(List.suffix_cons _ _).trans hs, fun _ he => by cases he⟩
      · cases h
    · cases h
      exact ⟨List.dropWhile_suffix isText, fun _ he => by cases he⟩

theorem suffix_of_cutPiece {g : Glyph} {gs rest : List Glyph} {piece : Piece}
    (h : cutPiece g gs = .ok (piece, rest)) : rest <:+ gs :=
  (inside_of_cutPiece h).1

theorem subset_of_cutPiece {g : Glyph} {gs content rest : List Glyph}
    (h : cutPiece g gs = .ok (.opening content, rest)) : content ⊆ gs :=
  (inside_of_cutPiece h).2 content rfl

end QuizPress.Xml
