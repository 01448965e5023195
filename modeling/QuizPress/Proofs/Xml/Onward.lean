import QuizPress.Proofs.Except
import QuizPress.Proofs.Xml.Legible
import QuizPress.Proofs.Xml.Survey

/-! A document read on: what is cut off its front, and what is read of it, stays what it is when more
is written behind it. -/
namespace QuizPress.Xml
open Text

variable {gs rest : List Glyph}

theorem eq_of_cutAt {mark before after : List Glyph} (h : cutAt mark gs = some (before, after)) :
    gs = before ++ (mark ++ after) := by
  induction gs generalizing before with
  | nil => cases h
  | cons g gs ih =>
    rw [cutAt] at h
    split at h
    · rename_i hp
      cases h
      rw [List.isPrefixOf_iff_prefix] at hp
      rw [List.nil_append, List.prefix_iff_eq_append.1 hp]
    · obtain ⟨⟨b, a⟩, hc, he⟩ := Option.map_eq_some_iff.1 h
      cases he
      rw [List.cons_append, ← ih hc]

/-- A mark that begins a longer text begins the text itself, if that is not too short. -/
private theorem prefix_of_append {mark more : List Glyph} (h : mark <+: gs ++ more)
    (hl : mark.length ≤ gs.length) : mark <+: gs :=
  List.prefix_of_prefix_length_le h (List.prefix_append gs more) hl

theorem cutAt_onward {mark before after : List Glyph} (h : cutAt mark gs = some (before, after))
    (more : List Glyph) : cutAt mark (gs ++ more) = some (before, after ++ more) := by
  induction gs generalizing before with
  | nil => cases h
  | cons g gs ih =>
    rw [cutAt] at h
    rw [List.cons_append, cutAt]
    split at h
    · rename_i hp
      cases h
      have hl := (List.isPrefixOf_iff_prefix.1 hp).length_le
      have hm : mark.isPrefixOf (g :: (gs ++ more)) = true :=
        List.isPrefixOf_iff_prefix.2 ((List.isPrefixOf_iff_prefix.1 hp).trans (List.prefix_append _ more))
      rw [if_pos hm, ← List.cons_append, List.drop_append_of_le_length hl]
    · rename_i hp
      obtain ⟨⟨b, a⟩, hc, he⟩ := Option.map_eq_some_iff.1 h
      cases he
      have hl : mark.length ≤ (g :: gs).length := by
        rw [eq_of_cutAt hc]
        simp
        omega
      have hm : ¬ mark.isPrefixOf (g :: (gs ++ more)) = true := by
        rw [List.isPrefixOf_iff_prefix] at hp ⊢
        exact fun h => hp (prefix_of_append h hl)
      rw [if_neg hm, ih hc]
      rfl

/-- Whether a mark stands in front is decided within the text, if the text holds a glyph that the mark
does not hold. -/
theorem after_onward {mark : String} {g : Glyph} (hg : g ∈ gs) (hm : g ∉ glyphs mark)
    (more : List Glyph) : after? mark (gs ++ more) = (after? mark gs).map (· ++ more) := by
  have hp : (glyphs mark).isPrefixOf (gs ++ more) = (glyphs mark).isPrefixOf gs := by
    rw [Bool.eq_iff_iff, List.isPrefixOf_iff_prefix, List.isPrefixOf_iff_prefix]
    refine ⟨fun h => ?_, fun h => h.trans (List.prefix_append gs more)⟩
    rcases List.prefix_or_prefix_of_prefix h (List.prefix_append gs more) with h | h
    · exact h
    · exact absurd (h.subset hg) hm
  rw [after?, after?, hp]
  split
  · rename_i h
    rw [List.drop_append_of_le_length (List.isPrefixOf_iff_prefix.1 h).length_le]
    rfl
  · rfl

theorem after_some_onward {mark : String} (h : after? mark gs = some rest) (more : List Glyph) :
    after? mark (gs ++ more) = some (rest ++ more) := by
  unfold after? at h
  split at h
  · rename_i hp
    cases h
    rw [List.isPrefixOf_iff_prefix] at hp
    rw [after?, if_pos (List.isPrefixOf_iff_prefix.2 (hp.trans (List.prefix_append gs more))),
      List.drop_append_of_le_length hp.length_le]
  · cases h

private theorem mark_onward {mark stop : String} {before : List Glyph}
    (h : (after? mark gs).bind (cutAt (glyphs stop)) = some (before, rest)) (more : List Glyph) :
    (after? mark (gs ++ more)).bind (cutAt (glyphs stop)) = some (before, rest ++ more) := by
  obtain ⟨inner, hi, hc⟩ := Option.bind_eq_some_iff.1 h
  rw [after_some_onward hi, Option.bind_some, cutAt_onward hc]

theorem cutTag_onward {quote : Option Char} {content : List Glyph}
    (h : cutTag quote gs = .ok (content, rest)) (more : List Glyph) :
    cutTag quote (gs ++ more) = .ok (content, rest ++ more) := by
  obtain ⟨rfl, hq⟩ := eq_of_cutTag h
  rw [List.append_assoc, cutTag_append hq, List.cons_append, cutTag, if_pos ⟨rfl, rfl⟩]
  simp [Except.map]

/-- Every declaration, comment or instruction that ends holds a bracket. -/
private theorem bracket_of_afterDeclaration (h : afterDeclaration? gs = some rest) : .char '>' ∈ gs := by
  have cut {stop gs rest : List Glyph} (hs : .char '>' ∈ stop)
      (h : (cutAt stop gs).map (·.2) = some rest) : .char '>' ∈ gs := by
    obtain ⟨⟨before, after⟩, hc, _⟩ := Option.map_eq_some_iff.1 h
    rw [eq_of_cutAt hc]
    exact List.mem_append_right _ (List.mem_append_left _ hs)
  unfold afterDeclaration? at h
  split at h
  · rename_i hi
    exact (suffix_of_after hi).subset (cut (by decide) h)
  · split at h
    · rename_i hi
      exact (suffix_of_after hi).subset (cut (by decide) h)
    · split at h
      · obtain ⟨⟨content, after⟩, hc, _⟩ := Option.map_eq_some_iff.1 h
        cases ht : cutTag none gs with
        | error flaw =>
          rw [ht] at hc
          cases hc
        | ok r =>
          rw [(eq_of_cutTag ht).1]
          simp
      · exact cut (by decide) h

theorem afterDeclaration_onward (h : afterDeclaration? gs = some rest) (more : List Glyph) :
    afterDeclaration? (gs ++ more) = some (rest ++ more) := by
  have hb := bracket_of_afterDeclaration h
  have cut {stop gs rest : List Glyph} (h : (cutAt stop gs).map (·.2) = some rest) :
      (cutAt stop (gs ++ more)).map (·.2) = some (rest ++ more) := by
    obtain ⟨⟨before, after⟩, hc, he⟩ := Option.map_eq_some_iff.1 h
    cases he
    rw [cutAt_onward hc]
    rfl
  have hquoted : (after? "!ENTITY" (gs ++ more) <|> after? "!ATTLIST" (gs ++ more) <|>
      after? "!NOTATION" (gs ++ more)).isSome =
      (after? "!ENTITY" gs <|> after? "!ATTLIST" gs <|> after? "!NOTATION" gs).isSome := by
    rw [after_onward hb (by decide), after_onward hb (by decide), after_onward hb (by decide)]
    cases after? "!ENTITY" gs <;> cases after? "!ATTLIST" gs <;> cases after? "!NOTATION" gs <;> rfl
  unfold afterDeclaration? at h ⊢
  rw [after_onward hb (by decide), after_onward hb (by decide), hquoted]
  split at h
  · rename_i hi
    rw [hi]
    exact cut h
  · rename_i hi
    rw [Option.eq_none_iff_forall_ne_some.2 hi]
    split at h
    · rename_i hi
      rw [hi]
      exact cut h
    · rename_i hi
      rw [Option.eq_none_iff_forall_ne_some.2 hi]
      dsimp only [Option.map_none]
      split at h
      · rename_i hq
        obtain ⟨⟨content, after⟩, hc, he⟩ := Option.map_eq_some_iff.1 h
        cases ht : cutTag none gs with
        | error flaw =>
          rw [ht] at hc
          cases hc
        | ok r =>
          rw [ht] at hc
          cases hc
          cases he
          rw [if_pos hq, cutTag_onward ht]
          rfl
      · rename_i hq
        rw [if_neg hq]
        exact cut h

theorem afterSubset_onward (h : afterSubset? gs = some rest) (more : List Glyph) :
    afterSubset? (gs ++ more) = some (rest ++ more) := by
  fun_induction afterSubset? gs with
  | case1 => cases h
  | case2 gs =>
    cases h
    rw [List.cons_append, afterSubset?, if_pos rfl]
  | case3 gs inner hi _ hg ih =>
    rw [List.cons_append, afterSubset?, if_neg hg, if_pos rfl]
    split
    · rename_i he
      rw [afterDeclaration_onward hi] at he
      cases he
      exact ih h
    · rename_i he
      rw [afterDeclaration_onward hi] at he
      cases he
  | case4 => cases h
  | case5 g gs hg hb ih =>
    rw [List.cons_append, afterSubset?, if_neg hg, if_neg hb]
    exact ih h

theorem endOfDoctype_onward {quote : Option Char} (h : endOfDoctype? quote gs = some rest)
    (more : List Glyph) : endOfDoctype? quote (gs ++ more) = some (rest ++ more) := by
  induction gs generalizing quote with
  | nil => cases h
  | cons g gs ih =>
    rw [endOfDoctype?] at h
    rw [List.cons_append, endOfDoctype?]
    split at h
    · rename_i hg
      cases h
      rw [if_pos hg]
      rfl
    · rename_i hg
      rw [if_neg hg]
      split at h
      · rename_i hb
        rw [if_pos hb]
        split at h
        · rename_i g' gs' hm
          cases h
          obtain ⟨inner, hi, he⟩ := Option.map_eq_some_iff.1 hm
          have hd : (inner ++ more).dropWhile (· != Glyph.char '>') = g' :: (gs' ++ more) := by
            rw [List.dropWhile_append, he]
            rfl
          rw [afterSubset_onward hi, Option.map_some, hd]
          rfl
        · cases h
      · rename_i hb
        rw [if_neg hb]
        exact ih h

theorem cutDoctype_onward {whole : List Glyph} (h : cutDoctype whole gs = .ok rest)
    (whole' more : List Glyph) : cutDoctype whole' (gs ++ more) = .ok (rest ++ more) := by
  unfold cutDoctype at h
  split at h
  · rename_i bracket rest' he
    have hl := length_of_endOfDoctype he
    rw [List.length_cons] at hl
    -- the end is at the same place, so the content is the same
    have hn : (gs ++ more).length - ((rest' ++ more).length + 1) = gs.length - (rest'.length + 1) := by
      rw [List.length_append, List.length_append]
      omega
    have ht : (gs ++ more).take (gs.length - (rest'.length + 1)) =
        gs.take (gs.length - (rest'.length + 1)) := List.take_append_of_le_length (Nat.sub_le _ _)
    rw [cutDoctype, endOfDoctype_onward he]
    simp only [List.cons_append, hn, ht]
    dsimp only at h
    split at h
    · cases h
    · rename_i hw
      rw [if_neg hw]
      split at h
      · cases h
      · rename_i hs
        cases h
        rw [if_neg hs]
  · cases h

private theorem doctype_onward {whole : List Glyph} {piece : Piece}
    (h : (cutDoctype whole gs).map (Piece.passive, ·) = .ok (piece, rest)) (whole' more : List Glyph) :
    (cutDoctype whole' (gs ++ more)).map (Piece.passive, ·) = .ok (piece, rest ++ more) := by
  cases hc : cutDoctype whole gs with
  | error snag =>
    rw [hc] at h
    cases h
  | ok r =>
    rw [hc] at h
    cases h
    rw [cutDoctype_onward hc]
    rfl

theorem cutMarkup_onward {whole : List Glyph} {piece : Piece} (h : cutMarkup whole gs = .ok (piece, rest))
    (whole' more : List Glyph) : cutMarkup whole' (gs ++ more) = .ok (piece, rest ++ more) := by
  unfold cutMarkup at h
  split at h
  · split at h
    · split at h
      · rename_i hc
        cases h
        have hm := mark_onward hc more
        simp only [List.cons_append] at hm ⊢
        simp only [cutMarkup, hm]
      · cases h
    · split at h
      · rename_i hc
        cases h
        have hm := mark_onward hc more
        simp only [List.cons_append] at hm ⊢
        simp only [cutMarkup, hm]
      · cases h
    · exact doctype_onward h whole' more
    · exact doctype_onward h whole' more
    · cases h
  · split at h
    · cases h
    · rename_i inner _ hne
      split at h
      · rename_i hc
        cases h
        rw [List.cons_append, cutMarkup]
        · rw [cutAt_onward hc]
        · intro tail he
          cases inner with
          | nil => exact absurd hc (by simp [cutAt])
          | cons g inner =>
            rw [List.cons_append] at he
            exact hne inner (by rw [(List.cons.inj he).1])
      · cases h
  · split at h
    · rename_i hc
      cases h
      simp only [List.cons_append, cutMarkup, cutTag_onward hc]
    · cases h
  · rename_i hbang hquestion hslash
    split at h
    · rename_i hc
      cases h
      cases gs with
      | nil => cases hc
      | cons g inner =>
        rw [List.cons_append, cutMarkup, ← List.cons_append, cutTag_onward hc]
        · exact fun tail he => hbang inner (by rw [(List.cons.inj he).1])
        · exact fun tail he => hquestion inner (by rw [(List.cons.inj he).1])
        · exact fun tail he => hslash inner (by rw [(List.cons.inj he).1])
    · cases h

/-- A piece stays what it is, if it is no text that goes on in what is written behind it. -/
theorem cutPiece_onward {g : Glyph} {piece : Piece} (h : cutPiece g gs = .ok (piece, rest))
    {more : List Glyph}
    (hm : rest ≠ [] ∨ (∀ content, piece ≠ .text content) ∨ ∀ g, more.head? = some g → isText g = false) :
    cutPiece g (gs ++ more) = .ok (piece, rest ++ more) := by
  unfold cutPiece at h ⊢
  split at h
  · rename_i hg
    rw [if_pos hg]
    exact cutMarkup_onward h _ _
  · rename_i hg
    rw [if_neg hg]
    split at h
    · rename_i ha
      rw [if_pos ha]
      split at h
      · rename_i rest' hd
        cases h
        obtain ⟨ht, hd'⟩ := span_append gs more (.inl (by rw [hd]; exact List.cons_ne_nil _ _))
        rw [ht, hd', hd]
        rfl
      · cases h
    · rename_i ha
      rw [if_neg ha]
      cases h
      obtain ⟨ht, hd⟩ := span_append (p := isText) gs more <| by
        rcases hm with hr | hp | hh
        · exact .inl hr
        · exact absurd rfl (hp _)
        · exact .inr hh
      rw [ht, hd]

/-- How many more elements are open behind an event than in front of it. -/
def Event.rise : Event → Int
  | start _ _ => 1
  | close _ => -1
  | empty _ _ | text _ | reference _ => 0

def rise : List Event → Int
  | [] => 0
  | event :: later => event.rise + rise later

theorem rise_append (events later : List Event) : rise (events ++ later) = rise events + rise later := by
  induction events with
  | nil => exact (Int.zero_add _).symm
  | cons event events ih => rw [List.cons_append, rise, rise, ih, Int.add_assoc]

def Reading.prepend (events : List Event) (reading : Reading) : Reading :=
  ⟨events ++ reading.events, reading.fault⟩

theorem Reading.prepend_prepend (events later : List Event) (reading : Reading) :
    (reading.prepend later).prepend events = reading.prepend (events ++ later) := by
  simp [prepend]

section
variable {size : Nat} {opened opened' : List (List Glyph)} {g : Glyph} {piece : Piece}
  {mark : Option Event}

theorem readFrom_error (opened : List (List Glyph)) {snag : Snag} (h : cutPiece g gs = .error snag) :
    readFrom size opened (g :: gs) =
      ⟨[], some (.malformed (size - width snag.remaining) snag.flaw)⟩ := by
  rw [readFrom]
  split
  · rename_i he
    cases h.symm.trans he
    rfl
  · rename_i he
    cases h.symm.trans he

/-- A reading says what its first piece says, and then what stands behind it. -/
theorem readFrom_ok (h : cutPiece g gs = .ok (piece, rest))
    (hm : mark? opened piece = some (mark, opened')) :
    readFrom size opened (g :: gs) = (readFrom size opened' rest).prepend mark.toList := by
  rw [readFrom]
  split
  · rename_i he
    cases h.symm.trans he
  · rename_i he
    cases h.symm.trans he
    cases piece with
    | passive =>
      cases hm
      rfl
    | text content | reference name =>
      obtain ⟨s, hs, he⟩ := Option.map_eq_some_iff.1 hm
      cases he
      simp only [hs]
      rfl
    | opening content | closing content =>
      obtain ⟨⟨event, opened'⟩, hr, he⟩ := exists_of_toOption hm
      cases he
      simp only [hr]
      rfl

/-- A piece that is neither an event nor passed over is a fault. -/
theorem fault_of_mark (h : cutPiece g gs = .ok (piece, rest)) (hm : mark? opened piece = none) :
    (readFrom size opened (g :: gs)).fault ≠ none := by
  rw [readFrom]
  split
  · exact Option.some_ne_none _
  · rename_i he
    cases h.symm.trans he
    cases piece with
    | passive => cases hm
    | text content | reference name =>
      simp only [Option.map_eq_none_iff.1 hm]
      exact Option.some_ne_none _
    | opening content =>
      cases ho : readOpening opened content with
      | error fault =>
        simp only [ho]
        exact Option.some_ne_none _
      | ok r =>
        rw [mark?, ho] at hm
        cases hm
    | closing content =>
      cases hc : readClosing opened content with
      | error flaw =>
        simp only [hc]
        exact Option.some_ne_none _
      | ok r =>
        rw [mark?, hc] at hm
        cases hm

private theorem readOpening_append {content : List Glyph} {event : Event}
    (h : readOpening opened content = .ok (event, opened')) (outer : List (List Glyph)) :
    readOpening (opened ++ outer) content = .ok (event, opened' ++ outer) := by
  unfold readOpening at h ⊢
  split at h
  · rename_i hl
    obtain ⟨attributes, ha, he⟩ := bind_eq_ok.1 h
    cases he
    simp only [if_pos hl, ha]
    rfl
  · rename_i hl
    obtain ⟨attributes, ha, he⟩ := bind_eq_ok.1 h
    cases he
    simp only [if_neg hl, ha]
    rfl

private theorem readClosing_append {content : List Glyph} {event : Event}
    (h : readClosing opened content = .ok (event, opened')) (outer : List (List Glyph)) :
    readClosing (opened ++ outer) content = .ok (event, opened' ++ outer) := by
  unfold readClosing at h ⊢
  dsimp only at h
  split at h
  · cases h
  · split at h
    · rename_i hn
      cases h
      simp only [List.cons_append, if_pos hn]
    · cases h

theorem rise_of_mark (h : mark? opened piece = some (mark, opened')) :
    (opened'.length : Int) = opened.length + rise mark.toList := by
  cases piece with
  | passive =>
    cases h
    exact (Int.add_zero _).symm
  | text content | reference name =>
    obtain ⟨s, _, he⟩ := Option.map_eq_some_iff.1 h
    cases he
    exact (Int.add_zero _).symm
  | opening content =>
    obtain ⟨⟨event, opened'⟩, hr, he⟩ := exists_of_toOption h
    cases he
    rcases readOpening_cases hr with ⟨_, _, rfl, rfl, _⟩ | ⟨_, rfl, rfl, _⟩ <;> simp [rise, Event.rise]
  | closing content =>
    obtain ⟨⟨event, opened'⟩, hr, he⟩ := exists_of_toOption h
    cases he
    obtain ⟨name, rfl, rfl⟩ := readClosing_cases hr
    simp only [Option.toList_some, rise, Event.rise, List.length_cons]
    omega

/-- Elements that are open further out have no part in what a piece is. -/
theorem mark_append (h : mark? opened piece = some (mark, opened')) (outer : List (List Glyph)) :
    mark? (opened ++ outer) piece = some (mark, opened' ++ outer) := by
  cases piece with
  | passive =>
    cases h
    rfl
  | text content | reference name =>
    obtain ⟨s, hs, he⟩ := Option.map_eq_some_iff.1 h
    cases he
    rw [mark?, hs]
    rfl
  | opening content =>
    obtain ⟨⟨event, opened'⟩, hr, he⟩ := exists_of_toOption h
    cases he
    rw [mark?, readOpening_append hr]
    rfl
  | closing content =>
    obtain ⟨⟨event, opened'⟩, hr, he⟩ := exists_of_toOption h
    cases he
    rw [mark?, readClosing_append hr]
    rfl

end

/-- What is read without a fault is read in the same way when more elements are open around it and more
is written behind it, and there the reading goes on. A text at the end would go on in a text that is
written behind it. -/
theorem readFrom_onward {size : Nat} {opened : List (List Glyph)} {events : List Event}
    (h : readFrom size opened gs = ⟨events, none⟩) :
    ∃ opened', (opened'.length : Int) = opened.length + rise events ∧
      ∀ size' outer more,
        (∀ content, events.getLast? ≠ some (.text content)) ∨ (∀ g, more.head? = some g → isText g = false) →
        readFrom size' (opened ++ outer) (gs ++ more) =
          (readFrom size' (opened' ++ outer) more).prepend events := by
  induction hn : gs.length using Nat.strongRecOn generalizing gs opened events with
  | _ n ih =>
    cases gs with
    | nil =>
      rw [readFrom] at h
      cases h
      exact ⟨opened, (Int.add_zero _).symm, fun _ _ _ _ => rfl⟩
    | cons g gs =>
      cases hc : cutPiece g gs with
      | error snag =>
        rw [readFrom_error opened hc] at h
        cases h
      | ok r =>
        obtain ⟨piece, rest⟩ := r
        cases hm : mark? opened piece with
        | none => exact absurd (congrArg Reading.fault h) (fault_of_mark hc hm)
        | some r =>
          obtain ⟨mark, opened₁⟩ := r
          rw [readFrom_ok hc hm] at h
          obtain ⟨later, hr, rfl⟩ : ∃ later, readFrom size opened₁ rest = ⟨later, none⟩ ∧
              events = mark.toList ++ later :=
            ⟨_, congrArg (Reading.mk _) (congrArg Reading.fault h), (congrArg Reading.events h).symm⟩
          have hl : rest.length < n := by
            rw [← hn]
            exact Nat.lt_succ_of_le (length_of_cutPiece hc)
          obtain ⟨opened', hrise, hgo⟩ := ih _ hl hr rfl
          refine ⟨opened', ?_, fun size' outer more hmore => ?_⟩
          · rw [hrise, rise_of_mark hm, rise_append, Int.add_assoc]
          have hcut : cutPiece g (gs ++ more) = .ok (piece, rest ++ more) := by
            refine cutPiece_onward hc ?_
            cases rest with
            | cons => exact .inl (List.cons_ne_nil _ _)
            | nil =>
              refine .inr (hmore.imp_left fun hlast content hp => ?_)
              subst hp
              obtain ⟨s, _, he⟩ := Option.map_eq_some_iff.1 hm
              rw [readFrom] at hr
              cases hr
              cases he
              exact hlast s rfl
          rw [List.cons_append, readFrom_ok hcut (mark_append hm outer), hgo, Reading.prepend_prepend]
          refine hmore.imp_left fun hlast content hl => hlast content ?_
          rw [List.getLast?_append, hl]
          rfl

/-- The size of a document has no part in what is read of it without a fault. -/
theorem readFrom_size {size : Nat} {opened : List (List Glyph)} {events : List Event}
    (h : readFrom size opened gs = ⟨events, none⟩) (size' : Nat) :
    readFrom size' opened gs = ⟨events, none⟩ := by
  obtain ⟨opened', _, hgo⟩ := readFrom_onward h
  have hr := hgo size' [] [] (.inr fun _ hg => by cases hg)
  rw [List.append_nil, List.append_nil, readFrom, Reading.prepend, List.append_nil] at hr
  exact hr

/-- A document that is read without a fault is read in the same way as the beginning of a longer one. -/
theorem read_onward {events : List Event} (h : read gs = ⟨events, none⟩) :
    ∃ opened, ∀ more,
      (∃ event, events.getLast? = some event ∧ ∀ content, event ≠ .text content) ∨
        (∀ g, more.head? = some g → isText g = false) →
      ∃ size, read (gs ++ more) = (readFrom size opened more).prepend events := by
  have go {gs : List Glyph} (h : readFrom (width gs) [] gs = ⟨events, none⟩) : ∃ opened, ∀ more,
      (∃ event, events.getLast? = some event ∧ ∀ content, event ≠ .text content) ∨
        (∀ g, more.head? = some g → isText g = false) → ∀ size,
      readFrom size [] (gs ++ more) = (readFrom size opened more).prepend events := by
    obtain ⟨opened, _, hgo⟩ := readFrom_onward h
    refine ⟨opened, fun more hmore size => ?_⟩
    have hmore' := hgo size [] more <| hmore.imp_left fun ⟨event, he, hne⟩ content hl =>
      hne content (Option.some.inj (he.symm.trans hl))
    rwa [List.append_nil, List.append_nil] at hmore'
  unfold read at h
  split at h
  · obtain ⟨opened, hgo⟩ := go h
    exact ⟨opened, fun more hmore => ⟨_, hgo more hmore _⟩⟩
  · rename_i hmark
    obtain ⟨opened, hgo⟩ := go h
    refine ⟨opened, fun more hmore => ⟨width (gs ++ more), ?_⟩⟩
    rw [← hgo more hmore, read]
    intro rest he
    cases gs with
    | cons g gs => exact hmark gs (by rw [(List.cons.inj he).1])
    | nil =>
      -- nothing is read of nothing, so what is written behind it begins with no byte order mark
      rw [readFrom] at h
      cases h
      rcases hmore with ⟨event, hevent, _⟩ | hhead
      · cases hevent
      · rw [List.nil_append] at he
        rw [he] at hhead
        exact absurd (hhead _ rfl) (by decide)

end QuizPress.Xml
