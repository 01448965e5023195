import QuizPress.Proofs.Quiz.Scopes
import QuizPress.Proofs.Xml.Onward
import QuizPress.Proofs.Xml.Reference

/-! References are decoded alike in attribute values and between tags. -/
namespace QuizPress.Quiz
open Text Xml Builder

/-- All that events do is to tell a builder this text. -/
def Told (events : List Event) (text : String) : Prop :=
  ∀ b : Builder, b.run events = .ok (b.characters text)

theorem told_nil : Told [] "" := fun b => by rw [characters_empty]; rfl

theorem told_text (text : String) : Told [.text text] text := fun _ => rfl

theorem told_reference (name : String) :
    Told [.reference name] (.ofList (expansion name.toList)) := fun _ => rfl

theorem Told.append {events later : List Event} {text text' : String} (h : Told events text)
    (h' : Told later text') : Told (events ++ later) (text ++ text') := fun b => by
  rw [← characters_append]
  exact run_append_eq_ok.2 ⟨_, h b, h' _⟩

/-- Events that are no tags, and the characters that they say. -/
inductive Says : List Event → List Char → Prop where
  | nil : Says [] []
  | text (content : String) {events : List Event} {cs : List Char} (h : Says events cs) :
      Says (.text content :: events) (content.toList ++ cs)
  | reference (name : String) {events : List Event} {cs : List Char} (h : Says events cs) :
      Says (.reference name :: events) (expansion name.toList ++ cs)

namespace Says
variable {events : List Event} {cs : List Char}

theorem tags (h : Says events cs) : events.flatMap tagsOf = [] := by
  induction h with
  | nil => rfl
  | text _ _ ih | reference _ _ ih => exact ih

theorem told (h : Says events cs) : Told events (.ofList cs) := by
  induction h with
  | nil => exact told_nil
  | text content _ ih =>
    rw [String.ofList_append, String.ofList_toList]
    exact (told_text content).append ih
  | reference name _ ih =>
    rw [String.ofList_append]
    exact (told_reference name).append ih

end Says

/-- Characters up to the first one of another kind. -/
private theorem exists_span (p : Char → Bool) (cs : List Char) : ∃ front back, cs = front ++ back ∧
    (∀ c ∈ front, p c = true) ∧ ∀ c, back.head? = some c → p c = false := by
  refine ⟨cs.takeWhile p, cs.dropWhile p, List.takeWhile_append_dropWhile.symm,
    List.all_eq_true.1 List.all_takeWhile, fun c hc => ?_⟩
  have h := List.head?_dropWhile_not p cs
  rw [hc] at h
  exact h

section
variable {size : Nat} {opened : List (List Glyph)} {cs : List Char} {rest : List Glyph}

private theorem stops {p : Glyph → Bool} {back : List Char}
    (hback : ∀ c, back.head? = some c → p (.char c) = false) (hp : p (.char '<') = false)
    (hrest : ∀ g, rest.head? = some g → g = .char '<') :
    ∀ g, (back.map Glyph.char ++ rest).head? = some g → p g = false := by
  intro g hg
  cases back with
  | nil => rw [hrest g hg, hp]
  | cons c back =>
    cases hg
    exact hback c rfl

private theorem isReference_char {c : Char} (h : c ≠ '<') : isReference (.char c) = inStrictName c := by
  rw [Bool.eq_iff_iff]
  simp [isReference, isText, inStrictName, h, and_comm]

private theorem isText_char {c : Char} (h : c ≠ '<') : isText (.char c) = (c != '&') := by
  rw [Bool.eq_iff_iff]
  simp [isText, h]

/-- A reference is cut off where its name ends with a semicolon, and has no end elsewhere. -/
private theorem cutPiece_reference {name back : List Char} (hname : ∀ x ∈ name, inStrictName x = true)
    (hback : ∀ c, back.head? = some c → inStrictName c = false) (hlt : '<' ∉ name ++ back)
    (hrest : ∀ g, rest.head? = some g → g = .char '<') :
    (∃ after, back = ';' :: after ∧ cutPiece (.char '&') ((name ++ back).map .char ++ rest) =
      .ok (.reference (name.map .char), after.map .char ++ rest)) ∨
    ∃ remaining, cutPiece (.char '&') ((name ++ back).map .char ++ rest) =
      .error ⟨.unclosedReference, remaining⟩ := by
  have hne : ∀ x ∈ name ++ back, x ≠ '<' := fun x hx he => hlt (he ▸ hx)
  have hfront : ∀ g ∈ name.map Glyph.char, isReference g = true := by
    intro g hg
    obtain ⟨x, hx, rfl⟩ := List.mem_map.1 hg
    rw [isReference_char (hne x (List.mem_append_left _ hx)), hname x hx]
  have hstop := stops (p := isReference) (fun c hc => by
    rw [isReference_char (hne c (List.mem_append_right _ (List.mem_of_head? hc))), hback c hc]) rfl hrest
  obtain ⟨ht, hd⟩ := span_eq _ _ hfront hstop
  rw [List.map_append, List.append_assoc, cutPiece, if_neg (by decide), if_pos rfl, ht, hd]
  cases back with
  | nil =>
    cases rest with
    | nil => exact .inr ⟨_, rfl⟩
    | cons g rest =>
      rw [hrest g rfl]
      exact .inr ⟨_, rfl⟩
  | cons c back =>
    have hc := hback c rfl
    by_cases hsemi : c = ';'
    · subst hsemi
      exact .inl ⟨back, rfl, rfl⟩
    · have hamp : c = '&' := by simpa [inStrictName, hsemi] using hc
      subst hamp
      exact .inr ⟨_, rfl⟩

/-- What stands in front of a tag is read as characters with the known references replaced, unless a
reference has no end. -/
theorem readFrom_characters (size : Nat) (opened : List (List Glyph)) (rest : List Glyph)
    (hcs : '<' ∉ cs) (hrest : ∀ g, rest.head? = some g → g = .char '<') :
    (∃ events, Says events (unescapeKnown cs) ∧
      readFrom size opened (cs.map .char ++ rest) = (readFrom size opened rest).prepend events) ∨
    ∃ events position, readFrom size opened (cs.map .char ++ rest) =
      ⟨events, some (.malformed position .unclosedReference)⟩ := by
  induction hn : cs.length using Nat.strongRecOn generalizing cs with
  | _ n ih =>
    -- what the first piece says, and then the rest of the characters
    have behind {g : Glyph} {gs : List Glyph} {piece : Piece} {event : Event} {said after : List Char}
        (hl : after.length < n) (hafter : '<' ∉ after)
        (hc : cutPiece g gs = .ok (piece, after.map .char ++ rest))
        (hm : mark? opened piece = some (some event, opened))
        (hs : ∀ {events cs}, Says events cs → Says (event :: events) (said ++ cs)) :
        (∃ events, Says events (said ++ unescapeKnown after) ∧
          readFrom size opened (g :: gs) = (readFrom size opened rest).prepend events) ∨
        ∃ events position, readFrom size opened (g :: gs) =
          ⟨events, some (.malformed position .unclosedReference)⟩ := by
      rw [readFrom_ok hc hm]
      rcases ih _ hl hafter rfl with ⟨events, he, hr⟩ | ⟨events, position, hr⟩
      · exact .inl ⟨event :: events, hs he, by rw [hr, Reading.prepend_prepend]; rfl⟩
      · exact .inr ⟨event :: events, position, by rw [hr]; rfl⟩
    cases cs with
    | nil =>
      refine .inl ⟨[], ?_, rfl⟩
      rw [unescapeKnown]
      exact .nil
    | cons c cs =>
      rw [List.mem_cons, not_or] at hcs
      by_cases hc : c = '&'
      · subst hc
        obtain ⟨name, back, rfl, hname, hback⟩ := exists_span inStrictName cs
        rcases cutPiece_reference hname hback hcs.2 hrest with ⟨after, rfl, hcut⟩ | ⟨remaining, hcut⟩
        · rw [unescapeKnown_reference hname]
          refine behind ?_ ?_ hcut (by rw [mark?, strict_map_char]; rfl) fun h => ?_
          · rw [← hn]
            simp
            omega
          · exact fun hm => hcs.2 (by simp [hm])
          · have hr := Says.reference (.ofList name) h
            rwa [String.toList_ofList] at hr
        · exact .inr ⟨[], _, readFrom_error opened hcut⟩
      · obtain ⟨front, back, rfl, hfront, hback⟩ := exists_span (· != '&') cs
        have hne : ∀ x ∈ front ++ back, x ≠ '<' := fun x hx he => hcs.2 (he ▸ hx)
        obtain ⟨ht, hd⟩ := span_eq (p := isText) (front.map Glyph.char) (back.map Glyph.char ++ rest)
          (fun g hg => by
            obtain ⟨x, hx, rfl⟩ := List.mem_map.1 hg
            rw [isText_char (hne x (List.mem_append_left _ hx)), hfront x hx])
          (stops (fun c hc => by
            rw [isText_char (hne c (List.mem_append_right _ (List.mem_of_head? hc))), hback c hc]) rfl hrest)
        have hcut : cutPiece (.char c) ((front ++ back).map .char ++ rest) =
            .ok (.text ((c :: front).map .char), back.map .char ++ rest) := by
          rw [List.map_append, List.append_assoc, cutPiece, if_neg, if_neg, ht, hd]
          · rfl
          · simpa using hc
          · simpa using Ne.symm hcs.1
        have hplain : ∀ x ∈ c :: front, x ≠ '&' :=
          List.forall_mem_cons.2 ⟨hc, fun x hx => by simpa using hfront x hx⟩
        rw [← List.cons_append, unescapeKnown_append hplain]
        refine behind ?_ ?_ hcut (by rw [mark?, strict_map_char]; rfl) fun h => ?_
        · rw [← hn, List.length_cons, List.length_append]
          omega
        · exact fun hm => hne '<' (List.mem_append_right _ hm) rfl
        · have hr := Says.text (.ofList (c :: front)) h
          rwa [String.toList_ofList] at hr

/-- Where an end tag is read without a fault, its event comes first. -/
private theorem readFrom_closing {gs : List Glyph}
    (h : (readFrom size opened (.char '<' :: .char '/' :: gs)).fault = none) :
    ∃ name later, readFrom size opened (.char '<' :: .char '/' :: gs) = ⟨.close name :: later, none⟩ := by
  cases hc : cutPiece (.char '<') (.char '/' :: gs) with
  | error snag =>
    rw [readFrom_error opened hc] at h
    cases h
  | ok r =>
    obtain ⟨piece, rest⟩ := r
    obtain ⟨content, rfl⟩ : ∃ content, piece = .closing content := by
      rw [cutPiece, if_pos rfl, cutMarkup] at hc
      split at hc
      · cases hc
        exact ⟨_, rfl⟩
      · cases hc
    cases hm : mark? opened (.closing content) with
    | none => exact absurd h (fault_of_mark hc hm)
    | some r =>
      obtain ⟨mark, opened'⟩ := r
      obtain ⟨⟨event, opened''⟩, hr, he⟩ := exists_of_toOption hm
      cases he
      obtain ⟨name, rfl, _⟩ := readClosing_cases hr
      rw [readFrom_ok hc hm] at h ⊢
      exact ⟨_, _, congrArg (Reading.mk _) h⟩

end

/-- References are decoded alike wherever they stand. An attribute value says what is written between
its quotes with the known references replaced, and so does what is written between the start tag and the
end tag of an element, where the reader takes it. -/
theorem decoded_alike :
    (∀ written : List Char, attributeValue written = unescapeKnown written) ∧
    (∀ (seen : List (List Glyph)) (g : Glyph) (gs : List Glyph) (w : Written) (value : String),
      isSpace g = false → written? g gs = some w → w.key ∉ seen → strict? w.value = some value →
      readAttributes seen (g :: gs) = (readAttributes (w.key :: seen) w.rest).map
        ((lossy w.key, .ofList (unescapeKnown value.toList)) :: ·)) ∧
    ∀ (before content after name : String) (attributes : Attributes) (events : List Event) (b : Builder),
      '<' ∉ content.toList →
      Xml.read (glyphs before) = ⟨events ++ [.start name attributes], none⟩ →
      (Xml.read (glyphs (before ++ content ++ "</" ++ after))).fault = none →
      Builder.run {} (events ++ [.start name attributes]) = .ok b →
      ∃ inner later b' scope,
        Xml.read (glyphs (before ++ content ++ "</" ++ after)) =
          ⟨events ++ .start name attributes :: (inner ++ .close name :: later), none⟩ ∧
        inner.flatMap tagsOf = [] ∧
        Builder.run {} (events ++ .start name attributes :: inner) = .ok b' ∧
        b'.scopes = scope :: b.scopes.tail ∧
        scope.text = .ofList (unescapeKnown content.toList) := by
  refine ⟨attributeValue_eq, fun _ _ _ _ _ => readAttributes_of_written, ?_⟩
  intro before content after name attributes events b hlt hbefore hfault hrun
  obtain ⟨opened, honward⟩ := read_onward hbefore
  have hgs : glyphs (before ++ content ++ "</" ++ after) =
      glyphs before ++ (content.toList.map .char ++ .char '<' :: .char '/' :: glyphs after) := by
    simp [glyphs]
  obtain ⟨size, hread⟩ := honward
    (content.toList.map .char ++ .char '<' :: .char '/' :: glyphs after)
    (.inl ⟨.start name attributes, by simp, by simp⟩)
  rw [← hgs] at hread
  have hmatched := matched_of_read (glyphs (before ++ content ++ "</" ++ after))
  rw [hread] at hfault hmatched ⊢
  rcases readFrom_characters size opened (.char '<' :: .char '/' :: glyphs after) hlt
    (fun g hg => by cases hg; rfl) with
    ⟨inner, hs', hinner⟩ | ⟨inner, position, hinner⟩
  · rw [hinner] at hfault hmatched ⊢
    obtain ⟨name', later, hclose⟩ := readFrom_closing hfault
    rw [hclose] at hmatched ⊢
    -- the end tag is that of the element opened last
    have hname : name' = name := by
      have htags : (events ++ [Event.start name attributes] ++ (inner ++ Event.close name' :: later)).flatMap
          tagsOf = events.flatMap tagsOf ++ .opening name :: .closing name' :: later.flatMap tagsOf := by
        simp [hs'.tags, tagsOf]
      rw [Reading.prepend, Reading.prepend, htags, matched_append] at hmatched
      exact (Option.some.inj hmatched.2.1).symm
    subst hname
    obtain ⟨b₀, _, hstart⟩ := run_append_eq_ok.1 hrun
    obtain ⟨_, hs, hb⟩ := run_cons_eq_ok.1 hstart
    cases hb
    obtain ⟨scope, hscopes, htext⟩ := scopes_of_start hs
    let text := String.ofList (unescapeKnown content.toList)
    refine ⟨inner, later, b.characters text, said text scope, ?_, hs'.tags, ?_, ?_, ?_⟩
    · simp [Reading.prepend]
    · rw [List.append_cons]
      exact run_append_eq_ok.2 ⟨b, hrun, hs'.told b⟩
    · rw [characters_said, hscopes]
      rfl
    · rw [said, htext, String.empty_append]
  · rw [hinner] at hfault
    cases hfault

/-- A known reference, one with a blank in its name, an unknown one and a number, in a value and in a
text. -/
theorem decoded_alike_mixed :
    let content := "&amp;&b c;&nbsp;&#x3c;"
    let said := "&&b c;&nbsp;<"
    let events : List Event := [.start "quiz" [], .start "question" []]
    readAttributes [] (glyphs ("a=\"" ++ content ++ "\"")) = .ok [("a", said)] ∧
    ∃ inner later b scope,
      Xml.read (glyphs ("<quiz><question><text>" ++ content ++ "</" ++ "text>")) =
        ⟨events ++ .start "text" [] :: (inner ++ .close "text" :: later), none⟩ ∧
      Builder.run {} (events ++ .start "text" [] :: inner) = .ok b ∧
      b.scopes.head? = some scope ∧ scope.text = said := by
  intro content said events
  have hsaid : String.ofList (unescapeKnown content.toList) = said := by decide +kernel
  have hwritten : written? (.char 'a') (glyphs "=\"" ++ (glyphs content ++ glyphs "\"")) =
      some ⟨glyphs "a", glyphs content, []⟩ :=
    written_append (fun _ hx => absurd hx List.not_mem_nil) (by decide) []
  have hbefore : Xml.read (glyphs "<quiz><question><text>") = ⟨events ++ [.start "text" []], none⟩ := by
    decide +kernel
  have hwhole : (Xml.read (glyphs ("<quiz><question><text>" ++ content ++ "</" ++ "text>"))).fault = none := by
    decide +kernel
  obtain ⟨b, hb⟩ : ∃ b, Builder.run {} (events ++ [.start "text" []]) = .ok b := ⟨_, rfl⟩
  obtain ⟨-, hvalue, htold⟩ := decoded_alike
  refine ⟨?_, ?_⟩
  · have hgs : glyphs ("a=\"" ++ content ++ "\"") =
        .char 'a' :: (glyphs "=\"" ++ (glyphs content ++ glyphs "\"")) := by decide +kernel
    rw [hgs, hvalue [] (.char 'a') _ _ content rfl hwritten List.not_mem_nil (strict_glyphs content), hsaid,
      readAttributes_nil]
    rfl
  · obtain ⟨inner, later, b', scope, hread, _, hrun, hscopes, htext⟩ :=
      htold _ content "text>" "text" [] events b (by decide) hbefore hwhole hb
    exact ⟨inner, later, b', scope, hread, hrun, by rw [hscopes]; rfl, htext.trans hsaid⟩

end QuizPress.Quiz
