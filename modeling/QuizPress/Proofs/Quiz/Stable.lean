import QuizPress.Proofs.Quiz.Inline
import QuizPress.Proofs.Xml.Tag

/-! Inline markup is stable: what a quiz keeps of it says the same again where it is read as it is kept. -/
namespace QuizPress.Quiz
open Text Xml Builder

structure Named (attributes : Attributes) : Prop where
  plain : ∀ a ∈ attributes, isName a.1 = true
  distinct : (attributes.map Prod.fst).Nodup

theorem Named.legible {attributes : Attributes} (h : Named attributes) : Legible attributes :=
  legible_of_isName h.plain h.distinct

private theorem quote_not_mem_quotedChar (c : Char) : '"' ∉ quotedChar c :=
  fun h => (mem_quotedChar h).2 rfl

section
variable {size : Nat} {opened : List (List Glyph)} {name : String} {attributes : Attributes}

theorem readFrom_startTag (hn : isName name = true) (ha : Named attributes) (rest : List Glyph) :
    readFrom size opened (glyphs ("<" ++ name ++ inlineAttributes attributes ++ ">") ++ rest) =
      (readFrom size (glyphs name :: opened) rest).prepend [.start name attributes] :=
  readFrom_opening quote_not_mem_quotedChar faithful_quotedChar hn ha.legible
    (quoteThrough_named quote_not_mem_quotedChar hn ha.plain) size opened rest

theorem readFrom_emptyTag (hn : isName name = true) (ha : Named attributes) (rest : List Glyph) :
    readFrom size opened (glyphs ("<" ++ name ++ inlineAttributes attributes ++ "/>") ++ rest) =
      (readFrom size opened rest).prepend [.empty name attributes] :=
  readFrom_lone quote_not_mem_quotedChar faithful_quotedChar hn ha.legible
    (quoteThrough_named quote_not_mem_quotedChar hn ha.plain) size opened rest

theorem readFrom_reference (hn : ∀ c ∈ name.toList, isReference (.char c) = true) (rest : List Glyph) :
    readFrom size opened (glyphs ("&" ++ name ++ ";") ++ rest) =
      (readFrom size opened rest).prepend [.reference name] := by
  have hs : glyphs ("&" ++ name ++ ";") ++ rest = .char '&' :: (glyphs name ++ .char ';' :: rest) := by
    simp [glyphs]
  have hr : ∀ g ∈ glyphs name, isReference g = true := by
    intro g hg
    obtain ⟨c, hc, rfl⟩ := List.mem_map.1 hg
    exact hn c hc
  obtain ⟨ht, hd⟩ := span_eq (glyphs name) (.char ';' :: rest) hr fun g hg => by cases hg; rfl
  have hc : cutPiece (.char '&') (glyphs name ++ .char ';' :: rest) = .ok (.reference (glyphs name), rest) := by
    rw [cutPiece, if_neg (by decide), if_pos rfl, ht, hd]
    rfl
  have hm : mark? opened (.reference (glyphs name)) = some (some (.reference name), opened) := by
    rw [mark?, strict_glyphs]
    rfl
  rw [hs, readFrom_ok hc hm]
  rfl

variable (size opened)

/-- Text in front of a tag or a reference is told as it is. -/
theorem readFrom_text {text : String} (ht : ∀ c ∈ text.toList, isText (.char c) = true)
    (rest : List Glyph) (hrest : ∀ g, rest.head? = some g → isText g = false) :
    ∃ events, Told events text ∧
      readFrom size opened (glyphs text ++ rest) = (readFrom size opened rest).prepend events := by
  obtain ⟨cs, rfl⟩ : ∃ cs, text = .ofList cs := ⟨text.toList, String.ofList_toList.symm⟩
  rw [String.toList_ofList] at ht
  rw [glyphs_ofList]
  cases cs with
  | nil => exact ⟨[], told_nil, rfl⟩
  | cons c cs =>
    obtain ⟨hc, hcs⟩ := List.forall_mem_cons.1 ht
    obtain ⟨htake, hdrop⟩ := span_eq (p := isText) (cs.map .char) rest
      (fun g hg => by obtain ⟨x, hx, rfl⟩ := List.mem_map.1 hg; exact hcs x hx) hrest
    have hcut : cutPiece (.char c) (cs.map .char ++ rest) = .ok (.text ((c :: cs).map .char), rest) := by
      simp only [isText, Bool.and_eq_true, bne_iff_ne] at hc
      rw [cutPiece, if_neg hc.1, if_neg hc.2, htake, hdrop]
      rfl
    have hm : mark? opened (.text ((c :: cs).map .char)) = some (some (.text (.ofList (c :: cs))), opened) := by
      rw [mark?, strict_map_char]
      rfl
    exact ⟨[.text (.ofList (c :: cs))], told_text _, readFrom_ok hcut hm⟩

/-- Text in front of markup is told, and then the markup is read. -/
private theorem readFrom_marked {opened' : List (List Glyph)} {text : String} (markup : String)
    {events : List Event}
    (ht : ∀ c ∈ text.toList, isText (.char c) = true)
    (hm : ∃ g, (glyphs markup).head? = some g ∧ isText g = false)
    (hr : ∀ rest, readFrom size opened (glyphs markup ++ rest) = (readFrom size opened' rest).prepend events)
    (rest : List Glyph) :
    ∃ before, Told before text ∧ readFrom size opened (glyphs (text ++ markup) ++ rest) =
      (readFrom size opened' rest).prepend (before ++ events) := by
  obtain ⟨g, hg, hi⟩ := hm
  obtain ⟨before, hb, hread⟩ := readFrom_text size opened ht (glyphs markup ++ rest)
    fun x hx => by
      rw [List.head?_append, hg] at hx
      cases hx
      exact hi
  refine ⟨before, hb, ?_⟩
  rw [glyphs_append, List.append_assoc, hread, hr, Reading.prepend_prepend]

end

/-- Inline markup is told again as it is, wherever it is read in front of a tag, and so are characters in
front of it. -/
theorem readFrom_ownText {content : Content} (h : content.Inline Named) (size : Nat) :
    ∀ (opened : List (List Glyph)) {text : String}, (∀ c ∈ text.toList, isText (.char c) = true) →
    ∀ (rest : List Glyph), (∀ g, rest.head? = some g → g = .char '<') →
    ∃ events, Told events (text ++ content.ownText) ∧
      readFrom size opened (glyphs (text ++ content.ownText) ++ rest) =
        (readFrom size opened rest).prepend events := by
  have none_plain : ∀ c ∈ "".toList, isText (.char c) = true := fun _ hc => by cases hc
  induction content with
  | nil =>
    intro opened text ht rest hrest
    rw [Content.ownText, String.append_empty]
    exact readFrom_text size opened ht rest fun g hg => by rw [hrest g hg]; rfl
  | text s later ih =>
    intro opened text ht rest hrest
    rw [Content.ownText, ← String.append_assoc]
    refine ih h.2 opened (fun c hc => ?_) rest hrest
    rw [String.toList_append, List.mem_append] at hc
    exact hc.elim (ht c) (h.1 c)
  | reference name later ih =>
    intro opened text ht rest hrest
    have hname := h.1
    rw [isInlineReference] at hname
    rw [Content.ownText]
    cases hr : referenced? name.toList with
    | some c =>
      rw [hr] at hname
      rw [expansion, hr, ← String.append_assoc]
      refine ih h.2 opened (fun x hx => ?_) rest hrest
      rw [String.toList_append, List.mem_append, String.toList_ofList, List.mem_singleton] at hx
      exact hx.elim (ht x) fun he => he ▸ hname
    | none =>
      rw [hr] at hname
      have hs : String.ofList (expansion name.toList) = "&" ++ name ++ ";" := by
        rw [expansion, hr]
        simp [String.ofList_append, String.append_assoc]
      obtain ⟨before, hb, hbefore⟩ := readFrom_marked size opened ("&" ++ name ++ ";") ht
        ⟨.char '&', by simp [glyphs], rfl⟩ (readFrom_reference (List.all_eq_true.1 hname))
        (glyphs later.ownText ++ rest)
      obtain ⟨events, he, hlater⟩ := ih h.2 opened none_plain rest hrest
      rw [String.empty_append] at he hlater
      refine ⟨before ++ [.reference name] ++ events, ?_, ?_⟩
      · rw [← String.append_assoc]
        exact (hb.append (told_reference name)).append he
      · rw [hs, ← String.append_assoc, glyphs_append, List.append_assoc, hbefore, hlater,
          Reading.prepend_prepend]
  | empty name attributes later ih =>
    intro opened text ht rest hrest
    obtain ⟨⟨hn, hu, ha⟩, hl⟩ := h
    rw [Content.ownText, if_pos (by rw [hu]; rfl), ← String.append_assoc]
    obtain ⟨before, hb, hbefore⟩ := readFrom_marked size opened
      ("<" ++ name ++ inlineAttributes attributes ++ "/>") ht
      ⟨.char '<', by simp [glyphs], rfl⟩ (readFrom_emptyTag hn ha) (glyphs later.ownText ++ rest)
    obtain ⟨events, he, hlater⟩ := ih hl opened none_plain rest hrest
    rw [String.empty_append] at he hlater
    refine ⟨before ++ [.empty name attributes] ++ events, (hb.append (told_empty hu)).append he, ?_⟩
    rw [glyphs_append, List.append_assoc, hbefore, hlater, Reading.prepend_prepend]
  | element name attributes inner later ihi ihr =>
    intro opened text ht rest hrest
    obtain ⟨⟨hn, hu, ha⟩, hi, hl⟩ := h
    have hs : text ++ (Content.element name attributes inner later).ownText =
        text ++ ("<" ++ name ++ inlineAttributes attributes ++ ">") ++ inner.ownText ++
          ("</" ++ name ++ ">") ++ later.ownText := by
      rw [Content.ownText, if_pos (by rw [hu]; rfl)]
      simp only [String.append_assoc]
    obtain ⟨before, hb, hbefore⟩ := readFrom_marked size opened
      ("<" ++ name ++ inlineAttributes attributes ++ ">") ht
      ⟨.char '<', by simp [glyphs], rfl⟩ (readFrom_startTag hn ha)
      (glyphs inner.ownText ++ (glyphs ("</" ++ name ++ ">") ++ (glyphs later.ownText ++ rest)))
    obtain ⟨within, hw, hinner⟩ := ihi hi (glyphs name :: opened) none_plain
      (glyphs ("</" ++ name ++ ">") ++ (glyphs later.ownText ++ rest)) fun g hg => by
        simp only [glyphs, String.toList_append] at hg
        cases hg
        rfl
    obtain ⟨behind, he, hlater⟩ := ihr hl opened none_plain rest hrest
    rw [String.empty_append] at hw hinner he hlater
    refine ⟨before ++ (.start name attributes :: (within ++ [.close name])) ++ behind, ?_, ?_⟩
    · have ht := (hb.append (hw.element attributes hu)).append he
      simp only [hs, String.append_assoc] at ht ⊢
      exact ht
    · rw [hs]
      rw [glyphs_append, glyphs_append, glyphs_append, List.append_assoc, List.append_assoc,
        List.append_assoc, hbefore, hinner, readFrom_ending hn, hlater]
      simp [Reading.prepend]

/-- Inline markup that stands in an element as it is written tells itself. -/
theorem tells_ownText {content : Content} (hi : content.Inline Named) {tag : String}
    (hn : isName tag = true) : Tells tag content.ownText content.ownText := by
  intro size opened more
  have hs : "<" ++ tag ++ inlineAttributes [] ++ ">" = "<" ++ tag ++ ">" := by
    rw [inlineAttributes, writeAttributes, List.map_nil, String.join_nil, String.append_empty]
  have hnamed : Named [] := ⟨by simp, by simp⟩
  have hstart (rest : List Glyph) : readFrom size opened (glyphs ("<" ++ tag ++ ">") ++ rest) =
      (readFrom size (glyphs tag :: opened) rest).prepend [.start tag []] := by
    rw [← hs]
    exact readFrom_startTag hn hnamed rest
  obtain ⟨inner, ht, hinner⟩ := readFrom_ownText hi size (glyphs tag :: opened)
    (show ∀ c ∈ "".toList, isText (.char c) = true from fun _ hc => by cases hc)
    (glyphs ("</" ++ tag ++ ">") ++ more) fun g hg => by
      simp only [glyphs, String.toList_append] at hg
      cases hg
      rfl
  rw [String.empty_append] at ht hinner
  refine ⟨inner, ht, ?_⟩
  rw [field, glyphs_append, glyphs_append, List.append_assoc, List.append_assoc, hstart, hinner,
    readFrom_ending hn]
  simp [Reading.prepend]

/-- Documents that bring a builder to the same point and go on in the same way are the same quiz. -/
private theorem ofGlyphs_behind {gs gs' rest : List Glyph} {size size' : Nat} {opened : List (List Glyph)}
    {b : Builder} {events events' : List Event} {quiz : Quiz}
    (hgs : Xml.read gs = (readFrom size opened rest).prepend events)
    (hrun : Builder.run {} events = .ok b)
    (hgs' : Xml.read gs' = (readFrom size' opened rest).prepend events')
    (hrun' : Builder.run {} events' = .ok b) (h : ofGlyphs gs = .ok quiz) : ofGlyphs gs' = .ok quiz := by
  rw [ofGlyphs, ofReading_eq, hgs, resume_eq_ok] at h
  obtain ⟨hfault, b', hr, hn, hq⟩ := h
  obtain ⟨b₁, hb₁, hlater⟩ := run_append_eq_ok.1 hr
  cases hrun.symm.trans hb₁
  have hrest : readFrom size opened rest = ⟨(readFrom size opened rest).events, none⟩ :=
    congrArg (Reading.mk _) hfault
  rw [ofGlyphs, ofReading_eq, hgs', readFrom_size hrest size', resume_eq_ok]
  exact ⟨rfl, b', run_append_eq_ok.2 ⟨b, hrun', hlater⟩, hn, hq⟩

/-- What a question keeps of inline markup is read again as what it is: a question that holds this text
keeps the same, and the rest of the document is read as before. -/
theorem inline_stable {before s : String} {content : Content} {b : Builder} {old : String}
    {body : Option AnswerBody} {outer : List Open}
    (hb : Reaches before b) (hq : b.nodes = .question old body :: outer)
    (hs : Xml.read (glyphs (field "text" s)) =
      ⟨.start "text" [] :: (content.events ++ [.close "text"]), none⟩)
    (hi : content.Inline fun attributes => ∀ a ∈ attributes, isName a.1 = true) :
    let kept := trim content.ownText
    let b' : Builder := { b with nodes := .question kept body :: outer }
    Reaches (before ++ field "text" s) b' ∧ Reaches (before ++ field "text" kept) b' ∧
    ∀ after quiz, parse (before ++ field "text" s ++ after) = .ok quiz ↔
      parse (before ++ field "text" kept ++ after) = .ok quiz := by
  intro kept b'
  have hlegible := legible_of_read (field "text" s)
  rw [hs] at hlegible
  have hnamed : content.Inline Named := hi.mono fun event he hp =>
    ⟨hp, (hlegible event (List.mem_cons_of_mem _ (List.mem_append_left _ he))).distinct⟩
  obtain ⟨content', hi', hkept⟩ := hnamed.exists_trim
  have htells : Tells "text" s content.ownText := hi.foreign.tells hs
  have hagain : Tells "text" kept kept := by
    have h := tells_ownText hi' (show isName "text" = true by decide)
    rwa [hkept] at h
  have hk : Element.ofName? "text" = some .text := rfl
  have ht : Element.text ∈ Element.textual := by decide
  have htrim : trim kept = kept := trim_trim _
  refine ⟨hb.field hk ht hq htells, ?_, fun after quiz => ?_⟩
  · have h := hb.field hk ht hq hagain
    rwa [htrim] at h
  · obtain ⟨opened, hbehind⟩ := hb.behind_field hk ht hq
    obtain ⟨size, events, hread, hrun⟩ := hbehind s _ htells after
    obtain ⟨size', events', hread', hrun'⟩ := hbehind kept _ hagain after
    rw [htrim] at hrun'
    exact ⟨ofGlyphs_behind hread hrun hread' hrun', ofGlyphs_behind hread' hrun' hread hrun⟩

/-- Markup with both kinds of quotes in a value, references, a CDATA section and blanks around it all. -/
theorem inline_stable_mixed :
    let s := " a<em class='&quot;&lt;&apos;'>b &gt;&nbsp;</em><![CDATA[ c]]><br/> "
    let kept := "a<em class=\"&quot;&lt;'\">b >&nbsp;</em> c<br/>"
    let b : Builder := ⟨some {}, [.question kept none], [{}, {}]⟩
    Reaches ("<quiz><question>" ++ field "text" s) b ∧
    Reaches ("<quiz><question>" ++ field "text" kept) b ∧
    parse ("<quiz><question>" ++ field "text" kept ++ "<answer/></question></quiz>") =
      .ok { questions := [⟨kept, .answer {}⟩] } := by
  intro s kept b
  let content : Content := .text " a" (.element "em" [("class", "\"<'")]
    (.text "b " (.reference "gt" (.reference "nbsp" .nil))) (.text " c" (.empty "br" [] (.text " " .nil))))
  have hb : Reaches "<quiz><question>" ⟨some {}, [.question "" none], [{}, {}]⟩ :=
    ⟨[.start "quiz" [], .start "question" []], by decide +kernel, rfl⟩
  have hs : Xml.read (glyphs (field "text" s)) =
      ⟨.start "text" [] :: (content.events ++ [.close "text"]), none⟩ := by decide +kernel
  have hi : content.Inline fun attributes => ∀ a ∈ attributes, isName a.1 = true := by
    decide +kernel
  have hkept : trim content.ownText = kept := by decide +kernel
  have hquiz : ofGlyphs (glyphs ("<quiz><question>" ++ field "text" s ++
      "<answer/></question></quiz>")) = .ok { questions := [⟨kept, .answer {}⟩] } := by
    decide +kernel
  obtain ⟨hstored, hagain, hparse⟩ := inline_stable hb rfl hs hi
  rw [hkept] at hstored hagain hparse
  exact ⟨hstored, hagain, (hparse _ _).1 hquiz⟩

end QuizPress.Quiz
