import QuizPress.Proofs.Xml.Reader
import QuizPress.Proofs.Xml.Suffix

/-! The attributes that are read from the tags of a text are legible, and they stay what they are
when more is written behind them. -/
namespace QuizPress.Xml
open Text

def Plain (gs : List Glyph) : Prop := ∀ g ∈ gs, ∃ c, g = .char c

theorem plain_glyphs (s : String) : Plain (glyphs s) := by
  intro g hg
  obtain ⟨c, _, rfl⟩ := List.mem_map.1 hg
  exact ⟨c, rfl⟩

theorem Plain.mono {gs rest : List Glyph} (h : Plain gs) (hs : rest ⊆ gs) : Plain rest :=
  fun g hg => h g (hs hg)

/-- What reading attributes comes to: there are none behind the blanks, or there is a first one and
the others are read behind it. -/
theorem readAttributes_cases {seen : List (List Glyph)} {gs : List Glyph} {attributes : Attributes}
    (h : readAttributes seen gs = .ok attributes) :
    (gs.dropWhile isSpace = [] ∧ attributes = []) ∨
    ∃ g gs' w value others, gs.dropWhile isSpace = g :: gs' ∧ Spells g gs' w ∧ w.key ∉ seen ∧
      readAttributes (w.key :: seen) w.rest = .ok others ∧ strict? w.value = some value ∧
      attributes = (lossy w.key, .ofList (attributeValue value.toList)) :: others := by
  rw [readAttributes_eq] at h
  split at h
  · rename_i hd
    cases h
    exact .inl ⟨hd, rfl⟩
  · rename_i g gs' hd
    split at h
    · cases h
    · rename_i w hw
      split at h
      · cases h
      · rename_i hs
        split at h
        · cases h
        · rename_i value hv
          cases ho : readAttributes (w.key :: seen) w.rest with
          | error fault =>
            rw [ho] at h
            cases h
          | ok others =>
            rw [ho] at h
            cases h
            exact .inr ⟨g, gs', w, value, others, hd, written_iff.1 hw, hs, ho, hv, rfl⟩

private theorem length_rest_lt {g : Glyph} {gs gs' : List Glyph} {w : Written}
    (hd : gs.dropWhile isSpace = g :: gs') (hw : Spells g gs' w) : w.rest.length < gs.length := by
  have hl := (List.dropWhile_suffix isSpace (l := gs)).length_le
  have hr := written_rest (written_iff.2 hw)
  rw [hd, List.length_cons] at hl
  omega

/-- All keys that are read can be written as they are, and no two of them are the same. -/
theorem legible_of_readAttributes {seen : List (List Glyph)} {gs : List Glyph} {attributes : Attributes}
    (hp : Plain gs) (h : readAttributes seen gs = .ok attributes) :
    Legible attributes ∧ ∀ a ∈ attributes, glyphs a.1 ∉ seen := by
  induction hn : gs.length using Nat.strongRecOn generalizing seen gs attributes with
  | _ n ih =>
    rcases readAttributes_cases h with ⟨_, rfl⟩ | ⟨g, gs', w, value, others, hd, hw, hs, ho, _, rfl⟩
    · exact ⟨⟨fun _ ha => (by cases ha), List.nodup_nil⟩, fun _ ha => by cases ha⟩
    · have hp' : Plain (g :: gs') := by
        rw [← hd]
        exact hp.mono (List.dropWhile_suffix isSpace).subset
      have hk : glyphs (lossy w.key) = w.key := glyphs_lossy (hp'.mono hw.subset.1)
      have hr : Plain w.rest := hp'.mono fun _ hx => List.mem_cons_of_mem _ (hw.subset.2 hx)
      obtain ⟨⟨keys, distinct⟩, fresh⟩ := ih _ (hn ▸ length_rest_lt hd hw) hr ho rfl
      refine ⟨⟨fun a ha => ?_, ?_⟩, fun a ha => ?_⟩
      · rcases List.mem_cons.1 ha with rfl | ha
        · rw [hk]
          exact hw.isKey (dropWhile_cons_false hd)
        · exact keys a ha
      · rw [List.map_cons, List.nodup_cons]
        refine ⟨fun hm => ?_, distinct⟩
        obtain ⟨a, ha, he⟩ := List.mem_map.1 hm
        refine fresh a ha ?_
        rw [he, hk]
        exact List.mem_cons_self
      · rcases List.mem_cons.1 ha with rfl | ha
        · rw [hk]
          exact hs
        · exact fun hm => fresh a ha (List.mem_cons_of_mem _ hm)

/-- Where nothing is read there is nothing but blanks. -/
theorem blank_of_readAttributes {seen : List (List Glyph)} {gs : List Glyph}
    (h : readAttributes seen gs = .ok []) : ∀ g ∈ gs, isSpace g = true := by
  rcases readAttributes_cases h with ⟨hd, _⟩ | ⟨_, _, _, _, _, _, _, _, _, _, he⟩
  · have hs := List.takeWhile_append_dropWhile (p := isSpace) (l := gs)
    rw [hd, List.append_nil] at hs
    intro g hg
    rw [← hs] at hg
    exact of_mem_takeWhile hg
  · cases he

private theorem dropWhile_append_cons {p : Glyph → Bool} {gs gs' : List Glyph} {g : Glyph}
    (h : gs.dropWhile p = g :: gs') (tail : List Glyph) :
    (gs ++ tail).dropWhile p = g :: (gs' ++ tail) := by
  rw [List.dropWhile_append, h]
  rfl

/-- Attributes that are read stay when more is written behind them, and the reading goes on there. -/
theorem readAttributes_append {seen : List (List Glyph)} {gs : List Glyph} {attributes : Attributes}
    (h : readAttributes seen gs = .ok attributes) :
    ∃ seen', ∀ tail, readAttributes seen (gs ++ tail) =
      (readAttributes seen' tail).map (attributes ++ ·) := by
  induction hn : gs.length using Nat.strongRecOn generalizing seen gs attributes with
  | _ n ih =>
    rcases readAttributes_cases h with ⟨hd, rfl⟩ | ⟨g, gs', w, value, others, hd, hw, hs, ho, hv, rfl⟩
    · refine ⟨seen, fun tail => ?_⟩
      have ht : (gs ++ tail).dropWhile isSpace = tail.dropWhile isSpace := by
        rw [List.dropWhile_append, hd]
        rfl
      rw [readAttributes_eq, ht, ← readAttributes_eq]
      cases readAttributes seen tail <;> rfl
    · obtain ⟨seen', hr⟩ := ih _ (hn ▸ length_rest_lt hd hw) ho rfl
      refine ⟨seen', fun tail => ?_⟩
      have ht := written_iff.2 (hw.append tail)
      rw [readAttributes_eq, dropWhile_append_cons hd]
      simp only [ht, hs, hv, if_false, hr tail]
      cases readAttributes seen' tail <;> rfl

/-- The event of a start tag or an empty-element tag, and the elements open after it. -/
theorem readOpening_cases {opened opened' : List (List Glyph)} {content : List Glyph} {event : Event}
    (h : readOpening opened content = .ok (event, opened')) :
    (∃ attributes, content.getLast? = some (.char '/') ∧
      event = .empty (lossy (tagName content.dropLast)) attributes ∧ opened' = opened ∧
      tagAttributes content.dropLast = .ok attributes) ∨
    (∃ attributes, event = .start (lossy (tagName content)) attributes ∧
      opened' = tagName content :: opened ∧ tagAttributes content = .ok attributes) := by
  unfold readOpening at h
  split at h
  · rename_i hl
    cases ha : tagAttributes content.dropLast with
    | error fault =>
      simp only [ha] at h
      cases h
    | ok attributes =>
      simp only [ha] at h
      cases h
      exact .inl ⟨attributes, hl, rfl, rfl, rfl⟩
  · cases ha : tagAttributes content with
    | error fault =>
      simp only [ha] at h
      cases h
    | ok attributes =>
      simp only [ha] at h
      cases h
      exact .inr ⟨attributes, rfl, rfl, rfl⟩

theorem readClosing_cases {opened opened' : List (List Glyph)} {content : List Glyph} {event : Event}
    (h : readClosing opened content = .ok (event, opened')) :
    ∃ name, event = .close (lossy name) ∧ opened = name :: opened' := by
  unfold readClosing at h
  dsimp only at h
  split at h
  · cases h
  · split at h
    · rename_i hn
      cases h
      exact ⟨_, rfl, by rw [hn]⟩
    · cases h

section Keeps
variable {P : List (List Glyph) → Reading → Prop} {Q : List Glyph → Prop}

/-- What holds of a reading that ends at once, and of a reading with one more event in front, holds
of every reading. Of the glyphs a property is known that all parts of them have. -/
theorem readFrom_keeps (mono : ∀ {gs gs'}, Q gs → gs' ⊆ gs → Q gs')
    (stop : ∀ opened fault, P opened ⟨[], fault⟩)
    (text : ∀ opened content reading, P opened reading → P opened (reading.cons (.text content)))
    (reference : ∀ opened name reading, P opened reading → P opened (reading.cons (.reference name)))
    (opening : ∀ opened opened' content event reading, Q content →
      readOpening opened content = .ok (event, opened') → P opened' reading → P opened (reading.cons event))
    (closing : ∀ opened opened' content event reading,
      readClosing opened content = .ok (event, opened') → P opened' reading → P opened (reading.cons event))
    (size : Nat) (opened : List (List Glyph)) {gs : List Glyph} (hp : Q gs) :
    P opened (readFrom size opened gs) := by
  induction hn : gs.length using Nat.strongRecOn generalizing opened gs with
  | _ n ih =>
    cases gs with
    | nil =>
      rw [readFrom]
      exact stop opened none
    | cons g gs =>
      rw [readFrom]
      split
      · exact stop opened _
      · rename_i piece rest hc
        have hs := suffix_of_cutPiece hc
        have hl : rest.length < n := by
          rw [← hn, List.length_cons]
          exact Nat.lt_succ_of_le hs.length_le
        have hr : Q rest := mono hp fun _ hx => List.mem_cons_of_mem _ (hs.subset hx)
        cases piece with
        | passive => exact ih _ hl opened hr rfl
        | text content =>
          dsimp only
          split
          · exact text _ _ _ (ih _ hl opened hr rfl)
          · exact stop opened _
        | reference name =>
          dsimp only
          split
          · exact reference _ _ _ (ih _ hl opened hr rfl)
          · exact stop opened _
        | opening content =>
          dsimp only
          split
          · rename_i event opened' ho
            have hp' : Q content := mono hp fun _ hx => List.mem_cons_of_mem _ (subset_of_cutPiece hc hx)
            exact opening _ _ _ _ _ hp' ho (ih _ hl opened' hr rfl)
          · exact stop opened _
        | closing content =>
          dsimp only
          split
          · rename_i event opened' ho
            exact closing _ _ _ _ _ ho (ih _ hl opened' hr rfl)
          · exact stop opened _

/-- What holds of all readings holds of the reading of a document. -/
theorem read_keeps (mono : ∀ {gs gs'}, Q gs → gs' ⊆ gs → Q gs') {gs : List Glyph} (hp : Q gs)
    (h : ∀ size gs, Q gs → P [] (readFrom size [] gs)) : P [] (read gs) := by
  unfold read
  split
  · exact h _ _ (mono hp (List.subset_cons_self _ _))
  · exact h _ _ hp

end Keeps

private theorem legible_of_tagAttributes {content : List Glyph} {attributes : Attributes}
    (hp : Plain content) (h : tagAttributes content = .ok attributes) : Legible attributes :=
  (legible_of_readAttributes (hp.mono (List.dropWhile_suffix _).subset) h).1

private theorem legible_nil : Legible [] := ⟨fun _ ha => (by cases ha), List.nodup_nil⟩

private def AllLegible (_ : List (List Glyph)) (reading : Reading) : Prop :=
  ∀ event ∈ reading.events, Legible event.attributes

private theorem allLegible_cons {opened opened' : List (List Glyph)} {event : Event} {reading : Reading}
    (he : Legible event.attributes) (hr : AllLegible opened' reading) :
    AllLegible opened (reading.cons event) :=
  List.forall_mem_cons.2 ⟨he, hr⟩

/-- In a text all tags that are read have legible attributes. -/
theorem legible_of_read (document : String) :
    ∀ event ∈ (read (glyphs document)).events, Legible event.attributes := by
  refine read_keeps (P := AllLegible) (Q := Plain) Plain.mono (plain_glyphs document) fun size gs hp =>
    readFrom_keeps (Q := Plain) Plain.mono ?_ ?_ ?_ ?_ ?_ size [] hp
  · exact fun _ _ _ hm => by cases hm
  · exact fun _ _ _ hr => allLegible_cons legible_nil hr
  · exact fun _ _ _ hr => allLegible_cons legible_nil hr
  · intro opened opened' content event reading hp ho hr
    rcases readOpening_cases ho with ⟨attributes, _, rfl, _, ha⟩ | ⟨attributes, rfl, _, ha⟩
    · exact allLegible_cons (legible_of_tagAttributes (hp.mono (List.dropLast_subset _)) ha) hr
    · exact allLegible_cons (legible_of_tagAttributes hp ha) hr
  · intro opened opened' content event reading hc hr
    obtain ⟨name, rfl, _⟩ := readClosing_cases hc
    exact allLegible_cons legible_nil hr

end QuizPress.Xml
