import QuizPress.Proofs.Command.Outputs

/-! What a build keeps: of the files that it finds, those that none of its outputs replaces; of its
outputs, the last at each location. -/
namespace QuizPress.Command
open Files Quiz Render

variable {tree : Tree} {outputs : Outputs} {l : Location} {b o : Built}

theorem page_ne_titles (b o : Built) : b.page ≠ o.titles := by
  intro h
  have hl : Path.renamed b.name Format.html.fileExtension = Page.titlesFile :=
    (List.cons.inj (List.append_inj_right' h rfl)).1
  rcases Path.renamed_cases b.name Format.html.fileExtension with hr | hr
  · exact absurd (hr.symm.trans hl) (by decide)
  · have hlast := congrArg (fun s => s.toList.getLast?) (hr.symm.trans hl)
    have hext : Format.html.fileExtension.toList.getLast? = some 'l' := by decide
    have hfile : Page.titlesFile.toList.getLast? = some 's' := by decide
    rw [String.toList_append, List.getLast?_append, hext, hfile, Option.some_or] at hlast
    exact absurd hlast (by decide)

theorem titles_eq_iff : b.titles = o.titles ↔ b.directory = o.directory := by
  simp [Built.titles]

theorem location_of_mem_outputs {text : String} (h : (l, text) ∈ b.outputs) :
    l = b.page ∨ b.quiz.index ≠ [] ∧ l = b.titles := by
  rcases List.mem_cons.1 h with h | h
  · exact .inl (Prod.mk.inj h).1
  · split at h
    · cases h
    · rename_i hi
      rw [List.isEmpty_iff] at hi
      exact .inr ⟨hi, (Prod.mk.inj (List.mem_singleton.1 h)).1⟩

theorem standing_of_not_mem (h : ∀ text, (l, text) ∉ outputs) : standing tree outputs l = tree.entry? l := by
  have hl : outputs.reverse.lookup l = none := by
    rw [List.lookup_eq_none_iff]
    intro x hx
    rw [bne_iff_ne]
    rintro rfl
    exact h x.2 (List.mem_reverse.1 hx)
  rw [standing, hl]

/-- Documents that are put out change no file. -/
theorem tree_of_printed {arguments : BuildArguments} {p : Plan} {cwd : Location} {o : Outcome}
    (hp : Settled arguments p) (hf : p.format ≠ .html) (hout : p.output = none) (inputs : List String) :
    (inputs.foldl (buildFile p cwd) o).tree = o.tree := by
  induction inputs generalizing o with
  | nil => rfl
  | cons argument inputs ih =>
    rw [List.foldl_cons, ih]
    cases ho : o.error with
    | some error => rw [buildFile_failed (by rw [ho]; rfl)]
    | none =>
      cases hr : readInput o.tree cwd argument with
      | error error => rw [buildFile_unread ho hr]
      | ok found =>
        obtain ⟨rendered, hrender, hb⟩ := buildFile_read hp ho hr
        have htarget : p.target? found.1 = none := by
          rw [Plan.target?, hout, if_neg hf]
          rfl
        have hart : rendered.artifacts = [] := by
          cases hformat : p.format with
          | html => exact absurd hformat hf
          | xml | tex | text =>
            rw [hformat] at hrender
            cases hrender
            rfl
        rw [hb, tree_say, htarget, Outcome.deliver, hart]
        rfl

/-- A file is kept by a run over inputs, or one of them has an output at its location. -/
theorem kept_or_output {arguments : BuildArguments} {p : Plan} {cwd : Location} {o : Outcome}
    {inputs : List String} {octets : List UInt8} (hp : Settled arguments p) (hf : p.format = .html)
    (hout : p.output = none) (ho : o.error = none) (hl : o.tree.entry? l = some (.file octets)) :
    (inputs.foldl (buildFile p cwd) o).tree.entry? l = some (.file octets) ∨
      ∃ (earlier : List String) (input : String) (later : List String) (b : Built),
        inputs = earlier ++ input :: later ∧
        readInput (earlier.foldl (buildFile p cwd) o).tree cwd input = .ok (inputPath input, b.quiz) ∧
        o.tree.locate cwd (inputPath input) = .ok (b.directory, b.name) ∧
        (l = b.page ∨ b.quiz.index ≠ [] ∧ l = b.titles) := by
  induction inputs generalizing o with
  | nil => exact .inl hl
  | cons argument inputs ih =>
    rw [List.foldl_cons]
    rcases buildFile_cases hp hf hout ho argument with
      ⟨error, _, hb⟩ | ⟨b, written, hr, hrenders, hw, hpre, _⟩
    · rw [hb, foldl_failed rfl]
      exact .inl hl
    · by_cases hm : ∃ text, (l, text) ∈ written
      · obtain ⟨text, hm⟩ := hm
        exact .inr ⟨[], argument, inputs, b, rfl, hr, hrenders.place,
          location_of_mem_outputs (hpre.subset hm)⟩
      · have hkept : (buildFile p cwd o argument).tree.entry? l = some (.file octets) := by
          rw [hw.entry, standing_of_not_mem fun text ht => hm ⟨text, ht⟩, hl]
        cases he : (buildFile p cwd o argument).error with
        | some error =>
          rw [foldl_failed (by rw [he]; rfl)]
          exact .inl hkept
        | none =>
          rcases ih he hkept with hk | ⟨earlier, input, later, b', rfl, hr', hl', hb'⟩
          · exact .inl hk
          · exact .inr ⟨argument :: earlier, input, later, b', rfl, hr',
              (Tree.locate_sameDirectories hw.same).2 hl', hb'⟩

/-- Whether a build succeeds or fails, each file that it finds, its sources among them, has the same
contents afterwards, unless it has the name of the page of an input in its directory, or that of the
script with the titles and stands beside an input with an index. -/
theorem source_kept {session : Session} {arguments : BuildArguments} {directory : Location}
    {name : String} {octets : List UInt8} (ho : arguments.output = none)
    (hf : session.tree.entry? (directory ++ [name]) = some (.file octets)) :
    (build session arguments).tree.entry? (directory ++ [name]) = some (.file octets) ∨
      ∃ earlier input later quiz own, arguments.inputs = earlier ++ input :: later ∧
        readInput (buildOnly session arguments earlier).tree session.cwd input =
          .ok (inputPath input, quiz) ∧
        session.tree.locate session.cwd (inputPath input) = .ok (directory, own) ∧
        (name = Path.renamed own "html" ∨ quiz.index ≠ [] ∧ name = "quiztitles.js") := by
  cases hp : plan session arguments with
  | error error =>
    rw [build, hp]
    exact .inl hf
  | ok p =>
    have hs := settled_of_plan hp
    have hout : p.output = none := hs.output.trans ho
    rw [build_eq hp]
    by_cases hformat : p.format = .html
    · rcases kept_or_output (o := { tree := session.tree }) hs hformat hout rfl hf with
        hk | ⟨earlier, input, later, b, hi, hr, hl, hb⟩
      · exact .inl hk
      · have he : buildOnly session arguments earlier = _ := buildOnly_eq (by simp [hi]) hp
        rw [← he] at hr
        rcases hb with hb | ⟨hx, hb⟩
        · obtain ⟨rfl, hn⟩ := List.append_inj' hb rfl
          exact .inr ⟨earlier, input, later, b.quiz, b.name, hi, hr, hl, .inl (List.cons.inj hn).1⟩
        · obtain ⟨rfl, hn⟩ := List.append_inj' hb rfl
          exact .inr ⟨earlier, input, later, b.quiz, b.name, hi, hr, hl, .inr ⟨hx, (List.cons.inj hn).1⟩⟩
    · rw [tree_of_printed hs hformat hout]
      exact .inl hf

/-- An input that has its page's name is replaced by the page. -/
theorem source_kept_page_name :
    let session : Session :=
      { tree := { entries := [(["week1.html"], .file (Text.encode "<quiz/>"))] } }
    let arguments : BuildArguments := { inputs := ["week1.html"] }
    (build session arguments).error = none ∧
      (build session arguments).tree.entry? ["week1.html"] ≠ session.tree.entry? ["week1.html"] ∧
      ∃ earlier input later quiz own, arguments.inputs = earlier ++ input :: later ∧
        readInput (buildOnly session arguments earlier).tree session.cwd input =
          .ok (inputPath input, quiz) ∧
        session.tree.locate session.cwd (inputPath input) = .ok ([], own) ∧
        ("week1.html" = Path.renamed own "html" ∨ quiz.index ≠ [] ∧ "week1.html" = "quiztitles.js") := by
  intro session arguments
  have hlost : (build session arguments).error = none ∧
      (build session arguments).tree.entry? ["week1.html"] ≠ session.tree.entry? ["week1.html"] := by
    decide +kernel
  have hf : session.tree.entry? ([] ++ ["week1.html"]) = some (.file (Text.encode "<quiz/>")) := by
    decide +kernel
  refine ⟨hlost.1, hlost.2, ?_⟩
  rcases source_kept (rfl : arguments.output = none) hf with hk | h
  · exact absurd (hk.trans hf.symm) hlost.2
  · exact h

theorem standing_page (tree : Tree) (outputs : Outputs) (b o : Built) :
    standing tree (outputs ++ o.outputs) b.page =
      if o.page = b.page then some (.file (Text.encode o.document))
      else standing tree outputs b.page := by
  have hpage : standing tree (outputs ++ [(o.page, o.document)]) b.page =
      if o.page = b.page then some (.file (Text.encode o.document))
      else standing tree outputs b.page := by
    rw [standing_concat]
    simp only [eq_comm]
  rw [Built.outputs]
  split
  · exact hpage
  · rw [List.append_cons, standing_concat, if_neg (page_ne_titles b o), hpage]

theorem standing_titles (tree : Tree) (outputs : Outputs) (b o : Built) :
    standing tree (outputs ++ o.outputs) b.titles =
      if o.quiz.index ≠ [] ∧ o.directory = b.directory then
        some (.file (Text.encode (Page.titlesScript o.quiz)))
      else standing tree outputs b.titles := by
  have hpage : standing tree (outputs ++ [(o.page, o.document)]) b.titles =
      standing tree outputs b.titles := by
    rw [standing_concat, if_neg (page_ne_titles o b).symm]
  rw [Built.outputs]
  split
  · rename_i hi
    rw [if_neg fun h => h.1 (List.isEmpty_iff.1 hi), hpage]
  · rename_i hi
    rw [List.isEmpty_iff] at hi
    rw [List.append_cons, standing_concat, hpage]
    simp only [titles_eq_iff, hi, ne_eq, not_false_eq_true, true_and, eq_comm]

/-- The last of some inputs that has a property, or else the one before them. -/
def lastWith (keeps : Built → Bool) (b : Built) (later : List Built) : Built :=
  (later.filter keeps).getLastD b

/-- What the last output for one location leaves there. -/
theorem standing_last {l : Location} {keeps : Built → Bool} (text : Built → String)
    (hstep : ∀ outputs o, standing tree (outputs ++ o.outputs) l =
      if keeps o then some (.file (Text.encode (text o))) else standing tree outputs l)
    (later : List Built) (hl : standing tree outputs l = some (.file (Text.encode (text b)))) :
    standing tree (outputs ++ later.flatMap Built.outputs) l =
      some (.file (Text.encode (text (lastWith keeps b later)))) := by
  induction later generalizing outputs b with
  | nil => simpa [lastWith] using hl
  | cons o later ih =>
    rw [List.flatMap_cons, ← List.append_assoc]
    cases ho : keeps o with
    | true =>
      have hlast : lastWith keeps b (o :: later) = lastWith keeps o later := by
        rw [lastWith, List.filter_cons_of_pos ho, List.getLastD_cons]
        rfl
      rw [hlast]
      exact ih (by rw [hstep, if_pos ho])
    | false =>
      have hlast : lastWith keeps b (o :: later) = lastWith keeps b later := by
        rw [lastWith, List.filter_cons_of_neg (by simp [ho])]
        rfl
      rw [hlast]
      exact ih (by rw [hstep, if_neg (by simp [ho]), hl])

/-- After a build of pages that succeeds, the page of each input holds the document of the last input
with that page, and the script beside it the titles of the last quiz there that has an index. -/
theorem last_output_kept {session : Session} {arguments : BuildArguments} {p : Plan}
    (hp : plan session arguments = .ok p) (hf : p.format = .html) (ho : arguments.output = none)
    (hdone : (build session arguments).exitCode = 0) :
    ∃ builts, Builds p session.tree session.cwd [] arguments.inputs builts ∧
      ∀ earlier b later, builts = earlier ++ b :: later →
        (build session arguments).tree.entry? b.page = some (.file (Text.encode
          (lastWith (fun o => o.page = b.page) b later).document)) ∧
        (b.quiz.index ≠ [] → (build session arguments).tree.entry? b.titles = some (.file (Text.encode
          (Page.titlesScript
            (lastWith (fun o => o.quiz.index ≠ [] ∧ o.directory = b.directory) b later).quiz)))) := by
  have hs := settled_of_plan hp
  have he : (build session arguments).error = none := by
    rw [Outcome.exitCode] at hdone
    split at hdone
    · exact Option.isNone_iff_eq_none.1 ‹_›
    · cases hdone
  rw [build_eq hp] at he ⊢
  obtain ⟨builts, hbuilds, hw⟩ := builds_of_foldl (o := { tree := session.tree }) hs hf
    (hs.output.trans ho) rfl (Written.nil session.tree) he
  refine ⟨builts, hbuilds, ?_⟩
  rintro earlier b later rfl
  rw [List.flatMap_append, List.flatMap_cons, ← List.append_assoc, ← List.append_assoc] at hw
  constructor
  · rw [hw.entry]
    refine standing_last Built.document (fun outputs o => ?_) later ?_
    · simp only [standing_page, decide_eq_true_eq]
    · rw [standing_page, if_pos rfl]
  · intro hi
    rw [hw.entry]
    refine standing_last (fun o => Page.titlesScript o.quiz) (fun outputs o => ?_) later ?_
    · simp only [standing_titles, decide_eq_true_eq]
    · rw [standing_titles, if_pos ⟨hi, rfl⟩]

/-- Of two inputs with one page, the first loses its document. -/
theorem last_output_kept_one_page :
    let session : Session := { tree := { entries :=
      [(["week1.xml"], .file (Text.encode "<quiz title='A'/>")),
        (["week1.quiz"], .file (Text.encode "<quiz title='B'/>"))] } }
    let arguments : BuildArguments := { inputs := ["week1.xml", "week1.quiz"] }
    (build session arguments).tree.entry? ["week1.html"] ≠
        (buildOnly session arguments ["week1.xml"]).tree.entry? ["week1.html"] ∧
    ∃ p builts, plan session arguments = .ok p ∧
      Builds p session.tree session.cwd [] arguments.inputs builts ∧
      ∀ earlier b later, builts = earlier ++ b :: later →
        (build session arguments).tree.entry? b.page = some (.file (Text.encode
          (lastWith (fun o => o.page = b.page) b later).document)) ∧
        (b.quiz.index ≠ [] → (build session arguments).tree.entry? b.titles = some (.file (Text.encode
          (Page.titlesScript
            (lastWith (fun o => o.quiz.index ≠ [] ∧ o.directory = b.directory) b later).quiz)))) := by
  intro session arguments
  have hplan : (plan session arguments).toOption.map Plan.format = some .html := by decide +kernel
  have hdone : (build session arguments).exitCode = 0 ∧
      (build session arguments).tree.entry? ["week1.html"] ≠
        (buildOnly session arguments ["week1.xml"]).tree.entry? ["week1.html"] := by
    decide +kernel
  obtain ⟨p, hp, hf⟩ := exists_of_toOption hplan
  obtain ⟨builts, h⟩ := last_output_kept hp hf rfl hdone.1
  exact ⟨hdone.2, p, builts, hp, h⟩

end QuizPress.Command
