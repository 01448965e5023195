import QuizPress.Command.Build
import QuizPress.Proofs.Except
import QuizPress.Proofs.Files.Tree

/-! Builds take their inputs in order and halt at the first that fails. What is left then is what the
inputs before it leave. -/
namespace QuizPress.Command
open Files Render

def settings (session : Session) (arguments : BuildArguments) : Except Config.ConfigError Config :=
  Config.load session.tree session.cwd session.environment arguments.config
    (arguments.overrides session.environment)

/-- Several documents are to go to one file. -/
def BuildArguments.Clashing (arguments : BuildArguments) : Prop :=
  arguments.output.isSome ∧ 1 < arguments.inputs.length

/-- Why nothing is built at all. -/
inductive Unsettled (session : Session) (arguments : BuildArguments) : CommandError → Prop where
  | severalInputs (h : arguments.Clashing) : Unsettled session arguments .severalInputs
  | settings {error : Config.ConfigError} (h : ¬ arguments.Clashing)
      (hc : settings session arguments = .error error) : Unsettled session arguments (.config error)
  | format {config : Config} {error : RenderError} (h : ¬ arguments.Clashing)
      (hc : settings session arguments = .ok config)
      (hf : Format.ofName config.format = .error error) : Unsettled session arguments (.render error)
  | layout {config : Config} {error : RenderError} (h : ¬ arguments.Clashing)
      (hc : settings session arguments = .ok config) (hf : Format.ofName config.format = .ok .html)
      (hl : Page.Layout.ofName config.layout = .error error) :
      Unsettled session arguments (.render error)

variable {session : Session} {arguments : BuildArguments} {p : Plan} {error : CommandError}

private theorem plan_eq (h : ¬ arguments.Clashing) :
    plan session arguments = (settings session arguments).mapError .config >>= fun config =>
      (Format.ofName config.format).mapError .render >>= fun format =>
        if format = .html then
          (Page.Layout.ofName config.layout).mapError .render >>= fun _ =>
            .ok ⟨format, config, arguments.output⟩
        else .ok ⟨format, config, arguments.output⟩ :=
  if_neg h

private theorem plan_clashing (h : arguments.Clashing) :
    plan session arguments = .error .severalInputs :=
  if_pos h

theorem plan_eq_error_iff : plan session arguments = .error error ↔ Unsettled session arguments error := by
  constructor
  · intro h
    by_cases hs : arguments.Clashing
    · rw [plan_clashing hs] at h
      cases h
      exact .severalInputs hs
    rw [plan_eq hs, bind_eq_error, mapError_eq_error] at h
    rcases h with ⟨cause, hc, rfl⟩ | ⟨config, hc, h⟩
    · exact .settings hs hc
    rw [mapError_eq_ok] at hc
    rw [bind_eq_error, mapError_eq_error] at h
    rcases h with ⟨cause, hf, rfl⟩ | ⟨format, hf, h⟩
    · exact .format hs hc hf
    rw [mapError_eq_ok] at hf
    split at h
    · rename_i hh
      subst hh
      rw [bind_eq_error, mapError_eq_error] at h
      rcases h with ⟨cause, hl, rfl⟩ | ⟨_, _, h⟩
      · exact .layout hs hc hf hl
      · cases h
    · cases h
  · intro h
    cases h with
    | severalInputs hs => exact plan_clashing hs
    | settings hs hc => rw [plan_eq hs, hc, mapError_error, error_bind]
    | format hs hc hf => rw [plan_eq hs, hc, mapError_ok, ok_bind, hf, mapError_error, error_bind]
    | layout hs hc hf hl =>
      rw [plan_eq hs, hc, mapError_ok, ok_bind, hf, mapError_ok, ok_bind, if_pos rfl, hl,
        mapError_error, error_bind]

structure Settled (arguments : BuildArguments) (p : Plan) : Prop where
  single : ¬ arguments.Clashing
  layout : p.format = .html → ∃ layout, Page.Layout.ofName p.config.layout = .ok layout
  output : p.output = arguments.output

theorem settled_of_plan (h : plan session arguments = .ok p) : Settled arguments p := by
  by_cases hs : arguments.Clashing
  · rw [plan_clashing hs] at h
    cases h
  rw [plan_eq hs, bind_eq_ok] at h
  obtain ⟨config, _, h⟩ := h
  rw [bind_eq_ok] at h
  obtain ⟨format, _, h⟩ := h
  split at h
  · obtain ⟨layout, hl, h⟩ := bind_eq_ok.1 h
    cases h
    exact ⟨hs, fun _ => ⟨layout, mapError_eq_ok.1 hl⟩, rfl⟩
  · rename_i hh
    cases h
    exact ⟨hs, fun ht => absurd ht hh, rfl⟩

/-- Documents that are no pages need nothing but settings with a format. -/
theorem plan_of_settings {config : Config} {format : Format} (h : ¬ arguments.Clashing)
    (hc : settings session arguments = .ok config) (hf : Format.ofName config.format = .ok format)
    (hn : format ≠ .html) : plan session arguments = .ok ⟨format, config, arguments.output⟩ := by
  rw [plan_eq h, hc, mapError_ok, ok_bind, hf, mapError_ok, ok_bind, if_neg hn]

/-- Fewer inputs change nothing about what is settled. -/
theorem plan_of_fewer {inputs : List String} (hl : inputs.length ≤ arguments.inputs.length)
    (h : plan session arguments = .ok p) : plan session { arguments with inputs } = .ok p := by
  have hs := (settled_of_plan h).single
  have hs' : ¬ ({ arguments with inputs } : BuildArguments).Clashing := fun hc =>
    hs ⟨hc.1, Nat.lt_of_lt_of_le hc.2 hl⟩
  rw [plan_eq hs] at h
  exact (plan_eq hs').trans h

/-- No quiz keeps a settled build from rendering it. -/
theorem render_of_settled (h : Settled arguments p) (input : String) (quiz : Quiz) :
    ∃ rendered, render p.format (p.options input) quiz = .ok rendered := by
  cases hf : p.format with
  | html =>
    obtain ⟨layout, hl⟩ := h.layout hf
    exact ⟨_, by rw [render, page, Plan.options, hl]; rfl⟩
  | xml => exact ⟨_, rfl⟩
  | tex => exact ⟨_, rfl⟩
  | text => exact ⟨_, rfl⟩

/-- An error that a write ends with, unless there was one before. -/
theorem error_of_write {o : Outcome} {cwd : Location} {path contents : String}
    (h : (o.write cwd path contents).error = some error) :
    o.error = some error ∨ ∃ path cause, error = .write path cause := by
  unfold Outcome.write at h
  split at h
  · exact .inl h
  · split at h
    · exact .inl h
    · cases h
      exact .inr ⟨_, _, rfl⟩

private theorem error_of_writes {o : Outcome} {cwd : Location} {directory : String}
    {artifacts : List Artifact}
    (h : (artifacts.foldl (fun o artifact =>
      o.write cwd (Path.child directory artifact.fileName) artifact.contents) o).error = some error) :
    o.error = some error ∨ ∃ path cause, error = .write path cause := by
  induction artifacts generalizing o with
  | nil => exact .inl h
  | cons artifact artifacts ih =>
    rcases ih h with h | h
    · exact error_of_write h
    · exact .inr h

theorem error_of_deliver {o : Outcome} {cwd : Location} {input : String} {target : Option String}
    {rendered : Rendered} (ho : o.error = none)
    (h : (o.deliver cwd input target rendered).error = some error) :
    ∃ path cause, error = .write path cause := by
  rcases error_of_writes h with h | h
  · cases target with
    | none => cases ho.symm.trans h
    | some path =>
      rcases error_of_write h with h | h
      · cases ho.symm.trans h
      · exact h
  · exact h

theorem error_say (o : Outcome) (messages : List String) : (o.say messages).error = o.error := by
  unfold Outcome.say
  split <;> rfl

/-- After a failure nothing is built. -/
theorem buildFile_failed {o : Outcome} (h : o.error.isSome) (cwd : Location) (argument : String) :
    buildFile p cwd o argument = o :=
  if_pos h

/-- An input that holds no quiz leaves everything as it is. -/
theorem buildFile_unread {o : Outcome} {cwd : Location} {argument : String} (ho : o.error = none)
    (h : readInput o.tree cwd argument = .error error) :
    buildFile p cwd o argument = { o with error := some error } := by
  rw [buildFile, if_neg (by simp [ho]), h]

/-- An input that holds a quiz is rendered, and nothing but a write can fail. -/
theorem buildFile_read {o : Outcome} {cwd : Location} {argument input : String} {quiz : Quiz}
    (hp : Settled arguments p) (ho : o.error = none)
    (h : readInput o.tree cwd argument = .ok (input, quiz)) :
    ∃ rendered, render p.format (p.options input) quiz = .ok rendered ∧
      buildFile p cwd o argument = (o.deliver cwd input (p.target? input) rendered).say
        (deliveryMessages input (p.target? input) rendered) := by
  obtain ⟨rendered, hr⟩ := render_of_settled hp input quiz
  refine ⟨rendered, hr, ?_⟩
  rw [buildFile, if_neg (by simp [ho]), h]
  simp only [hr]

theorem foldl_failed {o : Outcome} (h : o.error.isSome) (cwd : Location) (inputs : List String) :
    inputs.foldl (buildFile p cwd) o = o := by
  induction inputs with
  | nil => rfl
  | cons input inputs ih => rw [List.foldl_cons, buildFile_failed h, ih]

/-- A run that fails does so at some input, which holds no quiz or of which a file cannot be
written. -/
theorem halt_of_foldl {o : Outcome} {cwd : Location} {inputs : List String} (hp : Settled arguments p)
    (ho : o.error = none) (h : (inputs.foldl (buildFile p cwd) o).error = some error) :
    (∃ path cause, error = .write path cause) ∨
      ∃ earlier input later, inputs = earlier ++ input :: later ∧
        (earlier.foldl (buildFile p cwd) o).error = none ∧
        readInput (earlier.foldl (buildFile p cwd) o).tree cwd input = .error error := by
  induction inputs generalizing o with
  | nil => cases ho.symm.trans h
  | cons input inputs ih =>
    rw [List.foldl_cons] at h
    cases hi : (buildFile p cwd o input).error with
    | none =>
      rcases ih hi h with hw | ⟨earlier, later, input', rfl, hn, hr⟩
      · exact .inl hw
      · exact .inr ⟨input :: earlier, later, input', rfl, hn, hr⟩
    | some error' =>
      rw [foldl_failed (by rw [hi]; rfl), hi] at h
      cases h
      cases hr : readInput o.tree cwd input with
      | error error =>
        rw [buildFile_unread ho hr] at hi
        cases hi
        exact .inr ⟨[], input, inputs, rfl, ho, hr⟩
      | ok found =>
        obtain ⟨rendered, -, hb⟩ := buildFile_read hp ho hr
        rw [hb, error_say] at hi
        exact .inl (error_of_deliver ho hi)

def buildOnly (session : Session) (arguments : BuildArguments) (inputs : List String) : Outcome :=
  build session { arguments with inputs }

/-- A build gets to an input without a failure, and finds no quiz there. -/
structure HaltsAt (session : Session) (arguments : BuildArguments) (earlier : List String)
    (input : String) (error : CommandError) : Prop where
  done : (buildOnly session arguments earlier).error = none
  unread : readInput (buildOnly session arguments earlier).tree session.cwd input = .error error

theorem buildOnly_eq {inputs : List String} (hl : inputs.length ≤ arguments.inputs.length)
    (h : plan session arguments = .ok p) :
    buildOnly session arguments inputs =
      inputs.foldl (buildFile p session.cwd) { tree := session.tree } := by
  rw [buildOnly, build, plan_of_fewer hl h]

theorem build_eq (h : plan session arguments = .ok p) :
    build session arguments =
      arguments.inputs.foldl (buildFile p session.cwd) { tree := session.tree } :=
  buildOnly_eq (Nat.le_refl _) h

/-- An input is not a file, or its file cannot be read or holds no quiz. -/
theorem unread_cases {tree : Tree} {cwd : Location} {argument : String}
    (h : readInput tree cwd argument = .error error) :
    error = .noFile (inputPath argument) ∨ ∃ cause, error = .parse cause := by
  rw [readInput, bind_eq_error] at h
  rcases h with h | ⟨path, _, h⟩
  · simp only [resolve] at h
    split at h
    · cases h
    · cases h
      exact .inl rfl
  · rw [bind_eq_error, mapError_eq_error] at h
    rcases h with ⟨cause, _, rfl⟩ | ⟨_, _, h⟩
    · exact .inr ⟨cause, rfl⟩
    · cases h

theorem readInput_missing {tree : Tree} {cwd : Location} {argument : String}
    (h : tree.isFile cwd (inputPath argument) = false) :
    readInput tree cwd argument = .error (.noFile (inputPath argument)) := by
  simp [readInput, resolve, h]

/-- A file that may not be opened is found, and then said not to be readable. -/
theorem readInput_closed {tree : Tree} {cwd : Location} {argument : String}
    (h : tree.isFile cwd (inputPath argument) = true)
    (hc : ∀ contents, tree.read cwd (inputPath argument) ≠ .ok contents) :
    readInput tree cwd argument =
      .error (.parse (.notOpened (inputPath argument) .notPermitted)) := by
  have hread : tree.read cwd (inputPath argument) = .error .notPermitted :=
    (Tree.read_of_isFile h).resolve_left fun ⟨contents, hr⟩ => hc contents hr
  have hparse : parseFile tree cwd (inputPath argument) =
      .error (.notOpened (inputPath argument) .notPermitted) := by
    rw [parseFile, hread]
  have hresolve : resolve tree cwd argument = .ok (inputPath argument) := if_pos h
  rw [readInput, hresolve, ok_bind, hparse]
  rfl

/-- A build that is not settled changes nothing and puts nothing out. A settled one that fails at an
input, other than by a write, leaves what the same build of the inputs before leaves, and no rendering
fails. -/
theorem build_halts (session : Session) (arguments : BuildArguments) :
    (∀ error, Unsettled session arguments error →
      build session arguments = { tree := session.tree, error := some error } ∧
      (build session arguments).exitCode = 1) ∧
    ((∀ error, ¬ Unsettled session arguments error) →
      buildOnly session arguments [] = { tree := session.tree } ∧
      (∀ earlier later, arguments.inputs = earlier ++ later →
        (buildOnly session arguments earlier).error.isSome →
        build session arguments = buildOnly session arguments earlier) ∧
      (∀ earlier input later error, arguments.inputs = earlier ++ input :: later →
        HaltsAt session arguments earlier input error →
        build session arguments =
          { buildOnly session arguments earlier with error := some error } ∧
        (build session arguments).exitCode = 1) ∧
      (∀ error, (build session arguments).error = some error →
        (∃ path cause, error = .write path cause) ∨
        ∃ earlier input later, arguments.inputs = earlier ++ input :: later ∧
          HaltsAt session arguments earlier input error) ∧
      ∀ cause, (build session arguments).error ≠ some (.render cause)) := by
  constructor
  · intro error h
    have hb : build session arguments = { tree := session.tree, error := some error } := by
      rw [build, plan_eq_error_iff.2 h]
    exact ⟨hb, by rw [hb]; rfl⟩
  intro hu
  cases hp : plan session arguments with
  | error error => exact absurd (plan_eq_error_iff.1 hp) (hu error)
  | ok p =>
    have hs := settled_of_plan hp
    have hfail : ∀ error, (build session arguments).error = some error →
        (∃ path cause, error = .write path cause) ∨
        ∃ earlier input later, arguments.inputs = earlier ++ input :: later ∧
          HaltsAt session arguments earlier input error := by
      intro error h
      rw [build_eq hp] at h
      rcases halt_of_foldl hs rfl h with h | ⟨earlier, input, later, hi, hd, hr⟩
      · exact .inl h
      · have he : buildOnly session arguments earlier = _ := buildOnly_eq (by simp [hi]) hp
        exact .inr ⟨earlier, input, later, hi, by rw [he]; exact hd, by rw [he]; exact hr⟩
    refine ⟨buildOnly_eq (Nat.zero_le _) hp, ?_, ?_, hfail, ?_⟩
    · intro earlier later hi h
      have he : buildOnly session arguments earlier = _ := buildOnly_eq (by simp [hi]) hp
      rw [build_eq hp, hi, List.foldl_append, ← he, foldl_failed h]
    · intro earlier input later error hi h
      have he : buildOnly session arguments earlier = _ := buildOnly_eq (by simp [hi]) hp
      have hb : build session arguments =
          { buildOnly session arguments earlier with error := some error } := by
        rw [build_eq hp, hi, List.foldl_append, List.foldl_cons, ← he,
          buildFile_unread h.done h.unread, foldl_failed rfl]
      exact ⟨hb, by rw [hb]; rfl⟩
    · intro cause h
      rcases hfail _ h with ⟨_, _, h⟩ | ⟨_, _, _, _, h⟩
      · cases h
      · rcases unread_cases h.unread with h | ⟨_, h⟩ <;> cases h

/-- The first of two inputs is put out, and the second one is not there. -/
theorem build_halts_second_missing :
    let session : Session :=
      { tree := { entries := [(["week1.xml"], .file (Text.encode "<quiz title=\"Sums\"/>"))] } }
    let arguments : BuildArguments :=
      { inputs := ["week1.xml", "week2.xml"], format := some "text" }
    (∀ error, ¬ Unsettled session arguments error) ∧
      HaltsAt session arguments ["week1.xml"] "week2.xml" (.noFile "week2.xml") ∧
      build session arguments = { buildOnly session arguments ["week1.xml"] with
        error := some (.noFile "week2.xml") } ∧
      (build session arguments).exitCode = 1 := by
  intro session arguments
  have hp : (plan session arguments).isOk = true := by decide +kernel
  have hu : ∀ error, ¬ Unsettled session arguments error := by
    intro error h
    rw [plan_eq_error_iff.2 h] at hp
    cases hp
  have hi : inputPath "week2.xml" = "week2.xml" := by decide +kernel
  have hh : HaltsAt session arguments ["week1.xml"] "week2.xml" (.noFile "week2.xml") :=
    ⟨by decide +kernel, hi ▸ readInput_missing (by decide +kernel)⟩
  exact ⟨hu, hh, ((build_halts session arguments).2 hu).2.2.1 _ _ [] _ rfl hh⟩

end QuizPress.Command
