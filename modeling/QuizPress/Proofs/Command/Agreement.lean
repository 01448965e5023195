import Mathlib.Data.List.Forall2
import QuizPress.Command.Check
import QuizPress.Proofs.Command.Halt

/-! A check says of every argument what a build of that argument alone would come to, as long as the
build has settings and makes no page. -/
namespace QuizPress.Command
open Files Quiz Render

def Session.found (session : Session) (argument : String) : Except CommandError (String × Quiz) :=
  readInput session.tree session.cwd argument

inductive Verdict (session : Session) (argument : String) : String → Prop where
  | quiz {path : String} {quiz : Quiz} (h : session.found argument = .ok (path, quiz)) :
      Verdict session argument (argument ++ ": " ++ summary quiz)
  | failure {error : CommandError} (h : session.found argument = .error error) :
      Verdict session argument (argument ++ ": " ++ error.message)

/-- A build of one argument that has valid settings and makes no page. -/
structure Alone (session : Session) (arguments : BuildArguments) (argument : String) : Prop where
  inputs : arguments.inputs = [argument]
  textual : ∃ (config : Config) (format : Format), settings session arguments = .ok config ∧
    Format.ofName config.format = .ok format ∧ format ∈ [Format.xml, .tex, .text]

variable {session : Session} {arguments : BuildArguments} {argument : String} {error : CommandError}

def failing (session : Session) (inputs : List String) : List String :=
  inputs.filter fun argument => !(session.found argument).isOk

def closing (failed total : Nat) : String :=
  if failed = 0 then toString total ++ " files OK"
  else "Error: " ++ toString failed ++ " of " ++ toString total ++ " files failed to parse"

theorem isFailure_eq (session : Session) :
    isFailure session.tree session.cwd = fun argument => !(session.found argument).isOk := by
  funext argument
  unfold isFailure checkFile Session.found
  cases readInput session.tree session.cwd argument <;> rfl

theorem verdict_checkMessage (session : Session) (argument : String) :
    Verdict session argument (checkMessage session.tree session.cwd argument) := by
  rw [checkMessage, checkFile]
  cases h : readInput session.tree session.cwd argument with
  | ok found => exact .quiz h
  | error error => exact .failure h

/-- What a check leaves: no file is written, and there is a line for each argument and one for all of
them, which is that of an error if an argument fails. -/
theorem check_eq (session : Session) (inputs : List String) :
    check session inputs =
      if failing session inputs = [] then
        { tree := session.tree
          messages := inputs.map (checkMessage session.tree session.cwd) ++
            [toString inputs.length ++ " files OK"] }
      else
        { tree := session.tree
          messages := inputs.map (checkMessage session.tree session.cwd)
          error := some (.failures (failing session inputs).length inputs.length) } := by
  have hc : inputs.countP (isFailure session.tree session.cwd) = (failing session inputs).length := by
    rw [isFailure_eq, List.countP_eq_length_filter, failing]
  rw [check, hc]
  simp only [List.length_eq_zero_iff]

theorem failing_eq_nil {inputs : List String} :
    failing session inputs = [] ↔ ∀ argument ∈ inputs, ∃ found, session.found argument = .ok found := by
  rw [failing, List.filter_eq_nil_iff]
  refine forall₂_congr fun argument _ => ?_
  cases session.found argument <;> simp [Except.isOk, Except.toBool]

/-- A check has one line for each argument, in order, and a last one with the exact counts. -/
theorem report_check (session : Session) (inputs : List String) :
    (check session inputs).report = inputs.map (checkMessage session.tree session.cwd) ++
      [closing (failing session inputs).length inputs.length] := by
  rw [check_eq]
  split
  · rename_i hn
    rw [hn]
    exact List.append_nil _
  · rename_i hn
    rw [closing, if_neg (fun h => hn (List.length_eq_zero_iff.1 h))]
    rfl

theorem Alone.plan (h : Alone session arguments argument) :
    ∃ p, plan session arguments = .ok p ∧ p.format ≠ .html ∧ p.output = arguments.output := by
  obtain ⟨config, format, hc, hf, hm⟩ := h.textual
  have hs : ¬ arguments.Clashing := by simp [BuildArguments.Clashing, h.inputs]
  have hn : format ≠ .html := by
    rintro rfl
    simp at hm
  exact ⟨_, plan_of_settings hs hc hf hn, hn, rfl⟩

/-- Where no page is made, nothing is made but the document. -/
theorem rendered_of_render {format : Format} {options : Options} {quiz : Quiz} {rendered : Rendered}
    (hf : format ≠ .html) (h : render format options quiz = .ok rendered) :
    rendered.artifacts = [] ∧ rendered.warnings = [] := by
  cases format with
  | html => exact absurd rfl hf
  | xml | tex | text =>
    cases h
    exact ⟨rfl, rfl⟩

/-- A build of an argument that holds no quiz changes nothing and says why. -/
theorem build_of_not_found (h : Alone session arguments argument)
    (he : session.found argument = .error error) :
    build session arguments = { tree := session.tree, error := some error } := by
  obtain ⟨p, hp, _⟩ := h.plan
  rw [build_eq hp, h.inputs, List.foldl_cons, List.foldl_nil]
  exact buildFile_unread rfl he

/-- A build of an argument that holds a quiz can fail only where the file that is asked for cannot be
written. -/
theorem build_of_found {found : String × Quiz} (h : Alone session arguments argument)
    (hf : session.found argument = .ok found) :
    (build session arguments).error = none ∨ ∃ file cause, arguments.output = some file ∧
      (build session arguments).error = some (.write file cause) := by
  obtain ⟨p, hp, hn, ho⟩ := h.plan
  obtain ⟨rendered, hr, hb⟩ := buildFile_read (o := { tree := session.tree }) (settled_of_plan hp) rfl hf
  have ht : p.target? found.1 = arguments.output := by
    rw [Plan.target?, ho, if_neg hn]
    cases arguments.output <;> rfl
  rw [build_eq hp, h.inputs, List.foldl_cons, List.foldl_nil, hb, error_say, ht,
    Outcome.deliver.eq_def, (rendered_of_render hn hr).1]
  cases arguments.output with
  | none => exact .inl rfl
  | some file =>
    simp only [List.foldl_nil, Outcome.write]
    split
    · exact .inl rfl
    · split
      · exact .inl rfl
      · exact .inr ⟨file, _, rfl, rfl⟩

theorem exitCode_eq_zero {outcome : Outcome} : outcome.exitCode = 0 ↔ outcome.error = none := by
  rw [Outcome.exitCode]
  cases outcome.error <;> simp

/-- A check changes no file and says of each argument in order what it holds, whether or not one fails;
it fails if one does, with the exact counts. What it finds is what a build of the argument alone comes
to: that build succeeds if the check finds a quiz, unless its document cannot be written to the file
that is asked for, and otherwise it fails with the text that the check gives. -/
theorem check_agrees (session : Session) (inputs : List String) :
    ((check session inputs).tree = session.tree ∧ (check session inputs).output = "") ∧
    (∃ lines, List.Forall₂ (Verdict session) inputs lines ∧ (check session inputs).report =
      lines ++ [closing (failing session inputs).length inputs.length]) ∧
    ((check session inputs).exitCode = 0 ↔
      ∀ argument ∈ inputs, ∃ found, session.found argument = .ok found) ∧
    ∀ argument arguments, Alone session arguments argument →
      (arguments.output = none → ((build session arguments).exitCode = 0 ↔
        ∃ found, session.found argument = .ok found)) ∧
      (∀ found file, session.found argument = .ok found → arguments.output = some file →
        (build session arguments).exitCode = 0 ∨
          ∃ cause, (build session arguments).error = some (.write file cause)) ∧
      ∀ error, session.found argument = .error error →
        build session arguments = { tree := session.tree, error := some error } ∧
        (build session arguments).exitCode = 1 ∧
        (build session arguments).report = ["Error: " ++ error.message] := by
  refine ⟨?_, ⟨_, ?_, report_check session inputs⟩, ?_, fun argument arguments h => ⟨fun ho => ?_, ?_, ?_⟩⟩
  · rw [check_eq]
    split <;> exact ⟨rfl, rfl⟩
  · exact List.forall₂_map_right_iff.2
      (List.forall₂_same.2 fun argument _ => verdict_checkMessage session argument)
  · rw [← failing_eq_nil, exitCode_eq_zero, check_eq]
    split <;> simp_all
  · rw [exitCode_eq_zero]
    constructor
    · intro hn
      cases hf : session.found argument with
      | ok found => exact ⟨found, rfl⟩
      | error error =>
        rw [build_of_not_found h hf] at hn
        cases hn
    · rintro ⟨found, hf⟩
      rcases build_of_found h hf with hn | ⟨file, _, hs, _⟩
      · exact hn
      · cases ho.symm.trans hs
  · intro found file hf ho
    rcases build_of_found h hf with hn | ⟨_, cause, hs, hw⟩
    · exact .inl (exitCode_eq_zero.2 hn)
    · cases ho.symm.trans hs
      exact .inr ⟨cause, hw⟩
  · intro error he
    have hb := build_of_not_found h he
    exact ⟨hb, by rw [hb]; rfl, by rw [hb]; rfl⟩

/-- The second of three arguments has two roots, and the third is not there. -/
theorem check_agrees_two_roots :
    let session : Session :=
      { tree := { entries := [(["week1.xml"], .file (Text.encode "<quiz/>")),
          (["week2.xml"], .file (Text.encode "<quiz/><quiz/>"))] } }
    let arguments : BuildArguments := { inputs := ["week2"], format := some "text" }
    let inputs : List String := ["week1", "week2", "week3.quiz"]
    Alone session arguments "week2" ∧
    session.found "week2" = .error (.parse (.misplaced .quiz none)) ∧
    (build session arguments).report =
      ["Error: " ++ (CommandError.parse (.misplaced .quiz none)).message] ∧
    ∃ lines, List.Forall₂ (Verdict session) inputs lines ∧
      (check session inputs).report = lines ++ ["Error: 2 of 3 files failed to parse"] := by
  intro session arguments inputs
  have hs : Alone session arguments "week2" :=
    ⟨rfl, { format := "text" }, .text, by decide +kernel, by decide +kernel, by decide⟩
  have hf : session.found "week2" = .error (.parse (.misplaced .quiz none)) := by decide +kernel
  have hc : closing (failing session inputs).length inputs.length =
      "Error: 2 of 3 files failed to parse" := by decide +kernel
  obtain ⟨_, hr, _, hb⟩ := check_agrees session inputs
  rw [hc] at hr
  exact ⟨hs, hf, ((hb "week2" arguments hs).2.2 _ hf).2.2, hr⟩

end QuizPress.Command
