import QuizPress.Proofs.Command.Halt
import QuizPress.Proofs.Files.Tree

/-! The files that a build of pages writes: for each input the page that has its name, and the script
with the titles beside it. What stands at a location in the end is the last text that was written
there. -/
namespace QuizPress.Command
open Files Quiz Render

abbrev Outputs := List (Location × String)

/-- What stands at a location of a tree after some outputs: the last that went there, if any did. -/
def standing (tree : Tree) (outputs : Outputs) (l : Location) : Option Entry :=
  match outputs.reverse.lookup l with
  | some text => some (.file (Text.encode text))
  | none => tree.entry? l

/-- What a tree is after some outputs. -/
structure Written (tree : Tree) (outputs : Outputs) (tree' : Tree) : Prop where
  same : tree.SameDirectories tree'
  entry : ∀ l, tree'.entry? l = standing tree outputs l

structure Built where
  directory : Location
  name : String
  quiz : Quiz
  document : String
deriving DecidableEq, Repr

namespace Built

def page (b : Built) : Location := b.directory ++ [Path.renamed b.name Format.html.fileExtension]

def titles (b : Built) : Location := b.directory ++ [Page.titlesFile]

def outputs (b : Built) : Outputs :=
  (b.page, b.document) ::
    if b.quiz.index.isEmpty then [] else [(b.titles, Page.titlesScript b.quiz)]

end Built

structure Renders (p : Plan) (tree : Tree) (cwd : Location) (found : Location → Option Entry)
    (argument : String) (b : Built) : Prop where
  place : tree.locate cwd (inputPath argument) = .ok (b.directory, b.name)
  quiz : ∃ octets, found (b.directory ++ [b.name]) = some (.file octets) ∧
    parseOctets octets = .ok b.quiz
  document : ∃ rendered, Render.page (p.options (inputPath argument)) b.quiz = .ok rendered ∧
    rendered.document = b.document

/-- Arguments are rendered in order, each from what the outputs before it leave. -/
inductive Builds (p : Plan) (tree : Tree) (cwd : Location) :
    Outputs → List String → List Built → Prop where
  | nil (outputs : Outputs) : Builds p tree cwd outputs [] []
  | cons {outputs : Outputs} {argument : String} {b : Built} {arguments : List String}
      {builts : List Built} (h : Renders p tree cwd (standing tree outputs) argument b)
      (hs : Builds p tree cwd (outputs ++ b.outputs) arguments builts) :
      Builds p tree cwd outputs (argument :: arguments) (b :: builts)

section
variable {tree tree' tree'' : Tree} {outputs later : Outputs} {l l' : Location} {text : String}

theorem standing_concat (tree : Tree) (outputs : Outputs) (l l' : Location) (text : String) :
    standing tree (outputs ++ [(l, text)]) l' =
      if l' = l then some (.file (Text.encode text)) else standing tree outputs l' := by
  rw [standing, standing, List.reverse_append, List.reverse_singleton, List.singleton_append,
    List.lookup_cons]
  by_cases h : l' = l
  · simp [h]
  · rw [if_neg h, beq_eq_false_iff_ne.2 h]

theorem Written.nil (tree : Tree) : Written tree [] tree := ⟨.refl tree, fun _ => rfl⟩

theorem Written.concat (h : Written tree outputs tree')
    (hs : tree'.Saved l (Text.encode text) tree'') : Written tree (outputs ++ [(l, text)]) tree'' := by
  refine ⟨h.same.trans hs.same, fun l' => ?_⟩
  rw [hs.entry, h.entry, standing_concat]

end

theorem readInput_eq_ok {tree : Tree} {cwd : Location} {argument path : String} {quiz : Quiz}
    (h : readInput tree cwd argument = .ok (path, quiz)) :
    path = inputPath argument ∧ ∃ directory name octets,
      tree.locate cwd path = .ok (directory, name) ∧ Path.Proper name ∧
        tree.entry? (directory ++ [name]) = some (.file octets) ∧ parseOctets octets = .ok quiz := by
  rw [readInput, bind_eq_ok] at h
  obtain ⟨path', hp, h⟩ := h
  obtain ⟨quiz', hq, h⟩ := bind_eq_ok.1 h
  cases h
  have hpath : path = inputPath argument := by
    simp only [resolve] at hp
    split at hp
    · cases hp
      rfl
    · cases hp
  refine ⟨hpath, ?_⟩
  rw [mapError_eq_ok, parseFile] at hq
  split at hq
  · rename_i octets hr
    obtain ⟨directory, name, hl, hn, -, hf⟩ := Tree.read_eq_ok_iff.1 hr
    exact ⟨directory, name, octets, hl, hn, (Tree.readAt_eq_ok_iff.1 hf).1, hq⟩
  · cases hq
  · cases hq

theorem write_cases {o : Outcome} (ho : o.error = none) (cwd : Location) (path contents : String) :
    (∃ tree', o.tree.save cwd path (Text.encode contents) = .ok tree' ∧
        o.write cwd path contents = { o with tree := tree' }) ∨
      ∃ error, o.write cwd path contents = { o with error := some error } := by
  rw [Outcome.write, if_neg (by simp [ho])]
  cases hs : o.tree.save cwd path (Text.encode contents) with
  | ok tree' => exact .inl ⟨tree', rfl, rfl⟩
  | error cause => exact .inr ⟨_, rfl⟩

theorem write_failed {o : Outcome} (h : o.error.isSome) (cwd : Location) (path contents : String) :
    o.write cwd path contents = o :=
  if_pos h

section
variable {p : Plan} {cwd : Location} {o : Outcome} {input : String} {quiz : Quiz}
  {directory : Location} {name : String} {rendered : Rendered}

/-- What a delivery has written is all that is to be written for an input, or, if it failed, the
beginning of that. -/
theorem written_deliver (ho : o.error = none) (hl : o.tree.locate cwd input = .ok (directory, name))
    (hn : Path.Proper name) (ha : rendered.artifacts = Page.artifacts quiz) :
    let b : Built := ⟨directory, name, quiz, rendered.document⟩
    let o' := o.deliver cwd input
      (some (Path.withExtension input Format.html.fileExtension)) rendered
    ∃ outputs, Written o.tree outputs o'.tree ∧ outputs <+: b.outputs ∧
      (o'.error = none → outputs = b.outputs) := by
  intro b o'
  have hext : Format.html.fileExtension ≠ "" := by decide
  have hslash : '/' ∉ Format.html.fileExtension.toList := by decide
  have hdeliver : o' = (Page.artifacts quiz).foldl (fun o artifact => o.write cwd (Path.child
      (Path.directory (Path.withExtension input Format.html.fileExtension)) artifact.fileName)
      artifact.contents)
      (o.write cwd (Path.withExtension input Format.html.fileExtension) rendered.document) := by
    rw [← ha]
    rfl
  rcases write_cases ho cwd (Path.withExtension input Format.html.fileExtension) rendered.document with
    ⟨tree, hs, hw⟩ | ⟨error, hw⟩
  · have hpage : Written o.tree [(b.page, b.document)] tree :=
      (Written.nil o.tree).concat (Tree.saved_withExtension hl hn hext hslash hs)
    rw [hw, Page.artifacts] at hdeliver
    by_cases hi : quiz.index.isEmpty
    · have hb : b.outputs = [(b.page, b.document)] := congrArg (List.cons _) (if_pos hi)
      rw [if_pos hi] at hdeliver
      rw [hdeliver, hb]
      exact ⟨_, hpage, List.prefix_refl _, fun _ => rfl⟩
    · have hb : b.outputs = [(b.page, b.document)] ++ [(b.titles, Page.titlesScript quiz)] :=
        congrArg (List.cons _) (if_neg hi)
      rw [if_neg hi, List.foldl_cons, List.foldl_nil] at hdeliver
      have hl' := (Tree.locate_sameDirectories hpage.same).1 hl
      rw [hb]
      rcases write_cases (o := { o with tree }) ho cwd (Path.child (Path.directory
        (Path.withExtension input Format.html.fileExtension)) Page.titlesFile)
        (Page.titlesScript quiz) with ⟨tree', hs', hw'⟩ | ⟨error, hw'⟩
      · have htitles := Tree.saved_beside hl' hn hext hslash ⟨by decide, by decide⟩ (by decide) hs'
        rw [hdeliver, hw']
        exact ⟨_, hpage.concat htitles, List.prefix_refl _, fun _ => rfl⟩
      · rw [hdeliver, hw']
        exact ⟨_, hpage, List.prefix_append _ _, fun h => nomatch h⟩
  · have herror : ({ o with error := some error } : Outcome).error.isSome := rfl
    have hfail : o' = { o with error := some error } := by
      rw [hdeliver, hw, Page.artifacts]
      by_cases hi : quiz.index.isEmpty
      · rw [if_pos hi, List.foldl_nil]
      · rw [if_neg hi, List.foldl_cons, List.foldl_nil, write_failed herror]
    rw [hfail]
    exact ⟨[], Written.nil _, List.nil_prefix, fun h => nomatch h⟩

theorem artifacts_of_page {options : Options} (h : page options quiz = .ok rendered) :
    rendered.artifacts = Page.artifacts quiz := by
  obtain ⟨layout, _, hr⟩ := bind_eq_ok.1 h
  cases hr
  rfl

end

theorem tree_say (o : Outcome) (messages : List String) : (o.say messages).tree = o.tree := by
  unfold Outcome.say
  split <;> rfl

/-- What a build of one input does: it fails to read it, or it writes for what it read. -/
theorem buildFile_cases {arguments : BuildArguments} {p : Plan} {cwd : Location} {o : Outcome}
    (hp : Settled arguments p) (hf : p.format = .html) (hout : p.output = none) (ho : o.error = none)
    (argument : String) :
    (∃ error, readInput o.tree cwd argument = .error error ∧
      buildFile p cwd o argument = { o with error := some error }) ∨
    ∃ b outputs, readInput o.tree cwd argument = .ok (inputPath argument, b.quiz) ∧
      Renders p o.tree cwd o.tree.entry? argument b ∧
      Written o.tree outputs (buildFile p cwd o argument).tree ∧ outputs <+: b.outputs ∧
      ((buildFile p cwd o argument).error = none → outputs = b.outputs) := by
  cases hr : readInput o.tree cwd argument with
  | error error => exact .inl ⟨error, rfl, buildFile_unread ho hr⟩
  | ok found =>
    obtain ⟨input, quiz⟩ := found
    obtain ⟨rfl, directory, name, octets, hl, hn, he, hq⟩ := readInput_eq_ok hr
    obtain ⟨rendered, hrender, hb⟩ := buildFile_read hp ho hr
    rw [hf] at hrender
    have htarget : p.target? (inputPath argument) =
        some (Path.withExtension (inputPath argument) Format.html.fileExtension) := by
      rw [Plan.target?, hout, hf]
      rfl
    obtain ⟨outputs, hw, hpre, hall⟩ := written_deliver ho hl hn (artifacts_of_page hrender)
    rw [htarget] at hb
    refine .inr ⟨⟨directory, name, quiz, rendered.document⟩, outputs, rfl,
      ⟨hl, ⟨octets, he, hq⟩, ⟨rendered, hrender, rfl⟩⟩, ?_, hpre, ?_⟩
    · rw [hb, tree_say]
      exact hw
    · rw [hb, error_say]
      exact hall

theorem Written.append {tree tree' tree'' : Tree} {outputs later : Outputs}
    (h : Written tree outputs tree') (hs : Written tree' later tree'') :
    Written tree (outputs ++ later) tree'' := by
  refine ⟨h.same.trans hs.same, fun l => ?_⟩
  rw [hs.entry, standing, standing, h.entry, List.reverse_append, List.lookup_append]
  cases later.reverse.lookup l <;> rfl

theorem Renders.congr {p : Plan} {s t : Tree} {cwd : Location} {found found' : Location → Option Entry}
    {argument : String} {b : Built} (h : Renders p t cwd found argument b) (hs : s.SameDirectories t)
    (hf : ∀ l, found l = found' l) : Renders p s cwd found' argument b := by
  obtain ⟨octets, ho, hq⟩ := h.quiz
  exact ⟨(Tree.locate_sameDirectories hs).2 h.place, ⟨octets, (hf _).symm.trans ho, hq⟩, h.document⟩

/-- A run that comes to its end has rendered all inputs, and written all that is to be written. -/
theorem builds_of_foldl {arguments : BuildArguments} {p : Plan} {cwd : Location} {o : Outcome}
    {tree : Tree} {outputs : Outputs} {inputs : List String} (hp : Settled arguments p)
    (hf : p.format = .html) (hout : p.output = none) (ho : o.error = none)
    (hw : Written tree outputs o.tree) (hdone : (inputs.foldl (buildFile p cwd) o).error = none) :
    ∃ builts, Builds p tree cwd outputs inputs builts ∧
      Written tree (outputs ++ builts.flatMap Built.outputs) (inputs.foldl (buildFile p cwd) o).tree := by
  induction inputs generalizing o outputs with
  | nil => exact ⟨[], .nil outputs, by simpa using hw⟩
  | cons argument inputs ih =>
    rw [List.foldl_cons] at hdone ⊢
    have hnone : (buildFile p cwd o argument).error = none := by
      by_contra hc
      rw [foldl_failed (Option.isSome_iff_ne_none.2 hc)] at hdone
      exact hc hdone
    rcases buildFile_cases hp hf hout ho argument with ⟨error, _, hb⟩ | ⟨b, written, _, hr, hwr, _, hall⟩
    · rw [hb] at hnone
      cases hnone
    · have hstep := hw.append hwr
      rw [hall hnone] at hstep
      obtain ⟨builts, hbuilds, hfinal⟩ := ih hnone hstep hdone
      refine ⟨b :: builts, .cons (hr.congr hw.same hw.entry) hbuilds, ?_⟩
      rw [List.flatMap_cons, ← List.append_assoc]
      exact hfinal

end QuizPress.Command
