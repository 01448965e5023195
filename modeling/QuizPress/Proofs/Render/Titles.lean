import Mathlib.Data.List.Basic
import QuizPress.Proofs.Render.Page
import QuizPress.Proofs.Render.Script
import QuizPress.Proofs.Text

/-! The script of titles as it is read: lexemes first, then the declaration of an array of pairs. What stands
inside of the strings, be it brackets or commas, has no part in it. -/
namespace QuizPress.Render.Script
open Page Quiz Text

/-- What a declaration of strings is made of. Strings are in code units, and each comes with its quotes. -/
inductive Lexeme where
  | word (name : List Char)
  | mark (c : Char)
  | string (quote : Char) (value : List Nat)
deriving DecidableEq, Repr

def blanks : List Char :=
  "\t\u000B\u000C \u00A0\u1680\u202F\u205F\u3000\uFEFF".toList ++
    "\u2000\u2001\u2002\u2003\u2004\u2005\u2006\u2007\u2008\u2009\u200A".toList

def isGap (c : Char) : Bool := isLineEnd c || blanks.elem c

def isWordChar (c : Char) : Bool := c.isAlphanum || c == '_' || c == '$'

def isMark (c : Char) : Bool := c == '[' || c == ']' || c == ',' || c == ';' || c == '='

/-- What a script begins with, if it is a gap or a lexeme, and what stands behind it. A word goes on as far
as it can. -/
def cutLexeme (c : Char) (cs : List Char) : Option (List Lexeme × List Char) :=
  if isGap c then some ([], cs)
  else if c = '\'' ∨ c = '"' then
    (readLiteral c cs).map fun (value, rest) => ([.string c value], rest)
  else if isWordChar c then
    some ([.word (c :: cs.takeWhile isWordChar)], cs.dropWhile isWordChar)
  else if isMark c then some ([.mark c], cs)
  else none

theorem length_of_readLiteral {quote : Char} {cs rest : List Char} {value : List Nat}
    (h : readLiteral quote cs = some (value, rest)) : rest.length < cs.length := by
  fun_induction readLiteral quote cs generalizing value with
  | case1 => cases h
  | case2 cs =>
    cases h
    exact Nat.lt_succ_self _
  | case3 => cases h
  | case4 cs _ escaped behind hescape _ ih =>
    obtain ⟨⟨later, after⟩, hl, ha⟩ := Option.map_eq_some_iff.1 h
    cases ha
    have hlater := ih hl
    simp only [List.length_cons]
    omega
  | case5 => cases h
  | case6 c cs _ _ _ ih =>
    obtain ⟨⟨later, after⟩, hl, ha⟩ := Option.map_eq_some_iff.1 h
    cases ha
    exact Nat.lt_succ_of_lt (ih hl)

theorem length_of_cutLexeme {c : Char} {cs rest : List Char} {read : List Lexeme}
    (h : cutLexeme c cs = some (read, rest)) : rest.length ≤ cs.length := by
  unfold cutLexeme at h
  split at h
  · cases h
    exact Nat.le_refl _
  · split at h
    · obtain ⟨⟨value, after⟩, hl, ha⟩ := Option.map_eq_some_iff.1 h
      cases ha
      exact Nat.le_of_lt (length_of_readLiteral hl)
    · split at h
      · cases h
        exact (List.dropWhile_suffix isWordChar).length_le
      · split at h
        · cases h
          exact Nat.le_refl _
        · cases h

def lexemes : List Char → Option (List Lexeme)
  | [] => some []
  | c :: cs =>
    match h : cutLexeme c cs with
    | none => none
    | some (read, rest) =>
      have := Nat.lt_succ_of_le (length_of_cutLexeme h)
      (lexemes rest).map (read ++ ·)
termination_by cs => cs.length

/-- Pairs of strings in single quotes up to the bracket behind them. A comma parts a pair from the next. -/
def readPairs : List Lexeme → Option (List (List Nat × List Nat) × List Lexeme)
  | .mark ']' :: rest => some ([], rest)
  | .mark '[' :: .string '\'' a :: .mark ',' :: .string '\'' b :: .mark ']' :: .mark ']' :: rest =>
    some ([(a, b)], rest)
  | .mark '[' :: .string '\'' a :: .mark ',' :: .string '\'' b :: .mark ']' :: .mark ',' :: rest =>
    (readPairs rest).map fun (pairs, rest) => ((a, b) :: pairs, rest)
  | _ => none

def readArray (name : String) : List Lexeme → Option (List (List Nat × List Nat))
  | .word keyword :: .word declared :: .mark '=' :: .mark '[' :: rest =>
    if keyword = "var".toList ∧ declared = name.toList then
      match readPairs rest with
      | some (pairs, [.mark ';']) => some pairs
      | _ => none
    else none
  | _ => none

/-- A script declares an array of these pairs of texts under a name, and nothing else. -/
def Declares (script name : String) (pairs : List (String × String)) : Prop :=
  (lexemes script.toList).bind (readArray name) = some (pairs.map fun (a, b) => (units a, units b))

section
variable {c : Char} {cs rest : List Char} {read : List Lexeme}

theorem lexemes_cut (h : cutLexeme c cs = some (read, rest)) :
    lexemes (c :: cs) = (lexemes rest).map (read ++ ·) := by
  rw [lexemes]
  split
  · rename_i hnone
    rw [h] at hnone
    cases hnone
  · rename_i hsome
    rw [h] at hsome
    cases hsome
    rfl

theorem cutLexeme_gap (h : isGap c = true) (cs : List Char) : cutLexeme c cs = some ([], cs) := by
  rw [cutLexeme, if_pos h]

theorem cutLexeme_mark (h : isMark c = true) (cs : List Char) :
    cutLexeme c cs = some ([.mark c], cs) := by
  have hothers : isGap c = false ∧ ¬ (c = '\'' ∨ c = '"') ∧ isWordChar c = false := by
    simp only [isMark, Bool.or_eq_true, beq_iff_eq] at h
    rcases h with (((rfl | rfl) | rfl) | rfl) | rfl <;> decide
  obtain ⟨hgap, hquote, hword⟩ := hothers
  rw [cutLexeme, hgap, hword, if_neg Bool.false_ne_true, if_neg hquote, if_neg Bool.false_ne_true,
    if_pos h]

theorem cutLexeme_string {quote : Char} (hq : quote = '\'' ∨ quote = '"') (s : String)
    (rest : List Char) :
    cutLexeme quote ((scriptText s).toList ++ quote :: rest) =
      some ([.string quote (units s)], rest) := by
  have hgap : isGap quote = false := by rcases hq with rfl | rfl <;> rfl
  rw [cutLexeme, hgap, if_neg Bool.false_ne_true, if_pos hq, readLiteral_scriptText hq]
  rfl

/-- A word ends where something else begins. -/
theorem cutLexeme_word (hg : isGap c = false) (hq : ¬ (c = '\'' ∨ c = '"')) (hc : isWordChar c = true)
    (hcs : ∀ x ∈ cs, isWordChar x = true) (hr : ∀ x, rest.head? = some x → isWordChar x = false) :
    cutLexeme c (cs ++ rest) = some ([.word (c :: cs)], rest) := by
  obtain ⟨htake, hdrop⟩ := span_eq cs rest hcs hr
  rw [cutLexeme, hg, if_neg Bool.false_ne_true, if_neg hq, if_pos hc, htake, hdrop]

end

def Spelled (s : String) (read : List Lexeme) : Prop :=
  ∀ rest, lexemes (s.toList ++ rest) = (lexemes rest).map (read ++ ·)

section
variable {s t : String} {read read' : List Lexeme}

theorem Spelled.append (h : Spelled s read) (h' : Spelled t read') : Spelled (s ++ t) (read ++ read') := by
  intro rest
  rw [String.toList_append, List.append_assoc, h, h', Option.map_map]
  congr 1
  funext later
  exact (List.append_assoc read read' later).symm

theorem Spelled.lexemes_eq (h : Spelled s read) : lexemes s.toList = some read := by
  have hr := h []
  rwa [List.append_nil, lexemes, Option.map_some, List.append_nil] at hr

theorem spelled_gaps {cs : List Char} (h : cs.all isGap = true) : Spelled (.ofList cs) [] := by
  intro rest
  rw [String.toList_ofList]
  induction cs with
  | nil => simp
  | cons c cs ih =>
    rw [List.all_cons, Bool.and_eq_true] at h
    rw [List.cons_append, lexemes_cut (cutLexeme_gap h.1 _), ih h.2]
    simp

theorem Spelled.afterGaps (h : Spelled t read) {cs : List Char} (hg : cs.all isGap = true) :
    Spelled (.ofList cs ++ t) read :=
  (spelled_gaps hg).append h

theorem Spelled.afterMark (h : Spelled t read) {c : Char} (hc : isMark c = true) :
    Spelled (.ofList [c] ++ t) (.mark c :: read) := by
  have hmark : Spelled (.ofList [c]) [.mark c] := fun rest => by
    rw [String.toList_ofList]
    exact lexemes_cut (cutLexeme_mark hc rest)
  exact hmark.append h

theorem Spelled.afterString (h : Spelled t read) (s : String) :
    Spelled ("'" ++ scriptText s ++ "'" ++ t) (.string '\'' (units s) :: read) := by
  have hstring : Spelled ("'" ++ scriptText s ++ "'") [.string '\'' (units s)] := fun rest => by
    have hs : ("'" ++ scriptText s ++ "'").toList ++ rest =
        '\'' :: ((scriptText s).toList ++ '\'' :: rest) := by
      simp
    rw [hs]
    exact lexemes_cut (cutLexeme_string (.inl rfl) s rest)
  exact hstring.append h

/-- A word with a blank behind it. -/
theorem Spelled.afterWord (h : Spelled t read) {c : Char} {cs : List Char} (hg : isGap c = false)
    (hq : ¬ (c = '\'' ∨ c = '"')) (hw : (c :: cs).all isWordChar = true) :
    Spelled (.ofList (c :: cs) ++ (" " ++ t)) (.word (c :: cs) :: read) := by
  rw [List.all_cons, Bool.and_eq_true] at hw
  have hblank : Spelled (" " ++ t) read := h.afterGaps (show [' '].all isGap = true from rfl)
  intro rest
  have hcut : cutLexeme c (cs ++ ((" " ++ t).toList ++ rest)) =
      some ([.word (c :: cs)], (" " ++ t).toList ++ rest) := by
    refine cutLexeme_word hg hq hw.1 (List.all_eq_true.1 hw.2) fun x hx => ?_
    rw [String.toList_append, List.append_assoc] at hx
    cases hx
    rfl
  rw [String.toList_append, String.toList_ofList, List.append_assoc, List.cons_append, lexemes_cut hcut,
    hblank, Option.map_map]
  rfl

/-- Texts between which something stands. -/
theorem spelled_intercalate {α : Type} {write : α → String} {said : α → List Lexeme} {between : String}
    {parting : List Lexeme} (hb : Spelled between parting) (h : ∀ x, Spelled (write x) (said x))
    (xs : List α) :
    Spelled (between.intercalate (xs.map write)) (parting.intercalate (xs.map said)) := by
  induction xs with
  | nil => exact spelled_gaps rfl
  | cons x xs ih =>
    cases xs with
    | nil => simpa [List.intercalate] using h x
    | cons y xs =>
      rw [List.map_cons, List.map_cons, List.map_cons, List.map_cons, String.intercalate_cons_cons,
        List.intercalate_cons_cons]
      exact ((h x).append hb).append ih

end

def pairLexemes (pair : String × String) : List Lexeme :=
  [.mark '[', .string '\'' (units pair.1), .mark ',', .string '\'' (units pair.2), .mark ']']

theorem readPairs_intercalate (pairs : List (String × String)) (rest : List Lexeme) :
    readPairs ([Lexeme.mark ','].intercalate (pairs.map pairLexemes) ++ .mark ']' :: rest) =
      some (pairs.map fun (a, b) => (units a, units b), rest) := by
  induction pairs with
  | nil => rfl
  | cons pair pairs ih =>
    cases pairs with
    | nil => rfl
    | cons next pairs =>
      rw [List.map_cons, List.map_cons, List.intercalate_cons_cons]
      rw [List.map_cons] at ih
      simp only [pairLexemes, List.cons_append, List.nil_append, readPairs] at ih ⊢
      rw [ih]
      rfl

/-- The title of a quiz and the address at which it is among the quizzes of its course. -/
def titlePair (courseUrl : String) (entry : IndexEntry) : String × String :=
  (entry.title, courseUrl ++ "Quizzes/" ++ entry.url)

theorem spelled_titlesLine (courseUrl : String) (entry : IndexEntry) :
    Spelled (titlesLine courseUrl entry) (pairLexemes (titlePair courseUrl entry)) := by
  have haddress : scriptText (courseUrl ++ "Quizzes/" ++ entry.url) =
      scriptText courseUrl ++ "Quizzes/" ++ scriptText entry.url := by
    have hplain : scriptText "Quizzes/" = "Quizzes/" := rfl
    rw [scriptText_append, scriptText_append, hplain]
  have hs : titlesLine courseUrl entry = "  " ++ ("[" ++ ("'" ++ scriptText entry.title ++ "'" ++
      ("," ++ (" " ++ ("'" ++ scriptText (courseUrl ++ "Quizzes/" ++ entry.url) ++ "'" ++
        ("]" ++ "")))))) := by
    have hopen : "  ['" = "  " ++ ("[" ++ "'") := rfl
    have hpart : "', '" = "'" ++ ("," ++ (" " ++ "'")) := rfl
    have hclose : "']" = "'" ++ ("]" ++ "") := rfl
    rw [titlesLine, haddress, hopen, hpart, hclose]
    simp only [String.append_assoc]
  have hend : Spelled "" [] := spelled_gaps rfl
  rw [hs]
  exact hend.afterMark rfl |>.afterString _ |>.afterGaps rfl |>.afterMark rfl |>.afterString _
    |>.afterMark rfl |>.afterGaps rfl

theorem spelled_titlesScript (quiz : Quiz) :
    Spelled (titlesScript quiz) (.word "var".toList :: .word "QuizTitles".toList :: .mark '=' :: .mark '[' ::
      ([Lexeme.mark ','].intercalate ((quiz.index.map (titlePair quiz.course.url)).map pairLexemes) ++
        [.mark ']', .mark ';'])) := by
  have hs : titlesScript quiz = "var" ++ (" " ++ ("QuizTitles" ++ (" " ++ ("=" ++ (" " ++ ("[" ++ ("\n" ++
      (",\n".intercalate (quiz.index.map (titlesLine quiz.course.url)) ++
        ("\n" ++ ("]" ++ (";" ++ "\n"))))))))))) := by
    have hopen : "var QuizTitles = [\n" =
        "var" ++ (" " ++ ("QuizTitles" ++ (" " ++ ("=" ++ (" " ++ ("[" ++ "\n")))))) := rfl
    have hclose : "\n];\n" = "\n" ++ ("]" ++ (";" ++ "\n")) := rfl
    delta titlesScript
    rw [hopen, hclose]
    simp only [String.append_assoc]
  have hend : Spelled "\n" [] := spelled_gaps (show ['\n'].all isGap = true from rfl)
  have hcomma : Spelled ",\n" [.mark ','] := hend.afterMark (c := ',') rfl
  have hlines := spelled_intercalate hcomma (spelled_titlesLine quiz.course.url) quiz.index
  have hclose : Spelled ("\n" ++ ("]" ++ (";" ++ "\n"))) [.mark ']', .mark ';'] :=
    hend.afterMark rfl |>.afterMark rfl |>.afterGaps rfl
  rw [hs, List.map_map]
  exact hlines.append hclose |>.afterGaps rfl |>.afterMark rfl |>.afterGaps rfl |>.afterMark rfl
    |>.afterWord rfl (by decide) rfl |>.afterWord rfl (by decide) rfl

/-- The script of titles declares the pairs of the index. -/
theorem declares_titlesScript (quiz : Quiz) :
    Declares (titlesScript quiz) "QuizTitles" (quiz.index.map (titlePair quiz.course.url)) := by
  have hpairs := readPairs_intercalate (quiz.index.map (titlePair quiz.course.url)) [.mark ';']
  rw [Declares, (spelled_titlesScript quiz).lexemes_eq, Option.bind_some, readArray, if_pos ⟨rfl, rfl⟩, hpairs]
  rfl

/-- A script declares one list of pairs at most under a name. -/
theorem Declares.unique {script name : String} {pairs pairs' : List (String × String)}
    (h : Declares script name pairs) (h' : Declares script name pairs') : pairs = pairs' := by
  have hunits : Function.Injective fun pair : String × String => (units pair.1, units pair.2) := by
    rintro ⟨a, b⟩ ⟨a', b'⟩ he
    rw [Prod.mk.injEq] at he ⊢
    exact ⟨units_injective he.1, units_injective he.2⟩
  exact (List.map_injective_iff.2 hunits) (Option.some.inj (h.symm.trans h'))

/-- A page has a script beside it if there are quizzes to list, and no other file. The script declares their
titles and addresses in order, and nothing else. -/
theorem titles_declared (options : Options) (quiz : Quiz) {layout : Layout}
    (hl : options.layout = layout.name) :
    ∃ rendered, render .html options quiz = .ok rendered ∧
      (rendered.artifacts ≠ [] ↔ quiz.index ≠ []) ∧
      ∀ artifact ∈ rendered.artifacts, rendered.artifacts = [artifact] ∧ artifact.fileName = titlesFile ∧
        ∀ pairs, Declares artifact.contents "QuizTitles" pairs ↔
          pairs = quiz.index.map fun entry => (entry.title, quiz.course.url ++ "Quizzes/" ++ entry.url) := by
  refine ⟨_, page_of_layout options quiz hl, ?_, fun artifact hmem => ?_⟩
  · simp [artifacts]
  · obtain ⟨hne, rfl⟩ : ¬ quiz.index.isEmpty ∧ artifact = ⟨titlesFile, titlesScript quiz⟩ := by
      simpa [artifacts] using hmem
    refine ⟨if_neg hne, rfl, fun pairs => ⟨fun h => h.unique (declares_titlesScript quiz), ?_⟩⟩
    rintro rfl
    exact declares_titlesScript quiz

/-- Titles with quotes, brackets, commas and line ends. -/
theorem titles_declared_brackets :
    let quiz : Quiz := {
      course := { url := "/bob's/" }
      index := [{ title := "x', 'y'],\n  ['z", url := "w1.html" }, { title := "</script>\\", url := "'];" }] }
    ({} : Options).layout = Layout.standard.name ∧
      ∃ rendered artifact, render .html {} quiz = .ok rendered ∧ rendered.artifacts = [artifact] ∧
        artifact.fileName = "quiztitles.js" ∧
        Declares artifact.contents "QuizTitles"
          [("x', 'y'],\n  ['z", "/bob's/Quizzes/w1.html"), ("</script>\\", "/bob's/Quizzes/'];")] := by
  intro quiz
  have hl : ({} : Options).layout = Layout.standard.name := rfl
  obtain ⟨rendered, hr, hiff, hdeclares⟩ := titles_declared {} quiz hl
  obtain ⟨artifact, hmem⟩ := List.exists_mem_of_ne_nil _ (hiff.2 (List.cons_ne_nil _ _))
  obtain ⟨hone, hname, hpairs⟩ := hdeclares artifact hmem
  exact ⟨hl, rendered, artifact, hr, hone, hname, (hpairs _).2 rfl⟩

end QuizPress.Render.Script
