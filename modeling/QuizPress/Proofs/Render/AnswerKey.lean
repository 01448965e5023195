import QuizPress.Proofs.Decimal.Canonical
import QuizPress.Proofs.Render.Script
import QuizPress.Proofs.Render.Written
import QuizPress.Proofs.Text

/-! The answer key as a script reads it: one assignment a line, and one block of them a question. -/
namespace QuizPress.Render.Script
open Decimal Quiz Page Text

/-- What a script assigns. Numbers stay in their digits, and strings are in code units. -/
inductive Value where
  | array
  | number (digits : List Char)
  | string (units : List Nat)
  | boolean (b : Bool)
deriving DecidableEq, Repr

inductive Target where
  | entry
  | value
  | type
  | item (index : Nat)
deriving DecidableEq, Repr

structure Assignment where
  position : Nat
  target : Target
  value : Value
deriving DecidableEq, Repr

def lines : List Char → List (List Char)
  | [] => []
  | c :: cs =>
    if c = '\n' then [] :: lines cs
    else match lines cs with
      | [] => [[c]]
      | line :: later => (c :: line) :: later

def behind? (mark : String) (cs : List Char) : Option (List Char) :=
  if mark.toList.isPrefixOf cs then some (cs.drop mark.toList.length) else none

/-- An index without needless zeros, and what stands behind it. -/
def readIndex (cs : List Char) : Option (Nat × List Char) :=
  let digits := cs.takeWhile Char.isDigit
  if isWhole digits then (unsigned? 10 digits).map (·, cs.dropWhile Char.isDigit) else none

def readTarget (cs : List Char) : Option (Target × List Char) :=
  match behind? "=" cs, behind? ".value=" cs, behind? ".type=" cs with
  | some rest, _, _ => some (.entry, rest)
  | _, some rest, _ => some (.value, rest)
  | _, _, some rest => some (.type, rest)
  | none, none, none => do
    let (index, rest) ← readIndex (← behind? "[" cs)
    return (.item index, ← behind? "]=" rest)

def readValue : List Char → Option Value
  | [] => none
  | c :: cs =>
    if c = '\'' ∨ c = '"' then
      match readLiteral c cs with
      | some (value, []) => some (.string value)
      | _ => none
    else if c :: cs = "true".toList then some (.boolean true)
    else if c :: cs = "false".toList then some (.boolean false)
    else if c :: cs = "new Array()".toList then some .array
    else if isDecimal (c :: cs) then some (.number (c :: cs))
    else none

def readLine (cs : List Char) : Option Assignment := do
  let (position, rest) ← readIndex (← behind? "QuizSpecifications[" cs)
  let (target, rest) ← readTarget (← behind? "]" rest)
  if rest.getLast? = some ';' then
    return ⟨position, target, ← readValue rest.dropLast⟩
  else none

def readScript (cs : List Char) : Option (List Assignment) :=
  (lines cs).mapM readLine

/-- A value that is a number stays one, in canonical form; all others are the strings that they are. -/
def valueOf (value : String) : Value :=
  match (Literal.read? (trimmed value.toList)).bind (·.canonical?) with
  | some number => .number number.toList
  | none => .string (units value)

/-- What is said of an answer body: the value and the type of a text to be typed, or the mode of a
choice and what is expected of each item. -/
def bodyBlock (position : Nat) : AnswerBody → List Assignment
  | .answer a =>
    [⟨position, .value, valueOf a.value⟩, ⟨position, .type, .string (units "input")⟩]
  | .choice c =>
    ⟨position, .type, .string (units c.mode.name)⟩ ::
      c.items.zipIdx.map fun (item, index) => ⟨position, .item index, .boolean item.expect⟩

def block (position : Nat) (question : Question) : List Assignment :=
  ⟨position, .entry, .array⟩ :: bodyBlock position question.body

def assignments (quiz : Quiz) : List Assignment :=
  quiz.questions.zipIdx.flatMap fun (question, position) => block position question

theorem behind_append (mark : String) (rest : List Char) :
    behind? mark (mark.toList ++ rest) = some rest := by
  simp [behind?]

theorem readIndex_toDigits (n : Nat) {c : Char} (hc : c.isDigit = false) (rest : List Char) :
    readIndex (Nat.toDigits 10 n ++ c :: rest) = some (n, c :: rest) := by
  have hd : ∀ x ∈ Nat.toDigits 10 n, x.isDigit = true := fun _ hx =>
    Nat.isDigit_of_mem_toDigits (by decide) (by decide) hx
  have ht : (Nat.toDigits 10 n ++ c :: rest).takeWhile Char.isDigit = Nat.toDigits 10 n := by
    rw [List.takeWhile_append_of_pos hd]
    simp [hc]
  have hr : (Nat.toDigits 10 n ++ c :: rest).dropWhile Char.isDigit = c :: rest := by
    rw [List.dropWhile_append_of_pos hd]
    simp [hc]
  simp only [readIndex, ht, hr, isWhole_toDigits, if_true, unsigned_toDigits, Option.map_some]

theorem readTarget_item (index : Nat) (rest : List Char) :
    readTarget ('[' :: (Nat.toDigits 10 index ++ ']' :: '=' :: rest)) = some (.item index, rest) := by
  have hn : ∀ mark {c} {cs : List Char}, mark.toList = c :: cs → c ≠ '[' →
      ∀ rest, behind? mark ('[' :: rest) = none := by
    intro mark c cs hm hc rest
    simp [behind?, hm, hc]
  have ho : behind? "[" ('[' :: (Nat.toDigits 10 index ++ ']' :: '=' :: rest)) =
      some (Nat.toDigits 10 index ++ ']' :: '=' :: rest) := behind_append "[" _
  have hc : behind? "]=" (']' :: '=' :: rest) = some rest := behind_append "]=" rest
  rw [readTarget, hn "=" rfl (by decide), hn ".value=" rfl (by decide),
    hn ".type=" rfl (by decide)]
  simp only [ho, readIndex_toDigits index (c := ']') rfl, hc, Option.bind_eq_bind, Option.bind_some,
    Option.pure_def]

theorem toList_keyed (position : Nat) :
    (keyed position).toList = "QuizSpecifications[".toList ++ (Nat.toDigits 10 position ++ [']']) := by
  have hc : "]".toList = [']'] := rfl
  delta keyed
  simp only [String.toList_append, Nat.toString_eq_ofList_toDigits, String.toList_ofList, hc,
    List.append_assoc]

/-- A line about a question says what its target and its value say. -/
theorem readLine_keyed (position : Nat) {target : Target} {value : Value} {assigned written : List Char}
    (ht : readTarget assigned = some (target, written ++ [';'])) (hv : readValue written = some value) :
    readLine ((keyed position).toList ++ assigned) = some ⟨position, target, value⟩ := by
  have hs : (keyed position).toList ++ assigned =
      "QuizSpecifications[".toList ++ (Nat.toDigits 10 position ++ (']' :: assigned)) := by
    rw [toList_keyed]
    simp
  have hb : behind? "]" (']' :: assigned) = some assigned := behind_append "]" assigned
  simp only [readLine, hs, behind_append, readIndex_toDigits position (c := ']') rfl, hb, ht, hv,
    Option.bind_eq_bind, Option.bind_some, Option.pure_def, List.getLast?_concat, if_true,
    List.dropLast_concat]

theorem lines_line {line : List Char} (h : '\n' ∉ line) (rest : List Char) :
    lines (line ++ '\n' :: rest) = line :: lines rest := by
  induction line with
  | nil => rfl
  | cons c cs ih =>
    have hc : c ≠ '\n' := fun he => h (he ▸ List.mem_cons_self)
    rw [List.cons_append, lines, if_neg hc, ih fun hm => h (List.mem_cons_of_mem _ hm)]

def isInline (c : Char) : Bool := c != '<' && c != '\n'

private theorem not_mem_of_inline {cs : List Char} (h : cs.all isInline = true) :
    '<' ∉ cs ∧ '\n' ∉ cs :=
  ⟨fun hm => (by cases List.all_eq_true.1 h _ hm), fun hm => (by cases List.all_eq_true.1 h _ hm)⟩

/-- A text that says assignments line by line, and that holds no markup. -/
structure Says (s : String) (said : List Assignment) : Prop where
  plain : '<' ∉ s.toList
  reads : ∀ rest, readScript (s.toList ++ rest) = (readScript rest).map (said ++ ·)

theorem says_empty : Says "" [] :=
  ⟨List.not_mem_nil, fun rest => by simp⟩

theorem Says.append {s t : String} {said said' : List Assignment} (h : Says s said)
    (h' : Says t said') : Says (s ++ t) (said ++ said') := by
  refine ⟨?_, fun rest => ?_⟩
  · rw [String.toList_append, List.mem_append]
    exact fun hm => hm.elim h.plain h'.plain
  · rw [String.toList_append, List.append_assoc, h.reads, h'.reads, Option.map_map]
    congr 1
    funext later
    exact (List.append_assoc said said' later).symm

theorem says_join {α : Type} {write : α → String} {said : α → List Assignment} (xs : List α)
    (h : ∀ x, Says (write x) (said x)) : Says (String.join (xs.map write)) (xs.flatMap said) := by
  induction xs with
  | nil => exact says_empty
  | cons x xs ih =>
    rw [List.map_cons, String.join_cons, List.flatMap_cons]
    exact (h x).append ih

theorem says_line {line : String} {a : Assignment} (hl : line.toList.all isInline = true)
    (h : readLine line.toList = some a) : Says (line ++ "\n") [a] := by
  have hs : (line ++ "\n").toList = line.toList ++ ['\n'] := String.toList_append
  obtain ⟨hp, hn⟩ := not_mem_of_inline hl
  refine ⟨?_, fun rest => ?_⟩
  · rw [hs, List.mem_append]
    exact fun hm => hm.elim hp (by decide)
  · rw [hs, List.append_assoc, List.singleton_append, readScript, lines_line hn, List.mapM_cons, h]
    cases hr : (lines rest).mapM readLine with
    | none => simp [readScript, hr]
    | some later => simp [readScript, hr]

private theorem isInline_of_isDigit {c : Char} (h : c.isDigit = true) : isInline c = true := by
  simp only [isInline, Bool.and_eq_true, bne_iff_ne]
  constructor <;> rintro rfl <;> cases h

theorem inline_toDigits (n : Nat) : (Nat.toDigits 10 n).all isInline = true :=
  List.all_eq_true.2 fun _ hc =>
    isInline_of_isDigit (Nat.isDigit_of_mem_toDigits (by decide) (by decide) hc)

theorem inline_keyed (position : Nat) : (keyed position).toList.all isInline = true := by
  rw [toList_keyed, List.all_append, List.all_append, inline_toDigits]
  decide

theorem inline_scriptText (s : String) : (scriptText s).toList.all isInline = true := by
  refine List.all_eq_true.2 fun c hc => ?_
  obtain ⟨hb, hn, _⟩ := mem_scriptText hc
  simp [isInline, hb, hn]

private theorem inline_isUnsigned {cs : List Char} (h : isUnsigned cs = true) :
    cs.all isInline = true := by
  have hd : ∀ {ds : List Char}, ds.all Char.isDigit = true → ds.all isInline = true := fun hd =>
    List.all_eq_true.2 fun c hc => isInline_of_isDigit (List.all_eq_true.1 hd c hc)
  simp only [isUnsigned, Bool.and_eq_true] at h
  obtain ⟨hw, hf⟩ := h
  simp only [isWhole, Bool.and_eq_true] at hw
  rw [← List.takeWhile_append_dropWhile (p := Char.isDigit) (l := cs), List.all_append, hd hw.1,
    Bool.true_and]
  cases hr : cs.dropWhile Char.isDigit with
  | nil => rfl
  | cons c ds =>
    simp only [hr, isFraction, Bool.and_eq_true, beq_iff_eq] at hf
    rw [List.all_cons, hf.1.1, hd hf.2]
    rfl

theorem inline_isDecimal {cs : List Char} (h : isDecimal cs = true) : cs.all isInline = true := by
  cases cs with
  | nil => rfl
  | cons c cs =>
    rw [isDecimal] at h
    split at h
    · rename_i hc
      rw [List.all_cons, inline_isUnsigned h, hc]
      rfl
    · exact inline_isUnsigned h

/-- An assignment on a line of its own, with its target and its value as they are written. -/
theorem says_assignment (position : Nat) {target : Target} {mark written : String} {value : Value}
    (ht : ∀ rest, readTarget (mark.toList ++ rest) = some (target, rest))
    (hm : mark.toList.all isInline = true)
    (hv : readValue written.toList = some value) (hw : written.toList.all isInline = true) :
    Says (keyed position ++ mark ++ written ++ ";\n") [⟨position, target, value⟩] := by
  have hs : keyed position ++ mark ++ written ++ ";\n" =
      (keyed position ++ mark ++ written ++ ";") ++ "\n" := by
    have hn : ";\n" = ";" ++ "\n" := rfl
    rw [hn, ← String.append_assoc]
  have hc : ";".toList = [';'] := rfl
  have hl : (keyed position ++ mark ++ written ++ ";").toList =
      (keyed position).toList ++ (mark.toList ++ (written.toList ++ [';'])) := by
    simp only [String.toList_append, hc, List.append_assoc]
  rw [hs]
  refine says_line ?_ ?_
  · rw [hl, List.all_append, List.all_append, List.all_append, inline_keyed, hm, hw]
    rfl
  · rw [hl]
    exact readLine_keyed position (ht _) hv

/-- A text between quotes is the string that it is. -/
theorem readValue_scriptText (s : String) :
    readValue ("\"" ++ scriptText s ++ "\"").toList = some (.string (units s)) := by
  have hl : readLiteral '"' ((scriptText s).toList ++ ['"']) = some (units s, []) :=
    readLiteral_scriptText (.inr rfl) s []
  have hs : ("\"" ++ scriptText s ++ "\"").toList = '"' :: ((scriptText s).toList ++ ['"']) := by
    rw [String.toList_append, String.toList_append]
    rfl
  rw [hs, readValue, if_pos (.inr rfl), hl]

theorem readValue_isDecimal {cs : List Char} (h : isDecimal cs = true) :
    readValue cs = some (.number cs) := by
  cases cs with
  | nil => cases h
  | cons c cs =>
    have hne : ∀ x, x ≠ '-' → x.isDigit = false → c ≠ x := by
      rintro x hx hd rfl
      rcases isDigit_of_isDecimal h with hc | hc
      · exact hx hc
      · rw [hd] at hc
        cases hc
    -- quotes and keywords begin otherwise than numbers
    have hword : ∀ {x : Char} {xs : List Char}, x ≠ '-' → x.isDigit = false → c :: cs ≠ x :: xs :=
      fun hx hd he => hne _ hx hd (List.cons.inj he).1
    have hquote : ¬ (c = '\'' ∨ c = '"') := fun hc =>
      hc.elim (hne _ (by decide) rfl) (hne _ (by decide) rfl)
    have htrue : c :: cs ≠ "true".toList := hword (by decide) rfl
    have hfalse : c :: cs ≠ "false".toList := hword (by decide) rfl
    have harray : c :: cs ≠ "new Array()".toList := hword (by decide) rfl
    rw [readValue, if_neg hquote, if_neg htrue, if_neg hfalse, if_neg harray, if_pos h]

theorem readValue_valueLiteral (value : String) :
    readValue (valueLiteral value).toList = some (valueOf value) := by
  unfold valueLiteral valueOf
  cases hn : (Literal.read? (trimmed value.toList)).bind (·.canonical?) with
  | none => exact readValue_scriptText value
  | some number =>
    obtain ⟨literal, _, hc⟩ := Option.bind_eq_some_iff.1 hn
    exact readValue_isDecimal (isDecimal_canonical hc)

theorem inline_valueLiteral (value : String) : (valueLiteral value).toList.all isInline = true := by
  unfold valueLiteral
  split
  · rename_i number hn
    obtain ⟨literal, _, hc⟩ := Option.bind_eq_some_iff.1 hn
    exact inline_isDecimal (isDecimal_canonical hc)
  · rw [String.toList_append, String.toList_append, List.all_append, List.all_append,
      inline_scriptText]
    rfl

theorem says_itemKey (position : Nat) (item : Item) (index : Nat) :
    Says (itemKey position item index) [⟨position, .item index, .boolean item.expect⟩] := by
  have hm : ("[" ++ toString index ++ "]=").toList = '[' :: (Nat.toDigits 10 index ++ [']', '=']) := by
    have hl : "[".toList = ['['] := rfl
    have hr : "]=".toList = [']', '='] := rfl
    simp only [String.toList_append, Nat.toString_eq_ofList_toDigits, String.toList_ofList, hl, hr,
      List.cons_append, List.nil_append]
  have hs : itemKey position item index =
      keyed position ++ ("[" ++ toString index ++ "]=") ++ toString item.expect ++ ";\n" := by
    delta itemKey
    simp only [String.append_assoc]
  rw [hs]
  refine says_assignment position (fun rest => ?_) ?_ ?_ ?_
  · rw [hm, List.cons_append, List.append_assoc]
    exact readTarget_item index rest
  · rw [hm, List.all_cons, List.all_append, inline_toDigits]
    rfl
  · cases item.expect <;> rfl
  · cases item.expect <;> decide

/-- The type of a question is written between quotes. -/
theorem says_type (position : Nat) (type : String) :
    Says (keyed position ++ ".type=\"" ++ scriptText type ++ "\";\n")
      [⟨position, .type, .string (units type)⟩] := by
  have hs : keyed position ++ ".type=\"" ++ scriptText type ++ "\";\n" =
      keyed position ++ ".type=" ++ ("\"" ++ scriptText type ++ "\"") ++ ";\n" := by
    have hl : ".type=\"" = ".type=" ++ "\"" := rfl
    have hr : "\";\n" = "\"" ++ ";\n" := rfl
    simp only [hl, hr, String.append_assoc]
  rw [hs]
  refine says_assignment position (fun rest => rfl) (by decide) (readValue_scriptText type) ?_
  rw [String.toList_append, String.toList_append, List.all_append, List.all_append, inline_scriptText]
  rfl

theorem says_bodyKey (position : Nat) (body : AnswerBody) :
    Says (bodyKey position body) (bodyBlock position body) := by
  cases body with
  | answer a =>
    have hvalue : Says (keyed position ++ ".value=" ++ valueLiteral a.value ++ ";\n")
        [⟨position, .value, valueOf a.value⟩] :=
      says_assignment position (fun rest => rfl) (by decide) (readValue_valueLiteral a.value)
        (inline_valueLiteral a.value)
    have hs : bodyKey position (.answer a) =
        keyed position ++ ".value=" ++ valueLiteral a.value ++ ";\n" ++
          (keyed position ++ ".type=\"" ++ scriptText "input" ++ "\";\n") := by
      have ht : ".type=\"input\";\n" = ".type=\"" ++ (scriptText "input" ++ "\";\n") := rfl
      delta bodyKey
      simp only [ht, String.append_assoc]
    rw [hs]
    exact hvalue.append (says_type position "input")
  | choice c =>
    have hitem : ∀ x : Item × Nat, Says (itemKey position x.1 x.2)
        [⟨position, .item x.2, .boolean x.1.expect⟩] := fun x => says_itemKey position x.1 x.2
    have hitems := says_join c.items.zipIdx hitem
    rw [← List.map_eq_flatMap] at hitems
    exact (says_type position c.mode.name).append hitems

theorem says_questionKey (position : Nat) (q : Question) :
    Says (questionKey position q) (block position q) := by
  have hs : keyed position ++ "=new Array();\n" = keyed position ++ "=" ++ "new Array()" ++ ";\n" := by
    have hn : "=new Array();\n" = "=" ++ ("new Array()" ++ ";\n") := rfl
    simp only [hn, String.append_assoc]
  have hentry : Says (keyed position ++ "=new Array();\n") [⟨position, .entry, .array⟩] := by
    rw [hs]
    exact says_assignment position (fun rest => rfl) (by decide) rfl (by decide)
  exact hentry.append (says_bodyKey position q.body)

theorem says_answerKey (quiz : Quiz) : Says (answerKey quiz) (assignments quiz) := by
  rw [answerKey_eq]
  exact says_join quiz.questions.zipIdx fun (question, position) => says_questionKey position question

theorem Says.readScript_eq {s : String} {said : List Assignment} (h : Says s said) :
    readScript s.toList = some said := by
  have hr := h.reads []
  rw [List.append_nil] at hr
  rw [hr]
  simp [readScript, lines]

/-- What a key tells of a question: that its answer is typed, or the mode of its choice and what is
expected of each item. -/
inductive Solution where
  | input
  | selection (mode : String) (expected : List Bool)
deriving DecidableEq, Repr

def solution (question : Question) : Solution :=
  match question.body with
  | .answer _ => .input
  | .choice c => .selection c.mode.name (c.items.map Item.expect)

theorem position_of_mem_block {position : Nat} {q : Question} {a : Assignment}
    (h : a ∈ block position q) : a.position = position := by
  rcases List.mem_cons.1 h with rfl | h
  · rfl
  · cases hb : q.body with
    | answer body =>
      rw [hb] at h
      simp only [bodyBlock, List.mem_cons, List.not_mem_nil, or_false] at h
      rcases h with rfl | rfl <;> rfl
    | choice c =>
      rw [hb] at h
      rcases List.mem_cons.1 h with rfl | h
      · rfl
      · obtain ⟨_, _, rfl⟩ := List.mem_map.1 h
        rfl

private theorem name_of_type {position : Nat} {type type' : String}
    (h : Assignment.mk position .type (.string (units type)) = ⟨position, .type, .string (units type')⟩) :
    type = type' := by
  injection h with _ _ hv
  injection hv with hu
  exact units_injective hu

private theorem expected_of_items {position : Nat} {items items' : List Item} (n : Nat)
    (h : ((items.zipIdx n).map fun (item, index) =>
        Assignment.mk position (.item index) (.boolean item.expect)) =
      (items'.zipIdx n).map fun (item, index) => ⟨position, .item index, .boolean item.expect⟩) :
    items.map Item.expect = items'.map Item.expect := by
  induction items generalizing items' n with
  | nil =>
    cases items' with
    | nil => rfl
    | cons item' items' => cases h
  | cons item items ih =>
    cases items' with
    | nil => cases h
    | cons item' items' =>
      obtain ⟨hb, hs⟩ := List.cons.inj h
      injection hb with _ _ hv
      injection hv with he
      rw [List.map_cons, List.map_cons, he, ih (n + 1) hs]

/-- A block tells the solution of its question. -/
theorem solution_of_block {position : Nat} {q q' : Question} (h : block position q = block position q') :
    solution q = solution q' := by
  have hb : bodyBlock position q.body = bodyBlock position q'.body := (List.cons.inj h).2
  unfold solution
  cases hq : q.body with
  | answer a =>
    cases hq' : q'.body with
    | answer a' => rfl
    | choice c =>
      rw [hq, hq'] at hb
      cases (List.cons.inj hb).1
  | choice c =>
    cases hq' : q'.body with
    | answer a =>
      rw [hq, hq'] at hb
      cases (List.cons.inj hb).1
    | choice c' =>
      rw [hq, hq'] at hb
      obtain ⟨hm, hi⟩ := List.cons.inj hb
      simp only [name_of_type hm, expected_of_items 0 hi]

/-- The lines about a question are those that have its number. -/
private theorem filter_blocks (n : Nat) (q : Question) (later : List Question) :
    (block n q ++ (later.zipIdx (n + 1)).flatMap fun (question, position) =>
      block position question).filter (fun a => a.position = n) = block n q := by
  have hnow : (block n q).filter (fun a => a.position = n) = block n q :=
    List.filter_eq_self.2 fun a ha => decide_eq_true (position_of_mem_block ha)
  have hthen : ((later.zipIdx (n + 1)).flatMap fun (question, position) =>
      block position question).filter (fun a => a.position = n) = [] := by
    refine List.filter_eq_nil_iff.2 fun a ha he => ?_
    obtain ⟨⟨question, position⟩, hq, ha⟩ := List.mem_flatMap.1 ha
    have hle := List.le_snd_of_mem_zipIdx hq
    have hp := position_of_mem_block ha
    have := of_decide_eq_true he
    simp only at hle
    omega
  rw [List.filter_append, hnow, hthen, List.append_nil]

/-- The blocks of questions, of which the first has this number. -/
private theorem solutions_of_blocks (n : Nat) {questions questions' : List Question}
    (h : ((questions.zipIdx n).flatMap fun (question, position) => block position question) =
      (questions'.zipIdx n).flatMap fun (question, position) => block position question) :
    questions.map solution = questions'.map solution := by
  induction questions generalizing questions' n with
  | nil =>
    cases questions' with
    | nil => rfl
    | cons q' later' => cases h
  | cons q later ih =>
    cases questions' with
    | nil => cases h
    | cons q' later' =>
      rw [List.zipIdx_cons, List.zipIdx_cons, List.flatMap_cons, List.flatMap_cons] at h
      have hnow : block n q = block n q' := by
        have hf := congrArg (List.filter fun a => a.position = n) h
        rwa [filter_blocks, filter_blocks] at hf
      change block n q ++ _ = block n q' ++ _ at h
      rw [hnow] at h
      have hthen := List.append_cancel_left h
      rw [List.map_cons, List.map_cons, solution_of_block hnow, ih (n + 1) hthen]

/-- A value that stands for a number stays one, and its digits stand for the same number; all others stand
for none and become strings. -/
theorem denoted_valueOf (value : String) :
    (∃ literal again digits, Literal.read? (trimmed value.toList) = some literal ∧
      valueOf value = .number digits ∧ Literal.read? digits = some again ∧
      again.denoted? = literal.denoted? ∧ literal.denoted?.isSome = true) ∨
    (Literal.read? (trimmed value.toList)).bind Literal.denoted? = none ∧
      valueOf value = .string (units value) := by
  unfold valueOf
  cases hn : (Literal.read? (trimmed value.toList)).bind (·.canonical?) with
  | some number =>
    left
    obtain ⟨literal, hl, hc⟩ := Option.bind_eq_some_iff.1 hn
    obtain ⟨again, ha, hd, hs⟩ := Literal.denoted_canonical hc
    exact ⟨literal, again, number.toList, hl, rfl, ha, hd, hs⟩
  | none =>
    refine .inr ⟨Option.bind_eq_none_iff.2 fun literal hl => ?_, rfl⟩
    have hc := Option.map_eq_none_iff.1 (Option.bind_eq_none_iff.1 hn literal hl)
    exact Option.map_eq_none_iff.2 hc

/-- The key of a quiz is read as the blocks of its questions and holds no markup, and a quiz with the
same key has the same solutions. -/
theorem read_answerKey (quiz : Quiz) :
    readScript (answerKey quiz).toList = some (assignments quiz) ∧
    '<' ∉ (answerKey quiz).toList ∧
    ∀ quiz' : Quiz, answerKey quiz = answerKey quiz' →
      quiz.questions.map solution = quiz'.questions.map solution := by
  have hs := says_answerKey quiz
  refine ⟨hs.readScript_eq, hs.plain, fun quiz' he => ?_⟩
  have hr := (says_answerKey quiz').readScript_eq
  rw [← he, hs.readScript_eq] at hr
  exact solutions_of_blocks 0 (Option.some.inj hr)

/-- A typed value that would end a string and a script, and modes that differ in all but the name. -/
theorem read_answerKey_named_alike :
    let typed : Question := ⟨"Which tag?", .answer { value := "\"</script>" }⟩
    let selected (mode : ChoiceMode) (text : String) : Question :=
      ⟨text, .choice { mode := mode, items := [{ expect := true }, {}] }⟩
    let quiz : Quiz := { questions := [typed, selected .single "Here?"] }
    let quiz' : Quiz := { questions := [typed, selected (.other "single") "There?"] }
    quiz ≠ quiz' ∧ answerKey quiz = answerKey quiz' ∧
      readScript (answerKey quiz).toList = some (assignments quiz) ∧
      '<' ∉ (answerKey quiz).toList ∧
      quiz.questions.map solution = quiz'.questions.map solution := by
  intro typed selected quiz quiz'
  have hk : answerKey quiz = answerKey quiz' := rfl
  obtain ⟨hr, hp, hs⟩ := read_answerKey quiz
  exact ⟨by decide, hk, hr, hp, hs quiz' hk⟩

end QuizPress.Render.Script
