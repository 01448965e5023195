import QuizPress.Proofs.Render.Tags

/-! Where the tags of a page stand, and what fragments of a page show of it: the names of elements, and
the tags that lead to a question. -/
namespace QuizPress.Render.Tags
open Page Xml

/-- A start tag, the text right behind it, and the elements that it stands in, the innermost first. -/
structure Spot where
  tag : Tag
  label : String
  around : List Tag
deriving DecidableEq, Repr

def voidNames : List String :=
  ["area", "base", "br", "col", "embed", "hr", "img", "input", "link", "meta", "source", "track", "wbr"]

def leading : List Token → List Char
  | .char c :: tokens => c :: leading tokens
  | _ => []

/-- An end tag closes the innermost element of its name, with all that is open in it. -/
def closed (name : String) (around : List Tag) : List Tag :=
  match around.dropWhile (·.name != name) with
  | [] => around
  | _ :: outer => outer

def spots (around : List Tag) : List Token → List Spot
  | [] => []
  | .char _ :: tokens => spots around tokens
  | .stop name :: tokens => spots (closed name around) tokens
  | .start tag :: tokens =>
    if tag.name ∈ voidNames then ⟨tag, "", around⟩ :: spots around tokens
    else ⟨tag, .ofList (attributeValue (leading tokens)), around⟩ :: spots (tag :: around) tokens

def allSpots (s : String) : List Spot := spots [] (read .text s.toList)

def mentions (word : List Char) : List Char → Bool
  | [] => word.isEmpty
  | c :: cs => word.isPrefixOf (c :: cs) || mentions word cs

namespace Tag

def calls (tag : Tag) : Bool :=
  (tag.value? "onclick").any fun code => mentions "gotoQuestion".toList code.toList

def starts (tag : Tag) : Bool := tag.value? "value" == some "Start quiz"

end Tag

/-- What is looked for on a page: elements by their names, and tags that lead to a question. -/
inductive Mark where
  | named (id : String)
  | lead (spot : Spot)
deriving DecidableEq, Repr

def Spot.marks (spot : Spot) : List Mark :=
  (spot.tag.value? "id").toList.map .named ++
    if spot.tag.calls || spot.tag.starts then [.lead spot] else []

def Mark.within (around : List Tag) : Mark → Mark
  | .named id => .named id
  | .lead spot => .lead { spot with around := spot.around ++ around }

/-- A fragment shows these marks wherever it stands, and leaves the elements around it open. -/
def Shows (s : String) (marks : List Mark) : Prop :=
  ∀ around rest, (spots around (read .text (s.toList ++ rest))).flatMap Spot.marks =
    marks.map (Mark.within around) ++ (spots around (read .text rest)).flatMap Spot.marks

theorem spots_chars (around : List Tag) (cs : List Char) (tokens : List Token) :
    spots around (cs.map .char ++ tokens) = spots around tokens := by
  induction cs with
  | nil => rfl
  | cons c cs ih => exact ih

theorem Shows.text {s : String} (h : '<' ∉ s.toList) : Shows s [] := by
  intro around rest
  rw [read_text h, spots_chars]
  rfl

theorem shows_text {cs : List Char} (h : cs.all (· != '<') = true) : Shows (.ofList cs) [] := by
  refine .text fun hm => ?_
  rw [String.toList_ofList] at hm
  exact absurd (List.all_eq_true.1 h '<' hm) (by decide)

theorem shows_plain (s : String) : Shows (plain s) [] :=
  .text fun h => (mem_plain h).1 rfl

/-- A comment that begins with a blank. -/
theorem shows_comment {s : String} (h : hasDashes (s.toList ++ ['-']) = false) :
    Shows ("<!-- " ++ s ++ "-->") [] := by
  intro around rest
  have hs : ("<!-- " ++ s ++ "-->").toList ++ rest =
      '<' :: '!' :: '-' :: '-' :: ' ' :: (s.toList ++ '-' :: '-' :: '>' :: rest) := by
    simp
  have hopen : step .text '<' = (.opened, []) := rfl
  have hbang : step .opened '!' = (.bang, []) := rfl
  have hfirst : step .bang '-' = (.dash, []) := rfl
  have hsecond : step .dash '-' = (.comment 2, []) := rfl
  have hblank : step (.comment 2) ' ' = (.comment 0, []) := rfl
  rw [hs, read_on hopen, read_on hbang, read_on hfirst, read_on hsecond, read_on hblank, read_comment h]
  rfl

section
variable {s t : String} {ms ns : List Mark} {cs : List Char}

theorem Shows.append (hs : Shows s ms) (ht : Shows t ns) : Shows (s ++ t) (ms ++ ns) := by
  intro around rest
  rw [String.toList_append, List.append_assoc, hs, ht, List.map_append, List.append_assoc]

theorem Shows.andText (hs : Shows s ms) (h : cs.all (· != '<') = true) : Shows (s ++ .ofList cs) ms := by
  have h := hs.append (shows_text h)
  rwa [List.append_nil] at h

theorem Shows.afterText (ht : Shows t ns) (h : cs.all (· != '<') = true) : Shows (.ofList cs ++ t) ns :=
  (shows_text h).append ht

theorem shows_line (h : cs.all (· != '<') = true) (ht : Shows t ns) :
    Shows (.ofList cs ++ t ++ "\n") ns :=
  ht.afterText h |>.andText rfl

theorem Shows.line (hs : Shows s ms) (h : cs.all (· != '<') = true) (ht : Shows t ns) :
    Shows (s ++ .ofList cs ++ t ++ "\n") (ms ++ ns) :=
  hs.andText h |>.append ht |>.andText rfl

theorem shows_if {p : Prop} [Decidable p] (hs : p → Shows s ms) (ht : ¬ p → Shows t ms) :
    Shows (if p then s else t) ms := by
  split
  · exact hs ‹_›
  · exact ht ‹_›

theorem shows_join {α : Type} {write : α → String} {marks : α → List Mark} {xs : List α}
    (h : ∀ x ∈ xs, Shows (write x) (marks x)) :
    Shows (String.join (xs.map write)) (xs.flatMap marks) := by
  induction xs with
  | nil => exact .text List.not_mem_nil
  | cons x xs ih =>
    rw [List.map_cons, String.join_cons, List.flatMap_cons]
    exact (h x List.mem_cons_self).append (ih fun y hy => h y (List.mem_cons_of_mem _ hy))

/-- Fragments that show nothing. -/
theorem shows_join_nil {α : Type} {write : α → String} {xs : List α}
    (h : ∀ x ∈ xs, Shows (write x) []) : Shows (String.join (xs.map write)) [] := by
  have hj : Shows (String.join (xs.map write)) (xs.flatMap fun _ => []) := shows_join h
  rwa [List.flatMap_eq_nil_iff.2 fun _ _ => rfl] at hj

end

theorem Mark.within_within (inner outer : List Tag) (m : Mark) :
    (m.within inner).within outer = m.within (inner ++ outer) := by
  cases m with
  | named id => rfl
  | lead spot => simp [Mark.within]

theorem closed_self (tag : Tag) (around : List Tag) : closed tag.name (tag :: around) = around := by
  simp [closed]

def Tag.marks (tag : Tag) (label : String) : List Mark := Spot.marks ⟨tag, label, []⟩

theorem marks_within (tag : Tag) (label : String) (around : List Tag) :
    Spot.marks ⟨tag, label, around⟩ = (tag.marks label).map (Mark.within around) := by
  rw [Tag.marks, Spot.marks, Spot.marks, List.map_append, List.map_map]
  congr 1
  split <;> rfl

def isOuter (name : String) : Bool :=
  isTagName name && !(voidNames.map String.toList).elem (name.toList.map Char.toLower)

def isVoid (name : String) : Bool :=
  isTagName name && (voidNames.map String.toList).elem (name.toList.map Char.toLower)

/-- Attributes with plain names that are not looked at. -/
def quiet : List (String × String) → Bool
  | [] => true
  | (name, _) :: values =>
    isName name &&
      !(["id", "onclick", "value"].map String.toList).elem (name.toList.map Char.toLower) && quiet values

private theorem elem_small (names : List String) (name : String) :
    (names.map String.toList).elem (name.toList.map Char.toLower) = decide (small name ∈ names) := by
  rw [List.elem_eq_mem, decide_eq_decide, List.mem_map]
  constructor
  · rintro ⟨x, hx, he⟩
    rwa [small, ← he, String.ofList_toList]
  · exact fun h => ⟨small name, h, String.toList_ofList⟩

theorem isOuter_iff {name : String} :
    isOuter name = true ↔ isTagName name = true ∧ small name ∉ voidNames := by
  rw [isOuter, elem_small, Bool.and_eq_true, Bool.not_eq_true', decide_eq_false_iff_not]

theorem isVoid_iff {name : String} :
    isVoid name = true ↔ isTagName name = true ∧ small name ∈ voidNames := by
  rw [isVoid, elem_small, Bool.and_eq_true, decide_eq_true_iff]

section
variable {name : String} {values : List (String × String)}

@[simp] theorem value_written_nil (name x : String) : (Tag.written name []).value? x = none := rfl

theorem value_written_cons (key value x : String) :
    (Tag.written name ((key, value) :: values)).value? x =
      if x = small key then some value else (Tag.written name values).value? x := by
  rw [Tag.value?, Tag.written, smallNamed, List.map_cons, List.lookup_cons]
  by_cases h : x = small key
  · simp [h]
  · rw [if_neg h, beq_eq_false_iff_ne.2 h]
    rfl

theorem quiet_cons {key value : String} (h : quiet ((key, value) :: values) = true) :
    isName key = true ∧ small key ∉ ["id", "onclick", "value"] ∧ quiet values = true := by
  rw [quiet, elem_small, Bool.and_eq_true, Bool.and_eq_true, Bool.not_eq_true',
    decide_eq_false_iff_not] at h
  exact ⟨h.1.1, h.1.2, h.2⟩

theorem wellNamed_quiet (h : quiet values = true) : wellNamed values = true := by
  induction values with
  | nil => rfl
  | cons a values ih =>
    obtain ⟨hn, _, hq⟩ := quiet_cons h
    rw [wellNamed, hn, ih hq]
    rfl

theorem value_quiet (h : quiet values = true) {x : String} (hx : x ∈ ["id", "onclick", "value"]) :
    (Tag.written name values).value? x = none := by
  induction values with
  | nil => rfl
  | cons a values ih =>
    obtain ⟨_, hne, hq⟩ := quiet_cons h
    have hx' : x ≠ small a.1 := by
      rintro rfl
      exact hne hx
    rw [value_written_cons, if_neg hx', ih hq]

theorem marks_quiet (h : quiet values = true) (label : String) :
    (Tag.written name values).marks label = [] := by
  have hid : (Tag.written name values).value? "id" = none := value_quiet h (by decide)
  have hclick : (Tag.written name values).value? "onclick" = none := value_quiet h (by decide)
  have hvalue : (Tag.written name values).value? "value" = none := value_quiet h (by decide)
  simp [Tag.marks, Spot.marks, Tag.calls, Tag.starts, hid, hclick, hvalue]

/-- A tag that has a name and nothing else that is looked at. -/
theorem marks_named (id : String) (h : quiet values = true) (label : String) :
    (Tag.written name (("id", id) :: values)).marks label = [.named id] := by
  have hid : small "id" = "id" := by decide
  have hclick : (Tag.written name values).value? "onclick" = none := value_quiet h (by decide)
  have hvalue : (Tag.written name values).value? "value" = none := value_quiet h (by decide)
  simp [Tag.marks, Spot.marks, Tag.calls, Tag.starts, value_written_cons, hid, hclick, hvalue]

end

/-- That a tag shows nothing does not depend on what is behind it. -/
theorem marks_nil {tag : Tag} {label : String} (h : tag.marks label = []) (label' : String) :
    tag.marks label' = [] := by
  rw [Tag.marks, Spot.marks, List.append_eq_nil_iff, ite_eq_right_iff] at h ⊢
  exact ⟨h.1, fun hl => nomatch h.2 hl⟩

theorem marks_calling {tag : Tag} (h : tag.calls = true) (label : String) :
    tag.marks label = (tag.value? "id").toList.map .named ++ [.lead ⟨tag, label, []⟩] := by
  simp [Tag.marks, Spot.marks, h]

private theorem textChar_digit {c : Char} (h : c.isDigit = true) : textChar c = [c] := by
  unfold textChar quotedChar
  split
  · cases h
  · split
    · cases h
    · cases h
    · cases h
    · rfl

private theorem flatMap_digits {cs : List Char} (h : ∀ c ∈ cs, c.isDigit = true) :
    cs.flatMap textChar = cs := by
  induction cs with
  | nil => rfl
  | cons c cs ih =>
    rw [List.flatMap_cons, textChar_digit (h c List.mem_cons_self),
      ih fun x hx => h x (List.mem_cons_of_mem _ hx), List.singleton_append]

/-- No character of a number is escaped. -/
theorem plain_number (n : Nat) : plain (toString n) = toString n := by
  rw [Nat.toString_eq_ofList_toDigits, plain, escapeWith, String.toList_ofList, flatMap_digits]
  exact fun c hc => Nat.isDigit_of_mem_toDigits (by decide) (by decide) hc

section
variable {name content : String} {values : List (String × String)} {ms : List Mark}

/-- An element shows what its tag shows with the text right behind it, and what its content shows. -/
theorem shows_tag (hn : isOuter name = true) (hv : wellNamed values = true) (label : String)
    (hl : ∀ rest, (Tag.written name values).marks (.ofList (attributeValue (leading
      (read .text (content.toList ++ (("</" ++ name ++ ">").toList ++ rest)))))) =
        (Tag.written name values).marks label)
    (hc : Shows content ms) :
    Shows (element name values content)
      ((Tag.written name values).marks label ++ ms.map (Mark.within [.written name values])) := by
  intro around rest
  obtain ⟨hname, hvoid⟩ := isOuter_iff.1 hn
  have hs : (element name values content).toList ++ rest =
      (lone name values).toList ++ (content.toList ++ (("</" ++ name ++ ">").toList ++ rest)) := by
    simp [element, lone]
  have hclosed : closed (small name) (.written name values :: around) = around :=
    closed_self (.written name values) around
  have hcontent : (Tag.written name values).name ∉ voidNames := hvoid
  rw [hs, read_lone hname hv, spots, if_neg hcontent, List.flatMap_cons, hc, read_stop hname, spots,
    hclosed, marks_within, hl, List.map_append, List.map_map, List.append_assoc]
  simp only [Function.comp_def, Mark.within_within, List.singleton_append]

/-- The tag shows the same whatever is behind it. -/
theorem shows_element (hn : isOuter name = true) (hv : wellNamed values = true) {ns : List Mark}
    (hm : ∀ label, (Tag.written name values).marks label = ns) (hc : Shows content ms) :
    Shows (element name values content) (ns ++ ms.map (Mark.within [.written name values])) := by
  have h := shows_tag hn hv "" (fun _ => (hm _).trans (hm "").symm) hc
  rwa [hm] at h

theorem shows_quiet (hn : isOuter name = true) (hv : quiet values = true) (hc : Shows content ms) :
    Shows (element name values content) (ms.map (Mark.within [.written name values])) :=
  shows_element hn (wellNamed_quiet hv) (marks_quiet hv) hc

theorem shows_bare (hn : isOuter name = true) (hv : quiet values = true) (hc : Shows content []) :
    Shows (element name values content) [] :=
  shows_quiet hn hv hc

theorem shows_named (hn : isOuter name = true) (hv : quiet values = true) (id : String)
    (hc : Shows content ms) :
    Shows (element name (("id", id) :: values) content)
      (.named id :: ms.map (Mark.within [.written name (("id", id) :: values)])) := by
  have hid : isName "id" = true := by decide
  have hw : wellNamed (("id", id) :: values) = true := by
    rw [wellNamed, hid, wellNamed_quiet hv]
    rfl
  exact shows_element hn hw (marks_named id hv) hc

/-- An element around a text. -/
theorem shows_labelled (hn : isOuter name = true) (hv : wellNamed values = true)
    (hc : '<' ∉ content.toList) :
    Shows (element name values content)
      ((Tag.written name values).marks (.ofList (attributeValue content.toList))) := by
  have hl (rest : List Char) : leading (read .text (content.toList ++
      (("</" ++ name ++ ">").toList ++ rest))) = content.toList := by
    rw [read_text hc, read_stop (isOuter_iff.1 hn).1]
    induction content.toList with
    | nil => rfl
    | cons c cs ih => exact congrArg (c :: ·) ih
  have h := shows_tag hn hv _ (fun rest => congrArg (fun cs => Tag.marks _ (.ofList (attributeValue cs)))
    (hl rest)) (.text hc)
  rwa [List.map_nil, List.append_nil] at h

theorem shows_labelled_plain (hn : isOuter name = true) (hv : wellNamed values = true) (s : String) :
    Shows (element name values (plain s)) ((Tag.written name values).marks s) := by
  have h := shows_labelled hn hv fun hm => (mem_plain (s := s) hm).1 rfl
  rwa [plain, attributeValue_escapeWith faithful_textChar, String.ofList_toList] at h

theorem shows_labelled_number (hn : isOuter name = true) (hv : wellNamed values = true) (n : Nat) :
    Shows (element name values (toString n)) ((Tag.written name values).marks (toString n)) := by
  have h := shows_labelled_plain hn hv (toString n)
  rwa [plain_number] at h

theorem shows_lone_quiet (hn : isVoid name = true) (hv : quiet values = true) :
    Shows (lone name values) [] := by
  intro around rest
  obtain ⟨hname, ho⟩ := isVoid_iff.1 hn
  have hvoid : (Tag.written name values).name ∈ voidNames := ho
  rw [read_lone hname (wellNamed_quiet hv), spots, if_pos hvoid, List.flatMap_cons, marks_within,
    marks_quiet hv, List.map_nil, List.nil_append]

/-- An element without content shows what its tag shows. -/
theorem shows_slashed (hn : isVoid name = true) (hv : wellNamed values = true) :
    Shows (slashed name values) ((Tag.written name values).marks "") := by
  intro around rest
  obtain ⟨hname, ho⟩ := isVoid_iff.1 hn
  have hvoid : (Tag.written name values).name ∈ voidNames := ho
  rw [read_slashed hname hv, spots, if_pos hvoid, List.flatMap_cons, marks_within]

theorem shows_slashed_quiet (hn : isVoid name = true) (hv : quiet values = true) :
    Shows (slashed name values) [] := by
  have h := shows_slashed hn (wellNamed_quiet hv)
  rwa [marks_quiet hv] at h

end

end QuizPress.Render.Tags
