import QuizPress.Proofs.Render.Balance

/-! The tags and characters of a page, as a browser reads them, and what it reads of the elements that
are written. -/
namespace QuizPress.Render.Tags
open Page Xml

structure Tag where
  name : String
  attributes : List (String × String)
deriving DecidableEq, Repr

def Tag.value? (tag : Tag) (name : String) : Option String := tag.attributes.lookup name

inductive Token where
  | start (tag : Tag)
  | stop (name : String)
  | char (c : Char)
deriving DecidableEq, Repr

structure Draft where
  ends : Bool
  name : List Char
  attributes : List (String × String) := []
deriving DecidableEq, Repr

namespace Draft

def add (draft : Draft) (key value : List Char) : Draft :=
  { draft with
    attributes := draft.attributes ++ [(.ofList key, .ofList (attributeValue value))] }

/-- An end tag loses its attributes. -/
def token (draft : Draft) : Token :=
  if draft.ends then .stop (.ofList draft.name)
  else .start ⟨.ofList draft.name, draft.attributes⟩

end Draft

/-- Where a reader is: in text, or in some part of a tag or of a comment. -/
inductive Mode where
  | text
  | opened
  | closing
  | name (ends : Bool) (name : List Char)
  | between (draft : Draft)
  | key (draft : Draft) (key : List Char)
  | keyed (draft : Draft) (key : List Char)
  | equals (draft : Draft) (key : List Char)
  | quoted (draft : Draft) (key : List Char) (quote : Char) (value : List Char)
  | bare (draft : Draft) (key value : List Char)
  | bang
  | dash
  | comment (dashes : Nat)
  | bogus

def isBlank (c : Char) : Bool :=
  c == ' ' || c == '\t' || c == '\n' || c == '\x0c' || c == '\r'

/-- What one more character leads to, and the tokens that it completes. -/
def step : Mode → Char → Mode × List Token
  | .text, c => if c = '<' then (.opened, []) else (.text, [.char c])
  | .opened, c =>
    if c.isAlpha then (.name false [c.toLower], [])
    else if c = '/' then (.closing, [])
    else if c = '!' then (.bang, [])
    else if c = '?' then (.bogus, [])
    else if c = '<' then (.opened, [.char '<'])
    else (.text, [.char '<', .char c])
  | .closing, c =>
    if c.isAlpha then (.name true [c.toLower], [])
    else if c = '>' then (.text, [])
    else (.bogus, [])
  | .name ends name, c =>
    if c = '>' then (.text, [Draft.token { ends, name }])
    else if isBlank c || c == '/' then (.between { ends, name }, [])
    else (.name ends (name ++ [c.toLower]), [])
  | .between draft, c =>
    if c = '>' then (.text, [draft.token])
    else if isBlank c || c == '/' then (.between draft, [])
    else (.key draft [c.toLower], [])
  | .key draft key, c =>
    if c = '>' then (.text, [(draft.add key []).token])
    else if c = '=' then (.equals draft key, [])
    else if c = '/' then (.between (draft.add key []), [])
    else if isBlank c then (.keyed draft key, [])
    else (.key draft (key ++ [c.toLower]), [])
  | .keyed draft key, c =>
    if c = '>' then (.text, [(draft.add key []).token])
    else if c = '=' then (.equals draft key, [])
    else if c = '/' then (.between (draft.add key []), [])
    else if isBlank c then (.keyed draft key, [])
    else (.key (draft.add key []) [c.toLower], [])
  | .equals draft key, c =>
    if c = '>' then (.text, [(draft.add key []).token])
    else if isBlank c then (.equals draft key, [])
    else if c = '"' ∨ c = '\'' then (.quoted draft key c [], [])
    else (.bare draft key [c], [])
  | .quoted draft key quote value, c =>
    if c = quote then (.between (draft.add key value), [])
    else (.quoted draft key quote (value ++ [c]), [])
  | .bare draft key value, c =>
    if c = '>' then (.text, [(draft.add key value).token])
    else if isBlank c then (.between (draft.add key value), [])
    else (.bare draft key (value ++ [c]), [])
  | .bang, c =>
    if c = '-' then (.dash, []) else if c = '>' then (.text, []) else (.bogus, [])
  | .dash, c =>
    if c = '-' then (.comment 2, []) else if c = '>' then (.text, []) else (.bogus, [])
  | .comment dashes, c =>
    if c = '-' then (.comment (dashes + 1), [])
    else if c = '>' ∧ 2 ≤ dashes then (.text, [])
    else (.comment 0, [])
  | .bogus, c => if c = '>' then (.text, []) else (.bogus, [])

/-- The tokens of a text; a tag that does not come to its end is none. -/
def read (mode : Mode) : List Char → List Token
  | [] => []
  | c :: cs => (step mode c).2 ++ read (step mode c).1 cs

def small (name : String) : String := .ofList (name.toList.map Char.toLower)

def smallNamed (values : List (String × String)) : List (String × String) :=
  values.map fun a => (small a.1, a.2)

def Tag.written (name : String) (values : List (String × String)) : Tag :=
  ⟨small name, smallNamed values⟩

section
variable {cs rest : List Char}

/-- A character that completes no token. -/
theorem read_on {mode mode' : Mode} {c : Char} (h : step mode c = (mode', [])) (cs : List Char) :
    read mode (c :: cs) = read mode' cs := by
  rw [read, h, List.nil_append]

theorem read_text (h : '<' ∉ cs) (rest : List Char) :
    read .text (cs ++ rest) = cs.map .char ++ read .text rest := by
  induction cs with
  | nil => rfl
  | cons c cs ih =>
    have hc : c ≠ '<' := fun hc => h (hc ▸ List.mem_cons_self)
    have hs : step .text c = (.text, [.char c]) := if_neg hc
    rw [List.cons_append, read, hs, ih fun hm => h (List.mem_cons_of_mem _ hm)]
    rfl

private theorem hasDashes_tail {c : Char} (h : hasDashes (c :: cs) = false) : hasDashes cs = false := by
  unfold hasDashes at h
  split at h
  · cases h
  · rename_i he
    cases he
    exact h
  · rename_i he
    cases he

private theorem hasDashes_right (hs : hasDashes (cs ++ rest) = false) : hasDashes rest = false := by
  induction cs with
  | nil => exact hs
  | cons c cs ih => exact ih (hasDashes_tail hs)

/-- A comment is read to its end if no dashes stand side by side in it. The dashes that were read are
counted as the first ones of what is left. -/
theorem read_comment {dashes : Nat} (h : hasDashes (List.replicate dashes '-' ++ cs ++ ['-']) = false)
    (rest : List Char) : read (.comment dashes) (cs ++ '-' :: '-' :: '>' :: rest) = read .text rest := by
  induction cs generalizing dashes with
  | nil =>
    have hdash (dashes : Nat) : step (.comment dashes) '-' = (.comment (dashes + 1), []) := rfl
    have hend : step (.comment (dashes + 1 + 1)) '>' = (.text, []) := by
      rw [step, if_neg (by decide), if_pos ⟨rfl, Nat.le_add_left 2 dashes⟩]
    rw [List.nil_append, read_on (hdash _), read_on (hdash _), read_on hend]
  | cons c cs ih =>
    rw [List.cons_append]
    by_cases hc : c = '-'
    · subst hc
      have hstep : step (.comment dashes) '-' = (.comment (dashes + 1), []) := rfl
      rw [read_on hstep]
      refine ih ?_
      rw [List.replicate_succ', List.append_assoc _ ['-']]
      exact h
    · have hfew : ¬ (c = '>' ∧ 2 ≤ dashes) := by
        rintro ⟨-, hd⟩
        obtain ⟨more, rfl⟩ := Nat.exists_eq_add_of_le' hd
        have ht : true = false := h
        cases ht
      have hstep : step (.comment dashes) c = (.comment 0, []) := by
        rw [step, if_neg hc, if_neg hfew]
      rw [read_on hstep]
      refine ih ?_
      rw [List.append_assoc, List.cons_append] at h
      exact hasDashes_tail (hasDashes_right h)

/-- The characters of plain names end no part of a tag. -/
theorem isNameChar_inert {c : Char} (h : isNameChar c = true) :
    c ≠ '>' ∧ c ≠ '=' ∧ c ≠ '/' ∧ isBlank c = false := by
  refine ⟨ne_of_isNameChar h rfl, ne_of_isNameChar h rfl, ne_of_isNameChar h rfl, ?_⟩
  simp [isBlank, ne_of_isNameChar h (x := ' ') rfl, ne_of_isNameChar h (x := '\t') rfl,
    ne_of_isNameChar h (x := '\n') rfl, ne_of_isNameChar h (x := '\x0c') rfl,
    ne_of_isNameChar h (x := '\r') rfl]

theorem read_name (h : ∀ c ∈ cs, isNameChar c = true) (ends : Bool) (name rest : List Char) :
    read (.name ends name) (cs ++ rest) = read (.name ends (name ++ cs.map Char.toLower)) rest := by
  induction cs generalizing name with
  | nil => simp
  | cons c cs ih =>
    obtain ⟨hg, _, hs, hb⟩ := isNameChar_inert (h c List.mem_cons_self)
    have hstep : step (.name ends name) c = (.name ends (name ++ [c.toLower]), []) := by
      rw [step, if_neg hg, if_neg (by simp [hs, hb])]
    rw [List.cons_append, read_on hstep, ih fun x hx => h x (List.mem_cons_of_mem _ hx), List.append_assoc,
      List.map_cons, List.singleton_append]

theorem read_key (h : ∀ c ∈ cs, isNameChar c = true) (draft : Draft) (key rest : List Char) :
    read (.key draft key) (cs ++ rest) = read (.key draft (key ++ cs.map Char.toLower)) rest := by
  induction cs generalizing key with
  | nil => simp
  | cons c cs ih =>
    obtain ⟨hg, he, hs, hb⟩ := isNameChar_inert (h c List.mem_cons_self)
    have hstep : step (.key draft key) c = (.key draft (key ++ [c.toLower]), []) := by
      rw [step, if_neg hg, if_neg he, if_neg hs, if_neg (by simp [hb])]
    rw [List.cons_append, read_on hstep, ih fun x hx => h x (List.mem_cons_of_mem _ hx), List.append_assoc,
      List.map_cons, List.singleton_append]

theorem read_quoted {quote : Char} (h : quote ∉ cs) (draft : Draft) (key value rest : List Char) :
    read (.quoted draft key quote value) (cs ++ quote :: rest) =
      read (.between (draft.add key (value ++ cs))) rest := by
  induction cs generalizing value with
  | nil => simp [read, step]
  | cons c cs ih =>
    have hc : c ≠ quote := fun hc => h (hc ▸ List.mem_cons_self)
    have hstep : step (.quoted draft key quote value) c = (.quoted draft key quote (value ++ [c]), []) :=
      if_neg hc
    rw [List.cons_append, read_on hstep, ih fun hm => h (List.mem_cons_of_mem _ hm), List.append_assoc,
      List.singleton_append]

/-- A name begins with one of its characters. -/
theorem toList_of_isName {s : String} (h : isName s = true) :
    ∃ c cs, s.toList = c :: cs ∧ isNameChar c = true ∧ ∀ x ∈ cs, isNameChar x = true := by
  cases hs : s.toList with
  | nil => simp_all [isName]
  | cons c cs =>
    simp only [isName, hs, Bool.and_eq_true, List.all_cons, List.all_eq_true] at h
    exact ⟨c, cs, rfl, h.2.1, h.2.2⟩

theorem read_attribute {name : String} (hn : isName name = true) (value : String) (draft : Draft)
    (rest : List Char) :
    read (.between draft) (' ' :: (name.toList ++ '=' :: '"' :: ((plain value).toList ++ '"' :: rest))) =
      read (.between { draft with attributes := draft.attributes ++ [(small name, value)] }) rest := by
  obtain ⟨c, cs, hcs, hc, hrest⟩ := toList_of_isName hn
  obtain ⟨hg, _, hs, hb⟩ := isNameChar_inert hc
  have hkey : step (.between draft) c = (.key draft [c.toLower], []) := by
    rw [step, if_neg hg, if_neg (by simp [hs, hb])]
  have hvalue : '"' ∉ (plain value).toList := fun hm => (mem_plain hm).2 rfl
  have hadd : draft.add ([c.toLower] ++ cs.map Char.toLower) ([] ++ (plain value).toList) =
      { draft with attributes := draft.attributes ++ [(small name, value)] } := by
    rw [Draft.add, small, hcs, List.nil_append, plain, attributeValue_escapeWith faithful_textChar,
      String.ofList_toList]
    rfl
  have hblank : step (.between draft) ' ' = (.between draft, []) := rfl
  have hequals (key : List Char) : step (.key draft key) '=' = (.equals draft key, []) := rfl
  have hquote (key : List Char) : step (.equals draft key) '"' = (.quoted draft key '"' [], []) := rfl
  rw [read_on hblank, hcs, List.cons_append, read_on hkey, read_key hrest, read_on (hequals _),
    read_on (hquote _), read_quoted hvalue, hadd]

theorem toList_attributes_cons (name value : String) (values : List (String × String)) :
    (attributes ((name, value) :: values)).toList =
      ' ' :: (name.toList ++ '=' :: '"' :: ((plain value).toList ++ '"' :: (attributes values).toList)) := by
  simp [attributes, writeAttributes]

theorem read_attributes {values : List (String × String)} (h : wellNamed values = true) (draft : Draft)
    (rest : List Char) :
    read (.between draft) ((attributes values).toList ++ rest) =
      read (.between { draft with attributes := draft.attributes ++ smallNamed values }) rest := by
  induction values generalizing draft with
  | nil => simp [attributes, writeAttributes, smallNamed]
  | cons a values ih =>
    obtain ⟨name, value⟩ := a
    rw [wellNamed, Bool.and_eq_true] at h
    rw [toList_attributes_cons]
    simp only [List.cons_append, List.append_assoc]
    rw [read_attribute h.1, ih h.2]
    simp [smallNamed]

/-- A name ends before the attributes of its tag. -/
private theorem read_name_end {c : Char} (h : c = '>' ∨ c = '/' ∨ c = ' ') (ends : Bool) (name : List Char)
    (cs : List Char) : read (.name ends name) (c :: cs) = read (.between { ends, name }) (c :: cs) := by
  have hgt : step (.name ends name) '>' = step (.between { ends, name }) '>' := rfl
  have hslash : step (.name ends name) '/' = step (.between { ends, name }) '/' := rfl
  have hblank : step (.name ends name) ' ' = step (.between { ends, name }) ' ' := rfl
  rcases h with rfl | rfl | rfl
  · rw [read, read, hgt]
  · rw [read, read, hslash]
  · rw [read, read, hblank]

/-- A tag is read when its name and its attributes are. -/
theorem read_tag {name : String} {values : List (String × String)} (hn : isTagName name = true)
    (hv : wellNamed values = true) {ends : Bool} {mode : Mode}
    (hm : ∀ c : Char, c.isAlpha = true → step mode c = (.name ends [c.toLower], [])) {close : Char}
    (hc : close = '>' ∨ close = '/') (rest : List Char) :
    read mode (name.toList ++ ((attributes values).toList ++ close :: rest)) =
      read (.between ⟨ends, (small name).toList, smallNamed values⟩) (close :: rest) := by
  rw [isTagName, Bool.and_eq_true] at hn
  obtain ⟨c, cs, hcs, -, hrest⟩ := toList_of_isName hn.1
  have halpha : c.isAlpha = true := by
    have hhead := hn.2
    rw [hcs] at hhead
    exact hhead
  have hsmall : (small name).toList = [c.toLower] ++ cs.map Char.toLower := by
    rw [small, hcs, String.toList_ofList]
    rfl
  have hend : read (.name ends (small name).toList) ((attributes values).toList ++ close :: rest) =
      read (.between ⟨ends, (small name).toList, []⟩)
        ((attributes values).toList ++ close :: rest) := by
    cases values with
    | nil => exact read_name_end (hc.imp_right .inl) ends _ rest
    | cons a values =>
      rw [toList_attributes_cons]
      exact read_name_end (.inr (.inr rfl)) ends _ _
  rw [hcs, List.cons_append, read_on (hm c halpha), read_name hrest, ← hsmall, hend, read_attributes hv,
    List.nil_append]

section
variable {name : String} {values : List (String × String)} (hn : isTagName name = true)
  (hv : wellNamed values = true)
include hn hv

theorem read_lone (rest : List Char) :
    read .text ((lone name values).toList ++ rest) = .start (.written name values) :: read .text rest := by
  have hopen : step .text '<' = (.opened, []) := rfl
  have hname (c : Char) (h : c.isAlpha = true) : step .opened c = (.name false [c.toLower], []) := if_pos h
  have hs : (lone name values).toList ++ rest =
      '<' :: (name.toList ++ ((attributes values).toList ++ '>' :: rest)) := by
    simp [lone]
  rw [hs, read_on hopen, read_tag hn hv hname (.inl rfl)]
  simp [read, step, Draft.token, Tag.written]

theorem read_slashed (rest : List Char) :
    read .text ((slashed name values).toList ++ rest) = .start (.written name values) :: read .text rest := by
  have hopen : step .text '<' = (.opened, []) := rfl
  have hname (c : Char) (h : c.isAlpha = true) : step .opened c = (.name false [c.toLower], []) := if_pos h
  have hslash (draft : Draft) : step (.between draft) '/' = (.between draft, []) := rfl
  have hs : (slashed name values).toList ++ rest =
      '<' :: (name.toList ++ ((attributes values).toList ++ '/' :: '>' :: rest)) := by
    simp [slashed]
  rw [hs, read_on hopen, read_tag hn hv hname (.inr rfl), read_on (hslash _)]
  simp [read, step, Draft.token, Tag.written]

end

theorem read_stop {name : String} (hn : isTagName name = true) (rest : List Char) :
    read .text (("</" ++ name ++ ">").toList ++ rest) = .stop (small name) :: read .text rest := by
  have hopen : step .text '<' = (.opened, []) := rfl
  have hslash : step .opened '/' = (.closing, []) := rfl
  have hname (c : Char) (h : c.isAlpha = true) : step .closing c = (.name true [c.toLower], []) := if_pos h
  have hs : ("</" ++ name ++ ">").toList ++ rest =
      '<' :: '/' :: (name.toList ++ ((attributes []).toList ++ '>' :: rest)) := by
    simp [attributes, writeAttributes]
  rw [hs, read_on hopen, read_on hslash, read_tag hn rfl hname (.inl rfl)]
  simp [read, step, Draft.token]

end

end QuizPress.Render.Tags
