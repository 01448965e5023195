import QuizPress.Proofs.Xml.Attribute
import QuizPress.Render.Page.Markup

/-! Fragments of pages in which tags are balanced, and how they are put together. -/
namespace QuizPress.Render.Page
open Xml

def isTagName (s : String) : Bool :=
  isName s && s.toList.head?.any Char.isAlpha

def hasDashes : List Char → Bool
  | '-' :: '-' :: _ => true
  | _ :: cs => hasDashes cs
  | [] => false

def loneNames : List String := ["meta", "link", "input", "br"]

/-- Attributes of a tag: blanks before each, and values between double quotes that hold neither a
quote nor the beginning of a tag. -/
inductive AttributeList : String → Prop where
  | blank {s : String} (h : s.toList.all Char.isWhitespace = true) : AttributeList s
  | attribute {blanks name value rest : String} (hb : blanks.toList.all Char.isWhitespace = true)
      (hne : blanks ≠ "") (hn : isName name = true) (hq : '"' ∉ value.toList)
      (ht : '<' ∉ value.toList) (h : AttributeList rest) :
      AttributeList (blanks ++ name ++ "=\"" ++ value ++ "\"" ++ rest)

/-- A fragment in which each start tag has its end tag. A comment has no dashes side by side before
those that end it. -/
inductive Balanced : String → Prop where
  | text {s : String} (h : '<' ∉ s.toList) : Balanced s
  | comment {body : String} (h : hasDashes (body.toList ++ ['-']) = false) :
      Balanced ("<!--" ++ body ++ "-->")
  | alone {name values close : String} (hn : name ∈ loneNames) (hv : AttributeList values)
      (hc : close = ">" ∨ close = "/>") : Balanced ("<" ++ name ++ values ++ close)
  | element {name values content : String} (hn : isTagName name = true) (hv : AttributeList values)
      (hc : Balanced content) :
      Balanced ("<" ++ name ++ values ++ ">" ++ content ++ "</" ++ name ++ ">")
  | append {s t : String} (hs : Balanced s) (ht : Balanced t) : Balanced (s ++ t)

theorem mem_plain {s : String} {x : Char} (h : x ∈ (plain s).toList) : x ≠ '<' ∧ x ≠ '"' := by
  rw [plain, escapeWith, String.toList_ofList, List.mem_flatMap] at h
  obtain ⟨c, _, hx⟩ := h
  exact mem_textChar hx

/-- The texts that a page is written with hold no tag. They are given by their characters, which are
quick to look through. -/
theorem balanced_text {cs : List Char} (h : cs.all (· != '<') = true) : Balanced (.ofList cs) := by
  refine .text fun hm => ?_
  rw [String.toList_ofList] at hm
  exact absurd (List.all_eq_true.1 h '<' hm) (by decide)

theorem balanced_plain (s : String) : Balanced (plain s) :=
  .text fun h => (mem_plain h).1 rfl

theorem balanced_number (n : Nat) : Balanced (toString n) := by
  refine .text fun h => ?_
  rw [Nat.toString_eq_ofList_toDigits, String.toList_ofList] at h
  cases Nat.isDigit_of_mem_toDigits (by decide) (by decide) h

theorem balanced_if {p : Prop} [Decidable p] {s t : String} (hs : p → Balanced s)
    (ht : ¬ p → Balanced t) : Balanced (if p then s else t) := by
  split
  · exact hs ‹_›
  · exact ht ‹_›

theorem balanced_join {α : Type} {write : α → String} {xs : List α}
    (h : ∀ x ∈ xs, Balanced (write x)) : Balanced (String.join (xs.map write)) := by
  induction xs with
  | nil => exact .text List.not_mem_nil
  | cons x xs ih =>
    rw [List.map_cons, String.join_cons]
    exact .append (h x List.mem_cons_self) (ih fun y hy => h y (List.mem_cons_of_mem _ hy))

private theorem hasDashes_cons {c : Char} (h : c ≠ '-') (cs : List Char) :
    hasDashes (c :: cs) = hasDashes cs := by
  rw [hasDashes]
  rintro _ rfl
  exact absurd rfl h

/-- A text without dashes brings none beside one. -/
theorem hasDashes_append {cs : List Char} (h : '-' ∉ cs) (rest : List Char) :
    hasDashes (cs ++ rest) = hasDashes rest := by
  induction cs with
  | nil => rfl
  | cons c cs ih =>
    rw [List.cons_append, hasDashes_cons fun hc => h (hc ▸ List.mem_cons_self),
      ih fun hm => h (List.mem_cons_of_mem _ hm)]

/-- A dash that is set apart is not beside another one. -/
private theorem hasDashes_apart (c : Char) (cs : List Char) :
    hasDashes (commentChar c ++ cs) = hasDashes cs := by
  unfold commentChar
  split
  · have hd : hasDashes ('-' :: ' ' :: cs) = hasDashes (' ' :: cs) := by
      rw [hasDashes]
      intro _ _ h
      cases (List.cons.inj h).1
    rw [List.cons_append, List.singleton_append, hd, hasDashes_cons (by decide)]
  · rename_i hc
    exact hasDashes_cons hc cs

theorem hasDashes_commentText (s : String) (rest : List Char) :
    hasDashes ((commentText s).toList ++ rest) = hasDashes rest := by
  rw [commentText, escapeWith, String.toList_ofList]
  induction s.toList with
  | nil => rfl
  | cons c cs ih => rw [List.flatMap_cons, List.append_assoc, hasDashes_apart, ih]

def wellNamed : List (String × String) → Bool
  | [] => true
  | (name, _) :: values => isName name && wellNamed values

theorem attributeList_attributes {values : List (String × String)} (h : wellNamed values = true) :
    AttributeList (attributes values) := by
  induction values with
  | nil => exact .blank rfl
  | cons a values ih =>
    rw [wellNamed, Bool.and_eq_true] at h
    have hs : attributes (a :: values) =
        " " ++ a.1 ++ "=\"" ++ plain a.2 ++ "\"" ++ attributes values := by
      rw [attributes, writeAttributes, List.map_cons, String.join_cons]
      rfl
    rw [hs]
    exact .attribute rfl (by decide) h.1 (fun hm => (mem_plain hm).2 rfl)
      (fun hm => (mem_plain hm).1 rfl) (ih h.2)

section
variable {name content : String} {values : List (String × String)}

theorem balanced_element (hn : isTagName name = true) (hv : wellNamed values = true)
    (hc : Balanced content) : Balanced (element name values content) :=
  .element hn (attributeList_attributes hv) hc

theorem balanced_lone (hn : loneNames.elem name = true) (hv : wellNamed values = true) :
    Balanced (lone name values) :=
  .alone (List.mem_of_elem_eq_true hn) (attributeList_attributes hv) (.inl rfl)

theorem balanced_slashed (hn : loneNames.elem name = true) (hv : wellNamed values = true) :
    Balanced (slashed name values) :=
  .alone (List.mem_of_elem_eq_true hn) (attributeList_attributes hv) (.inr rfl)

end

section
variable {s t : String} {cs : List Char}

/-- A text behind a fragment. -/
theorem Balanced.andText (hs : Balanced s) (h : cs.all (· != '<') = true) :
    Balanced (s ++ .ofList cs) :=
  hs.append (balanced_text h)

/-- A fragment behind a text. -/
theorem Balanced.afterText (ht : Balanced t) (h : cs.all (· != '<') = true) :
    Balanced (.ofList cs ++ t) :=
  (balanced_text h).append ht

/-- A fragment on a line of its own. -/
theorem balanced_line (h : cs.all (· != '<') = true) (ht : Balanced t) :
    Balanced (.ofList cs ++ t ++ "\n") :=
  ht.afterText h |>.andText rfl

/-- One line more. -/
theorem Balanced.line (hs : Balanced s) (h : cs.all (· != '<') = true) (ht : Balanced t) :
    Balanced (s ++ .ofList cs ++ t ++ "\n") :=
  hs.andText h |>.append ht |>.andText rfl

end

end QuizPress.Render.Page
