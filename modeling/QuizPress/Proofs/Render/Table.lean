import QuizPress.Proofs.Render.Drawing
import QuizPress.Proofs.Render.Rows
import QuizPress.Proofs.Render.Spots

/-! The table of a choice as it is written: a row for each chunk of the items, and in it a label and a
control for each item. -/
namespace QuizPress.Render.Page
open Quiz Xml

def writtenField (kind name text : String) : String :=
  "<td><input type=\"" ++ kind ++ "\" name=\"" ++ name ++
    "\"/></td><td><div class=\"question_choices\">" ++ text ++ "</div></td>"

/-- The control of the item at a position, with the text of the item. A remark stands in its place if
nobody knows how items are selected in this mode. -/
def writtenControl (number : Nat) (mode : ChoiceMode) (text : String) (index : Nat) : String :=
  match mode with
  | .single => writtenField "radio" ("Q" ++ toString number ++ "option") text
  | .multiple =>
    writtenField "checkbox" ("Q" ++ toString number ++ ("option" ++ toString index)) text
  | .other name => "<!-- internal error: unknown choice type " ++ commentText name ++ " -->"

def writtenCells (number : Nat) (mode : ChoiceMode) (item : Item) (index : Nat) : String :=
  "<td class=\"brown\">" ++ itemLabel index ++ ")</td>" ++ writtenControl number mode item.text index

private theorem plain_append (s t : String) : plain (s ++ t) = plain s ++ plain t :=
  escapeWith_append textChar s t

/-- The name of a field of a question holds nothing to escape. -/
private theorem plain_name {part : String} (h : plain part = part) (number : Nat) :
    plain ("Q" ++ toString number ++ part) = "Q" ++ toString number ++ part := by
  have hq : plain "Q" = "Q" := rfl
  rw [plain_append, plain_append, hq, h, Tags.plain_number]

private theorem slashed_input {kind name : String} (hk : plain kind = kind) (hn : plain name = name) :
    slashed "input" [("type", kind), ("name", name)] =
      "<input type=\"" ++ kind ++ "\" name=\"" ++ name ++ "\"/>" := by
  have hopen : "<input type=\"" = "<" ++ ("input" ++ (" " ++ ("type" ++ "=\""))) := rfl
  have hnext : "\" name=\"" = "\"" ++ (" " ++ ("name" ++ "=\"")) := rfl
  have hend : "\"/>" = "\"" ++ (writeAttributes plain [] ++ "/>") := rfl
  rw [slashed, attributes, writeAttributes_cons, writeAttributes_cons, hk, hn, hopen, hnext, hend]
  simp only [String.append_assoc]

private theorem selectable_eq {kind name : String} (hk : plain kind = kind) (hn : plain name = name)
    (text : String) :
    selectable (slashed "input" [("type", kind), ("name", name)]) text = writtenField kind name text := by
  have hcell : "<td><input type=\"" = "<" ++ ("td" ++ (attributes [] ++ (">" ++ "<input type=\""))) := rfl
  have hnext : "\"/></td><td><div class=\"question_choices\">" =
      "\"/>" ++ ("</" ++ ("td" ++ (">" ++ ("<" ++ ("td" ++ (attributes [] ++ (">" ++ ("<" ++ ("div" ++
        (attributes [("class", "question_choices")] ++ ">")))))))))) := rfl
  have hend : "</div></td>" = "</" ++ ("div" ++ (">" ++ ("</" ++ ("td" ++ ">")))) := rfl
  unfold writtenField
  rw [selectable, slashed_input hk hn, hcell, hnext, hend]
  simp only [element, String.append_assoc]

private theorem itemControl_eq (number : Nat) (mode : ChoiceMode) (item : Item) (index : Nat) :
    itemControl number mode item index = writtenControl number mode item.text index := by
  cases mode with
  | single => exact selectable_eq rfl (plain_name rfl number) item.text
  | multiple =>
    have hpart : plain ("option" ++ toString index) = "option" ++ toString index := by
      have ho : plain "option" = "option" := rfl
      rw [plain_append, ho, Tags.plain_number]
    have hname : "Q" ++ toString number ++ "option" ++ toString index =
        "Q" ++ toString number ++ ("option" ++ toString index) := String.append_assoc
    calc itemControl number .multiple item index
      _ = selectable (slashed "input" [("type", "checkbox"),
            ("name", "Q" ++ toString number ++ "option" ++ toString index)]) item.text := rfl
      _ = writtenControl number .multiple item.text index := by
        rw [hname]
        exact selectable_eq rfl (plain_name hpart number) item.text
  | other name => rfl

theorem itemCells_eq (number : Nat) (mode : ChoiceMode) (item : Item) (index : Nat) :
    itemCells number mode item index = writtenCells number mode item index := by
  have hopen : "<td class=\"brown\">" = "<" ++ ("td" ++ (attributes [("class", "brown")] ++ ">")) := rfl
  have hclose : ")</td>" = ")" ++ ("</" ++ ("td" ++ ">")) := rfl
  unfold itemCells writtenCells
  rw [itemControl_eq, hopen, hclose]
  simp only [element, String.append_assoc]

/-- On any canvas a visit to a choice adds its table, which belongs to the question begun last. It has a row
for each chunk of as many items as there are columns, in which the cells of these items stand in order. A hidden
field is behind it if one item is to be selected. -/
theorem choiceTable_eq_rows (number : Nat) (choice : Choice) :
    (∀ (quiz : Quiz) (text : String) (warnings : List String),
      ((drawing quiz).visit (.choice choice) ⟨text, number, warnings⟩).text =
        text ++ choiceTable number choice) ∧
    ∃ rows : List (List (Item × Nat)),
      Chunks choice.columns.val (choice.items.zipIdx 1) rows ∧
      choiceTable number choice =
        "<table class=\"question_choices\">\n" ++
          String.join (rows.map fun row =>
            "<tr>" ++ String.join (row.map fun (item, index) =>
              writtenCells number choice.mode item index) ++ "</tr>\n") ++
          "</table>" ++
          (if choice.mode = .single then
            "\n<input type=\"hidden\" name=\"Q" ++ toString number ++ "hidden\"/>"
          else "") := by
  obtain ⟨rows, hchunks, hrows⟩ := itemRows_eq number choice
  refine ⟨fun quiz text warnings => ?_, rows, hchunks, ?_⟩
  · rw [visit_choice, Canvas.write_text, Canvas.warn_text]
  have hcells (row : List (Item × Nat)) : rowCells number choice.mode row =
      String.join (row.map fun (item, index) => writtenCells number choice.mode item index) := by
    simp only [rowCells, itemCells_eq]
  have hopen : "<table class=\"question_choices\">\n" =
      "<" ++ ("table" ++ (attributes [("class", "question_choices")] ++ (">" ++ "\n"))) := rfl
  have hclose : "</table>" = "</" ++ ("table" ++ ">") := rfl
  have hfield : "\n" ++ slashed "input" [("type", "hidden"), ("name", "Q" ++ toString number ++ "hidden")] =
      "\n<input type=\"hidden\" name=\"Q" ++ toString number ++ "hidden\"/>" := by
    have hstart : "\n<input type=\"hidden\" name=\"Q" =
        "\n" ++ ("<input type=\"" ++ ("hidden" ++ ("\" name=\"" ++ "Q"))) := rfl
    have hend : "hidden\"/>" = "hidden" ++ "\"/>" := rfl
    rw [slashed_input rfl (plain_name rfl number), hstart, hend]
    simp only [String.append_assoc]
  simp only [itemRows, tableRow, hcells] at hrows
  rw [choiceTable, hrows, hfield, hopen, hclose]
  simp only [element, String.append_assoc]

end QuizPress.Render.Page
