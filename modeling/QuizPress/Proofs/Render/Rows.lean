import QuizPress.Render.Page.Section

/-! The rows of a table of choices. The items open and close rows one by one; what they write together is
one row for each chunk of as many items as there are columns. -/
namespace QuizPress.Render.Page
open Quiz

/-- A list cut into chunks of one size. Only the last chunk may be shorter, and none is empty. -/
structure Chunks {α : Type} (size : Nat) (xs : List α) (chunks : List (List α)) : Prop where
  flatten : chunks.flatten = xs
  full : ∀ chunk ∈ chunks.dropLast, chunk.length = size
  bounded : ∀ chunk ∈ chunks, chunk ≠ [] ∧ chunk.length ≤ size
  count : chunks.length = (xs.length + size - 1) / size

section
variable {α : Type} {size : Nat} {chunk xs : List α} {chunks : List (List α)}

theorem chunks_nil (hs : 0 < size) : Chunks size ([] : List α) [] where
  flatten := rfl
  full _ h := by cases h
  bounded _ h := by cases h
  count := by
    rw [List.length_nil, List.length_nil, Nat.zero_add, Nat.div_eq_of_lt (Nat.sub_lt hs Nat.one_pos)]

/-- A chunk in front of others is full. -/
theorem Chunks.cons (hne : chunk ≠ []) (hl : chunk.length ≤ size) (hfull : xs = [] ∨ chunk.length = size)
    (h : Chunks size xs chunks) : Chunks size (chunk ++ xs) (chunk :: chunks) := by
  have hpos : 0 < chunk.length := List.length_pos_iff.2 hne
  refine ⟨by rw [List.flatten_cons, h.flatten], fun c hc => ?_, fun c hc => ?_, ?_⟩
  · rcases hfull with rfl | hfull
    · have hnil : chunks = [] := List.length_eq_zero_iff.1 (by
        rw [h.count, List.length_nil, Nat.zero_add, Nat.div_eq_of_lt (by omega)])
      rw [hnil] at hc
      cases hc
    · cases chunks with
      | nil => cases hc
      | cons c' chunks =>
        rcases List.mem_cons.1 hc with rfl | hc
        · exact hfull
        · exact h.full c hc
  · rcases List.mem_cons.1 hc with rfl | hc
    · exact ⟨hne, hl⟩
    · exact h.bounded c hc
  · rw [List.length_cons, h.count, List.length_append]
    rcases hfull with rfl | hfull
    · rw [List.length_nil, Nat.zero_add, Nat.div_eq_of_lt (by omega)]
      exact (Nat.div_eq_of_lt_le (by omega) (by omega)).symm
    · have hsum : chunk.length + xs.length + size - 1 = xs.length + size - 1 + size := by omega
      rw [hsum, Nat.add_div_right _ (by omega)]

end

section
variable {number : Nat} {choice : Choice}

def tableRow (cells : String) : String := "<tr>" ++ cells ++ "</tr>\n"

def rowCells (number : Nat) (mode : ChoiceMode) (items : List (Item × Nat)) : String :=
  String.join (items.map fun (item, index) => itemCells number mode item index)

theorem rowCells_cons (mode : ChoiceMode) (item : Item) (index : Nat) (items : List (Item × Nat)) :
    rowCells number mode ((item, index) :: items) =
      itemCells number mode item index ++ rowCells number mode items :=
  String.join_cons

def itemRows (number : Nat) (choice : Choice) (items : List (Item × Nat)) : String :=
  String.join (items.map fun (item, index) => itemRow number choice item index)

theorem itemRows_cons (item : Item) (index : Nat) (items : List (Item × Nat)) :
    itemRows number choice ((item, index) :: items) =
      itemRow number choice item index ++ itemRows number choice items :=
  String.join_cons

theorem itemRows_append (items later : List (Item × Nat)) :
    itemRows number choice (items ++ later) =
      itemRows number choice items ++ itemRows number choice later := by
  rw [itemRows, List.map_append, String.join_append]
  rfl

/-- Behind full rows an item begins a row if none is before it in the row. -/
private theorem startsRow_iff {start : Nat} (hs : start % choice.columns.val = 0) {n : Nat}
    (hn : n < choice.columns.val) : choice.startsRow (start + n + 1) = true ↔ n = 0 := by
  rw [Choice.startsRow, beq_iff_eq, Nat.add_sub_cancel, Nat.add_mod, hs, Nat.zero_add, Nat.mod_mod,
    Nat.mod_eq_of_lt hn]

/-- Behind full rows an item ends a row if it fills the row, or if it is the last item. -/
private theorem endsRow_iff {start : Nat} (hs : start % choice.columns.val = 0) {n : Nat}
    (hn : n < choice.columns.val) : choice.endsRow (start + n + 1) = true ↔
      n + 1 = choice.columns.val ∨ start + n + 1 = choice.items.length := by
  have hmod : (start + n + 1) % choice.columns.val = 0 ↔ n + 1 = choice.columns.val := by
    rw [Nat.add_assoc, Nat.add_mod, hs, Nat.zero_add, Nat.mod_mod]
    rcases Nat.lt_or_eq_of_le hn with hlt | heq
    · rw [Nat.mod_eq_of_lt hlt]
      exact ⟨fun h => absurd h (Nat.succ_ne_zero n), fun h => absurd h (Nat.ne_of_lt hlt)⟩
    · rw [← heq, Nat.mod_self]
      exact iff_of_true rfl rfl
  rw [Choice.endsRow, Bool.or_eq_true, beq_iff_eq, beq_iff_eq, hmod]

/-- What is written from the cells of an item on to the end of its row, in which `n` items are before
it. The row ends where it is full or no item is left. -/
private theorem rest_of_row (number : Nat) {start : Nat} (hs : start % choice.columns.val = 0) {n : Nat}
    (item : Item) (items : List Item) (hroom : n + items.length < choice.columns.val)
    (hend : n + items.length + 1 = choice.columns.val ∨
      start + (n + items.length) + 1 = choice.items.length)
    (hle : start + (n + items.length) + 1 ≤ choice.items.length) :
    itemCells number choice.mode item (start + n + 1) ++
        ((if choice.endsRow (start + n + 1) then "</tr>\n" else "") ++
          itemRows number choice (items.zipIdx (start + n + 1 + 1))) =
      rowCells number choice.mode ((item :: items).zipIdx (start + n + 1)) ++ "</tr>\n" := by
  induction items generalizing item n with
  | nil =>
    have hends : choice.endsRow (start + n + 1) = true := (endsRow_iff hs hroom).2 hend
    rw [if_pos hends, List.zipIdx_cons, rowCells_cons, String.append_assoc]
    rfl
  | cons next items ih =>
    rw [List.length_cons] at hroom hend hle
    have hn : n + 1 < choice.columns.val := by omega
    have hends : ¬ choice.endsRow (start + n + 1) = true := by
      rw [endsRow_iff hs (by omega)]
      omega
    have hstarts : ¬ choice.startsRow (start + n + 1 + 1) = true :=
      fun h => Nat.succ_ne_zero n ((startsRow_iff hs hn).1 h)
    have hrest := ih (n := n + 1) next (by omega) (by omega) (by omega)
    rw [if_neg hends, String.empty_append, List.zipIdx_cons, itemRows_cons, itemRow, if_neg hstarts,
      String.empty_append, String.append_assoc]
    rw [List.zipIdx_cons, rowCells_cons, String.append_assoc]
    exact congrArg _ hrest

/-- The first items behind full rows write one row if they fill it or no item is behind them. -/
private theorem row_of_chunk (number : Nat) {start : Nat} (hs : start % choice.columns.val = 0) (item : Item)
    (items : List Item) (hroom : items.length < choice.columns.val)
    (hend : items.length + 1 = choice.columns.val ∨ start + items.length + 1 = choice.items.length)
    (hle : start + items.length + 1 ≤ choice.items.length) :
    itemRows number choice ((item :: items).zipIdx (start + 1)) =
      tableRow (rowCells number choice.mode ((item :: items).zipIdx (start + 1))) := by
  have hstarts : choice.startsRow (start + 0 + 1) = true := (startsRow_iff hs choice.columns.pos).2 rfl
  have hrest := rest_of_row number hs (n := 0) item items (by omega) (by omega) (by omega)
  rw [tableRow, String.append_assoc, ← hrest, List.zipIdx_cons, itemRows_cons, itemRow, if_pos hstarts]
  simp only [String.append_assoc, Nat.add_zero]

/-- Behind full rows the items write a row for each of their chunks. -/
private theorem rows_from {start : Nat} (hs : start % choice.columns.val = 0) (items : List Item)
    (hl : start + items.length = choice.items.length) :
    ∃ rows, Chunks choice.columns.val (items.zipIdx (start + 1)) rows ∧
      itemRows number choice (items.zipIdx (start + 1)) =
        String.join (rows.map fun row => tableRow (rowCells number choice.mode row)) := by
  have hpos := choice.columns.pos
  induction hn : items.length using Nat.strongRecOn generalizing start items with
  | _ k ih =>
    cases items with
    | nil => exact ⟨[], chunks_nil hpos, rfl⟩
    | cons item items =>
      -- the items that stand in the row of the first one, and those behind the row
      obtain ⟨inner, later, rfl, hinner, hlater⟩ : ∃ inner later, items = inner ++ later ∧
          inner.length < choice.columns.val ∧ (later = [] ∨ inner.length + 1 = choice.columns.val) := by
        refine ⟨_, _, (List.take_append_drop (choice.columns.val - 1) items).symm, ?_, ?_⟩
        · rw [List.length_take]
          omega
        · rw [List.length_take, List.drop_eq_nil_iff]
          omega
      rw [List.length_cons, List.length_append] at hl hn
      have hlater' : later.length = 0 ∨ inner.length + 1 = choice.columns.val :=
        hlater.imp_left List.length_eq_zero_iff.2
      have hrow := row_of_chunk number hs item inner hinner (by omega) (by omega)
      obtain ⟨rows, hchunks, hrows⟩ : ∃ rows,
          Chunks choice.columns.val (later.zipIdx (start + inner.length + 1 + 1)) rows ∧
          itemRows number choice (later.zipIdx (start + inner.length + 1 + 1)) =
            String.join (rows.map fun row => tableRow (rowCells number choice.mode row)) := by
        rcases hlater with rfl | hfull
        · exact ⟨[], chunks_nil hpos, rfl⟩
        · have hstart : (start + inner.length + 1) % choice.columns.val = 0 := by
            rw [Nat.add_assoc, hfull, Nat.add_mod_right, hs]
          exact ih later.length (by omega) hstart later (by omega) rfl
      have hsplit : (item :: (inner ++ later)).zipIdx (start + 1) =
          (item :: inner).zipIdx (start + 1) ++ later.zipIdx (start + inner.length + 1 + 1) := by
        have hnext : start + 1 + (inner.length + 1) = start + inner.length + 1 + 1 := by omega
        rw [← List.cons_append, List.zipIdx_append, List.length_cons, hnext]
      refine ⟨(item :: inner).zipIdx (start + 1) :: rows, ?_, ?_⟩
      · rw [hsplit]
        refine hchunks.cons (by simp) ?_ ?_
        · rw [List.length_zipIdx]
          exact hinner
        · rw [List.length_zipIdx]
          exact hlater.imp_left fun h => by rw [h, List.zipIdx_nil]
      · rw [hsplit, itemRows_append, hrow, hrows, List.map_cons, String.join_cons]

/-- The items of a table are cut into rows of as many items as there are columns. -/
theorem itemRows_eq (number : Nat) (choice : Choice) :
    ∃ rows, Chunks choice.columns.val (choice.items.zipIdx 1) rows ∧
      itemRows number choice (choice.items.zipIdx 1) =
        String.join (rows.map fun row => tableRow (rowCells number choice.mode row)) :=
  rows_from (Nat.zero_mod _) choice.items (Nat.zero_add _)

end

/-- Fragments of some kind that a table can be made of. -/
structure RowParts (P : String → Prop) : Prop where
  empty : P ""
  lineEnd : P "\n"
  append {s t : String} (hs : P s) (ht : P t) : P (s ++ t)
  row {s : String} (hs : P s) : P (element "tr" [] s)

theorem RowParts.join {P : String → Prop} (hp : RowParts P) {fragments : List String}
    (h : ∀ s ∈ fragments, P s) : P (String.join fragments) := by
  induction fragments with
  | nil => exact hp.empty
  | cons s fragments ih =>
    rw [String.join_cons]
    exact hp.append (h s List.mem_cons_self) (ih fun t ht => h t (List.mem_cons_of_mem _ ht))

theorem tableRow_eq (cells : String) : tableRow cells = element "tr" [] cells ++ "\n" := by
  have hopen : "<tr>" = "<" ++ "tr" ++ attributes [] ++ ">" := rfl
  have hclose : "</tr>\n" = "</" ++ "tr" ++ ">" ++ "\n" := rfl
  rw [tableRow, element, hopen, hclose]
  simp only [String.append_assoc]

/-- All rows of a table. -/
theorem rows_of_choice {P : String → Prop} (hp : RowParts P) (number : Nat) (choice : Choice)
    (hcells : ∀ item ∈ choice.items, ∀ index, P (itemCells number choice.mode item index)) :
    P (String.join ((choice.items.zipIdx 1).map fun (item, index) =>
      itemRow number choice item index)) := by
  obtain ⟨rows, hchunks, hrows⟩ := itemRows_eq number choice
  rw [← itemRows, hrows]
  refine hp.join fun s hs => ?_
  obtain ⟨row, hrow, rfl⟩ := List.mem_map.1 hs
  rw [tableRow_eq]
  refine hp.append (hp.row (hp.join fun t ht => ?_)) hp.lineEnd
  obtain ⟨⟨item, index⟩, hitem, rfl⟩ := List.mem_map.1 ht
  have hmem : (item, index) ∈ choice.items.zipIdx 1 := by
    rw [← hchunks.flatten]
    exact List.mem_flatten.2 ⟨row, hrow, hitem⟩
  exact hcells item (List.fst_mem_of_mem_zipIdx hmem) index

/-- The label of an item is no bracket. -/
theorem not_mem_itemLabel (index : Nat) : '<' ∉ (itemLabel index).toList := by
  have hne : (Choice.label? index).getD '?' ≠ '<' := by
    cases hl : Choice.label? index with
    | none => decide
    | some c =>
      cases index with
      | zero => cases hl
      | succ n =>
        have hc : c ∈ Choice.labels := List.mem_of_getElem? hl
        rintro rfl
        exact absurd hc (by decide)
  intro hm
  rw [itemLabel, Char.toString, String.toList_singleton, List.mem_singleton] at hm
  exact hne hm.symm

end QuizPress.Render.Page
