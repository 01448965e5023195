import QuizPress.Proofs.Quiz.Place
import QuizPress.Proofs.Render.Written

/-! The written parts of a quiz as lines, each a tag or an element of texts. -/
namespace QuizPress.Render.Source
open Quiz Text Xml Place

def line (indent : String) (s : String) : String := indent ++ s ++ "\n"

def field (name : String) (values : Attributes) (text : String) : String :=
  startTag name values ++ cdata text ++ endTag name

theorem takes_line {p q : Place} {indent s : String} (hi : indent.toList.all (· == ' ') = true)
    (h : p.Takes s q) : p.Takes (line indent s) q := by
  refine ((takes_text p fun c hc => ?_).append h).append (takes_text q (by simp [isText]))
  have hs := List.all_eq_true.1 hi c hc
  rw [beq_iff_eq] at hs
  rw [hs]
  rfl

/-- A text in an element of its own goes to the innermost open part. -/
theorem takes_ownText {quiz : Option Quiz} {node : Open} {outer : List Open} {names : List String}
    (element : Element) (he : element ∈ [.text, .tag, .response, .whenRight, .whenWrong])
    (text : String) :
    Place.Takes ⟨quiz, node :: outer, names⟩ (field element.name [] text)
      ⟨quiz, Builder.takeText element (trim text) node :: outer, names⟩ := by
  have hw : Writable [] := writable_of_isName (by simp) (by simp)
  have ho : (Place.mk quiz (node :: outer) names).builder.openElement element [] =
      .ok (Place.mk quiz (node :: outer) names).builder := by
    simp only [List.mem_cons, List.not_mem_nil, or_false] at he
    rcases he with rfl | rfl | rfl | rfl | rfl <;> rfl
  refine takes_field element hw ho ?_ rfl
  simp only [List.mem_cons, List.not_mem_nil, or_false] at he
  rcases he with rfl | rfl | rfl | rfl | rfl <;> rfl

theorem decides_line {p : Place} {indent s : String} {P : Except ParseError Quiz → Prop}
    (hi : indent.toList.all (· == ' ') = true) (h : p.Decides s P) : p.Decides (line indent s) P := by
  refine ((takes_text p fun c hc => ?_).decides h).append _
  have hs := List.all_eq_true.1 hi c hc
  rw [beq_iff_eq] at hs
  rw [hs]
  rfl

theorem bag_eq (name : String) (values : Attributes) :
    bag name values = line "  " (emptyTag name values) := by
  have hs : "  <" = "  " ++ "<" := rfl
  have he : "/>\n" = "/>" ++ "\n" := rfl
  delta bag
  simp only [line, emptyTag, hs, he, String.append_assoc]

theorem discussion_eq (d : Discussion) :
    discussion d = line "  " (field "discussion" [("heading", d.heading)] d.body) := by
  have hs : "  <discussion" = "  " ++ ("<" ++ "discussion") := rfl
  have he : "</discussion>\n" = "</" ++ ("discussion" ++ (">" ++ "\n")) := rfl
  delta discussion
  simp only [line, field, startTag, endTag, hs, he, String.append_assoc]

theorem item_eq (i : Item) :
    item i = line "      " (startTag "item" [("expect", toString i.expect)]) ++
      line "        " (field "text" [] i.text) ++
      (if i.response.isEmpty then "" else line "        " (field "response" [] i.response)) ++
      line "      " (endTag "item") := by
  have hs : "      <item" = "      " ++ ("<" ++ "item") := rfl
  have he : "      </item>\n" = "      " ++ ("</" ++ ("item" ++ (">" ++ "\n"))) := rfl
  have hb : ">\n" = ">" ++ "\n" := rfl
  have ht : "        <text>" = "        " ++ ("<" ++ ("text" ++ (attributes [] ++ ">"))) := rfl
  have ht' : "</text>\n" = "</" ++ ("text" ++ (">" ++ "\n")) := rfl
  have hr : "        <response>" = "        " ++ ("<" ++ ("response" ++ (attributes [] ++ ">"))) := rfl
  have hr' : "</response>\n" = "</" ++ ("response" ++ (">" ++ "\n")) := rfl
  delta item
  simp only [line, field, startTag, endTag, hs, he, hb, ht, ht', hr, hr', String.append_assoc]

theorem choice_eq (c : Choice) :
    choice c = line "    " (startTag "choice"
        [("type", c.mode.name), ("cols", toString c.columns.val)]) ++
      String.join (c.items.map item) ++ line "    " (endTag "choice") := by
  have hs : "    <choice" = "    " ++ ("<" ++ "choice") := rfl
  have he : "    </choice>\n" = "    " ++ ("</" ++ ("choice" ++ (">" ++ "\n"))) := rfl
  have hb : ">\n" = ">" ++ "\n" := rfl
  delta choice choiceOpening choiceClosing
  simp only [line, startTag, endTag, hs, he, hb, String.append_assoc]

theorem answer_eq (a : Answer) :
    answer a = line "    " (startTag "answer" [("value", a.value)]) ++
      (match a.tag with
        | some tag => line "      " (field "tag" [] tag)
        | none => "") ++
      line "      " (field "when_right" [] a.whenRight) ++
      line "      " (field "when_wrong" [] a.whenWrong) ++
      line "    " (endTag "answer") := by
  have hs : "    <answer" = "    " ++ ("<" ++ "answer") := rfl
  have he : "    </answer>\n" = "    " ++ ("</" ++ ("answer" ++ (">" ++ "\n"))) := rfl
  have hb : ">\n" = ">" ++ "\n" := rfl
  have ht : "      <tag>" = "      " ++ ("<" ++ ("tag" ++ (attributes [] ++ ">"))) := rfl
  have ht' : "</tag>\n" = "</" ++ ("tag" ++ (">" ++ "\n")) := rfl
  have hr : "      <when_right>" = "      " ++ ("<" ++ ("when_right" ++ (attributes [] ++ ">"))) := rfl
  have hr' : "</when_right>\n" = "</" ++ ("when_right" ++ (">" ++ "\n")) := rfl
  have hw : "      <when_wrong>" = "      " ++ ("<" ++ ("when_wrong" ++ (attributes [] ++ ">"))) := rfl
  have hw' : "</when_wrong>\n" = "</" ++ ("when_wrong" ++ (">" ++ "\n")) := rfl
  obtain ⟨value, tag, whenRight, whenWrong⟩ := a
  delta answer
  cases tag with
  | none =>
    simp only [line, field, startTag, endTag, hs, he, hb, hr, hr', hw, hw', String.append_assoc]
  | some tag =>
    simp only [line, field, startTag, endTag, hs, he, hb, ht, ht', hr, hr', hw, hw',
      String.append_assoc]

theorem question_eq (q : Question) :
    question q = line "  " (startTag "question" []) ++ line "    " (field "text" [] q.text) ++
      (match q.body with
        | .choice c => choice c
        | .answer a => answer a) ++
      line "  " (endTag "question") := by
  have hs : "  <question>\n" = "  " ++ ("<" ++ ("question" ++ (attributes [] ++ (">" ++ "\n")))) := rfl
  have he : "  </question>\n" = "  " ++ ("</" ++ ("question" ++ (">" ++ "\n"))) := rfl
  have ht : "    <text>" = "    " ++ ("<" ++ ("text" ++ (attributes [] ++ ">"))) := rfl
  have ht' : "</text>\n" = "</" ++ ("text" ++ (">" ++ "\n")) := rfl
  obtain ⟨text, body⟩ := q
  delta question questionOpening questionClosing
  cases body with
  | choice c => simp only [line, field, startTag, endTag, hs, he, ht, ht', String.append_assoc]
  | answer a => simp only [line, field, startTag, endTag, hs, he, ht, ht', String.append_assoc]

def declaration : String := "<?xml version=\"1.0\" encoding=\"UTF-8\"?>"

theorem takes_declaration (p : Place) : p.Takes declaration p := by
  intro c hc
  refine ⟨c, hc, fun size rest => ?_⟩
  have hs : glyphs declaration ++ rest = .char '<' :: .char '?' :: .char 'x' ::
      (glyphs "ml version=\"1.0\" encoding=\"UTF-8\"" ++ (glyphs "?>" ++ rest)) := rfl
  rw [hs, c.outcome_cons size (cutPiece_instruction (by decide) (by decide) rest), Cursor.behind]

theorem head_eq (q : Quiz) :
    head q = line "" declaration ++
      line "" (startTag "quiz" [("title", q.title), ("breadcrumb", q.breadcrumb), ("src", q.source)]) ++
      course q.course ++ String.join (q.metas.map (bag "meta")) ++
      String.join (q.links.map (bag "link")) ++ String.join (q.index.map indexEntry) := by
  have hd : "<?xml version=\"1.0\" encoding=\"UTF-8\"?>\n" = declaration ++ "\n" := rfl
  have hs : "<quiz" = "<" ++ "quiz" := rfl
  have hb : ">\n" = ">" ++ "\n" := rfl
  delta head
  simp only [line, startTag, hd, hs, hb, String.append_assoc, String.empty_append]

theorem document_eq (q : Quiz) :
    document q = head q ++ String.join (q.discussions.map discussion) ++
      String.join (q.questions.map question) ++ line "" (endTag "quiz") := by
  have he : "</quiz>\n" = "</" ++ ("quiz" ++ (">" ++ "\n")) := rfl
  rw [document_written, he]
  simp only [line, endTag, String.append_assoc, String.empty_append]

end QuizPress.Render.Source
