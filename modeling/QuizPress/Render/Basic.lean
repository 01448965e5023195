import QuizPress.Quiz.Basic
import QuizPress.Quiz.Outline
import QuizPress.Render.Format
import QuizPress.Render.Page.Drawing
import QuizPress.Render.Page.Head
import QuizPress.Render.Page.Layout
import QuizPress.Render.Page.Menu
import QuizPress.Render.Paper
import QuizPress.Render.Source

/-! A quiz rendered in any of the formats. -/
namespace QuizPress.Render

def Page.parts (options : Options) (quiz : Quiz) : Page.Parts where
  head := Page.head options quiz
  sideMenu := Page.sideMenu quiz
  quizHeader := Page.quizHeader quiz
  questions := (Page.draw quiz).text

def page (options : Options) (quiz : Quiz) : Except RenderError Rendered := do
  let layout ← Page.Layout.ofName options.layout
  return {
    document := layout.page quiz (Page.parts options quiz)
    artifacts := Page.artifacts quiz
    warnings := (Page.draw quiz).warnings }

def render (format : Format) (options : Options) (quiz : Quiz) : Except RenderError Rendered :=
  match format with
  | .html => page options quiz
  | .xml => .ok { document := Source.document quiz }
  | .tex => .ok { document := Paper.document options.answerSlots quiz }
  | .text => .ok { document := quiz.outline }

end QuizPress.Render
