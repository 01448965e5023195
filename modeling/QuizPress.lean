import QuizPress.Main
import QuizPress.Proofs.Command.Agreement
import QuizPress.Proofs.Command.Halt
import QuizPress.Proofs.Command.Kept
import QuizPress.Proofs.Command.Outputs
import QuizPress.Proofs.Config.Load
import QuizPress.Proofs.Config.Overridden
import QuizPress.Proofs.Decimal
import QuizPress.Proofs.Decimal.Canonical
import QuizPress.Proofs.Decimal.Nearest
import QuizPress.Proofs.Files.Path
import QuizPress.Proofs.Files.Tree
import QuizPress.Proofs.Quiz.Acceptance
import QuizPress.Proofs.Quiz.Assembly
import QuizPress.Proofs.Quiz.Content
import QuizPress.Proofs.Quiz.Cursor
import QuizPress.Proofs.Quiz.Grammar
import QuizPress.Proofs.Quiz.Known
import QuizPress.Proofs.Quiz.Nesting
import QuizPress.Proofs.Quiz.NormalForm
import QuizPress.Proofs.Quiz.Offence
import QuizPress.Proofs.Quiz.Place
import QuizPress.Proofs.Quiz.Refusal
import QuizPress.Proofs.Quiz.Rules
import QuizPress.Proofs.Quiz.Run
import QuizPress.Proofs.Quiz.Scopes
import QuizPress.Proofs.Quiz.Settled
import QuizPress.Proofs.Quiz.Shape
import QuizPress.Proofs.Quiz.Tidy
import QuizPress.Proofs.Quiz.Unknown
import QuizPress.Proofs.Quiz.Visits
import QuizPress.Proofs.Render.Anchor
import QuizPress.Proofs.Render.AnswerKey
import QuizPress.Proofs.Render.Balance
import QuizPress.Proofs.Render.Drawing
import QuizPress.Proofs.Render.Layouts
import QuizPress.Proofs.Render.Local
import QuizPress.Proofs.Render.Page
import QuizPress.Proofs.Render.Reread
import QuizPress.Proofs.Render.RoundTrip
import QuizPress.Proofs.Render.Shown
import QuizPress.Proofs.Render.Source
import QuizPress.Proofs.Render.Spots
import QuizPress.Proofs.Render.Table
import QuizPress.Proofs.Render.Titles
import QuizPress.Proofs.Render.Unread
import QuizPress.Proofs.Render.Values
import QuizPress.Proofs.Render.Wiring
import QuizPress.Proofs.Render.Written
import QuizPress.Proofs.Text
import QuizPress.Proofs.Xml.Attribute
import QuizPress.Proofs.Xml.Escape
import QuizPress.Proofs.Xml.Legible
import QuizPress.Proofs.Xml.Markup
import QuizPress.Proofs.Xml.Reader
import QuizPress.Proofs.Xml.Suffix
import QuizPress.Proofs.Xml.Tag
import QuizPress.Proofs.Xml.Unbalanced
import QuizPress.Quiz.Node
