import Wireframe.Arrangement
import Wireframe.Caption
import Wireframe.Check
import Wireframe.Command
import Wireframe.Document
import Wireframe.Document.Export
import Wireframe.Document.Json
import Wireframe.Document.Scalar
import Wireframe.Document.Yaml
import Wireframe.Failure
import Wireframe.File
import Wireframe.Format
import Wireframe.Format.Formatter
import Wireframe.Grammar.Expectation
import Wireframe.Grammar.Parse
import Wireframe.Grammar.Rules
import Wireframe.Main
import Wireframe.Proofs.Annotation
import Wireframe.Proofs.Arrangement
import Wireframe.Proofs.Detection
import Wireframe.Proofs.Detection.Earliest
import Wireframe.Proofs.Essence
import Wireframe.Proofs.Grammar.Acceptance
import Wireframe.Proofs.Grammar.Account
import Wireframe.Proofs.Grammar.Blame
import Wireframe.Proofs.Grammar.Boundary
import Wireframe.Proofs.Grammar.Built
import Wireframe.Proofs.Grammar.Cascade
import Wireframe.Proofs.Grammar.Completeness
import Wireframe.Proofs.Grammar.Course
import Wireframe.Proofs.Grammar.Diagnosis
import Wireframe.Proofs.Grammar.Exchange
import Wireframe.Proofs.Grammar.Fidelity
import Wireframe.Proofs.Grammar.Language
import Wireframe.Proofs.Grammar.Limit
import Wireframe.Proofs.Grammar.Litter
import Wireframe.Proofs.Grammar.Outcome
import Wireframe.Proofs.Grammar.PageLines
import Wireframe.Proofs.Grammar.Pages
import Wireframe.Proofs.Grammar.Path
import Wireframe.Proofs.Grammar.Progress
import Wireframe.Proofs.Grammar.Recovery
import Wireframe.Proofs.Grammar.Replay
import Wireframe.Proofs.Grammar.Resilience
import Wireframe.Proofs.Grammar.Stage
import Wireframe.Proofs.Grammar.Track
import Wireframe.Proofs.Grouping
import Wireframe.Proofs.Indentation
import Wireframe.Proofs.LineBreaks
import Wireframe.Proofs.Naming
import Wireframe.Proofs.Nominative
import Wireframe.Proofs.Quoted
import Wireframe.Proofs.Reading
import Wireframe.Proofs.Row
import Wireframe.Proofs.Scene.Extended
import Wireframe.Proofs.Scene.Items
import Wireframe.Proofs.Scene.Laid
import Wireframe.Proofs.Scene.Levels
import Wireframe.Proofs.Scene.Passage
import Wireframe.Proofs.Scene.Placed
import Wireframe.Proofs.Scene.Printed
import Wireframe.Proofs.Scene.Ranges
import Wireframe.Proofs.Scene.Relaid
import Wireframe.Proofs.Scene.Relexed
import Wireframe.Proofs.Scene.Renaming
import Wireframe.Proofs.Scene.Reprinted
import Wireframe.Proofs.Scene.Reread
import Wireframe.Proofs.Scene.Roundtrip
import Wireframe.Proofs.Scene.Sheet
import Wireframe.Proofs.Scene.Visited
import Wireframe.Proofs.Skeleton
import Wireframe.Proofs.Text.Legible
import Wireframe.Proofs.Text.Trim
import Wireframe.Proofs.Token.CommentLine
import Wireframe.Proofs.Token.Delimited
import Wireframe.Proofs.Token.Form
import Wireframe.Proofs.Token.FreeText
import Wireframe.Proofs.Token.Keyword
import Wireframe.Proofs.Token.Line
import Wireframe.Proofs.Token.Listing
import Wireframe.Proofs.Token.Located
import Wireframe.Proofs.Token.Longest
import Wireframe.Proofs.Token.Lossless
import Wireframe.Proofs.Token.Names
import Wireframe.Proofs.Token.Order
import Wireframe.Proofs.Token.Quoting
import Wireframe.Proofs.Token.Recognition
import Wireframe.Proofs.Token.Shift
import Wireframe.Proofs.Token.Shown
import Wireframe.Proofs.Token.Slashes
import Wireframe.Proofs.Token.Spelling
import Wireframe.Proofs.Token.Split
import Wireframe.Proofs.Token.Unambiguous
import Wireframe.Proofs.Token.Written
import Wireframe.Proofs.View
import Wireframe.Reading
import Wireframe.Sample
import Wireframe.Scene
import Wireframe.Scene.Layout
import Wireframe.Scene.Node
import Wireframe.Scene.Outline
import Wireframe.Scene.Rule
import Wireframe.Scene.Walk
import Wireframe.Settings
import Wireframe.Settings.Quantity
import Wireframe.Settings.Setting
import Wireframe.Settings.Toml
import Wireframe.Settings.Toml.Draft
import Wireframe.Settings.Toml.Scalar
import Wireframe.Settings.Toml.Text
import Wireframe.Settings.Tree
import Wireframe.Source
import Wireframe.Text.Blank
import Wireframe.Text.CodePoint
import Wireframe.Text.Fold
import Wireframe.Text.Letter
import Wireframe.Text.Lower
import Wireframe.Text.Printable
import Wireframe.Text.Quoted
import Wireframe.Text.Utf8
import Wireframe.Token
import Wireframe.Token.Lexing
import Wireframe.Token.Piece
import Wireframe.Token.Shape
import Wireframe.Vocabulary.Concept
import Wireframe.Vocabulary.Detection
import Wireframe.Vocabulary.Dictionary
import Wireframe.Vocabulary.Locale
import Wireframe.Vocabulary.Spelling
import Wireframe.Proofs.Scene.CommentPlaces
import Wireframe.Proofs.Scene.Drawing
import Wireframe.Proofs.Scene.Outlined
