import JavaOutline.Command.Arguments
import JavaOutline.Command.Outcome
import JavaOutline.Command.Request
import JavaOutline.Depth
import JavaOutline.Error
import JavaOutline.Files.Disk
import JavaOutline.Files.Folder
import JavaOutline.Files.Path
import JavaOutline.Files.Working
import JavaOutline.Generate.ClassFile
import JavaOutline.Generate.Method
import JavaOutline.Generate.Name
import JavaOutline.Glob.Basic
import JavaOutline.Glob.Match
import JavaOutline.Glob.Parser
import JavaOutline.Grammar.Declarations
import JavaOutline.Grammar.Expressions
import JavaOutline.Grammar.Goal
import JavaOutline.Grammar.Reading
import JavaOutline.Grammar.Shape
import JavaOutline.Grammar.Source
import JavaOutline.Grammar.Statements
import JavaOutline.Grammar.Switches
import JavaOutline.Grammar.Types
import JavaOutline.Inspection.Paths
import JavaOutline.Json.Basic
import JavaOutline.Json.Parser
import JavaOutline.Json.Printer
import JavaOutline.Json.Text
import JavaOutline.Lower.Declarations
import JavaOutline.Lower.Expressions
import JavaOutline.Lower.Plan
import JavaOutline.Lower.Source
import JavaOutline.Lower.Statements
import JavaOutline.Lower.Unit
import JavaOutline.Main
import JavaOutline.Outline.Basic
import JavaOutline.Outline.Members
import JavaOutline.Outline.Modifier
import JavaOutline.Proofs.Attempts
import JavaOutline.Proofs.Command.Inspections
import JavaOutline.Proofs.Files.Changes
import JavaOutline.Proofs.Files.Following
import JavaOutline.Proofs.Files.Paths
import JavaOutline.Proofs.Files.Trees
import JavaOutline.Proofs.Generate.ClassText
import JavaOutline.Proofs.Generate.FileMarks
import JavaOutline.Proofs.Generate.FileText
import JavaOutline.Proofs.Generate.Headings
import JavaOutline.Proofs.Generate.MainBody
import JavaOutline.Proofs.Generate.Marks
import JavaOutline.Proofs.Generate.MethodText
import JavaOutline.Proofs.Generate.Names
import JavaOutline.Proofs.Generate.ReadBack
import JavaOutline.Proofs.Generate.SourceText
import JavaOutline.Proofs.Generate.Spelling
import JavaOutline.Proofs.Generate.Stretches
import JavaOutline.Proofs.Generate.TypeText
import JavaOutline.Proofs.Generate.Written
import JavaOutline.Proofs.Grammar.Analysis
import JavaOutline.Proofs.Grammar.Boundaries
import JavaOutline.Proofs.Grammar.Conformance
import JavaOutline.Proofs.Grammar.Coverage
import JavaOutline.Proofs.Grammar.Forward
import JavaOutline.Proofs.Grammar.Gaps
import JavaOutline.Proofs.Grammar.Layout
import JavaOutline.Proofs.Grammar.Picks
import JavaOutline.Proofs.Grammar.Ranges
import JavaOutline.Proofs.Grammar.Readings
import JavaOutline.Proofs.Grammar.Spacing
import JavaOutline.Proofs.Grammar.Tokens
import JavaOutline.Proofs.Grammar.Uncommented
import JavaOutline.Proofs.Grammar.Woven
import JavaOutline.Proofs.Inspection.Collection
import JavaOutline.Proofs.Inspection.Obstacles
import JavaOutline.Proofs.Inspection.Workers
import JavaOutline.Proofs.Json.ReadBack
import JavaOutline.Proofs.Lower.Alike
import JavaOutline.Proofs.Lower.BodyStatements
import JavaOutline.Proofs.Lower.Budget
import JavaOutline.Proofs.Lower.Comments
import JavaOutline.Proofs.Lower.Deeds
import JavaOutline.Proofs.Lower.Depth
import JavaOutline.Proofs.Lower.Echo
import JavaOutline.Proofs.Lower.Echo.Declarations
import JavaOutline.Proofs.Lower.Echo.Expressions
import JavaOutline.Proofs.Lower.Echo.Statements
import JavaOutline.Proofs.Lower.Faithful
import JavaOutline.Proofs.Lower.Layers
import JavaOutline.Proofs.Lower.Limits
import JavaOutline.Proofs.Lower.Listing
import JavaOutline.Proofs.Lower.MemberOrder
import JavaOutline.Proofs.Lower.OneLine
import JavaOutline.Proofs.Lower.Origins
import JavaOutline.Proofs.Lower.Runs
import JavaOutline.Proofs.Lower.SourceOrder
import JavaOutline.Proofs.Lower.Spans
import JavaOutline.Proofs.Lower.Subjects
import JavaOutline.Proofs.Lower.Told
import JavaOutline.Proofs.Lower.WellFormed
import JavaOutline.Proofs.Lower.Yields
import JavaOutline.Proofs.Outline.Members
import JavaOutline.Proofs.Outline.Parts
import JavaOutline.Proofs.Report.Agreement
import JavaOutline.Proofs.Report.Colours
import JavaOutline.Proofs.Report.Encoding
import JavaOutline.Proofs.Report.Selection
import JavaOutline.Proofs.Report.SingleLines
import JavaOutline.Proofs.Report.Verdict
import JavaOutline.Proofs.Settings.Checks
import JavaOutline.Proofs.Text.Blank
import JavaOutline.Proofs.Text.Boundaries
import JavaOutline.Proofs.Text.Utf8
import JavaOutline.Proofs.Walk.Balance
import JavaOutline.Proofs.Walk.Collect
import JavaOutline.Proofs.Walk.Flow
import JavaOutline.Proofs.Walk.Levels
import JavaOutline.Proofs.Walk.Listings
import JavaOutline.Proofs.Walk.Nesting
import JavaOutline.Proofs.Walk.Places
import JavaOutline.Proofs.Walk.Pruning
import JavaOutline.Proofs.Walk.Thresholds
import JavaOutline.Proofs.Walk.Trails
import JavaOutline.Report.Basic
import JavaOutline.Report.Encoding
import JavaOutline.Report.Pretty
import JavaOutline.Report.Styled
import JavaOutline.Settings.Basic
import JavaOutline.Settings.Decoding
import JavaOutline.Settings.Loading
import JavaOutline.SourceFile
import JavaOutline.Span
import JavaOutline.Text.Blank
import JavaOutline.Text.Bytes
import JavaOutline.Text.CodeTable
import JavaOutline.Text.Identifier
import JavaOutline.Text.Lines
import JavaOutline.Text.Quoted
import JavaOutline.Tree.Lexer
import JavaOutline.Tree.Node
import JavaOutline.Tree.Pattern
import JavaOutline.Tree.Rule
import JavaOutline.Tree.Token
import JavaOutline.Walk.Collect
import JavaOutline.Walk.Flow
import JavaOutline.Walk.Forest
import JavaOutline.Walk.Rose
import JavaOutline.Walk.Visit
import JavaOutline.Yaml.Cursor
import JavaOutline.Yaml.Node
import JavaOutline.Yaml.Scalar
import JavaOutline.Yaml.Tag
import JavaOutline.Yaml.Token
