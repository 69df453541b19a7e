import AssetLift.App
import AssetLift.App.Standard
import AssetLift.Block
import AssetLift.Bytes
import AssetLift.CommandLine
import AssetLift.CommandLine.Help
import AssetLift.CommandLine.Reading
import AssetLift.CommandLine.Spec
import AssetLift.Commit
import AssetLift.Config.Load
import AssetLift.Config.Moment
import AssetLift.Config.Value
import AssetLift.Console
import AssetLift.Cst
import AssetLift.Decimal.Binary64
import AssetLift.Decimal.Padded
import AssetLift.Decimal.Rounding
import AssetLift.Diagnostic
import AssetLift.Discovery
import AssetLift.Edit
import AssetLift.Entry
import AssetLift.FaultKind
import AssetLift.FileTree
import AssetLift.FileTree.Resolve
import AssetLift.Grammar.Production
import AssetLift.Grammar.Reading
import AssetLift.Grammar.Rule
import AssetLift.Grammar.Stack
import AssetLift.Grammar.State
import AssetLift.Grammar.Table
import AssetLift.Grammar.Tree
import AssetLift.Literal
import AssetLift.Migration
import AssetLift.Node
import AssetLift.Node.Lowering
import AssetLift.Path
import AssetLift.Publication
import AssetLift.Removal
import AssetLift.Settings
import AssetLift.Sink
import AssetLift.Source
import AssetLift.Span
import AssetLift.Summary
import AssetLift.Target
import AssetLift.Terminal.Action
import AssetLift.Terminal.Flow
import AssetLift.Terminal.Markup
import AssetLift.Terminal.Panel
import AssetLift.Terminal.Style
import AssetLift.Terminal.Table
import AssetLift.Text.Blank
import AssetLift.Text.CodePoint
import AssetLift.Text.Digit
import AssetLift.Text.Emoji
import AssetLift.Text.Lowercase
import AssetLift.Text.Paragraph
import AssetLift.Text.Printable
import AssetLift.Text.Quoted
import AssetLift.Text.Utf8
import AssetLift.Text.Width
import AssetLift.Total
import AssetLift.TypeScript.Cursor
import AssetLift.TypeScript.Grammar.Declaration
import AssetLift.TypeScript.Grammar.Expression
import AssetLift.TypeScript.Grammar.Member
import AssetLift.TypeScript.Grammar.Statement
import AssetLift.TypeScript.Grammar.Type
import AssetLift.TypeScript.Lexeme
import AssetLift.TypeScript.Parser
import AssetLift.TypeScript.Rule
import AssetLift.TypeScript.Scan
import AssetLift.TypeScript.Semicolon
import AssetLift.Yaml.Document
import AssetLift.Yaml.Kind
import AssetLift.Yaml.Node
import AssetLift.Yaml.Reader
import AssetLift.Yaml.Scalar
import AssetLift.Yaml.Token
import AssetLift.Proofs.Choices
import AssetLift.Proofs.Removal
import AssetLift.Proofs.Activity
import AssetLift.Proofs.Provenance
import AssetLift.Proofs.Conservation
import AssetLift.Proofs.Commit
import AssetLift.Proofs.Concern
import AssetLift.Proofs.Text
import AssetLift.Proofs.Unit
import AssetLift.Proofs.Discovery
import AssetLift.Proofs.Run
import AssetLift.Proofs.Structure
import AssetLift.Proofs.Revision
import AssetLift.Proofs.Relowering
import AssetLift.Proofs.Idempotence
import AssetLift.Proofs.Weaving
import AssetLift.Proofs.Cooking
import AssetLift.Proofs.CommitSteps
import AssetLift.Proofs.Naming
import AssetLift.Proofs.Tandem
import AssetLift.Proofs.Twins
import AssetLift.Proofs.Independence
import AssetLift.Proofs.Offers
import AssetLift.Proofs.Postorder
import AssetLift.Proofs.Layout
import AssetLift.Proofs.TornWrite
import AssetLift.Proofs.Surroundings
import AssetLift.Proofs.ReadBack
import AssetLift.Proofs.Literals
import AssetLift.Proofs.Reporting
import AssetLift.Proofs.Preorder
import AssetLift.Proofs.Exactness
import AssetLift.Proofs.Verdict
import AssetLift.Proofs.Landing
import AssetLift.Proofs.Oblivious
import AssetLift.Proofs.FaultSearch
import AssetLift.Proofs.Snapshot
import AssetLift.Proofs.Startup
