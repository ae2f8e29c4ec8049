import ResourceLanguage.ActiveCode
import ResourceLanguage.Analysis
import ResourceLanguage.CSharp.Declaration
import ResourceLanguage.CSharp.Lexeme
import ResourceLanguage.CSharp.NamedType
import ResourceLanguage.CSharp.Node
import ResourceLanguage.CSharp.Opening
import ResourceLanguage.CSharp.Parser
import ResourceLanguage.CSharp.Skip
import ResourceLanguage.CSharp.SourceFile
import ResourceLanguage.CSharp.Token
import ResourceLanguage.Cancellation
import ResourceLanguage.CommandLine.Arguments
import ResourceLanguage.CommandLine.Help
import ResourceLanguage.CommandLine.Run
import ResourceLanguage.Condition.Basic
import ResourceLanguage.Condition.Parser
import ResourceLanguage.Condition.Token
import ResourceLanguage.Config.Basic
import ResourceLanguage.Config.Discovery
import ResourceLanguage.Config.Reader
import ResourceLanguage.Diff.Compact
import ResourceLanguage.Diff.Edit
import ResourceLanguage.Diff.Hunk
import ResourceLanguage.Diff.Script
import ResourceLanguage.Directive
import ResourceLanguage.Failure
import ResourceLanguage.Fix.Batch
import ResourceLanguage.Fix.Deferred
import ResourceLanguage.Fix.Restore
import ResourceLanguage.Fix.Session
import ResourceLanguage.Glob.Expand
import ResourceLanguage.Glob.Match
import ResourceLanguage.Glob.Pattern
import ResourceLanguage.IgnoreFilter
import ResourceLanguage.Issue
import ResourceLanguage.Json.Lexical
import ResourceLanguage.Json.Value
import ResourceLanguage.Location
import ResourceLanguage.Main
import ResourceLanguage.Notice
import ResourceLanguage.Path
import ResourceLanguage.Project
import ResourceLanguage.Proofs.ActiveCode.Composition
import ResourceLanguage.Proofs.ActiveCode.Crossing
import ResourceLanguage.Proofs.ActiveCode.Layout
import ResourceLanguage.Proofs.ActiveCode.Nesting
import ResourceLanguage.Proofs.ActiveCode.Reading
import ResourceLanguage.Proofs.ActiveCode.Simulation
import ResourceLanguage.Proofs.ActiveCode.TestedSymbols
import ResourceLanguage.Proofs.Analysis.Interleaving
import ResourceLanguage.Proofs.Analysis.Issues
import ResourceLanguage.Proofs.Analysis.Merging
import ResourceLanguage.Proofs.Analysis.NamedType
import ResourceLanguage.Proofs.CSharp.Address
import ResourceLanguage.Proofs.CSharp.Extent
import ResourceLanguage.Proofs.CSharp.Nesting
import ResourceLanguage.Proofs.CSharp.Opening
import ResourceLanguage.Proofs.CSharp.Outline
import ResourceLanguage.Proofs.CSharp.Qualified
import ResourceLanguage.Proofs.CSharp.Word
import ResourceLanguage.Proofs.CommandLine.DryRun
import ResourceLanguage.Proofs.CommandLine.Scope
import ResourceLanguage.Proofs.Condition.Grammar
import ResourceLanguage.Proofs.Condition.Stray
import ResourceLanguage.Proofs.Condition.Writing
import ResourceLanguage.Proofs.Fix.Batch
import ResourceLanguage.Proofs.Fix.Commit
import ResourceLanguage.Proofs.Fix.Companion
import ResourceLanguage.Proofs.Fix.Convergence
import ResourceLanguage.Proofs.Fix.Declared
import ResourceLanguage.Proofs.Fix.Detection
import ResourceLanguage.Proofs.Fix.Interleaving
import ResourceLanguage.Proofs.Fix.Preview
import ResourceLanguage.Proofs.Fix.ReadBack
import ResourceLanguage.Proofs.Fix.Refusal
import ResourceLanguage.Proofs.Fix.Resolution
import ResourceLanguage.Proofs.Fix.Target
import ResourceLanguage.Proofs.Glob.Expand
import ResourceLanguage.Proofs.Glob.Spelling
import ResourceLanguage.Proofs.Order
import ResourceLanguage.Proofs.Path
import ResourceLanguage.Proofs.Path.Trail
import ResourceLanguage.Proofs.Resource.Lines
import ResourceLanguage.Proofs.Resource.MarkerBlock
import ResourceLanguage.Proofs.Resource.Restoration
import ResourceLanguage.Proofs.Resource.Restored
import ResourceLanguage.Proofs.Resource.Terminators
import ResourceLanguage.Proofs.Scan
import ResourceLanguage.Proofs.Scan.Ignored
import ResourceLanguage.Proofs.Session
import ResourceLanguage.Proofs.Text.ByteOrder
import ResourceLanguage.Proofs.Text.Decoding
import ResourceLanguage.Proofs.Text.Encoding
import ResourceLanguage.Proofs.Text.LineStart
import ResourceLanguage.Proofs.Text.Position
import ResourceLanguage.Proofs.Workspace
import ResourceLanguage.Report
import ResourceLanguage.Resource.Edit
import ResourceLanguage.Resource.Marker
import ResourceLanguage.Resource.Plan
import ResourceLanguage.Rule
import ResourceLanguage.Scan
import ResourceLanguage.Text.Alphanumeric
import ResourceLanguage.Text.Basic
import ResourceLanguage.Text.Cut
import ResourceLanguage.Text.Encoding
import ResourceLanguage.Text.Line
import ResourceLanguage.Text.Lowercase
import ResourceLanguage.Text.Position
import ResourceLanguage.Text.Quoted
import ResourceLanguage.Text.Span
import ResourceLanguage.Text.Styled
import ResourceLanguage.Text.Utf16
import ResourceLanguage.Text.Utf8
import ResourceLanguage.Text.Width
import ResourceLanguage.Text.WidthClass
import ResourceLanguage.Workspace
import ResourceLanguage.Proofs.Analysis.IgnoreFilter
import ResourceLanguage.Proofs.Path.Ancestors
import ResourceLanguage.Proofs.Config.Discovery
import ResourceLanguage.Proofs.Scan.Selection
import ResourceLanguage.Proofs.Path.Texts
import ResourceLanguage.Proofs.Glob.Expanded
import ResourceLanguage.Proofs.Scan.Overlap
import ResourceLanguage.Proofs.Text.Number
import ResourceLanguage.Proofs.Text.Replacement
import ResourceLanguage.Proofs.Message
import ResourceLanguage.Proofs.Report
import ResourceLanguage.Proofs.Diff.Compact
import ResourceLanguage.Proofs.Diff.Hunk
import ResourceLanguage.Proofs.Diff.Patch
import ResourceLanguage.Proofs.Resource.Diff
