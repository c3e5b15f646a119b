import CommandReference.Command.Basic
import CommandReference.Command.Dump
import CommandReference.Command.OfLiteral
import CommandReference.Command.Registry
import CommandReference.Command.Shape
import CommandReference.Document.Recover
import CommandReference.Document.Render
import CommandReference.Json.Basic
import CommandReference.Json.Printer
import CommandReference.Json.Reader
import CommandReference.Literal.Balance
import CommandReference.Literal.Basic
import CommandReference.Literal.Error
import CommandReference.Literal.Reader.Quoted
import CommandReference.Literal.Reader.Trivia
import CommandReference.Literal.Reader.Value
import CommandReference.Literal.Reader.Word
import CommandReference.Main
import CommandReference.Project.CommandLine
import CommandReference.Project.Disk
import CommandReference.Project.Files
import CommandReference.Project.Listing
import CommandReference.Project.Regenerate
import CommandReference.Proofs.Command.Callback
import CommandReference.Proofs.Command.Dump
import CommandReference.Proofs.Command.Fields
import CommandReference.Proofs.Command.Log
import CommandReference.Proofs.Command.Multimap
import CommandReference.Proofs.Command.Places
import CommandReference.Proofs.Command.Registry
import CommandReference.Proofs.Document.Adequacy
import CommandReference.Proofs.Document.ArgumentLines
import CommandReference.Proofs.Document.Conservation
import CommandReference.Proofs.Document.Examples
import CommandReference.Proofs.Document.Outline
import CommandReference.Proofs.Document.Parts
import CommandReference.Proofs.Document.Preface
import CommandReference.Proofs.Document.Requirements
import CommandReference.Proofs.Document.Rereading
import CommandReference.Proofs.Document.RoundTrip
import CommandReference.Proofs.Document.ShownTexts
import CommandReference.Proofs.Json.RoundTrip
import CommandReference.Proofs.Literal.Accord.Basic
import CommandReference.Proofs.Literal.Accord.Tokens
import CommandReference.Proofs.Literal.Accord.Values
import CommandReference.Proofs.Literal.Balance
import CommandReference.Proofs.Literal.Code
import CommandReference.Proofs.Literal.Complete
import CommandReference.Proofs.Literal.Failures
import CommandReference.Proofs.Literal.Grammar
import CommandReference.Proofs.Literal.Locality
import CommandReference.Proofs.Literal.Parse
import CommandReference.Proofs.Literal.Positions
import CommandReference.Proofs.Literal.Quoted
import CommandReference.Proofs.Literal.Replacement
import CommandReference.Proofs.Literal.Rounds
import CommandReference.Proofs.Literal.Sequence
import CommandReference.Proofs.Literal.Spacing
import CommandReference.Proofs.Literal.Template
import CommandReference.Proofs.Literal.Tokens
import CommandReference.Proofs.Literal.Trivia
import CommandReference.Proofs.Literal.Value
import CommandReference.Proofs.Literal.Walk
import CommandReference.Proofs.Literal.Word
import CommandReference.Proofs.Project.Atomicity
import CommandReference.Proofs.Project.Disk
import CommandReference.Proofs.Project.FileSystem
import CommandReference.Proofs.Project.Idempotence
import CommandReference.Proofs.Source.Blocks
import CommandReference.Proofs.Source.Callouts
import CommandReference.Proofs.Source.Faults
import CommandReference.Proofs.Source.Finality
import CommandReference.Proofs.Source.Headings
import CommandReference.Proofs.Source.HelpLayout
import CommandReference.Proofs.Source.HelpText
import CommandReference.Proofs.Source.Names
import CommandReference.Proofs.Source.Outcome
import CommandReference.Proofs.Source.Session
import CommandReference.Proofs.Source.Spread
import CommandReference.Proofs.Source.Steps
import CommandReference.Proofs.Text.Bytes
import CommandReference.Proofs.Text.Lines
import CommandReference.Proofs.Text.Part
import CommandReference.Rest
import CommandReference.Settings.Basic
import CommandReference.Settings.Reader
import CommandReference.Source.Help
import CommandReference.Source.Line
import CommandReference.Source.Scanner
import CommandReference.Text.Blank
import CommandReference.Text.Digit
import CommandReference.Text.Interval
import CommandReference.Text.Letter
import CommandReference.Text.Lines
import CommandReference.Text.Lower
import CommandReference.Text.Part
import CommandReference.Yaml.Character
import CommandReference.Yaml.Cursor
import CommandReference.Yaml.Node.Anchor
import CommandReference.Yaml.Node.Basic
import CommandReference.Yaml.Node.Reader
import CommandReference.Yaml.Printer
import CommandReference.Yaml.Scalar
import CommandReference.Yaml.Token.Basic
import CommandReference.Yaml.Token.Layout
import CommandReference.Yaml.Token.Name
import CommandReference.Yaml.Token.Scalar
