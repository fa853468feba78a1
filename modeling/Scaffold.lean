import Scaffold.Attempt
import Scaffold.Bindings
import Scaffold.Cli.Arguments
import Scaffold.Cli.Commands
import Scaffold.Config
import Scaffold.Expr.Basic
import Scaffold.Expr.Evaluate
import Scaffold.Expr.MarkedText
import Scaffold.Expr.Parser
import Scaffold.Expr.Reader
import Scaffold.Expr.Rendering
import Scaffold.Expr.Token
import Scaffold.Failure
import Scaffold.FileSystem.Basic
import Scaffold.FileSystem.Canonical
import Scaffold.FileSystem.Image
import Scaffold.FileSystem.Lookup
import Scaffold.FileSystem.Operations
import Scaffold.FileSystem.Refusal
import Scaffold.Home
import Scaffold.Hook.Host
import Scaffold.Hook.Run
import Scaffold.Hook.Words
import Scaffold.Json.Binary64
import Scaffold.Json.Draft
import Scaffold.Json.Printer
import Scaffold.Json.Reader
import Scaffold.Json.Value
import Scaffold.Load
import Scaffold.Main
import Scaffold.Manifest.Basic
import Scaffold.Manifest.Decode
import Scaffold.Path
import Scaffold.Proofs.Expr.Delimited
import Scaffold.Proofs.Expr.Expansion
import Scaffold.Proofs.Expr.Reading
import Scaffold.Store
import Scaffold.Text.Blank
import Scaffold.Text.CharSource
import Scaffold.Text.ControlSequence
import Scaffold.Text.Digits
import Scaffold.Text.Letter
import Scaffold.Text.Numeral
import Scaffold.Text.Quoted
import Scaffold.Text.Ranges
import Scaffold.Text.Unprintable
import Scaffold.Text.Utf8
import Scaffold.Variables
import Scaffold.Walk.Copy
import Scaffold.Walk.Materialize
import Scaffold.Walk.WorkList
import Scaffold.Proofs.Expr.Canonical
import Scaffold.Proofs.Expr.Spelling
import Scaffold.Proofs.FileSystem.Listing
import Scaffold.Proofs.Walk.Steps
import Scaffold.Proofs.Walk.Window
import Scaffold.Proofs.Walk.Copying
import Scaffold.Proofs.Walk.Making
import Scaffold.Proofs.Walk.Materialized
import Scaffold.Proofs.Expr.Grammar
import Scaffold.Proofs.Walk.Directories
import Scaffold.Proofs.Template.Phases
import Scaffold.Proofs.Walk.Confinement
import Scaffold.Proofs.Walk.Outside
import Scaffold.Proofs.FileSystem.Lookups
import Scaffold.Proofs.Walk.Fresh
import Scaffold.Proofs.Store.Shelf
import Scaffold.Proofs.Store.Changing
import Scaffold.Proofs.Store.History
import Scaffold.Proofs.Bindings
import Scaffold.Proofs.Template.Layers
import Scaffold.Proofs.Expr.Straying
import Scaffold.Proofs.Walk.Raising
import Scaffold.Proofs.Template.Escapes
import Scaffold.Proofs.Walk.Agreement
import Scaffold.Proofs.Walk.Overlay
import Scaffold.Proofs.Expr.Knowledge
import Scaffold.Proofs.Expr.Assuming
import Scaffold.Proofs.Config.Encoding
import Scaffold.Proofs.Expr.Lexemes
import Scaffold.Proofs.FileSystem.Writing
import Scaffold.Proofs.Config.Saving
import Scaffold.Proofs.Cli.Edits
import Scaffold.Proofs.Expr.Sources
import Scaffold.Proofs.Expr.Absence
import Scaffold.Proofs.Expr.Grouping
import Scaffold.Proofs.Expr.Calls
import Scaffold.Proofs.Expr.Unused
import Scaffold.Proofs.Expr.Verbatim
import Scaffold.Proofs.Walk.Clearing
import Scaffold.Proofs.Walk.PlainFiles
import Scaffold.Proofs.Walk.Recursion
import Scaffold.Proofs.Walk.Resolving
import Scaffold.Proofs.Walk.Visiting
import Scaffold.Proofs.Walk.Preorder
import Scaffold.Proofs.Paths
import Scaffold.Proofs.Template.Programs
import Scaffold.Proofs.Walk.Additions
import Scaffold.Proofs.Walk.Sparing
import Scaffold.Proofs.Store.Replacing
import Scaffold.Proofs.Store.Usable
import Scaffold.Proofs.Manifest.Keys
import Scaffold.Proofs.Manifest.Spelling
import Scaffold.Proofs.Expr.Consulting
import Scaffold.Proofs.Walk.Merging
import Scaffold.Proofs.Walk.Preserving
import Scaffold.Proofs.Walk.Repeated
import Scaffold.Proofs.Expr.Completion
import Scaffold.Proofs.Expr.Ranks
import Scaffold.Proofs.Walk.Inside
import Scaffold.Proofs.Walk.Upward
import Scaffold.Proofs.Walk.Pending
import Scaffold.Proofs.Walk.Outcome
import Scaffold.Proofs.Expr.Lookahead
