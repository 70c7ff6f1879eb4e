import CallAtlas.Main
import CallAtlas.Graph.Storage
import CallAtlas.Json.Reader
import CallAtlas.Proofs.Graph.Insertion
import CallAtlas.Proofs.Graph.Queries
import CallAtlas.Proofs.Graph.Search.Move
import CallAtlas.Proofs.Graph.Search.Settled
import CallAtlas.Proofs.Graph.Search.Recorded
import CallAtlas.Proofs.Graph.Search.Run
import CallAtlas.Proofs.Graph.Search.Cycles
import CallAtlas.Proofs.Dot.Escape
import CallAtlas.Proofs.Dot.Reader
import CallAtlas.Proofs.Dot.Lossless
import CallAtlas.Proofs.Dot.Dependencies
import CallAtlas.Proofs.Dot.Tokens
import CallAtlas.Proofs.Dot.Unescape
import CallAtlas.Proofs.Dot.Sentence
import CallAtlas.Proofs.Extraction.Definitions
import CallAtlas.Proofs.Extraction.Calls
import CallAtlas.Proofs.Extraction.Exact
import CallAtlas.Proofs.Extraction.Duplicates
import CallAtlas.Proofs.Syntax.Search
import CallAtlas.Proofs.Syntax.Acceptance
import CallAtlas.Proofs.Graph.Mentions
import CallAtlas.Proofs.Dependencies.Walk
import CallAtlas.Proofs.Dependencies.Exact
import CallAtlas.Proofs.Toml.Quoted
import CallAtlas.Proofs.Toml.Number
import CallAtlas.Proofs.Toml.Lines
import CallAtlas.Proofs.Toml.Groups
import CallAtlas.Proofs.Files
import CallAtlas.Proofs.Settings.Document
import CallAtlas.Proofs.Settings.Storage
import CallAtlas.Proofs.Graph.OfCallSet
import CallAtlas.Proofs.Graph.Order
import CallAtlas.Proofs.Extraction.Graph
import CallAtlas.Proofs.Graph.ClosedPart
import CallAtlas.Proofs.Graph.Changes
import CallAtlas.Proofs.Syntax.LastToken
import CallAtlas.Proofs.Syntax.InOrder
import CallAtlas.Proofs.Extraction.Inner
import CallAtlas.Proofs.Extraction.Ranges
import CallAtlas.Proofs.Text.Rows
import CallAtlas.Proofs.Text.Bytes
import CallAtlas.Proofs.Text.Places
import CallAtlas.Proofs.Text.Names
import CallAtlas.Proofs.Text.Lines
import CallAtlas.Proofs.Dependencies.Scopes
import CallAtlas.Proofs.Agreement
import CallAtlas.Proofs.Syntax.Alike
import CallAtlas.Proofs.Extraction.Alike
import CallAtlas.Proofs.Dependencies.Alike
import CallAtlas.Proofs.Comments
import CallAtlas.Proofs.Extraction.Lines
import CallAtlas.Proofs.Extraction.LastLine
import CallAtlas.Proofs.Listing.Functions
import CallAtlas.Proofs.Json.Written
import CallAtlas.Proofs.Json.RoundTrip
import CallAtlas.Proofs.Extraction.Closed
import CallAtlas.Proofs.Listing.Data
import CallAtlas.Proofs.Listing.Calls
import CallAtlas.Proofs.Reordering
import CallAtlas.Proofs.Directories
import CallAtlas.Proofs.Command.Steps
import CallAtlas.Proofs.Command.Answers
import CallAtlas.Proofs.Command.Effects
import CallAtlas.Proofs.Graph.Search.Recursion
import CallAtlas.Proofs.Graph.Search.Moments
import CallAtlas.Proofs.Graph.Search.Reported
import CallAtlas.Proofs.Graph.EntryPoints
import CallAtlas.Proofs.Graph.Statistics
import CallAtlas.Proofs.Syntax.Postorder
import CallAtlas.Proofs.Syntax.Errors
import CallAtlas.Proofs.Syntax.EarliestError
import CallAtlas.Proofs.Syntax.DiagnosticPlaces
import CallAtlas.Proofs.Syntax.Nesting
import CallAtlas.Proofs.Nesting
import CallAtlas.Proofs.Command.Verdicts
import CallAtlas.Proofs.Command.ExitCodes
import CallAtlas.Proofs.Syntax.LastLeaf
import CallAtlas.Proofs.Graph.Search.InStep
import CallAtlas.Proofs.Paths
import CallAtlas.Proofs.Command.Init
import CallAtlas.Proofs.Settings.Names
import CallAtlas.Proofs.Settings.Overrides
