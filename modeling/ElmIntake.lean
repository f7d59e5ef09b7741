import ElmIntake.CommandLine.Arguments
import ElmIntake.CommandLine.Run
import ElmIntake.CommandLine.Watched
import ElmIntake.Decimal.Shortest
import ElmIntake.Diagnostic
import ElmIntake.Digest
import ElmIntake.Discovery
import ElmIntake.Entry
import ElmIntake.Entry.Cache
import ElmIntake.Entry.Codec
import ElmIntake.Entry.Folder
import ElmIntake.Entry.Place
import ElmIntake.Entry.Placement
import ElmIntake.Error
import ElmIntake.FileSystem
import ElmIntake.FileSystem.Disk
import ElmIntake.FileSystem.Memory
import ElmIntake.Freshness
import ElmIntake.Json.Fault
import ElmIntake.Json.Numeral
import ElmIntake.Json.Reader
import ElmIntake.Json.Record
import ElmIntake.Json.Skip
import ElmIntake.Listing
import ElmIntake.Main
import ElmIntake.Manifest
import ElmIntake.Options
import ElmIntake.Pass
import ElmIntake.Pass.OnDisk
import ElmIntake.Path
import ElmIntake.Path.Pattern
import ElmIntake.Pool
import ElmIntake.Proofs.Entry.RoundTrip
import ElmIntake.Proofs.Entry.Storing
import ElmIntake.Proofs.Pass.Batch
import ElmIntake.Proofs.Pass.Incremental
import ElmIntake.Proofs.Pass.Observation
import ElmIntake.Proofs.Pass.Run
import ElmIntake.Proofs.Pass.TrustedTime
import ElmIntake.Proofs.Path.Join
import ElmIntake.Proofs.Syntax.Reading
import ElmIntake.Proofs.Syntax.Role
import ElmIntake.Proofs.Syntax.TopLevel
import ElmIntake.Proofs.Text.Utf8
import ElmIntake.Proofs.Token.Blank
import ElmIntake.Proofs.Token.Pieces
import ElmIntake.Proofs.Token.Tiling
import ElmIntake.Session
import ElmIntake.Span
import ElmIntake.Syntax.Cursor
import ElmIntake.Syntax.Fault
import ElmIntake.Syntax.Grammar
import ElmIntake.Syntax.Group
import ElmIntake.Syntax.Item
import ElmIntake.Syntax.Outcome
import ElmIntake.Syntax.Tree
import ElmIntake.Text.Letter
import ElmIntake.Text.Numeral
import ElmIntake.Text.Quoted
import ElmIntake.Text.Runs
import ElmIntake.Text.Utf8
import ElmIntake.Text.Visible
import ElmIntake.Token
import ElmIntake.Token.Fault
import ElmIntake.Token.Lossless
import ElmIntake.Token.Piece
import ElmIntake.Token.Reader
import ElmIntake.Proofs.Entry.Canonical
import ElmIntake.Proofs.Pass.SentOnce
import ElmIntake.Proofs.Syntax.Unplaced
import ElmIntake.Proofs.Syntax.Alike
import ElmIntake.Proofs.Syntax.AlikeItems
import ElmIntake.Proofs.Syntax.Layout
import ElmIntake.Proofs.Token.Lines
import ElmIntake.Proofs.Pass.Failure
import ElmIntake.Proofs.Path.Parts
import ElmIntake.Proofs.Discovery.Pruning
import ElmIntake.Proofs.Discovery.Dedupe
import ElmIntake.Proofs.Discovery.SeenAlike
import ElmIntake.Proofs.Discovery.Overlap
import ElmIntake.Proofs.Path.Spelling
import ElmIntake.Proofs.Token.Verbatim
import ElmIntake.Proofs.Token.Alone
import ElmIntake.Proofs.Syntax.Places
import ElmIntake.Proofs.Syntax.PlacedItems
import ElmIntake.Proofs.Syntax.Spans
import ElmIntake.Proofs.Token.Printing
import ElmIntake.Proofs.Token.Words
import ElmIntake.Proofs.Syntax.Balance
import ElmIntake.Proofs.Syntax.Blame
import ElmIntake.Proofs.Syntax.Reports
import ElmIntake.Proofs.Syntax.BrokenItem
import ElmIntake.Proofs.Syntax.Isolation
import ElmIntake.Proofs.Syntax.Yields
import ElmIntake.Proofs.Syntax.Outline
import ElmIntake.Proofs.Syntax.OutlineItems
import ElmIntake.Proofs.Syntax.Printed
import ElmIntake.Proofs.CommandLine.Watching
import ElmIntake.Proofs.Syntax.Signatures
import ElmIntake.Proofs.Entry.Writers
import ElmIntake.Proofs.Entry.Tidy
import ElmIntake.Proofs.Entry.Map
import ElmIntake.Proofs.Pass.Schedule
import ElmIntake.Proofs.Pass.Workers
import ElmIntake.Proofs.Pass.Settled
import ElmIntake.Proofs.Pass.Sharing
import ElmIntake.Proofs.Pass.Statistics
import ElmIntake.Proofs.Syntax.Fragments
import ElmIntake.Proofs.Checked.Groups
import ElmIntake.Proofs.Checked.Modules
import ElmIntake.Proofs.Pool.Guards
import ElmIntake.Proofs.Syntax.Diagnosed
import ElmIntake.Proofs.Syntax.Nesting
import ElmIntake.Proofs.Syntax.Success
import ElmIntake.Proofs.Syntax.Derivations
import ElmIntake.Proofs.Syntax.Definitions
import ElmIntake.Proofs.Discovery.Walks
import ElmIntake.Proofs.Pool.Lifecycle
import ElmIntake.Proofs.Syntax.Brackets
import ElmIntake.Proofs.Path.Parent
import ElmIntake.Proofs.Discovery.NextToManifest
