import Quorum.Text.Printable
import Quorum.Text.Quoted
import Quorum.Text.Blank
import Quorum.Numeral
import Quorum.Path.Error
import Quorum.Path.Basic
import Quorum.Path.Object
import Quorum.Address.Basic
import Quorum.Chain.Error
import Quorum.Chain.Message
import Quorum.Coin
import Quorum.Coordinate.Policy
import Quorum.Decimal.Shortest
import Quorum.Host.Clock
import Quorum.Chain.Account
import Quorum.Chain.Outcome
import Quorum.Json.Writer
import Quorum.Metadata
import Quorum.Host.FileTree
import Quorum.Store.Blobs
import Quorum.Store.Directory
import Quorum.Coordinate.Request
import Quorum.Coordinate.Broadcast
import Quorum.Coordinate.Delete
import Quorum.Coordinate.Publish
import Quorum.Chain.Scripted
import Quorum.Coordinate.Rehearsal
import Quorum.Chain.Binary
import Quorum.Chain.Generate
import Quorum.Chain.StandIn
import Quorum.Host.Machine
import Quorum.Main
import Quorum.Proofs.Scene
import Quorum.Proofs.Listing
import Quorum.Proofs.Paths
import Quorum.Proofs.Inspect
import Quorum.Proofs.Removal
import Quorum.Proofs.Broadcast
import Quorum.Proofs.Settle
import Quorum.Proofs.Replay
import Quorum.Proofs.Numerals
import Quorum.Proofs.Reading
import Quorum.Proofs.Signdata
import Quorum.Proofs.Publishing
import Quorum.Proofs.Layout
import Quorum.Proofs.Reliable
import Quorum.Proofs.Density
import Quorum.Proofs.Lifecycle
import Quorum.Proofs.Transcript
import Quorum.Proofs.Interleaving
import Quorum.Proofs.Reachable
import Quorum.Proofs.Encoding
import Quorum.Proofs.Signing
import Quorum.Proofs.Publication
import Quorum.Proofs.PlainPaths
import Quorum.Proofs.Mirror
import Quorum.Proofs.StoreRefinement
import Quorum.Proofs.Directories
import Quorum.Proofs.Deletion
import Quorum.Proofs.Census
import Quorum.Proofs.ListingText
import Quorum.Proofs.Guarantees
import Quorum.Proofs.PathSegments
import Quorum.Proofs.StoreConfinement
import Quorum.Proofs.DownloadConfinement
import Quorum.Proofs.Coins
import Quorum.Proofs.BalanceCheck
import Quorum.Proofs.WrittenJson
import Quorum.Proofs.NestingLimit
import Quorum.Proofs.AccountAnswers
import Quorum.Proofs.SkippedJson
import Quorum.Proofs.SubmissionOutcomes
