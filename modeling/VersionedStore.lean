import VersionedStore.Codec.Change
import VersionedStore.Codec.Update
import VersionedStore.Json.Reader
import VersionedStore.Main
import VersionedStore.Proofs.Catalog.Products
import VersionedStore.Proofs.Change.Adjustments
import VersionedStore.Proofs.Change.Sequence
import VersionedStore.Proofs.Codec.RoundTrip
import VersionedStore.Proofs.Config.Backoff
import VersionedStore.Proofs.Config.Settings
import VersionedStore.Proofs.Constraints.Validation
import VersionedStore.Proofs.Database.Operations
import VersionedStore.Proofs.Database.Preset
import VersionedStore.Proofs.Database.Race
import VersionedStore.Proofs.Database.Seeding
import VersionedStore.Proofs.Database.Validity
import VersionedStore.Proofs.Database.Winner
import VersionedStore.Proofs.Decimal.Shortest
import VersionedStore.Proofs.Document.Decode
import VersionedStore.Proofs.Double.Rounding
import VersionedStore.Proofs.Instant.Calendar
import VersionedStore.Proofs.Instant.Text
import VersionedStore.Proofs.Json.Numbers
import VersionedStore.Proofs.Json.Reading
import VersionedStore.Proofs.Json.Tokens
import VersionedStore.Proofs.Store.Commutation
import VersionedStore.Proofs.Store.Exclusion
import VersionedStore.Proofs.Store.Exhaustion
import VersionedStore.Proofs.Store.Indifference
import VersionedStore.Proofs.Store.Replay
import VersionedStore.Proofs.Store.Sessions
import VersionedStore.Proofs.Storm.Interleaving
import VersionedStore.Proofs.Storm.Stock
import VersionedStore.Proofs.Storm.Writes
import VersionedStore.Proofs.Token.Grammar
import VersionedStore.Proofs.Update.Cancellation
import VersionedStore.Proofs.Update.Conflicts
import VersionedStore.Proofs.Update.Conformance
import VersionedStore.Proofs.Update.Contention
import VersionedStore.Proofs.Update.Rereading
import VersionedStore.Proofs.Update.Serializability
import VersionedStore.Proofs.Update.Spans
import VersionedStore.Proofs.Update.Waiting
import VersionedStore.Store.Scripted
