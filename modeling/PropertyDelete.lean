import PropertyDelete.Main
import PropertyDelete.Site.ByTarget
import PropertyDelete.Proofs.Host.Transparency
import PropertyDelete.Proofs.Program.Preservation
import PropertyDelete.Proofs.Delete.Thorough
import PropertyDelete.Proofs.Site.Lifecycle
import PropertyDelete.Proofs.Site.Polymorphism
import PropertyDelete.Proofs.Delete.Polymorphism
import PropertyDelete.Proofs.Delete.Strictness
import PropertyDelete.Proofs.Host.Strictness
import PropertyDelete.Proofs.Foreign.Removal
import PropertyDelete.Proofs.Delete.Atomicity
import PropertyDelete.Proofs.Host.Interruption
import PropertyDelete.Proofs.Program.Interruption
import PropertyDelete.Proofs.Delete.HostContract
import PropertyDelete.Proofs.Delete.Existence
import PropertyDelete.Proofs.Delete.Protocol
import PropertyDelete.Proofs.Host.Order
import PropertyDelete.Proofs.Key.Conversion
import PropertyDelete.Proofs.Key.Numeric
import PropertyDelete.Proofs.Key.Storage
import PropertyDelete.Proofs.Program.Accounting
import PropertyDelete.Proofs.Heap.Unfolding
import PropertyDelete.Proofs.Delete.History
import PropertyDelete.Proofs.Program.EarlyErrors
import PropertyDelete.Proofs.Delete.Messages
import PropertyDelete.Proofs.Delete.Members
import PropertyDelete.Proofs.Delete.Reading
import PropertyDelete.Proofs.Object.Lookup
import PropertyDelete.Proofs.Text.Surrogates
