import ManagedImage.Bytes.LittleEndian.Lemmas
import ManagedImage.Ownership.Scenario
import ManagedImage.Proofs.Code.Commitment
import ManagedImage.Proofs.Code.Ordering
import ManagedImage.Proofs.Code.Patching
import ManagedImage.Proofs.Code.Retrying
import ManagedImage.Proofs.Deferred.History
import ManagedImage.Proofs.Failing.Halfway
import ManagedImage.Proofs.Heap.LengthForms
import ManagedImage.Proofs.Identity.Coded
import ManagedImage.Proofs.Laziness.Run
import ManagedImage.Proofs.Members.Owners
import ManagedImage.Proofs.Members.Partition
import ManagedImage.Proofs.Nesting.Replacing
import ManagedImage.Proofs.Ownership.Attaching
import ManagedImage.Proofs.Sink.Filling
import ManagedImage.Proofs.Stream.HeaderCodec
import ManagedImage.Proofs.Stream.References
import ManagedImage.Proofs.Stream.RoundTrip
import ManagedImage.Proofs.Stream.StandardLayout
import ManagedImage.Proofs.Table.Sequence
import ManagedImage.Proofs.Traversal.FullNames
import ManagedImage.Session.Run
import ManagedImage.Proofs.Heap.Texts
import ManagedImage.Proofs.Table.Fusing
import ManagedImage.Proofs.Table.Placing
