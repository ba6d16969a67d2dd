import HotSwap.Main
import HotSwap.Proofs.Discovery
import HotSwap.Proofs.Custody.Places
import HotSwap.Proofs.Custody.Ownership
import HotSwap.Proofs.Reload.Failure
import HotSwap.Proofs.Reload.History
import HotSwap.Proofs.Generations.Succession
import HotSwap.Proofs.Admission.Shutdown
import HotSwap.Proofs.Admission.Coverage
import HotSwap.Proofs.Custody.Loss
import HotSwap.Proofs.Requests.Execution
import HotSwap.Proofs.Generations.Visibility
import HotSwap.Proofs.Requests.Course
import HotSwap.Proofs.Reload.Abandoned
import HotSwap.Proofs.Custody.Sharing
import HotSwap.Proofs.Reload.Lag
import HotSwap.Proofs.Requests.Outcome
import HotSwap.Proofs.Graphql.Adapter
import HotSwap.Proofs.Graphql.RequestRoundTrip
import HotSwap.Proofs.Draining.HandOver
import HotSwap.Proofs.Triggers.Lossless
import HotSwap.Proofs.Startup.Staging
import HotSwap.Proofs.Settings.Measures
import HotSwap.Proofs.Settings.Layers
import HotSwap.Proofs.Requests.Origins
import HotSwap.Proofs.Startup.Contexts
