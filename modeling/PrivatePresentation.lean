import PrivatePresentation.Endpoint.Handler
import PrivatePresentation.Http.Description
import PrivatePresentation.Json.Map
import PrivatePresentation.Main
import PrivatePresentation.Proofs.Circuit.Compilation
import PrivatePresentation.Proofs.Circuit.Preservation
import PrivatePresentation.Proofs.Circuit.Satisfaction
import PrivatePresentation.Proofs.Schema.Acceptance
import PrivatePresentation.Proofs.Service.Pins
import PrivatePresentation.Proofs.Service.SetupOnce
import PrivatePresentation.Proofs.Service.Verifiable
import PrivatePresentation.Proofs.Service.Waiting
import PrivatePresentation.Proofs.Service.Wallet
import PrivatePresentation.Proving.Course
import PrivatePresentation.Service.Description
import PrivatePresentation.Service.KeyTask
import PrivatePresentation.Proofs.Curve.Codec
import PrivatePresentation.Proofs.Circuit.Atomicity
import PrivatePresentation.Proofs.Circuit.Blame
import PrivatePresentation.Proofs.Circuit.Cost
import PrivatePresentation.Proofs.Circuit.Literal
import PrivatePresentation.Proofs.Circuit.Synthesis
import PrivatePresentation.Proofs.Circuit.ValueFree
import PrivatePresentation.Proofs.Groth16.RoundTrip
import PrivatePresentation.Proofs.Circuit.Fingerprint
import PrivatePresentation.Proofs.Circuit.Slots
import PrivatePresentation.Proofs.Schema.Agreement
import PrivatePresentation.Proofs.Service.Sweep
import PrivatePresentation.Proofs.Service.Expiry
import PrivatePresentation.Proofs.Service.WaiterHistory
import PrivatePresentation.Proofs.Time.DateForm
import PrivatePresentation.Proofs.Time.WholeSecond
import PrivatePresentation.Proofs.Time.Moment
import PrivatePresentation.Proofs.Decimal.Rounding
import PrivatePresentation.Proofs.Circuit.Truncation
import PrivatePresentation.Proofs.Json.WholeNumbers
import PrivatePresentation.Proofs.Json.KeyOrder
import PrivatePresentation.Proofs.Groth16.Spelling
import PrivatePresentation.Proofs.Hash.ContentDigest
import PrivatePresentation.Proofs.Presentation.Deeplink
import PrivatePresentation.Proofs.Service.Callbacks
import PrivatePresentation.Proofs.Circuit.Window
