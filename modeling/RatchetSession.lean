import RatchetSession.Scenario.Perform
import RatchetSession.Proofs.Separation
import RatchetSession.Proofs.Objects
import RatchetSession.Proofs.Refinement
import RatchetSession.Proofs.Changes
import RatchetSession.Proofs.ScenarioRuns
import RatchetSession.Proofs.Coherence
import RatchetSession.Proofs.Isolation
import RatchetSession.Proofs.Task
import RatchetSession.Proofs.Turning
import RatchetSession.Proofs.Failure
import RatchetSession.Proofs.Step
import RatchetSession.Proofs.Founding
import RatchetSession.Proofs.Lifecycle
import RatchetSession.Proofs.KeySchedule
import RatchetSession.Proofs.Pair
import RatchetSession.Proofs.Directions
import RatchetSession.Proofs.Refusal
import RatchetSession.Proofs.Counters
import RatchetSession.Proofs.ClosedForm
import RatchetSession.Proofs.Delivery
import RatchetSession.Proofs.KeySeparation
import RatchetSession.Proofs.Calls
import RatchetSession.Proofs.Handles
import RatchetSession.Proofs.Upkeep
import RatchetSession.Proofs.Authenticated
import RatchetSession.Proofs.History
import RatchetSession.Proofs.FaultKinds
import RatchetSession.Proofs.Independence
import RatchetSession.Proofs.Transcript
import RatchetSession.Proofs.Secrecy
import RatchetSession.Proofs.Origins
import RatchetSession.Proofs.CatchUp
import RatchetSession.Proofs.PeerKeys
import RatchetSession.Proofs.Admission
import RatchetSession.Proofs.Acceptance
import RatchetSession.Proofs.Sealing
import RatchetSession.Proofs.HashInputs
import RatchetSession.Proofs.HexText
import RatchetSession.Proofs.Base64Text
import RatchetSession.Proofs.Numerals
import RatchetSession.Proofs.Settings
