-- Admission of transactions into a ledger that commits in two phases: a
-- sentinel checks a transaction, gathers the attestations of its peers, and
-- hands the summary to a coordinator.
import Admission.Fleet
import Admission.Main
import Admission.Wire.ReadBack
import Admission.Proofs.Gathering
import Admission.Proofs.Configuration
import Admission.Proofs.Course
import Admission.Proofs.HonestPeers
import Admission.Proofs.Entries
import Admission.Proofs.Rules
import Admission.Proofs.Surroundings
import Admission.Proofs.Habits
import Admission.Proofs.Deliveries
import Admission.Proofs.HealthyFleet
import Admission.Proofs.Streams
import Admission.Proofs.OwnKeys
import Admission.Proofs.Thresholds
import Admission.Proofs.Handover
import Admission.Proofs.Records
import Admission.Proofs.Unspent
import Admission.Proofs.Conducts
import Admission.Proofs.Dispatches
import Admission.Proofs.Frames
import Admission.Proofs.Connections
import Admission.Proofs.Service
import Admission.Proofs.Endings
import Admission.Proofs.Pauses
import Admission.Proofs.Identifiers
import Admission.Proofs.Flights
import Admission.Proofs.Draws
import Admission.Proofs.SharedSettings
import Admission.Proofs.Forwarding
import Admission.Proofs.Signing
import Admission.Proofs.Repetitions
import Admission.Proofs.Insertions
import Admission.Proofs.PauseLengths
import Admission.Proofs.SecretTexts
import Admission.Proofs.Approaches
import Admission.Proofs.Doublings
import Admission.Proofs.Misses
import Admission.Proofs.Overrides
