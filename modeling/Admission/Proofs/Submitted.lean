-- What is handed to the coordinator. It is one summary, however often it takes
-- to hand it over, and it carries as many attestations as are required: the
-- gathering stops as soon as there are enough, and nothing else adds to them.
import Admission.Proofs.Course
import Admission.Proofs.Peers

namespace Admission

section
variable [Crypto]

/-! ## The first summary -/

namespace Sentinel

/-- The first summary carries the sentinel's own attestation, where it can give one that is
required, and otherwise nothing. -/
theorem firstSummary_cases (s : Sentinel) (t : Transaction) :
    (0 < s.gatherer.threshold ∧ ∃ pair, s.keypair = some pair ∧
      s.firstSummary t = (Summary.ofTransaction t).attest (.ofKeypair pair t.id)) ∨
    ((s.gatherer.threshold = 0 ∨ s.keypair = none) ∧
      s.firstSummary t = Summary.ofTransaction t) := by
  unfold firstSummary
  by_cases hthreshold : 0 < s.gatherer.threshold
  · simp only [if_pos hthreshold]
    cases hkey : s.keypair with
    | none => exact Or.inr ⟨Or.inr rfl, rfl⟩
    | some pair => exact Or.inl ⟨hthreshold, pair, rfl, rfl⟩
  · rw [if_neg hthreshold]
    exact Or.inr ⟨Or.inl (Nat.eq_zero_of_not_pos hthreshold), rfl⟩

theorem firstSummary_of_keypair {s : Sentinel} {t : Transaction} {pair : Keypair}
    (hthreshold : 0 < s.gatherer.threshold) (hpair : s.keypair = some pair) :
    s.firstSummary t = (Summary.ofTransaction t).attest (.ofKeypair pair t.id) := by
  rcases firstSummary_cases s t with ⟨_, own, hown, hfirst⟩ | ⟨hnone, _⟩
  · obtain rfl : own = pair := Option.some.inj (hown.symm.trans hpair)
    exact hfirst
  · rcases hnone with hnone | hnone
    · exact absurd hnone (Nat.ne_of_gt hthreshold)
    · rw [hnone] at hpair
      cases hpair

theorem fields_firstSummary (s : Sentinel) (t : Transaction) :
    (s.firstSummary t).id = t.id ∧ (s.firstSummary t).inputs = t.inputIds ∧
      (s.firstSummary t).outputs = t.outputIds := by
  rcases firstSummary_cases s t with ⟨_, _, _, hfirst⟩ | ⟨_, hfirst⟩ <;> rw [hfirst] <;>
    exact ⟨rfl, rfl, rfl⟩

theorem entries_firstSummary (s : Sentinel) (t : Transaction) :
    (s.firstSummary t).attestations.entries = [] ∨
      (0 < s.gatherer.threshold ∧ ∃ pair, s.keypair = some pair ∧
        (s.firstSummary t).attestations.entries = [(pair.publicKey, .ofKeypair pair t.id)]) := by
  rcases firstSummary_cases s t with ⟨hthreshold, pair, hpair, hfirst⟩ | ⟨_, hfirst⟩
  · rw [hfirst]
    exact Or.inr ⟨hthreshold, pair, hpair, rfl⟩
  · rw [hfirst]
    exact Or.inl rfl

theorem size_firstSummary_le (s : Sentinel) (t : Transaction) :
    (s.firstSummary t).attestations.size ≤ s.gatherer.threshold := by
  unfold Table.size
  rcases entries_firstSummary s t with hentries | ⟨hthreshold, _, _, hentries⟩ <;> rw [hentries]
  · exact Nat.zero_le _
  · exact hthreshold

end Sentinel

/-! ## What was gathered -/

/-- The summary of a transaction as the coordinator gets it: with as many attestations as are
required, each by a different key, and the sentinel's own among them if it can give one. -/
structure Summary.CompleteFor (x : Summary) (s : Sentinel) (t : Transaction) : Prop where
  id : x.id = t.id
  inputs : x.inputs = t.inputIds
  outputs : x.outputs = t.outputIds
  count : x.attestations.size = s.gatherer.threshold
  keys : x.attestations.keys.Nodup
  ownKey : ∀ e ∈ x.attestations.entries, e.1 = e.2.publicKey
  verifies : ∀ e ∈ x.attestations.entries, e.2.verify t.id = true
  own : 0 < s.gatherer.threshold → ∀ pair, s.keypair = some pair →
    (pair.publicKey, .ofKeypair pair t.id) ∈ x.attestations.entries

namespace Sentinel

variable {s : Sentinel} {t : Transaction} {hs : List Happening} {x : Summary}

/-- A gathering stops at the number of attestations that is required. -/
theorem size_of_reached (h : s.gatherer.run (s.firstSummary t) hs = some (.ended (.reached x))) :
    x.attestations.size = s.gatherer.threshold := by
  obtain ⟨_, henough, hatMost, _⟩ := (Gatherer.run_tells h).of_reached
  rw [Nat.max_eq_left (size_firstSummary_le s t)] at hatMost
  exact Nat.le_antisymm hatMost henough

theorem completeFor_of_reached
    (hown : ∀ pair, s.keypair = some pair → (Attestation.ofKeypair pair t.id).verify t.id = true)
    (h : s.gatherer.run (s.firstSummary t) hs = some (.ended (.reached x))) :
    x.CompleteFor s t := by
  obtain ⟨hcollect, _⟩ := (Gatherer.run_tells h).of_reached
  obtain ⟨hid, hinputs, houtputs⟩ := fields_firstSummary s t
  obtain ⟨hid', hinputs', houtputs'⟩ := Summary.fields_attestAll (s.firstSummary t)
    ((attestedBy (s.firstSummary t).id (s.gatherer.replies (s.firstSummary t) hs)).map (·.2))
  have hsource : ∀ e ∈ x.attestations.entries, e.1 = e.2.publicKey ∧ e.2.verify t.id = true := by
    intro e he
    rw [hcollect] at he
    rcases Summary.mem_collect _ _ e he with hmem | ⟨peer, hpeer, hkey⟩
    · rcases entries_firstSummary s t with hentries | ⟨_, pair, hpair, hentries⟩
      · rw [hentries] at hmem
        cases hmem
      · rw [hentries, List.mem_singleton] at hmem
        subst hmem
        exact ⟨rfl, hown pair hpair⟩
    · rw [hid] at hpeer
      exact ⟨hkey, (mem_attestedBy.1 hpeer).2⟩
  refine ⟨?_, ?_, ?_, size_of_reached h, x.attestations.keys_nodup,
    fun e he => (hsource e he).1, fun e he => (hsource e he).2, ?_⟩
  · rw [hcollect]
    exact hid'.trans hid
  · rw [hcollect]
    exact hinputs'.trans hinputs
  · rw [hcollect]
    exact houtputs'.trans houtputs
  · intro hthreshold pair hpair
    rw [hcollect]
    refine Summary.mem_attestAll_of_mem _ _ _ ?_
    rw [firstSummary_of_keypair hthreshold hpair]
    exact List.mem_singleton.2 rfl

theorem no_request_of_threshold_zero (hzero : s.gatherer.threshold = 0) (peer : Nat) :
    .requestAttestation peer ∉ s.sent t hs := by
  intro hmem
  obtain ⟨_, early, later, p, rfl, hasks⟩ := asking_of_request hmem
  have hfew := (Gatherer.run_tells hasks).mayAsk.few
  rw [hzero] at hfew
  exact absurd hfew (Nat.not_lt_zero _)

end Sentinel

/-! ## What is submitted -/

/-- In the handling of a transaction at most one attempt to submit is accepted. Each attempt hands
over the same summary: that of a transaction that breaks no rule, with exactly the attestations
that are required. Where none are required it has none, and no peer is asked. -/
theorem one_complete_summary_is_submitted (s : Sentinel) (t : Transaction) (hs : List Happening)
    (e : Execution)
    (hown : ∀ pair, s.keypair = some pair → (Attestation.ofKeypair pair t.id).verify t.id = true)
    (h : s.run t hs = some e) :
    hs.count .accepted ≤ 1 ∧
      (∀ x, .submit x ∈ s.sent t hs → t.violation = none ∧ x.CompleteFor s t) ∧
      (s.gatherer.threshold = 0 →
        (∀ x, .submit x ∈ s.sent t hs → x.attestations = .empty) ∧
          ∀ peer, .requestAttestation peer ∉ s.sent t hs) ∧
      ∀ x y, .submit x ∈ s.sent t hs → .submit y ∈ s.sent t hs → x = y := by
  have hcomplete : ∀ x, .submit x ∈ s.sent t hs → t.violation = none ∧ x.CompleteFor s t := by
    intro x hx
    obtain ⟨hvalid, early, later, rfl, hreached⟩ := Sentinel.gathered_of_submit hx
    exact ⟨hvalid, Sentinel.completeFor_of_reached hown hreached⟩
  refine ⟨(Sentinel.run_course h).count_accepted_le, hcomplete, ?_, ?_⟩
  · intro hzero
    refine ⟨fun x hx => ?_, Sentinel.no_request_of_threshold_zero hzero⟩
    have hsize := (hcomplete x hx).2.count
    rw [hzero] at hsize
    exact Table.ext (List.length_eq_zero_iff.1 hsize)
  · intro x y hx hy
    obtain ⟨_, early, later, hsplit, hreached⟩ := Sentinel.gathered_of_submit hx
    obtain ⟨_, early', later', hsplit', hreached'⟩ := Sentinel.gathered_of_submit hy
    have hsame := Gatherer.ended_unique hreached hreached' ⟨later, hsplit.symm⟩
      ⟨later', hsplit'.symm⟩
    exact Gathered.reached.inj hsame

end

namespace Sample

local instance : Crypto := standardCrypto

/-- A sentinel with two peers that requires some attestations. -/
def sentinel (threshold : Nat) : Sentinel := ⟨some pair, ⟨2, threshold, 100, 20⟩, 20⟩

/-- The summary of the sample transaction with the attestation of its owner. -/
def attested : Summary := (Summary.ofTransaction transaction).attest attestation

theorem reply_attested : (Delivery.answered (.attestation peerAttestation)).reply attested.id =
    .attested peerAttestation := by
  rw [show attested.id = id from id_transaction]
  exact reply_peerAttestation

theorem firstSummary_sentinel {threshold : Nat} (h : 0 < threshold) :
    (sentinel threshold).firstSummary transaction = attested := by
  rw [Sentinel.firstSummary_of_keypair h rfl, id_transaction, ofKeypair_pair]
  rfl

theorem verify_ofKeypair (threshold : Nat) (own : Keypair)
    (hown : (sentinel threshold).keypair = some own) :
    (Attestation.ofKeypair own transaction.id).verify transaction.id = true := by
  obtain rfl : pair = own := Option.some.inj hown
  rw [id_transaction, ofKeypair_pair]
  exact verify_signature

def gathering : List Happening :=
  [.drew [1], .replied (.answered (.attestation peerAttestation)), .drew []]

theorem run_gathering :
    (sentinel 2).gatherer.run ((sentinel 2).firstSummary transaction) gathering =
      some (.ended (.reached (attested.attest peerAttestation))) := by
  rw [firstSummary_sentinel (by decide)]
  refine Run.reach_cons (Gathering.after_drew_ask 1 (by decide +kernel)) ?_
  refine Run.reach_cons (Gathering.after_replied reply_attested) ?_
  exact Run.reach_cons (Gathering.after_drew_reached (by decide +kernel)) rfl

/-- The second attempt is accepted, and the coordinator commits. -/
def submission : List Happening := [.refused, .rested, .accepted, .concluded (some true)]

theorem run_submission :
    (sentinel 2).run transaction (gathering ++ submission) =
      some (.answered (some .confirmed)) := by
  have hsubmission : Submission.run (attested.attest peerAttestation) submission =
      some (.ended (some true)) := rfl
  exact Sentinel.run_of_submission violation_transaction run_gathering hsubmission

theorem submit_mem_sent :
    .submit (attested.attest peerAttestation) ∈
      (sentinel 2).sent transaction (gathering ++ submission) :=
  Sentinel.mem_sent.2 ⟨gathering, submission, _, rfl,
    Sentinel.run_of_gathering violation_transaction run_gathering, rfl⟩

/-- A summary with the attestations of the sentinel and of a peer is handed over twice, and
accepted once. -/
theorem two_attestations_are_submitted :
    (∀ own, (sentinel 2).keypair = some own →
      (Attestation.ofKeypair own transaction.id).verify transaction.id = true) ∧
    (sentinel 2).run transaction (gathering ++ submission) =
      some (.answered (some .confirmed)) ∧
    (gathering ++ submission).count .accepted ≤ 1 ∧
    transaction.violation = none ∧
    (attested.attest peerAttestation).CompleteFor (sentinel 2) transaction ∧
    ∀ x, .submit x ∈ (sentinel 2).sent transaction (gathering ++ submission) →
      x = attested.attest peerAttestation := by
  obtain ⟨honce, hcomplete, _, hsame⟩ := one_complete_summary_is_submitted (sentinel 2) transaction
    (gathering ++ submission) _ (verify_ofKeypair 2) run_submission
  obtain ⟨hvalid, hsubmitted⟩ := hcomplete _ submit_mem_sent
  exact ⟨verify_ofKeypair 2, run_submission, honce, hvalid, hsubmitted,
    fun x hx => hsame x _ hx submit_mem_sent⟩

end Sample

end Admission
