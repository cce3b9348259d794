-- What a gathering asks of its peers and counts for them. Whatever they do, a
-- peer is asked until a request gets through to it, and it brings at most one
-- attestation.
import Admission.Crypto.Standard
import Admission.Proofs.Gathering

namespace Admission

/-! ## A sample -/

namespace Sample

local instance : Crypto := standardCrypto

/-- The string that these digits write. -/
def string (n digits : Nat) : ByteString n := ⟨bigEndian n digits, length_bigEndian n digits⟩

def secret : Secret :=
  string 32 0x9d61b19deffd5a60ba844af492ec2cc44449c5697b326919703bac031cae7f60

def key : PublicKey :=
  string 32 0xd75a980182b10ab7d54bfed3c964073a0ee172f3daa62325af021a68f707511a

def lock : Hash :=
  string 32 0x6c31041268f471609c79f5f2dbcc38e4a4ab2f4d416109a4e09fcf50fd0f0062

def id : Hash :=
  string 32 0xd4ccbdb3ff5bbe6790b2019ba472c576cf51e372f2f47c52b3c47b5109b99b80

/-- The string that two halves make up. -/
def halves (left right : ByteString 32) : ByteString 64 :=
  ⟨left.toList ++ right.toList, by simp⟩

def signature : Signature :=
  halves (string 32 0x8379c7e10dc77004bda9743c6de5314ba657dea36b010d9e7dc19c7dc4259b54)
    (string 32 0x0a2e58699dae359e5f0b6ae58a66e4cafb41d945486e4729453e8c7224677703)

def peerKey : PublicKey :=
  string 32 0x3d4017c3e843895a92b70aa74d1b7ebc9c982ccf2ec4968cc0cd55f12af4660c

def peerSignature : Signature :=
  halves (string 32 0xfd5851625c439121ca2c3f8928ad53372b6a66fccfa28ac07ae2aea51d68c467)
    (string 32 0x5b046f31ca7f828c5b2965f04d18388d3c85e4dc0f1d7174adbd6b1ef5c27403)

theorem publicKey_secret : key = Crypto.publicKey secret := by decide +kernel

def pair : Keypair := ⟨secret, key, publicKey_secret⟩

/-- One entry changes hands, from its owner to its owner. -/
def transaction : Transaction where
  inputs := [⟨⟨⟨List.replicate 32 2, List.length_replicate⟩, 0⟩, ⟨lock, 100⟩⟩]
  outputs := [⟨lock, 100⟩]
  witnesses := [⟨key, signature⟩]

def attestation : Attestation := ⟨key, signature⟩

def peerAttestation : Attestation := ⟨peerKey, peerSignature⟩

theorem lock_key : PublicKey.lock key = lock := by decide +kernel

theorem id_transaction : transaction.id = id := by decide +kernel

theorem verify_signature : Crypto.verify key id.toList signature = true := by decide +kernel

theorem verify_peerSignature : Crypto.verify peerKey id.toList peerSignature = true := by
  decide +kernel

theorem ofKeypair_pair : Attestation.ofKeypair pair id = attestation := by decide +kernel

theorem violation_transaction : transaction.violation = none := by
  have hshape : transaction.shapeViolation = none := by decide +kernel
  have hvalue : transaction.valueViolation = none := by decide +kernel
  have hwitness : transaction.witnessViolation = none := by
    unfold Transaction.witnessViolation
    rw [id_transaction]
    simp [transaction, Transaction.witnessViolationFrom, lock_key, Witness.verify,
      verify_signature]
  simp [Transaction.violation, hshape, hvalue, hwitness]

theorem reply_attestation :
    (Delivery.answered (.attestation attestation)).reply id = .attested attestation := by
  simp [Delivery.reply, Attestation.verify, attestation, verify_signature]

theorem reply_peerAttestation :
    (Delivery.answered (.attestation peerAttestation)).reply id = .attested peerAttestation := by
  simp [Delivery.reply, Attestation.verify, peerAttestation, verify_peerSignature]

end Sample

/-! ## What a gathering knows of its peers -/

section
variable [Crypto]

/-- What a gathering knows, as long as it goes on. -/
def Gathering.progress? : Gathering → Option Progress
  | .deciding p => some p
  | .asking p _ => some p
  | .pausing p _ => some p
  | .ended _ => none

/-- No peer stands in two of the lists, or twice in one that only grows, and all peers are known. -/
structure Progress.Apart (p : Progress) (g : Gatherer) : Prop where
  requested_unresponsive : ∀ peer ∈ p.quorum.requested, peer ∉ p.quorum.unresponsive
  requested_failed : ∀ peer ∈ p.quorum.requested, peer ∉ p.failed
  unresponsive_failed : ∀ peer ∈ p.quorum.unresponsive, peer ∉ p.failed
  requested_nodup : p.quorum.requested.Nodup
  unresponsive_nodup : p.quorum.unresponsive.Nodup
  requested_known : ∀ peer ∈ p.quorum.requested, peer < g.peers
  unresponsive_known : ∀ peer ∈ p.quorum.unresponsive, peer < g.peers
  failed_known : ∀ peer ∈ p.failed, peer < g.peers

/-- An attestation of the summary that was not there at the start. -/
def Progress.Added (p : Progress) (start : Summary) (e : Hash × Attestation) : Prop :=
  e ∈ p.quorum.summary.attestations.entries ∧ e ∉ start.attestations.entries

/-- This peer returned the attestation, and it is one over the transaction. -/
structure Progress.GivenBy (p : Progress) (start : Summary) (rs : List (Nat × Delivery))
    (e : Hash × Attestation) (peer : Nat) : Prop where
  requested : peer ∈ p.quorum.requested
  returned : (peer, .answered (.attestation e.2)) ∈ rs
  verifies : e.2.verify start.id = true
  ownKey : e.1 = e.2.publicKey

/-- The summary is the one at the start with attestations of peers, one of each. -/
structure Progress.Grown (p : Progress) (start : Summary) (rs : List (Nat × Delivery)) : Prop where
  id : p.quorum.summary.id = start.id
  inputs : p.quorum.summary.inputs = start.inputs
  outputs : p.quorum.summary.outputs = start.outputs
  kept : ∀ e ∈ start.attestations.entries, e ∈ p.quorum.summary.attestations.entries
  given : ∃ giver : Hash × Attestation → Nat,
    (∀ e, p.Added start e → p.GivenBy start rs e (giver e)) ∧
    ∀ e e', p.Added start e → p.Added start e' → giver e = giver e' → e = e'

namespace Progress

variable {p : Progress} {g : Gatherer} {start : Summary} {rs : List (Nat × Delivery)}

theorem Tells.apart (h : p.Tells g start rs) : p.Apart g := by
  have hfree : ∀ peer, (peer ∈ p.quorum.requested ∨ peer ∈ p.quorum.unresponsive) →
      peer ∉ p.failed := by
    intro peer hmem hfailed
    have hfree := (h.failed peer hfailed).2
    rw [QuorumState.excludes_iff.2 hmem] at hfree
    exact absurd hfree (by simp)
  have hknown : ∀ peer, (peer ∈ p.quorum.requested ∨ peer ∈ p.quorum.unresponsive) →
      peer < g.peers :=
    fun peer hmem => h.known peer (h.excludes_iff.1 (QuorumState.excludes_iff.2 hmem))
  refine ⟨?_, fun peer hmem => hfree peer (Or.inl hmem), fun peer hmem => hfree peer (Or.inr hmem),
    ?_, ?_, fun peer hmem => hknown peer (Or.inl hmem), fun peer hmem => hknown peer (Or.inr hmem),
    fun peer hmem => (h.failed peer hmem).1⟩
  · intro peer hrequested hunresponsive
    rw [h.requested] at hrequested
    rw [h.unresponsive] at hunresponsive
    obtain ⟨⟨asked, a⟩, ha, rfl⟩ := List.mem_map.1 hrequested
    obtain ⟨hanswer, hverify⟩ := mem_attestedBy.1 ha
    obtain ⟨d, hd, hsilent⟩ := mem_silentOf.1 hunresponsive
    -- The peer has one answer, which cannot be both an attestation and none.
    obtain rfl := answer_unique h.once hd hanswer (by simp [hsilent])
      (by simp [Delivery.reply, hverify])
    simp [Delivery.reply, hverify] at hsilent
  · rw [h.requested]
    exact h.once.sublist (attestedBy_sublist start.id rs)
  · rw [h.unresponsive]
    exact h.once.sublist (silentOf_sublist start.id rs)

/-- What was added came from a peer. -/
theorem Tells.givenBy (h : p.Tells g start rs) {e : Hash × Attestation} (he : p.Added start e) :
    ∃ peer, p.GivenBy start rs e peer := by
  obtain ⟨hmem, hnew⟩ := he
  rw [h.summary] at hmem
  rcases Summary.mem_collect _ _ e hmem with hmem | ⟨peer, hpeer, hkey⟩
  · exact absurd hmem hnew
  · obtain ⟨hanswer, hverify⟩ := mem_attestedBy.1 hpeer
    exact ⟨peer, by rw [h.requested]; exact List.mem_map_of_mem hpeer, hanswer, hverify, hkey⟩

/-- No peer gave two of them. -/
theorem Tells.given_unique (h : p.Tells g start rs) {e e' : Hash × Attestation} {peer : Nat}
    (he : p.GivenBy start rs e peer) (he' : p.GivenBy start rs e' peer) : e = e' := by
  have hsame := answer_unique h.once he.returned he'.returned
    (by simp [Delivery.reply, he.verifies]) (by simp [Delivery.reply, he'.verifies])
  have hattestation : e.2 = e'.2 := by simpa using hsame
  exact Prod.ext (by rw [he.ownKey, he'.ownKey, hattestation]) hattestation

theorem Tells.grown (h : p.Tells g start rs) : p.Grown start rs := by
  obtain ⟨hid, hinputs, houtputs⟩ :=
    Summary.fields_attestAll start ((attestedBy start.id rs).map (·.2))
  refine ⟨by rw [h.summary]; exact hid, by rw [h.summary]; exact hinputs,
    by rw [h.summary]; exact houtputs, ?_, ?_⟩
  · intro e he
    rw [h.summary]
    exact Summary.mem_attestAll_of_mem _ _ e he
  · classical
    refine ⟨fun e => if he : p.Added start e then (h.givenBy he).choose else 0, ?_, ?_⟩
    · intro e he
      simp only [dif_pos he]
      exact (h.givenBy he).choose_spec
    · intro e e' he he' hsame
      simp only [dif_pos he, dif_pos he'] at hsame
      exact h.given_unique (h.givenBy he).choose_spec (hsame ▸ (h.givenBy he').choose_spec)

end Progress

/-! ## What holds of every run -/

namespace Gathering

variable {g : Gatherer} {start : Summary} {rs : List (Nat × Delivery)} {stage : Gathering}
  {p : Progress}

theorem Tells.progress (h : stage.Tells g start rs) (hp : stage.progress? = some p) :
    p.Tells g start rs := by
  cases h with
  | deciding h | pausing h =>
    cases hp
    exact h
  | asking h may =>
    cases hp
    exact h
  | reached h enough | unreachable h few asked => cases hp
  | invalidated h may => cases hp

theorem Tells.not_answered {peer : Nat} (h : Tells g start rs (.asking p peer)) :
    peer ∉ dispatchedTo start.id rs := by
  cases h with
  | asking h may =>
    rw [← h.excludes_iff, may.fresh]
    simp

end Gathering

/-- No request goes to a peer that has answered, and no peer is counted twice. At each moment of
a gathering the lists of peers have nobody in common, the summary has grown by attestations of
different peers only, and the peers that a request got through to are asked no more. -/
theorem a_peer_is_not_asked_again_or_counted_twice (g : Gatherer) (start : Summary)
    (hs : List Happening) (stage : Gathering) (h : g.run start hs = some stage) :
    (∀ p, stage.progress? = some p → p.Apart g ∧ p.Grown start (g.replies start hs)) ∧
      (dispatchedTo start.id (g.replies start hs)).Nodup ∧
      ∀ more p peer, g.run start (hs ++ more) = some (.asking p peer) →
        peer ∉ dispatchedTo start.id (g.replies start hs) := by
  have htells := Gatherer.run_tells h
  refine ⟨?_, htells.once, ?_⟩
  · intro p hp
    have hp := htells.progress hp
    exact ⟨hp.apart, hp.grown⟩
  · intro more p peer hasks hanswered
    have hfresh := (Gatherer.run_tells hasks).not_answered
    obtain ⟨d, hd, hreply⟩ := mem_dispatchedTo.1 hanswered
    have hlater := (Gatherer.replies_grow g start hs more).subset hd
    exact hfresh (mem_dispatchedTo.2 ⟨d, hlater, hreply⟩)

end

namespace Sample

local instance : Crypto := standardCrypto

/-- Four peers, of which the first cannot be reached at first and then turns out to hold the same
key as the second, and the last is silent. -/
def happenings : List Happening :=
  [.drew [0], .replied .undelivered, .drew [4, 1], .replied (.answered (.attestation attestation)),
    .drew [5, 0], .replied (.answered (.attestation attestation)), .drew [3], .replied .timedOut,
    .drew [7, 2]]

def start : Summary := ⟨id, [lock], [lock], .empty⟩

/-- Only the third peer is left to be asked. -/
def progress : Progress := ⟨⟨start.attest attestation, [1, 0], [3]⟩, [], 0⟩

theorem run_happenings :
    (Gatherer.mk 4 3 100 20).run start happenings = some (.asking progress 2) := by
  refine Run.reach_cons (Gathering.after_drew_ask 0 (by decide +kernel)) ?_
  refine Run.reach_cons (Gathering.after_replied rfl) ?_
  refine Run.reach_cons (Gathering.after_drew_ask 1 (by decide +kernel)) ?_
  refine Run.reach_cons (Gathering.after_replied reply_attestation) ?_
  refine Run.reach_cons (Gathering.after_drew_ask 0 (by decide +kernel)) ?_
  refine Run.reach_cons (Gathering.after_replied reply_attestation) ?_
  refine Run.reach_cons (Gathering.after_drew_ask 3 (by decide +kernel)) ?_
  refine Run.reach_cons (Gathering.after_replied rfl) ?_
  exact Run.reach_cons (Gathering.after_drew_ask 2 (by decide +kernel)) rfl

/-- Two peers gave one attestation between them, and a third gave none: none of them is asked
again. -/
theorem three_of_four_peers_are_done :
    (Gatherer.mk 4 3 100 20).run start happenings = some (.asking progress 2) ∧
      progress.Apart ⟨4, 3, 100, 20⟩ ∧
      progress.Grown start ((Gatherer.mk 4 3 100 20).replies start happenings) ∧
      (dispatchedTo id ((Gatherer.mk 4 3 100 20).replies start happenings)).Nodup ∧
      ∀ more p peer,
        (Gatherer.mk 4 3 100 20).run start (happenings ++ more) = some (.asking p peer) →
          peer ∉ dispatchedTo id ((Gatherer.mk 4 3 100 20).replies start happenings) := by
  have h := a_peer_is_not_asked_again_or_counted_twice ⟨4, 3, 100, 20⟩ start happenings _
    run_happenings
  obtain ⟨hprogress, hrest⟩ := h
  obtain ⟨hapart, hgrown⟩ := hprogress progress rfl
  exact ⟨run_happenings, hapart, hgrown, hrest⟩

end Sample

end Admission
