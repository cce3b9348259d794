-- A fleet in which everyone is well. Each peer that is asked attests at once, so
-- a gathering asks just as many peers as it needs attestations beside its own.
import Admission.Proofs.Deliveries
import Admission.Proofs.Habits

namespace Admission

section
variable [Crypto]

/-- A fleet that is well, as one of its sentinels finds it with a transaction: it has a key, every
peer is a sentinel with another one, and each time one is asked it is reached. The signatures that
the peers make verify. -/
structure Surroundings.Healthy (w : Surroundings) (s : Sentinel) (own : Keypair)
    (peers : Nat → Keypair) (t : Transaction) : Prop where
  keypair : s.keypair = some own
  different : ∀ peer < s.gatherer.peers, ∀ other < s.gatherer.peers,
    (peers peer).publicKey = (peers other).publicKey → peer = other
  apart : ∀ peer < s.gatherer.peers, (peers peer).publicKey ≠ own.publicKey
  verifies : ∀ peer < s.gatherer.peers, (Attestation.ofKeypair (peers peer) t.id).verify t.id = true
  reached : ∀ peer < s.gatherer.peers, ∀ request,
    ∃ (sentinel : Sentinel) (o : OtherEnd) (handover connectTimeout : Nat),
      sentinel.keypair = some (peers peer) ∧
        o.Reaches sentinel handover connectTimeout s.gatherer.peerTimeout t ∧
        w.delivery peer request = o.delivery handover connectTimeout s.gatherer.peerTimeout t

/-- No peer has let the gathering down, and there is no pause. -/
def Gathering.Undisturbed (stage : Gathering) : Prop :=
  (∀ p milliseconds, stage ≠ .pausing p milliseconds) ∧
    ∀ p, stage.progress? = some p → p.quorum.unresponsive = [] ∧ p.failed = []

/-- Peers that attest at once. -/
def promptHabits (peers : Nat → Keypair) (peer : Nat) : Habit := ⟨0, some (peers peer).publicKey⟩

/-! ## Replies that all attest -/

/-- All requests were dispatched. -/
theorem dispatchedTo_of_attested {id : Hash} {rs : List (Nat × Delivery)}
    (h : ∀ r ∈ rs, ∃ a, r.2.reply id = .attested a) : dispatchedTo id rs = rs.map (·.1) := by
  unfold dispatchedTo
  rw [List.filter_eq_self.2]
  intro r hr
  obtain ⟨a, ha⟩ := h r hr
  simp [wasDispatched, ha]

theorem Gatherer.undisturbed_of_attested {g : Gatherer} {start : Summary} {hs : List Happening}
    {stage : Gathering} (hrun : g.run start hs = some stage)
    (h : ∀ r ∈ g.replies start hs, ∃ a, r.2.reply start.id = .attested a) :
    stage.Undisturbed := by
  have hcalm : ∀ p, stage.progress? = some p → p.quorum.unresponsive = [] ∧ p.failed = [] := by
    intro p hp
    constructor
    · rw [((run_tells hrun).progress hp).unresponsive, List.eq_nil_iff_forall_not_mem]
      intro peer hpeer
      obtain ⟨d, hd, hsilent⟩ := mem_silentOf.1 hpeer
      obtain ⟨a, ha⟩ := h _ hd
      rw [hsilent] at ha
      cases ha
    · rw [List.eq_nil_iff_forall_not_mem]
      intro peer hpeer
      obtain ⟨d, hd, hmissed⟩ := run_failsBy hrun p hp peer hpeer
      obtain ⟨a, ha⟩ := h _ hd
      rw [hmissed] at ha
      cases ha
  refine ⟨?_, hcalm⟩
  -- A pause needs a peer that failed, and none has.
  rintro p milliseconds rfl
  obtain ⟨_, hfailed⟩ := run_paced hrun
  rw [(hcalm p rfl).2] at hfailed
  exact absurd hfailed (Nat.lt_irrefl 0)

namespace Surroundings.Healthy

variable {w : Surroundings} {s : Sentinel} {own : Keypair} {peers : Nat → Keypair} {t : Transaction}

/-! ## Which keys there are -/

theorem keySet_first (h : w.Healthy s own peers t) (hthreshold : 1 ≤ s.gatherer.threshold) :
    (s.firstSummary t).keySet = {own.publicKey} := by
  rw [Sentinel.firstSummary_of_keypair hthreshold h.keypair, Summary.keySet_attest]
  rfl

theorem attestingKeys_eq (peers : Nat → Keypair) (n : Nat) :
    attestingKeys (promptHabits peers) n =
      (Finset.range n).image fun peer => (peers peer).publicKey :=
  Finset.biUnion_singleton

/-- The keys of the fleet are as many as its members. -/
theorem card_keys (h : w.Healthy s own peers t) (hthreshold : 1 ≤ s.gatherer.threshold) :
    ((s.firstSummary t).keySet ∪ attestingKeys (promptHabits peers) s.gatherer.peers).card =
      s.gatherer.peers + 1 := by
  have hinjective : Set.InjOn (fun peer => (peers peer).publicKey)
      (Finset.range s.gatherer.peers : Set Nat) := by
    intro peer hpeer other hother
    exact h.different peer (Finset.mem_range.1 hpeer) other (Finset.mem_range.1 hother)
  have hnew : own.publicKey ∉
      (Finset.range s.gatherer.peers).image fun peer => (peers peer).publicKey := by
    intro hmem
    obtain ⟨peer, hpeer, hkey⟩ := Finset.mem_image.1 hmem
    exact h.apart peer (Finset.mem_range.1 hpeer) hkey
  rw [h.keySet_first hthreshold, attestingKeys_eq, Finset.singleton_union,
    Finset.card_insert_of_notMem hnew, Finset.card_image_of_injOn hinjective, Finset.card_range]

/-! ## What each peer does -/

section
variable [StrictCrypto] (h : w.Healthy s own peers t) (hvalid : t.violation = none)
  (hfits : (Wire.send Wire.request (.validate t)).isSome = true)
include h hvalid hfits

theorem attests {peer : Nat} (hpeer : peer < s.gatherer.peers) (request : Nat) :
    (w.delivery peer request).reply (s.firstSummary t).id =
      .attested (.ofKeypair (peers peer) t.id) := by
  obtain ⟨sentinel, o, handover, connectTimeout, hpair, hreaches, hdelivery⟩ :=
    h.reached peer hpeer request
  have hverifies := h.verifies peer hpeer
  have hdelivered := hreaches.delivery hpair hvalid (t.sendable_of_valid hvalid hfits) hfits
    (StrictCrypto.of_verify hverifies)
  rw [(Sentinel.fields_firstSummary s t).1, hdelivery, hdelivered]
  exact Delivery.reply_eq_attested.2 ⟨rfl, hverifies⟩

theorem follow : w.Follow (promptHabits peers) s.gatherer (s.firstSummary t) := by
  intro peer hpeer request
  have hattests := h.attests hvalid hfits hpeer request
  refine ⟨fun hmiss => absurd hmiss (Nat.not_lt_zero _), ?_, ?_⟩
  · intro _ key hkey
    exact ⟨_, hattests, Option.some.inj hkey⟩
  · intro _ hnone
    cases hnone

/-! ## What the gathering comes to -/

variable {hs : List Happening}

theorem attested_of_mem {peer : Nat} {d : Delivery}
    (hgave : w.Gave (s.gatherer.replies (s.firstSummary t) hs))
    (hmem : (peer, d) ∈ s.gatherer.replies (s.firstSummary t) hs) :
    d.reply (s.firstSummary t).id = .attested (.ofKeypair (peers peer) t.id) := by
  obtain ⟨request, rfl⟩ := hgave.delivered hmem
  exact h.attests hvalid hfits (Gatherer.known_of_mem_replies hmem) request

/-- The keys that come together are the sentinel's own and those of the peers that were asked. -/
theorem mem_keySet_collect (hthreshold : 1 ≤ s.gatherer.threshold)
    (hgave : w.Gave (s.gatherer.replies (s.firstSummary t) hs)) (key : PublicKey) :
    key ∈ ((s.firstSummary t).collect (s.gatherer.replies (s.firstSummary t) hs)).keySet ↔
      key = own.publicKey ∨ ∃ peer ∈ (s.gatherer.replies (s.firstSummary t) hs).map (·.1),
        (peers peer).publicKey = key := by
  rw [Summary.mem_keySet_collect, h.keySet_first hthreshold, Finset.mem_singleton]
  refine or_congr_right ?_
  constructor
  · rintro ⟨peer, a, ha, rfl⟩
    obtain ⟨hmem, hverify⟩ := mem_attestedBy.1 ha
    have hattested := h.attested_of_mem hvalid hfits hgave hmem
    rw [Delivery.reply_eq_attested.2 ⟨rfl, hverify⟩] at hattested
    obtain rfl := Reply.attested.inj hattested
    exact ⟨peer, List.mem_map_of_mem hmem, rfl⟩
  · rintro ⟨peer, hpeer, rfl⟩
    obtain ⟨⟨asked, d⟩, hmem, rfl⟩ := List.mem_map.1 hpeer
    have hattested := h.attested_of_mem hvalid hfits hgave hmem
    obtain ⟨rfl, hverify⟩ := Delivery.reply_eq_attested.1 hattested
    exact ⟨asked, _, mem_attestedBy.2 ⟨hmem, hverify⟩, rfl⟩

/-- No request is made in vain, so there are as many as attestations are missing at the start. -/
theorem keys_perm (hthreshold : 1 ≤ s.gatherer.threshold)
    (hgave : w.Gave (s.gatherer.replies (s.firstSummary t) hs))
    (honce : ((s.gatherer.replies (s.firstSummary t) hs).map (·.1)).Nodup) :
    ((s.firstSummary t).collect
        (s.gatherer.replies (s.firstSummary t) hs)).attestations.keys.Perm
      (own.publicKey :: ((s.gatherer.replies (s.firstSummary t) hs).map (·.1)).map
        fun peer => (peers peer).publicKey) := by
  refine List.perm_of_nodup_nodup_toFinset_eq (Table.keys_nodup _) (List.nodup_cons.2 ⟨?_, ?_⟩) ?_
  · intro hmem
    obtain ⟨peer, hpeer, hkey⟩ := List.mem_map.1 hmem
    exact h.apart peer (Gatherer.known_of_mem_map_replies hpeer) hkey
  · refine honce.map_on fun peer hpeer other hother => ?_
    exact h.different peer (Gatherer.known_of_mem_map_replies hpeer) other
      (Gatherer.known_of_mem_map_replies hother)
  · ext key
    rw [← Summary.keySet, h.mem_keySet_collect hvalid hfits hthreshold hgave, List.mem_toFinset,
      List.mem_cons, List.mem_map]

theorem undisturbed (hgave : w.Gave (s.gatherer.replies (s.firstSummary t) hs)) {stage : Gathering}
    (hstage : stage ∈ s.gatherer.stages (s.firstSummary t) hs) : stage.Undisturbed := by
  obtain ⟨before, later, rfl, hbefore⟩ := Run.mem_stages.1 hstage
  refine Gatherer.undisturbed_of_attested hbefore ?_
  intro r hr
  have hmem := (Gatherer.replies_grow s.gatherer (s.firstSummary t) before later).subset hr
  exact ⟨_, h.attested_of_mem hvalid hfits hgave hmem⟩

end

end Surroundings.Healthy

/-- A fleet that is well reaches every quorum that its members can make up, with the fewest
requests. Whatever is drawn, the transaction travels to the peers and their attestations travel
back, and the gathering ends with one request for each attestation beside the sentinel's own, each
to another peer. The keys of the summary are its own and those of the peers that it asked. On the
way no peer lets it down, and it never pauses. -/
theorem a_healthy_fleet_needs_the_fewest_requests [StrictCrypto] (s : Sentinel) (own : Keypair)
    (peers : Nat → Keypair) (t : Transaction) (w : Surroundings) (hvalid : t.violation = none)
    (hfits : (Wire.send Wire.request (.validate t)).isSome = true)
    (hthreshold : 1 ≤ s.gatherer.threshold) (hmembers : s.gatherer.threshold ≤ s.gatherer.peers + 1)
    (hfleet : w.Healthy s own peers t) (hdraws : w.DrawsSuffice s.gatherer (s.firstSummary t)) :
    ∃ moments x requests,
      w.EndsIn s.gatherer (s.firstSummary t) moments (.reached x) ∧
      requests = s.gatherer.requests (s.firstSummary t)
        (w.happenings s.gatherer (s.firstSummary t) moments) ∧
      requests.length = s.gatherer.threshold - 1 ∧ requests.Nodup ∧
      (∀ peer ∈ requests, peer < s.gatherer.peers) ∧
      x.attestations.keys.Perm
        (own.publicKey :: requests.map fun peer => (peers peer).publicKey) ∧
      ∀ stage ∈ s.gatherer.stages (s.firstSummary t)
        (w.happenings s.gatherer (s.firstSummary t) moments), stage.Undisturbed := by
  have hfollow := hfleet.follow hvalid hfits
  obtain ⟨moments, result, hend, _⟩ := hfollow.exists_end hdraws
  have hgave := Surroundings.gave_happenings hdraws moments
  rcases hfollow.ends hdraws hend with ⟨x, rfl, _⟩ | ⟨_, hfew⟩
  · have htells := Gatherer.run_tells hend
    obtain ⟨hcollect, _⟩ := htells.of_reached
    have honce := htells.once
    rw [dispatchedTo_of_attested fun r hr =>
      ⟨_, hfleet.attested_of_mem hvalid hfits hgave hr⟩] at honce
    have hperm := hfleet.keys_perm hvalid hfits hthreshold hgave honce
    rw [← hcollect, ← Gatherer.requests_of_ended hend] at hperm
    rw [← Gatherer.requests_of_ended hend] at honce
    refine ⟨moments, x, _, hend, rfl, ?_, honce, ?_, hperm, ?_⟩
    · have hlength := hperm.length_eq
      rw [Table.keys, List.length_map, ← Table.size, Sentinel.size_of_reached hend,
        List.length_cons, List.length_map] at hlength
      rw [hlength, Nat.add_sub_cancel]
    · intro peer hpeer
      rw [Gatherer.requests_of_ended hend] at hpeer
      exact Gatherer.known_of_mem_map_replies hpeer
    · exact fun stage hstage => hfleet.undisturbed hvalid hfits hgave hstage
  · rw [hfleet.card_keys hthreshold] at hfew
    exact absurd hmembers (Nat.not_le.2 hfew)

end

namespace Sample

attribute [local instance] standardCrypto strict_standardCrypto

def peerPair : Keypair := ⟨peerSecret, peerKey, publicKey_peerSecret⟩

theorem ofKeypair_peerPair : Attestation.ofKeypair peerPair id = peerAttestation := by
  decide +kernel

def thirdSecret : Secret :=
  string 32 0xc5aa8df43f9f837bedb7442f31dcb7b166d38535076f094b85ce3a2e0b4458f7

def thirdKey : PublicKey :=
  string 32 0xfc51cd8e6218a1a38da47ed00230f0580816ed13ba3303ac5deb911548908025

theorem publicKey_thirdSecret : thirdKey = Crypto.publicKey thirdSecret := by decide +kernel

def thirdPair : Keypair := ⟨thirdSecret, thirdKey, publicKey_thirdSecret⟩

/-- A sentinel of three that requires two attestations. -/
def third : Sentinel := ⟨some thirdPair, ⟨2, 2, 100, 20⟩, 20⟩

/-- The keys of the other two. -/
def peerPairs : Nat → Keypair
  | 0 => pair
  | _ => peerPair

/-- The request for an attestation of the sample. -/
def request : List UInt8 := (Wire.send Wire.request (.validate transaction)).getD []

theorem send_request : Wire.send Wire.request (.validate transaction) = some request := by
  obtain ⟨bytes, hbytes⟩ := Option.isSome_iff_exists.1
    (show (Wire.send Wire.request (.validate transaction)).isSome = true by decide +kernel)
  rw [request, hbytes, Option.getD_some]

/-- A sentinel that is there at once, and answers in one piece. -/
def prompt (s : Sentinel) : OtherEnd where
  opening := .opens 0
  room := none
  answer := [Server.serve (m := Id) (Request.answer s fun _ => none) [request]]
  ending := .closed
  delay := 0

theorem reaches_prompt (s : Sentinel) : (prompt s).Reaches s 1 50 100 transaction where
  opens := ⟨0, by decide, rfl, (by decide : 1 + (0 + 0) < 100)⟩
  takesAll := rfl
  answers := by
    have hcall : (prompt s).call 50 (.validate transaction) = ⟨request, _, 0 + 0⟩ :=
      OtherEnd.exchange_of_opens rfl (by decide) rfl send_request
    refine ⟨fun _ => none, [request], ?_, List.flatten_singleton⟩
    rw [hcall, List.flatten_singleton]

/-- The other two sentinels. -/
def others (peer : Nat) : Sentinel := ⟨some (peerPairs peer), ⟨2, 2, 100, 20⟩, 20⟩

def prompts : Surroundings where
  delivery peer _ := (prompt (others peer)).delivery 1 50 100 transaction
  randoms _ := [1, 0]

theorem peerPairs_different (peer : Nat) (hpeer : peer < 2) (other : Nat) (hother : other < 2)
    (hsame : (peerPairs peer).publicKey = (peerPairs other).publicKey) : peer = other := by
  have hkeys : key ≠ peerKey := by decide +kernel
  obtain rfl | rfl : peer = 0 ∨ peer = 1 := by omega
  · obtain rfl | rfl : other = 0 ∨ other = 1 := by omega
    · rfl
    · exact absurd hsame hkeys
  · obtain rfl | rfl : other = 0 ∨ other = 1 := by omega
    · exact absurd hsame.symm hkeys
    · rfl

theorem peerPairs_apart (peer : Nat) (hpeer : peer < 2) :
    (peerPairs peer).publicKey ≠ thirdKey := by
  have hkey : key ≠ thirdKey := by decide +kernel
  have hpeerKey : peerKey ≠ thirdKey := by decide +kernel
  obtain rfl | rfl : peer = 0 ∨ peer = 1 := by omega
  · exact hkey
  · exact hpeerKey

theorem peerPairs_verify (peer : Nat) (hpeer : peer < 2) :
    (Attestation.ofKeypair (peerPairs peer) transaction.id).verify transaction.id = true := by
  rw [id_transaction]
  obtain rfl | rfl : peer = 0 ∨ peer = 1 := by omega
  · rw [show peerPairs 0 = pair from rfl, ofKeypair_pair]
    exact verify_signature
  · rw [show peerPairs 1 = peerPair from rfl, ofKeypair_peerPair]
    exact verify_peerSignature

theorem healthy_prompts : prompts.Healthy third thirdPair peerPairs transaction where
  keypair := rfl
  different := peerPairs_different
  apart := peerPairs_apart
  verifies := peerPairs_verify
  reached := by
    intro peer _ request
    refine ⟨others peer, prompt (others peer), 1, 50, rfl, reaches_prompt _, ?_⟩
    simp only [prompts, third]

theorem drawsSuffice_prompts :
    prompts.DrawsSuffice third.gatherer (third.firstSummary transaction) :=
  Surroundings.drawsSuffice_of_mem fun _ => (by decide : ∀ peer < 2, peer ∈ [1, 0])

/-- Of two peers one is asked, and its key comes to the sentinel's own. -/
theorem one_request_makes_two_attestations :
    transaction.violation = none ∧
      (Wire.send Wire.request (.validate transaction)).isSome = true ∧
      prompts.Healthy third thirdPair peerPairs transaction ∧
      prompts.DrawsSuffice third.gatherer (third.firstSummary transaction) ∧
      ∃ moments x requests,
        prompts.EndsIn third.gatherer (third.firstSummary transaction) moments (.reached x) ∧
        requests = third.gatherer.requests (third.firstSummary transaction)
          (prompts.happenings third.gatherer (third.firstSummary transaction) moments) ∧
        requests.length = 1 ∧
        x.attestations.keys.Perm
          (thirdKey :: requests.map fun peer => (peerPairs peer).publicKey) := by
  have hfits : (Wire.send Wire.request (.validate transaction)).isSome = true := by
    rw [send_request, Option.isSome_some]
  obtain ⟨moments, x, requests, hend, hrequests, hlength, _, _, hkeys, _⟩ :=
    a_healthy_fleet_needs_the_fewest_requests third thirdPair peerPairs transaction prompts
      violation_transaction hfits (by decide) (by decide) healthy_prompts drawsSuffice_prompts
  exact ⟨violation_transaction, hfits, healthy_prompts, drawsSuffice_prompts, moments, x, requests,
    hend, hrequests, hlength, hkeys⟩

end Sample

end Admission
