-- Thresholds that settings are accepted with. The check counts the peers as the
-- settings list them, and what a quorum takes are different keys. The two agree
-- unless the address of a peer is listed more than once.
import Admission.Proofs.Demands
import Admission.Proofs.HealthyFleet

namespace Admission

section
variable [Crypto]

/-! ## Addresses -/

namespace Settings

variable {s : Settings} {c : Configuration}

/-- The sentinel has one of the addresses, and its peers are at the others. -/
theorem addresses_of_validate (h : s.validate = .ok c) :
    ∃ endpoints, s.sentinelEndpoints.mapM endpoint = .ok endpoints ∧
      c.listener ∉ c.peers ∧ endpoints.toFinset = insert c.listener c.peers.toFinset := by
  obtain ⟨hmet, hresolves⟩ := validate_eq_ok_iff_resolvesTo.1 h
  have hreadable : ∀ text ∈ s.sentinelEndpoints, ∃ e, Endpoint.ofText? text = some e :=
    hmet .readableSentinels
  have hmap := map_addresses hreadable
  have hmem : c.listener ∈ s.addresses := List.mem_of_getElem? (hresolves.getElem?_eq_listener hmap)
  refine ⟨s.addresses, mapM_endpoint_of_readable hreadable, hresolves.apart, ?_⟩
  rw [hresolves.peers_eq hmap]
  ext e
  rw [Finset.mem_insert, List.mem_toFinset, List.mem_toFinset, List.mem_filter, decide_eq_true_iff]
  by_cases he : e = c.listener
  · rw [he]
    exact iff_of_true hmem (Or.inl rfl)
  · exact ⟨fun hmem => Or.inr ⟨hmem, he⟩, fun h => (h.resolve_left he).1⟩

/-- A threshold takes a key, and is not above the number of peers that are listed. -/
theorem threshold_of_validate (h : s.validate = .ok c) (hthreshold : c.threshold ≠ 0) :
    (∃ own, c.keypair = some own) ∧ c.threshold.toNat ≤ c.peers.length + 1 := by
  obtain ⟨hmet, hresolves⟩ := validate_eq_ok_iff_resolvesTo.1 h
  refine ⟨hresolves.attests hthreshold, ?_⟩
  rw [hresolves.threshold] at hthreshold ⊢
  rw [hresolves.peers_eq_otherAddresses]
  exact (hmet .enoughSentinels).resolve_left hthreshold

end Settings

/-! ## One key for each address -/

namespace Configuration

variable {c : Configuration} {keys : Endpoint → PublicKey}

/-- Whoever answers at the address of a peer attests with the key that belongs to the address. At
first some requests may not be dispatched. -/
def habits (c : Configuration) (keys : Endpoint → PublicKey) (misses : Nat → Nat) (peer : Nat) :
    Habit :=
  ⟨misses peer, some (keys (c.peers.getD peer default))⟩

theorem attestingKeys_habits (c : Configuration) (keys : Endpoint → PublicKey)
    (misses : Nat → Nat) :
    attestingKeys (c.habits keys misses) c.peers.length = c.peers.toFinset.image keys := by
  ext key
  rw [mem_attestingKeys, Finset.mem_image]
  unfold habits
  constructor
  · rintro ⟨peer, hpeer, hkey⟩
    rw [List.getD_eq_getElem _ _ hpeer] at hkey
    exact ⟨c.peers[peer], by simp, Option.some.inj hkey⟩
  · rintro ⟨e, he, rfl⟩
    obtain ⟨peer, hpeer, rfl⟩ := List.mem_iff_getElem.1 (List.mem_toFinset.1 he)
    exact ⟨peer, hpeer, by rw [List.getD_eq_getElem _ _ hpeer]⟩

/-- So the keys that come together are as many as there are addresses. -/
theorem card_keys {own : Keypair} {t : Transaction} (misses : Nat → Nat)
    (hkeypair : c.keypair = some own) (hthreshold : 0 < c.threshold.toNat)
    (hlistener : c.listener ∉ c.peers) (hown : keys c.listener = own.publicKey)
    (hkeys : Set.InjOn keys (insert c.listener c.peers.toFinset : Finset Endpoint)) :
    ((c.sentinel.firstSummary t).keySet ∪
      attestingKeys (c.habits keys misses) c.sentinel.gatherer.peers).card =
        c.peers.toFinset.card + 1 := by
  have hfirst : (c.sentinel.firstSummary t).keySet = {keys c.listener} := by
    rw [Sentinel.firstSummary_of_keypair hthreshold hkeypair, Summary.keySet_attest, hown]
    rfl
  have hpeers : attestingKeys (c.habits keys misses) c.sentinel.gatherer.peers =
      c.peers.toFinset.image keys := c.attestingKeys_habits keys misses
  have hnew : c.listener ∉ c.peers.toFinset := by
    rw [List.mem_toFinset]
    exact hlistener
  rw [hfirst, hpeers, Finset.singleton_union, ← Finset.image_insert,
    Finset.card_image_of_injOn hkeys, Finset.card_insert_of_notMem hnew]

end Configuration

/-- A quorum takes different addresses. The threshold of accepted settings is not above the number
of listed peers and the sentinel itself, so it is not above the number of different addresses where
no peer is listed twice. If everyone attests with a key of its own, a gathering reaches its quorum
where the threshold is not above the number of different addresses, and never elsewhere. -/
theorem a_quorum_takes_different_addresses {s : Settings} {c : Configuration}
    (h : s.validate = .ok c) (hthreshold : c.threshold ≠ 0) :
    ∃ endpoints own, s.sentinelEndpoints.mapM Settings.endpoint = .ok endpoints ∧
      c.keypair = some own ∧
      endpoints.toFinset.card = c.peers.toFinset.card + 1 ∧
      c.threshold.toNat ≤ c.peers.length + 1 ∧
      (c.peers.Nodup → c.threshold.toNat ≤ endpoints.toFinset.card) ∧
      ∀ (t : Transaction) (keys : Endpoint → PublicKey) (misses : Nat → Nat) (w : Surroundings),
        keys c.listener = own.publicKey → Set.InjOn keys (endpoints.toFinset : Set Endpoint) →
        w.Follow (c.habits keys misses) c.sentinel.gatherer (c.sentinel.firstSummary t) →
        w.DrawsSuffice c.sentinel.gatherer (c.sentinel.firstSummary t) →
        ∃ moments result,
          w.EndsIn c.sentinel.gatherer (c.sentinel.firstSummary t) moments result ∧
          if c.threshold.toNat ≤ endpoints.toFinset.card then ∃ summary, result = .reached summary
          else result = .unreachable := by
  obtain ⟨endpoints, hendpoints, hlistener, haddresses⟩ := Settings.addresses_of_validate h
  obtain ⟨⟨own, hown⟩, hlisted⟩ := Settings.threshold_of_validate h hthreshold
  have hcard : endpoints.toFinset.card = c.peers.toFinset.card + 1 := by
    rw [haddresses, Finset.card_insert_of_notMem]
    rw [List.mem_toFinset]
    exact hlistener
  refine ⟨endpoints, own, hendpoints, hown, hcard, hlisted, ?_, ?_⟩
  · intro hnodup
    rw [hcard, List.toFinset_card_of_nodup hnodup]
    exact hlisted
  · intro t keys misses w hkey hkeys hfollow hdraws
    obtain ⟨moments, result, hend, _⟩ := hfollow.exists_end hdraws
    refine ⟨moments, result, hend, ?_⟩
    have hpositive : 0 < c.threshold.toNat := by
      have hne : c.threshold.toNat ≠ 0 := fun h => hthreshold (UInt64.toNat_inj.1 h)
      omega
    rw [haddresses] at hkeys
    have hends := hfollow.ends hdraws hend
    have hsame : c.sentinel.gatherer.threshold = c.threshold.toNat := rfl
    rw [Configuration.card_keys misses hown hpositive hlistener hkey hkeys, ← hcard, hsame] at hends
    rcases hends with ⟨summary, rfl, henough⟩ | ⟨rfl, hfew⟩
    · rw [if_pos henough]
      exact ⟨summary, rfl⟩
    · rw [if_neg (Nat.not_le.2 hfew)]

end

namespace Sample

attribute [local instance] standardCrypto

/-- Settings of the first of two sentinels, where the second one is listed two times and three
attestations are required. -/
def repeated : Settings :=
  { Settings.basic 0 ["127.0.0.1:20000", "127.0.0.1:20001", "127.0.0.1:20001"]
      ["127.0.0.1:30000"] with
    privateKeys := [("0", "9d61b19deffd5a60ba844af492ec2cc44449c5697b326919703bac031cae7f60")]
    threshold := 3 }

def listed : List Endpoint := [localhost 20000, localhost 20001, localhost 20001]

def repeatedPeer : Configuration := repeated.configure listed (localhost 30000) (some pair)

theorem endpoints_repeated : repeated.sentinelEndpoints.mapM Settings.endpoint = .ok listed := by
  decide +kernel

theorem peers_repeatedPeer : repeatedPeer.peers = [localhost 20001, localhost 20001] := by
  decide +kernel

theorem gatherer_peers_repeatedPeer : repeatedPeer.sentinel.gatherer.peers = 2 :=
  congrArg List.length peers_repeatedPeer

theorem validate_repeated : repeated.validate = .ok repeatedPeer := by
  have hsecret : Secret.ofText "9d61b19deffd5a60ba844af492ec2cc44449c5697b326919703bac031cae7f60" =
      .ok secret := by decide +kernel
  have hpair : Keypair.ofSecret secret = pair := by
    simp [pair, Keypair.ofSecret, publicKey_secret]
  have hlookup : repeated.privateKeys.lookup (toString repeated.sentinelId.toNat) =
      some "9d61b19deffd5a60ba844af492ec2cc44449c5697b326919703bac031cae7f60" := by decide +kernel
  have hown : repeated.ownKeypair = .ok (some pair) := by
    simp only [Settings.ownKeypair, hlookup, Keypair.ofText, hsecret, Except.map, hpair]
  exact Settings.validate_eq_ok_iff.2 ⟨by decide +kernel, _, _, _, endpoints_repeated,
    by decide +kernel, hown, by decide +kernel, rfl⟩

theorem card_listed : listed.toFinset.card = 2 := by decide +kernel

/-- Three attestations are required of two sentinels. -/
theorem a_threshold_above_the_number_of_addresses_is_accepted :
    repeated.validate = .ok repeatedPeer ∧
      repeated.sentinelEndpoints.mapM Settings.endpoint = .ok listed ∧
      repeatedPeer.threshold = 3 ∧ listed.toFinset.card = 2 :=
  ⟨validate_repeated, endpoints_repeated, rfl, card_listed⟩

/-- The key that belongs to an address. -/
def keyAt (e : Endpoint) : PublicKey := if e = localhost 20000 then key else peerKey

/-- The second sentinel attests whenever it is asked, as either of the peers. -/
def attesting : Surroundings where
  delivery _ _ := .answered (.attestation peerAttestation)
  randoms _ := [0, 1]

theorem injOn_keyAt : Set.InjOn keyAt (listed.toFinset : Set Endpoint) := by
  have hkeys : keyAt (localhost 20000) ≠ keyAt (localhost 20001) := by decide +kernel
  intro e he other hother hsame
  have hcases : ∀ x ∈ listed.toFinset, x = localhost 20000 ∨ x = localhost 20001 := by
    simp [listed]
  rcases hcases e he with rfl | rfl <;> rcases hcases other hother with rfl | rfl
  · rfl
  · exact absurd hsame hkeys
  · exact absurd hsame.symm hkeys
  · rfl

theorem follow_attesting :
    attesting.Follow (repeatedPeer.habits keyAt fun _ => 0) repeatedPeer.sentinel.gatherer
      (repeatedPeer.sentinel.firstSummary transaction) := by
  have hid : (repeatedPeer.sentinel.firstSummary transaction).id = id := by
    rw [(Sentinel.fields_firstSummary repeatedPeer.sentinel transaction).1, id_transaction]
  intro peer hpeer request
  rw [hid]
  have hkey : (repeatedPeer.habits keyAt (fun _ => 0) peer).key = some peerKey := by
    rw [gatherer_peers_repeatedPeer] at hpeer
    unfold Configuration.habits
    rw [peers_repeatedPeer]
    obtain rfl | rfl : peer = 0 ∨ peer = 1 := by omega
    · decide +kernel
    · decide +kernel
  refine ⟨fun hmiss => absurd hmiss (Nat.not_lt_zero _), ?_, ?_⟩
  · intro _ k hk
    rw [hkey] at hk
    cases hk
    exact ⟨peerAttestation, reply_peerAttestation, rfl⟩
  · intro _ hnone
    rw [hkey] at hnone
    cases hnone

/-- The second sentinel attests each time it is asked, and there is never a quorum. -/
theorem two_sentinels_never_make_three_attestations :
    repeated.validate = .ok repeatedPeer ∧ repeatedPeer.threshold ≠ 0 ∧
      ∃ moments, attesting.EndsIn repeatedPeer.sentinel.gatherer
        (repeatedPeer.sentinel.firstSummary transaction) moments .unreachable := by
  have hthreshold : repeatedPeer.threshold ≠ 0 := by decide
  obtain ⟨endpoints, own, hendpoints, hown, _, _, _, hends⟩ :=
    a_quorum_takes_different_addresses validate_repeated hthreshold
  obtain rfl : listed = endpoints := by
    rw [endpoints_repeated] at hendpoints
    exact Except.ok.inj hendpoints
  obtain rfl : pair = own := Option.some.inj hown
  have hdraws : attesting.DrawsSuffice repeatedPeer.sentinel.gatherer
      (repeatedPeer.sentinel.firstSummary transaction) := by
    apply Surroundings.drawsSuffice_of_mem
    intro moment peer hpeer
    rw [gatherer_peers_repeatedPeer] at hpeer
    exact (by decide : ∀ peer < 2, peer ∈ [0, 1]) peer hpeer
  obtain ⟨moments, result, hend, hresult⟩ :=
    hends transaction keyAt _ attesting (by decide +kernel) injOn_keyAt follow_attesting hdraws
  rw [card_listed, if_neg (by decide)] at hresult
  rw [hresult] at hend
  exact ⟨validate_repeated, hthreshold, moments, hend⟩

end Sample

end Admission
