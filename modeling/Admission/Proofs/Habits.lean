-- Peers with habits. A peer of this kind cannot be reached for some requests,
-- and from then on it does the same each time. Among such peers the draws decide
-- neither whether a gathering ends nor what it comes to.
import Admission.Proofs.Surroundings
import Admission.Proofs.Verdicts
import Mathlib.Algebra.Order.BigOperators.Group.Finset
import Mathlib.Data.Finset.Option

namespace Admission

/-! ## The keys of a summary -/

namespace Summary

/-- The keys that the attestations of a summary are stored under. -/
def keySet (s : Summary) : Finset PublicKey := s.attestations.keys.toFinset

theorem card_keySet (s : Summary) : s.keySet.card = s.attestations.size := by
  unfold keySet
  rw [List.toFinset_card_of_nodup s.attestations.keys_nodup]
  exact List.length_map _

theorem keySet_attest (s : Summary) (a : Attestation) :
    (s.attest a).keySet = insert a.publicKey s.keySet := by
  ext key
  simp only [keySet, attestations_attest, List.mem_toFinset, Finset.mem_insert]
  by_cases hkey : a.publicKey ∈ s.attestations.keys
  · rw [AttestationSet.insert_of_mem _ _ hkey]
    constructor
    · exact Or.inr
    · rintro (rfl | hmem)
      · exact hkey
      · exact hmem
  · have hperm := (AttestationSet.entries_insert_perm s.attestations a hkey).map (·.1)
    rw [Table.keys, hperm.mem_iff, List.map_cons, List.mem_cons]
    rfl

theorem mem_keySet_attestAll (s : Summary) (as : List Attestation) (key : PublicKey) :
    key ∈ (s.attestAll as).keySet ↔ key ∈ s.keySet ∨ ∃ a ∈ as, a.publicKey = key := by
  induction as using List.reverseRecOn with
  | nil => simp [attestAll]
  | append_singleton as a ih =>
    rw [attestAll_append, keySet_attest, Finset.mem_insert, ih]
    constructor
    · rintro (rfl | hmem | ⟨b, hb, rfl⟩)
      · exact Or.inr ⟨a, by simp, rfl⟩
      · exact Or.inl hmem
      · exact Or.inr ⟨b, List.mem_append_left _ hb, rfl⟩
    · rintro (hmem | ⟨b, hb, rfl⟩)
      · exact Or.inr (Or.inl hmem)
      · rcases List.mem_append.1 hb with hb | hb
        · exact Or.inr (Or.inr ⟨b, hb, rfl⟩)
        · exact Or.inl (by rw [List.mem_singleton.1 hb])

theorem mem_keySet_collect [Crypto] (start : Summary) (rs : List (Nat × Delivery))
    (key : PublicKey) :
    key ∈ (start.collect rs).keySet ↔
      key ∈ start.keySet ∨ ∃ peer a, (peer, a) ∈ attestedBy start.id rs ∧ a.publicKey = key := by
  unfold collect
  rw [mem_keySet_attestAll]
  constructor
  · rintro (hmem | ⟨a, ha, hkey⟩)
    · exact Or.inl hmem
    · obtain ⟨⟨peer, b⟩, hb, rfl⟩ := List.mem_map.1 ha
      exact Or.inr ⟨peer, b, hb, hkey⟩
  · rintro (hmem | ⟨peer, a, ha, hkey⟩)
    · exact Or.inl hmem
    · exact Or.inr ⟨a, List.mem_map_of_mem ha, hkey⟩

end Summary

/-! ## Habits -/

/-- The habit of a peer: how many requests cannot be dispatched to it at first, and the key that
it attests with from then on. Without one it gives no usable answer. -/
structure Habit where
  misses : Nat
  key : Option PublicKey

/-- The keys that the first so many peers attest with. -/
def attestingKeys (habits : Nat → Habit) (peers : Nat) : Finset PublicKey :=
  (Finset.range peers).biUnion fun peer => (habits peer).key.toFinset

theorem mem_attestingKeys {habits : Nat → Habit} {peers : Nat} {key : PublicKey} :
    key ∈ attestingKeys habits peers ↔ ∃ peer < peers, (habits peer).key = some key := by
  simp [attestingKeys]

section
variable [Crypto]

/-- What the request of this number to such a peer may come to. -/
structure Habit.Allows (h : Habit) (id : Hash) (request : Nat) (d : Delivery) : Prop where
  misses : request < h.misses → d.reply id = .notDispatched
  attests : h.misses ≤ request → ∀ key, h.key = some key →
    ∃ a : Attestation, d.reply id = .attested a ∧ a.publicKey = key
  keepsSilent : h.misses ≤ request → h.key = none → d.reply id = .noAnswer

namespace Habit.Allows

variable {h : Habit} {id : Hash} {request : Nat} {d : Delivery}

theorem cases (hd : h.Allows id request d) :
    d.reply id = .notDispatched ∨
      (∃ a : Attestation, d.reply id = .attested a ∧ h.key = some a.publicKey) ∨
      (d.reply id = .noAnswer ∧ h.key = none) := by
  by_cases hmiss : request < h.misses
  · exact Or.inl (hd.misses hmiss)
  · refine Or.inr ?_
    cases hkey : h.key with
    | none => exact Or.inr ⟨hd.keepsSilent (Nat.le_of_not_lt hmiss) hkey, rfl⟩
    | some key =>
      obtain ⟨a, ha, rfl⟩ := hd.attests (Nat.le_of_not_lt hmiss) key hkey
      exact Or.inl ⟨a, ha, rfl⟩

theorem dispatched (hd : h.Allows id request d) (hmisses : h.misses ≤ request) :
    d.reply id ≠ .notDispatched := by
  intro hreply
  cases hkey : h.key with
  | none =>
    rw [hd.keepsSilent hmisses hkey] at hreply
    cases hreply
  | some key =>
    obtain ⟨a, ha, _⟩ := hd.attests hmisses key hkey
    rw [ha] at hreply
    cases hreply

end Habit.Allows

/-- The peers of a gathering have these habits. -/
def Surroundings.Follow (w : Surroundings) (habits : Nat → Habit) (g : Gatherer) (start : Summary) :
    Prop :=
  ∀ peer < g.peers, ∀ request, (habits peer).Allows start.id request (w.delivery peer request)

namespace Surroundings

variable {w : Surroundings} {habits : Nat → Habit} {g : Gatherer} {start : Summary}
  {rs : List (Nat × Delivery)} {peer : Nat} {d : Delivery}

theorem Follow.allows (h : w.Follow habits g start) (hgave : w.Gave rs) (hpeer : peer < g.peers)
    (hmem : (peer, d) ∈ rs) : ∃ request, (habits peer).Allows start.id request d := by
  obtain ⟨request, rfl⟩ := hgave.delivered hmem
  exact ⟨request, h peer hpeer request⟩

/-! ## How often a peer is asked -/

/-- A peer is asked again only as long as requests cannot be dispatched to it. -/
theorem Gave.requestsTo_le (hgave : w.Gave rs) (hfollow : w.Follow habits g start)
    (honce : (dispatchedTo start.id rs).Nodup) (hpeer : peer < g.peers) :
    requestsTo peer rs ≤ (habits peer).misses ∨
      (peer ∈ dispatchedTo start.id rs ∧ requestsTo peer rs = (habits peer).misses + 1) := by
  induction hgave with
  | nothing => exact Or.inl (Nat.zero_le _)
  | @reply rs hgave asked ih =>
    rw [dispatchedTo_append] at honce ⊢
    rw [requestsTo_append_singleton]
    have ih := ih honce.of_append_left
    by_cases hasked : asked = peer
    · subst hasked
      rw [if_pos rfl]
      have hallows := hfollow asked hpeer (requestsTo asked rs)
      by_cases hmiss : requestsTo asked rs < (habits asked).misses
      · exact Or.inl hmiss
      · have hdispatched := hallows.dispatched (Nat.le_of_not_lt hmiss)
        have hlast : asked ∈ dispatchedTo start.id [(asked, w.answer rs asked)] :=
          mem_dispatchedTo.2 ⟨_, List.mem_singleton.2 rfl, hdispatched⟩
        rcases ih with hle | ⟨hearlier, _⟩
        · exact Or.inr ⟨List.mem_append_right _ hlast, by omega⟩
        · exact absurd hlast (List.disjoint_of_nodup_append honce hearlier)
    · rw [if_neg hasked, Nat.add_zero]
      exact ih.imp_right fun ⟨hmem, heq⟩ => ⟨List.mem_append_left _ hmem, heq⟩

/-- What the habits of all peers allow for. -/
theorem Follow.length_replies_le (h : w.Follow habits g start) (hdraws : w.DrawsSuffice g start)
    (moments : Nat) :
    (g.replies start (w.happenings g start moments)).length ≤
      ∑ peer ∈ Finset.range g.peers, ((habits peer).misses + 1) := by
  obtain ⟨stage, hrun, _⟩ := run_happenings hdraws moments
  have hgave := gave_happenings hdraws moments
  have honce := (Gatherer.run_tells hrun).once
  have hknown : ((g.replies start (w.happenings g start moments)).map (·.1)).toFinset ⊆
      Finset.range g.peers := by
    intro peer hpeer
    exact Finset.mem_range.2 (Gatherer.known_of_mem_map_replies (List.mem_toFinset.1 hpeer))
  calc (g.replies start (w.happenings g start moments)).length
      = ∑ peer ∈ ((g.replies start (w.happenings g start moments)).map (·.1)).toFinset,
          requestsTo peer (g.replies start (w.happenings g start moments)) := by
        unfold requestsTo
        rw [List.sum_toFinset_count_eq_length, List.length_map]
    _ ≤ ∑ peer ∈ Finset.range g.peers,
          requestsTo peer (g.replies start (w.happenings g start moments)) :=
        Finset.sum_le_sum_of_subset hknown
    _ ≤ ∑ peer ∈ Finset.range g.peers, ((habits peer).misses + 1) := by
        apply Finset.sum_le_sum
        intro peer hpeer
        rcases hgave.requestsTo_le h honce (Finset.mem_range.1 hpeer) with hle | ⟨_, heq⟩
        · exact Nat.le_succ_of_le hle
        · exact Nat.le_of_eq heq

/-! ## Which keys attest -/

variable {hs : List Happening}

/-- Nobody else's keys come into the summary. -/
theorem Follow.keySet_collect_subset (h : w.Follow habits g start)
    (hgave : w.Gave (g.replies start hs)) :
    (start.collect (g.replies start hs)).keySet ⊆ start.keySet ∪ attestingKeys habits g.peers := by
  intro key hkey
  rw [Finset.mem_union, mem_attestingKeys]
  rcases (Summary.mem_keySet_collect _ _ _).1 hkey with hmem | ⟨peer, a, ha, rfl⟩
  · exact Or.inl hmem
  · refine Or.inr ⟨peer, ?_⟩
    obtain ⟨hmem, hverify⟩ := mem_attestedBy.1 ha
    have hknown := Gatherer.known_of_mem_replies hmem
    have hreply := Delivery.reply_eq_attested.2 ⟨rfl, hverify⟩
    obtain ⟨request, hallows⟩ := h.allows hgave hknown hmem
    refine ⟨hknown, ?_⟩
    rcases hallows.cases with hcase | ⟨b, hcase, hkey⟩ | ⟨hcase, _⟩
    · rw [hreply] at hcase
      cases hcase
    · rw [hreply] at hcase
      cases hcase
      exact hkey
    · rw [hreply] at hcase
      cases hcase

/-- The keys of all peers come into it once a request got through to each. -/
theorem Follow.subset_keySet_collect (h : w.Follow habits g start) (hgave : w.Gave rs)
    (hasked : ∀ peer < g.peers, peer ∈ dispatchedTo start.id rs) :
    start.keySet ∪ attestingKeys habits g.peers ⊆ (start.collect rs).keySet := by
  intro key hkey
  rw [Summary.mem_keySet_collect]
  rcases Finset.mem_union.1 hkey with hmem | hmem
  · exact Or.inl hmem
  · obtain ⟨peer, hpeer, hkey⟩ := mem_attestingKeys.1 hmem
    obtain ⟨d, hd, hdispatched⟩ := mem_dispatchedTo.1 (hasked peer hpeer)
    obtain ⟨request, hallows⟩ := h.allows hgave hpeer hd
    rcases hallows.cases with hcase | ⟨a, hcase, hown⟩ | ⟨_, hnone⟩
    · exact absurd hcase hdispatched
    · obtain ⟨rfl, hverify⟩ := Delivery.reply_eq_attested.1 hcase
      rw [hkey] at hown
      exact Or.inr ⟨peer, a, mem_attestedBy.2 ⟨hd, hverify⟩, (Option.some.inj hown).symm⟩
    · rw [hkey] at hnone
      cases hnone

theorem Follow.not_invalid (h : w.Follow habits g start) (hgave : w.Gave (g.replies start hs)) :
    (peer, .answered .invalid) ∉ g.replies start hs := by
  intro hmem
  obtain ⟨request, hallows⟩ := h.allows hgave (Gatherer.known_of_mem_replies hmem) hmem
  rcases hallows.cases with hcase | ⟨a, hcase, _⟩ | ⟨hcase, _⟩ <;> cases hcase

/-! ## The end -/

/-- A quorum is reached exactly if the keys that attest are enough, together with those that
attested before. -/
theorem Follow.ends (h : w.Follow habits g start) (hdraws : w.DrawsSuffice g start) {moments : Nat}
    {result : Gathered} (hend : w.EndsIn g start moments result) :
    (∃ summary, result = .reached summary ∧
      g.threshold ≤ (start.keySet ∪ attestingKeys habits g.peers).card) ∨
    (result = .unreachable ∧
      (start.keySet ∪ attestingKeys habits g.peers).card < g.threshold) := by
  have htells := Gatherer.run_tells hend
  have hgave := gave_happenings hdraws moments
  cases result with
  | reached summary =>
    refine Or.inl ⟨summary, rfl, ?_⟩
    calc g.threshold
        ≤ (start.collect (g.replies start (w.happenings g start moments))).attestations.size :=
          htells.enough_of_reached
      _ = (start.collect (g.replies start (w.happenings g start moments))).keySet.card :=
          (Summary.card_keySet _).symm
      _ ≤ (start.keySet ∪ attestingKeys habits g.peers).card :=
          Finset.card_le_card (h.keySet_collect_subset hgave)
  | invalidated peer => exact absurd htells.of_invalidated (h.not_invalid hgave)
  | unreachable =>
    have hruns := htells.of_unreachable
    refine Or.inr ⟨rfl, ?_⟩
    calc (start.keySet ∪ attestingKeys habits g.peers).card
        ≤ (start.collect (g.replies start (w.happenings g start moments))).keySet.card :=
          Finset.card_le_card (h.subset_keySet_collect hgave hruns.asked)
      _ = (start.collect (g.replies start (w.happenings g start moments))).attestations.size :=
          Summary.card_keySet _
      _ < g.threshold := hruns.few

/-- It comes to one of these ends after no more requests than the habits allow for. -/
theorem Follow.exists_end (h : w.Follow habits g start) (hdraws : w.DrawsSuffice g start) :
    ∃ moments result, w.EndsIn g start moments result ∧
      (g.requests start (w.happenings g start moments)).length ≤
        ∑ peer ∈ Finset.range g.peers, ((habits peer).misses + 1) := by
  obtain ⟨moments, result, hend⟩ := Surroundings.exists_end hdraws (h.length_replies_le hdraws)
  refine ⟨moments, result, hend, ?_⟩
  rw [Gatherer.requests_of_ended hend, List.length_map]
  exact h.length_replies_le hdraws moments

end Surroundings

/-- The draws do not decide the verdict. Where every peer has a habit, two gatherings for one
summary come to an end whatever is drawn in each of them, as long as a peer comes up each time
that may be asked. Neither makes more requests than one to each peer and those that could not be
dispatched at first. Both reach a quorum if the keys at the start and those of all peers that
attest are enough together, each counted once, and neither does otherwise. -/
theorem the_draws_do_not_decide_the_verdict (g : Gatherer) (start : Summary)
    (habits : Nat → Habit) (one other : Surroundings) (hone : one.Follow habits g start)
    (hother : other.Follow habits g start) (honeDraws : one.DrawsSuffice g start)
    (hotherDraws : other.DrawsSuffice g start) :
    ∃ moments moments' result result',
      one.EndsIn g start moments result ∧ other.EndsIn g start moments' result' ∧
      (g.requests start (one.happenings g start moments)).length ≤
        ∑ peer ∈ Finset.range g.peers, ((habits peer).misses + 1) ∧
      (g.requests start (other.happenings g start moments')).length ≤
        ∑ peer ∈ Finset.range g.peers, ((habits peer).misses + 1) ∧
      if g.threshold ≤ (start.keySet ∪ attestingKeys habits g.peers).card then
        (∃ summary, result = .reached summary) ∧ ∃ summary, result' = .reached summary
      else result = .unreachable ∧ result' = .unreachable := by
  obtain ⟨moments, result, hend, hrequests⟩ := hone.exists_end honeDraws
  obtain ⟨moments', result', hend', hrequests'⟩ := hother.exists_end hotherDraws
  refine ⟨moments, moments', result, result', hend, hend', hrequests, hrequests', ?_⟩
  have hcase := hone.ends honeDraws hend
  have hcase' := hother.ends hotherDraws hend'
  split
  · rename_i henough
    rcases hcase with ⟨summary, hreached, _⟩ | ⟨_, hfew⟩
    · rcases hcase' with ⟨summary', hreached', _⟩ | ⟨_, hfew⟩
      · exact ⟨⟨summary, hreached⟩, summary', hreached'⟩
      · exact absurd henough (Nat.not_le.2 hfew)
    · exact absurd henough (Nat.not_le.2 hfew)
  · rename_i hfew
    rcases hcase with ⟨_, _, henough⟩ | ⟨hunreachable, _⟩
    · exact absurd henough hfew
    · rcases hcase' with ⟨_, _, henough⟩ | ⟨hunreachable', _⟩
      · exact absurd henough hfew
      · exact ⟨hunreachable, hunreachable'⟩

end

namespace Sample

attribute [local instance] standardCrypto

/-- Of four peers, the first cannot be reached at first and then attests with the key of the third,
the second is silent, and the last attests with a key of its own. -/
def habits : Nat → Habit
  | 0 => ⟨1, some key⟩
  | 1 => ⟨0, none⟩
  | 2 => ⟨0, some key⟩
  | _ => ⟨0, some peerKey⟩

def habitual (randoms : List Nat) : Surroundings where
  delivery
    | 0, 0 => .undelivered
    | 0, _ => .answered (.attestation attestation)
    | 1, _ => .timedOut
    | 2, _ => .answered (.attestation attestation)
    | _, _ => .answered (.attestation peerAttestation)
  randoms _ := randoms

theorem follow_habitual (g : Gatherer) (randoms : List Nat) :
    (habitual randoms).Follow habits g start := by
  intro peer _ request
  match peer, request with
  | 0, 0 => exact ⟨fun _ => rfl, fun h => absurd h (by decide), fun h => absurd h (by decide)⟩
  | 0, request + 1 =>
    refine ⟨fun h => absurd h (by simp [habits]), ?_, fun _ h => by cases h⟩
    rintro _ _ ⟨⟩
    exact ⟨attestation, reply_attestation, rfl⟩
  | 1, _ =>
    refine ⟨fun h => absurd h (Nat.not_lt_zero _), ?_, fun _ _ => rfl⟩
    intro _ _ hkey
    cases hkey
  | 2, _ =>
    refine ⟨fun h => absurd h (Nat.not_lt_zero _), ?_, fun _ h => by cases h⟩
    rintro _ _ ⟨⟩
    exact ⟨attestation, reply_attestation, rfl⟩
  | _ + 3, _ =>
    refine ⟨fun h => absurd h (Nat.not_lt_zero _), ?_, fun _ h => by cases h⟩
    rintro _ _ ⟨⟩
    exact ⟨peerAttestation, reply_peerAttestation, rfl⟩

/-- Four peers to gather from. -/
def four (threshold : Nat) : Gatherer := ⟨4, threshold, 100, 20⟩

theorem drawsSuffice_habitual {threshold : Nat} {randoms : List Nat}
    (h : ∀ peer < 4, peer ∈ randoms) : (habitual randoms).DrawsSuffice (four threshold) start :=
  Surroundings.drawsSuffice_of_mem fun _ => h

/-- Two attestations come together in either order of the draws, and three in neither, as the key
that two of the peers share counts once. -/
theorem two_orders_come_to_the_same :
    (∀ threshold, (habitual [0, 1, 2, 3]).Follow habits (four threshold) start ∧
      (habitual [3, 2, 1, 0]).Follow habits (four threshold) start ∧
      (habitual [0, 1, 2, 3]).DrawsSuffice (four threshold) start ∧
      (habitual [3, 2, 1, 0]).DrawsSuffice (four threshold) start) ∧
    (∃ moments moments' summary summary',
      (habitual [0, 1, 2, 3]).EndsIn (four 2) start moments (.reached summary) ∧
      (habitual [3, 2, 1, 0]).EndsIn (four 2) start moments' (.reached summary')) ∧
    ∃ moments moments',
      (habitual [0, 1, 2, 3]).EndsIn (four 3) start moments .unreachable ∧
      (habitual [3, 2, 1, 0]).EndsIn (four 3) start moments' .unreachable := by
  have hone {threshold : Nat} : (habitual [0, 1, 2, 3]).DrawsSuffice (four threshold) start :=
    drawsSuffice_habitual (by decide)
  have hother {threshold : Nat} : (habitual [3, 2, 1, 0]).DrawsSuffice (four threshold) start :=
    drawsSuffice_habitual (by decide)
  refine ⟨fun _ => ⟨follow_habitual _ _, follow_habitual _ _, hone, hother⟩, ?_, ?_⟩
  · obtain ⟨moments, moments', result, result', hend, hend', _, _, hverdict⟩ :=
      the_draws_do_not_decide_the_verdict (four 2) start habits _ _ (follow_habitual _ _)
        (follow_habitual _ _) hone hother
    rw [if_pos (by decide +kernel)] at hverdict
    obtain ⟨⟨summary, rfl⟩, summary', rfl⟩ := hverdict
    exact ⟨moments, moments', summary, summary', hend, hend'⟩
  · obtain ⟨moments, moments', result, result', hend, hend', _, _, hverdict⟩ :=
      the_draws_do_not_decide_the_verdict (four 3) start habits _ _ (follow_habitual _ _)
        (follow_habitual _ _) hone hother
    rw [if_neg (by decide +kernel)] at hverdict
    obtain ⟨rfl, rfl⟩ := hverdict
    exact ⟨moments, moments', hend, hend'⟩

end Sample

end Admission
