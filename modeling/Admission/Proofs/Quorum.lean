-- What the next step of a quorum can be. A step is decided by the number of
-- attestations first, and only then by the peers that are left.
import Admission.Quorum

namespace Admission.QuorumState

/-! ## The peers that are left -/

theorem mem_remaining {q : QuorumState} {n peer : Nat} :
    peer ∈ q.remaining n ↔ peer < n ∧ q.excludes peer = false := by
  simp [remaining]

theorem excludes_iff {q : QuorumState} {peer : Nat} :
    q.excludes peer = true ↔ peer ∈ q.requested ∨ peer ∈ q.unresponsive := by
  simp [excludes]

@[simp] theorem excludes_attested (q : QuorumState) (peer other : Nat) (a : Attestation) :
    (q.attested peer a).excludes other = (q.excludes other || decide (other = peer)) := by
  rw [Bool.eq_iff_iff]
  simp only [excludes_iff, attested, List.mem_append, List.mem_singleton, Bool.or_eq_true,
    decide_eq_true_eq]
  exact or_right_comm

@[simp] theorem excludes_unanswered (q : QuorumState) (peer other : Nat) :
    (q.unanswered peer).excludes other = (q.excludes other || decide (other = peer)) := by
  rw [Bool.eq_iff_iff]
  simp only [excludes_iff, unanswered, List.mem_append, List.mem_singleton, Bool.or_eq_true,
    decide_eq_true_eq, or_assoc]

/-- Of the peers that are left those may be asked that have not failed. -/
theorem mem_candidates {q : QuorumState} {n peer : Nat} {failed : List Nat} :
    peer ∈ q.candidates n failed ↔ peer < n ∧ q.excludes peer = false ∧ peer ∉ failed := by
  simp [candidates, mem_remaining, and_assoc]

theorem length_candidates_le (q : QuorumState) (n : Nat) (failed : List Nat) :
    (q.candidates n failed).length ≤ (q.remaining n).length :=
  List.length_filter_le _ _

theorem length_remaining_le (q : QuorumState) (n : Nat) : (q.remaining n).length ≤ n := by
  have hle := List.length_filter_le (fun peer => !q.excludes peer) (List.range n)
  rwa [List.length_range] at hle

theorem remaining_nodup (q : QuorumState) (n : Nat) : (q.remaining n).Nodup :=
  List.nodup_range.filter _

/-- What keeps one peer less of a list of different peers keeps one less. -/
theorem length_filter_without {peers : List Nat} (h : peers.Nodup) {keeps keeps' : Nat → Bool}
    {peer : Nat} (hkeeps : ∀ other, keeps' other = (keeps other && other != peer))
    (hmem : peer ∈ peers.filter keeps) :
    (peers.filter keeps').length + 1 = (peers.filter keeps).length := by
  have herase : peers.filter keeps' = (peers.filter keeps).erase peer := by
    rw [List.Nodup.erase_eq_filter (h.filter keeps), List.filter_filter]
    apply List.filter_congr
    intro other _
    rw [hkeeps, Bool.and_comm]
  have hpos := List.length_pos_of_mem hmem
  rw [herase, List.length_erase_of_mem hmem]
  omega

/-- A peer that fails is one candidate less. -/
theorem length_candidates_cons {q : QuorumState} {n peer : Nat} {failed : List Nat}
    (h : peer ∈ q.candidates n failed) :
    (q.candidates n (peer :: failed)).length + 1 = (q.candidates n failed).length := by
  refine length_filter_without (q.remaining_nodup n) ?_ h
  intro other
  rw [List.contains_cons, Bool.not_or, Bool.and_comm, bne]

/-- The peers that are not asked again are those of `q`, and this one. -/
def ExcludesAlso (next q : QuorumState) (peer : Nat) : Prop :=
  ∀ other, next.excludes other = (q.excludes other || decide (other = peer))

namespace ExcludesAlso

variable {next q : QuorumState} {n peer : Nat} {failed : List Nat}

theorem not_excludes (h : next.ExcludesAlso q peer) (other : Nat) :
    (!next.excludes other) = (!q.excludes other && other != peer) := by
  rw [h, Bool.not_or]
  by_cases hsame : other = peer <;> simp [hsame]

/-- A peer that is not asked again is one less that is left. -/
theorem length_remaining (h : next.ExcludesAlso q peer) (hleft : peer ∈ q.remaining n) :
    (next.remaining n).length + 1 = (q.remaining n).length :=
  length_filter_without List.nodup_range h.not_excludes hleft

theorem length_candidates (h : next.ExcludesAlso q peer) (hmay : peer ∈ q.candidates n failed) :
    (next.candidates n failed).length + 1 = (q.candidates n failed).length := by
  unfold candidates remaining at hmay ⊢
  rw [List.filter_filter] at hmay ⊢
  rw [List.filter_filter]
  refine length_filter_without List.nodup_range ?_ hmay
  intro other
  rw [h.not_excludes, Bool.and_assoc]

end ExcludesAlso

/-! ## One step -/

/-- Whatever the random numbers are, a draw among some peers ends with one that may be asked. -/
theorem draw_eq_some {q : QuorumState} {n : Nat} {failed randoms : List Nat} {step : Step}
    (hn : 0 < n) (h : q.draw n failed randoms = some step) :
    ∃ peer, step = .ask peer ∧ peer < n ∧ q.excludes peer = false ∧ peer ∉ failed := by
  induction randoms with
  | nil => cases h
  | cons random rest ih =>
    simp only [draw, drawPeer, if_neg (Nat.ne_of_gt hn)] at h
    split at h
    · exact ih h
    · rename_i hfree
      cases h
      refine ⟨random % n, rfl, Nat.mod_lt _ hn, ?_⟩
      simpa using hfree

/-- All that a step can be, with what it was decided by. -/
theorem step_cases {q : QuorumState} {threshold n : Nat} {failed randoms : List Nat} {step : Step}
    (h : q.step threshold n failed randoms = some step) :
    (threshold ≤ q.summary.attestations.size ∧ step = .reached q.summary) ∨
    (q.summary.attestations.size < threshold ∧ (∀ peer < n, q.excludes peer = true) ∧
      step = .exhausted) ∨
    (q.summary.attestations.size < threshold ∧ (∃ peer < n, q.excludes peer = false) ∧
      (∀ peer < n, q.excludes peer = false → peer ∈ failed) ∧ step = .backoff) ∨
    (q.summary.attestations.size < threshold ∧
      ∃ peer < n, q.excludes peer = false ∧ peer ∉ failed ∧ step = .ask peer) := by
  unfold QuorumState.step at h
  split at h
  · rename_i hsize
    cases h
    exact Or.inl ⟨hsize, rfl⟩
  · rename_i hsize
    replace hsize := Nat.lt_of_not_le hsize
    refine Or.inr ?_
    split at h
    · rename_i hempty
      cases h
      refine Or.inl ⟨hsize, fun peer hpeer => ?_, rfl⟩
      rw [List.isEmpty_iff] at hempty
      have hnot : peer ∉ q.remaining n := by simp [hempty]
      simpa [mem_remaining, hpeer] using hnot
    · rename_i hsome
      have hne : q.remaining n ≠ [] := fun he => hsome (List.isEmpty_iff.2 he)
      obtain ⟨peer, hpeer⟩ := List.exists_mem_of_ne_nil _ hne
      replace hpeer := mem_remaining.1 hpeer
      split at h
      · rename_i hall
        cases h
        refine Or.inr (Or.inl ⟨hsize, ⟨peer, hpeer⟩, fun other hother hfree => ?_, rfl⟩)
        simpa using List.all_eq_true.1 hall other (mem_remaining.2 ⟨hother, hfree⟩)
      · have hn : 0 < n := Nat.lt_of_le_of_lt (Nat.zero_le _) hpeer.1
        obtain ⟨asked, rfl, hlt, hfree, hnot⟩ := draw_eq_some hn h
        exact Or.inr (Or.inr ⟨hsize, asked, hlt, hfree, hnot, rfl⟩)

/-- A draw ends as soon as a peer comes up that may be asked. -/
theorem exists_draw {q : QuorumState} {n random : Nat} {failed randoms : List Nat} (hn : 0 < n)
    (hmem : random ∈ randoms) (hfree : q.excludes (random % n) = false)
    (huntried : random % n ∉ failed) : ∃ step, q.draw n failed randoms = some step := by
  induction randoms with
  | nil => cases hmem
  | cons first rest ih =>
    simp only [draw, drawPeer, if_neg (Nat.ne_of_gt hn)]
    split
    · rename_i hrefused
      rcases List.mem_cons.1 hmem with rfl | hmem
      · simp [hfree, huntried] at hrefused
      · exact ih hmem
    · exact ⟨_, rfl⟩

/-- There is a next step if, wherever some peer may be asked, one that may be comes up. -/
theorem exists_step {q : QuorumState} {threshold n : Nat} {failed randoms : List Nat}
    (h : q.summary.attestations.size < threshold → ∀ peer < n, q.excludes peer = false →
      peer ∉ failed → ∃ random ∈ randoms, q.excludes (random % n) = false ∧ random % n ∉ failed) :
    ∃ step, q.step threshold n failed randoms = some step := by
  unfold QuorumState.step
  split
  · exact ⟨_, rfl⟩
  · rename_i hsize
    split
    · exact ⟨_, rfl⟩
    · split
      · exact ⟨_, rfl⟩
      · rename_i hsome
        obtain ⟨peer, hpeer, huntried⟩ : ∃ peer ∈ q.remaining n, peer ∉ failed := by
          simpa using hsome
        obtain ⟨hlt, hfree⟩ := mem_remaining.1 hpeer
        obtain ⟨random, hmem, hfree, huntried⟩ := h (Nat.lt_of_not_le hsize) peer hlt hfree huntried
        exact exists_draw (Nat.lt_of_le_of_lt (Nat.zero_le _) hlt) hmem hfree huntried

/-- Numbers that come after those that a draw needs change nothing. -/
theorem draw_append {q : QuorumState} {n : Nat} {failed randoms : List Nat} {step : Step}
    (h : q.draw n failed randoms = some step) (more : List Nat) :
    q.draw n failed (randoms ++ more) = some step := by
  induction randoms with
  | nil => cases h
  | cons random rest ih =>
    rw [List.cons_append]
    unfold draw at h ⊢
    cases hdraw : drawPeer n random with
    | none =>
      rw [hdraw] at h
      exact h
    | some peer =>
      rw [hdraw] at h
      dsimp only at h ⊢
      split at h
      · rename_i hrejected
        rw [if_pos hrejected]
        exact ih h
      · rename_i haccepted
        rw [if_neg haccepted]
        exact h

theorem step_append {q : QuorumState} {threshold n : Nat} {failed randoms : List Nat} {step : Step}
    (h : q.step threshold n failed randoms = some step) (more : List Nat) :
    q.step threshold n failed (randoms ++ more) = some step := by
  unfold QuorumState.step at h ⊢
  by_cases henough : threshold ≤ q.summary.attestations.size
  · rw [if_pos henough] at h ⊢
    exact h
  · rw [if_neg henough] at h ⊢
    by_cases hempty : (q.remaining n).isEmpty
    · rw [if_pos hempty] at h ⊢
      exact h
    · rw [if_neg hempty] at h ⊢
      by_cases hall : (q.remaining n).all failed.contains
      · rw [if_pos hall] at h ⊢
        exact h
      · rw [if_neg hall] at h ⊢
        exact draw_append h more

end Admission.QuorumState
