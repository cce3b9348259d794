-- Only pauses keep a gathering alive. Each request takes something away from what
-- is left before the next pause, and there are no more answers than peers.
import Admission.Proofs.Surroundings
import Mathlib.Algebra.BigOperators.Intervals
import Mathlib.Algebra.Order.BigOperators.Group.Finset

namespace Admission

/-! ## What is left before a pause -/

/-- How many requests there can be before a pause, at the most. An answer may let all that are left
be tried again, so each peer that is left counts for itself and for those left after it. -/
def Progress.allowance (g : Gatherer) (p : Progress) : Nat :=
  (p.quorum.candidates g.peers p.failed).length +
    ∑ left ∈ Finset.range (p.quorum.remaining g.peers).length, left

/-- The same of each stage. A request that is being made is no longer left. -/
def Gathering.allowance (g : Gatherer) : Gathering → Nat
  | .deciding p => p.allowance g
  | .asking p _ => p.allowance g - 1
  | .pausing p _ => p.rested.allowance g
  | .ended _ => 0

/-- The most requests that there can be between two pauses. -/
def Gatherer.mostRequests (g : Gatherer) : Nat := g.peers * (g.peers + 1) / 2

def Gathering.isPause : Gathering → Bool
  | .pausing _ _ => true
  | _ => false

namespace Progress

variable {g : Gatherer} {p : Progress} {peer : Nat}

theorem MayAsk.mem_candidates (may : p.MayAsk g peer) :
    peer ∈ p.quorum.candidates g.peers p.failed :=
  QuorumState.mem_candidates.2 ⟨may.known, may.fresh, may.untried⟩

theorem MayAsk.allowance_pos (may : p.MayAsk g peer) : 0 < p.allowance g :=
  Nat.add_pos_left (List.length_pos_of_mem may.mem_candidates) _

theorem allowance_le (g : Gatherer) (p : Progress) : p.allowance g ≤ g.mostRequests := by
  have hcandidates := p.quorum.length_candidates_le g.peers p.failed
  have hremaining := p.quorum.length_remaining_le g.peers
  calc p.allowance g
      ≤ (p.quorum.remaining g.peers).length +
          ∑ left ∈ Finset.range (p.quorum.remaining g.peers).length, left :=
        Nat.add_le_add_right hcandidates _
    _ = ∑ left ∈ Finset.range ((p.quorum.remaining g.peers).length + 1), left := by
        rw [Finset.sum_range_succ, Nat.add_comm]
    _ ≤ ∑ left ∈ Finset.range (g.peers + 1), left := by
        apply Finset.sum_le_sum_of_subset
        apply Finset.range_mono
        omega
    _ = g.mostRequests := by
        rw [Finset.sum_range_id, Gatherer.mostRequests, Nat.mul_comm, Nat.add_sub_cancel]

/-- A peer that failed is not asked again before the next pause or attestation. -/
theorem MayAsk.allowance_missed (may : p.MayAsk g peer) :
    (p.replied peer .notDispatched).allowance g ≤ p.allowance g - 1 := by
  have hless := QuorumState.length_candidates_cons may.mem_candidates
  simp only [allowance, replied]
  omega

theorem MayAsk.allowance_unanswered (may : p.MayAsk g peer) :
    (p.replied peer .noAnswer).allowance g ≤ p.allowance g - 1 := by
  have hexcludes : (p.quorum.unanswered peer).ExcludesAlso p.quorum peer :=
    fun other => QuorumState.excludes_unanswered p.quorum peer other
  have hcandidates := hexcludes.length_candidates may.mem_candidates
  have hremaining := hexcludes.length_remaining (QuorumState.mem_remaining.2 ⟨may.known, may.fresh⟩)
  simp only [allowance, replied]
  rw [← hremaining, Finset.sum_range_succ]
  omega

/-- After an attestation all that are left may be tried again, but they are one less. -/
theorem MayAsk.allowance_attested (may : p.MayAsk g peer) (a : Attestation) :
    (p.replied peer (.attested a)).allowance g ≤ p.allowance g - 1 := by
  have hexcludes : (p.quorum.attested peer a).ExcludesAlso p.quorum peer :=
    fun other => QuorumState.excludes_attested p.quorum peer other a
  have hremaining := hexcludes.length_remaining (QuorumState.mem_remaining.2 ⟨may.known, may.fresh⟩)
  have hcandidates := (p.quorum.attested peer a).length_candidates_le g.peers []
  have hpos := List.length_pos_of_mem may.mem_candidates
  simp only [allowance, replied]
  rw [← hremaining, Finset.sum_range_succ]
  omega

end Progress

theorem Gathering.allowance_le (g : Gatherer) (stage : Gathering) :
    stage.allowance g ≤ g.mostRequests := by
  cases stage with
  | deciding p => exact p.allowance_le g
  | asking p peer => exact Nat.le_trans (Nat.sub_le _ _) (p.allowance_le g)
  | pausing p milliseconds => exact p.rested.allowance_le g
  | ended result => exact Nat.zero_le _

/-! ## Requests -/

section
variable [Crypto]

/-- How many pauses there were. -/
def Gatherer.pauses (g : Gatherer) (start : Summary) (hs : List Happening) : Nat :=
  (g.stages start hs).countP Gathering.isPause

/-- A request takes something away from what is left, and only a pause gives something back. -/
theorem Gathering.Tells.allowance_moves {g : Gatherer} {start : Summary}
    {rs : List (Nat × Delivery)} {stage next : Gathering} {happening : Happening}
    (h : stage.Tells g start rs) (hmoves : Moves g stage happening next) :
    next.allowance g + next.request?.toList.length ≤
      stage.allowance g + if next.isPause then g.mostRequests else 0 := by
  cases hmoves with
  | asks may =>
    have hpos := may.allowance_pos
    simp only [allowance, request?, isPause, Option.toList_some, List.length_singleton]
    omega
  | @pauses p _ few left tried =>
    have hle := p.rested.allowance_le g
    simp only [allowance, request?, isPause, Option.toList_none, List.length_nil, if_true]
    omega
  | reaches _ | runsOut _ _ | invalidated => exact Nat.zero_le _
  | attested _ => exact h.mayAsk.allowance_attested _
  | missed _ => exact h.mayAsk.allowance_missed
  | unanswered _ => exact h.mayAsk.allowance_unanswered
  | rests => exact Nat.le_refl _

namespace Gatherer

variable {g : Gatherer} {start : Summary} {before segment hs : List Happening}
  {first last stage next : Gathering}

theorem requests_append_singleton (happening : Happening) (hrun : g.run start hs = some stage)
    (hafter : stage.after g happening = some next) :
    g.requests start (hs ++ [happening]) = g.requests start hs ++ next.request?.toList := by
  unfold requests stages
  rw [Run.stages_append_singleton happening next hrun hafter, List.filterMap_append]
  cases hrequest : next.request? <;> simp [hrequest]

theorem pauses_append_singleton (happening : Happening) (hrun : g.run start hs = some stage)
    (hafter : stage.after g happening = some next) :
    g.pauses start (hs ++ [happening]) =
      g.pauses start hs + if next.isPause then 1 else 0 := by
  unfold pauses stages
  rw [Run.stages_append_singleton happening next hrun hafter, List.countP_append,
    List.countP_singleton]

/-- The requests of a part of a run are paid by what was left before it and by its pauses. -/
theorem requests_allowance_le (hbefore : g.run start before = some first)
    (hsegment : Run.reach (Gathering.after g) first segment = some last) :
    (g.requests start (before ++ segment)).length + last.allowance g +
        g.mostRequests * g.pauses start before ≤
      (g.requests start before).length + first.allowance g +
        g.mostRequests * g.pauses start (before ++ segment) := by
  refine Run.reach_induction (P := fun segment last =>
    (g.requests start (before ++ segment)).length + last.allowance g +
        g.mostRequests * g.pauses start before ≤
      (g.requests start before).length + first.allowance g +
        g.mostRequests * g.pauses start (before ++ segment)) ?_ ?_ hsegment
  · rw [List.append_nil]
  · intro segment between happening next hreach hsofar hafter
    have hrun := Run.reach_append_eq_some.2 ⟨first, hbefore, hreach⟩
    have hmoves := (run_tells hrun).allowance_moves (Gathering.moves_of_after hafter)
    rw [← List.append_assoc, requests_append_singleton happening hrun hafter,
      pauses_append_singleton happening hrun hafter, List.length_append, Nat.mul_add]
    cases hpause : next.isPause <;> simp [hpause] at hmoves ⊢ <;> omega

/-- Without a pause there are only so many requests. -/
theorem requests_le_of_no_pause (h : g.run start (before ++ segment) = some stage)
    (hpauses : g.pauses start (before ++ segment) = g.pauses start before) :
    (g.requests start (before ++ segment)).length ≤
      (g.requests start before).length + g.mostRequests := by
  obtain ⟨first, hbefore, hsegment⟩ := Run.reach_append_eq_some.1 h
  have hpaid := requests_allowance_le hbefore hsegment
  have hfirst := Gathering.allowance_le g first
  rw [hpauses] at hpaid
  omega

theorem requests_le (h : g.run start hs = some stage) :
    (g.requests start hs).length ≤ (g.pauses start hs + 1) * g.mostRequests := by
  have hpaid := requests_allowance_le (rfl : g.run start [] = some (.start start)) h
  have hfirst := Gathering.allowance_le g (.start start)
  have hnone : g.requests start [] = [] := rfl
  have hzero : g.pauses start [] = 0 := rfl
  rw [List.nil_append, hnone, hzero, List.length_nil, Nat.mul_zero] at hpaid
  rw [Nat.add_mul, Nat.one_mul, Nat.mul_comm]
  omega

/-- Each peer answers once at the most. -/
theorem length_dispatchedTo_le (h : g.run start hs = some stage) :
    (dispatchedTo start.id (g.replies start hs)).length ≤ g.peers := by
  have hsubset : (dispatchedTo start.id (g.replies start hs)).toFinset ⊆ Finset.range g.peers := by
    intro peer hpeer
    obtain ⟨d, hd, _⟩ := mem_dispatchedTo.1 (List.mem_toFinset.1 hpeer)
    exact Finset.mem_range.2 (known_of_mem_replies hd)
  calc (dispatchedTo start.id (g.replies start hs)).length
      = (dispatchedTo start.id (g.replies start hs)).toFinset.card :=
        (List.toFinset_card_of_nodup (run_tells h).once).symm
    _ ≤ (Finset.range g.peers).card := Finset.card_le_card hsubset
    _ = g.peers := Finset.card_range g.peers

end Gatherer

/-! ## Until the next pause -/

namespace Surroundings

variable {w : Surroundings} {g : Gatherer} {start : Summary}

/-- At each moment at most one pause begins, and then nothing is asked. -/
theorem pauses_succ (hdraws : w.DrawsSuffice g start) (moments : Nat) :
    g.pauses start (w.happenings g start (moments + 1)) ≤
        g.pauses start (w.happenings g start moments) ∨
      g.pauses start (w.happenings g start (moments + 1)) =
          g.pauses start (w.happenings g start moments) + 1 ∧
        g.requests start (w.happenings g start (moments + 1)) =
          g.requests start (w.happenings g start moments) ∧
        ∃ p milliseconds, g.run start (w.happenings g start (moments + 1)) =
          some (.pausing p milliseconds) := by
  obtain ⟨stage, hrun, _⟩ := run_happenings hdraws moments
  rcases exists_next hdraws hrun with ⟨result, rfl⟩ | ⟨happening, following, hnext, hafter, _⟩
  · rw [happenings_succ_of_ended hrun]
    exact Or.inl (Nat.le_refl _)
  · rw [happenings_succ hnext, Gatherer.pauses_append_singleton happening hrun hafter,
      Gatherer.requests_append_singleton happening hrun hafter]
    cases following with
    | pausing p milliseconds =>
      refine Or.inr ⟨rfl, List.append_nil _, p, milliseconds, ?_⟩
      exact (Gatherer.run_append_singleton happening).2 ⟨stage, hrun, hafter⟩
    | deciding p | asking p peer | ended result => exact Or.inl (Nat.le_refl _)

/-- Where there are more than so many pauses, there is a moment at which the next one begins. -/
theorem exists_pausing (hdraws : w.DrawsSuffice g start) {pauses moments : Nat}
    (h : pauses < g.pauses start (w.happenings g start moments)) :
    ∃ moments p milliseconds,
      g.run start (w.happenings g start moments) = some (.pausing p milliseconds) ∧
        g.pauses start (w.happenings g start moments) = pauses + 1 ∧
        (g.requests start (w.happenings g start moments)).length ≤ (pauses + 1) * g.mostRequests := by
  induction moments with
  | zero => exact absurd h (Nat.not_lt_zero _)
  | succ moments ih =>
    rcases pauses_succ hdraws moments with hsame | ⟨hpauses, hrequests, p, milliseconds, hrun⟩
    · exact ih (Nat.lt_of_lt_of_le h hsame)
    · by_cases hearlier : pauses < g.pauses start (w.happenings g start moments)
      · exact ih hearlier
      · have hcount : g.pauses start (w.happenings g start moments) = pauses := by omega
        obtain ⟨stage, hbefore, _⟩ := run_happenings hdraws moments
        have hle := Gatherer.requests_le hbefore
        rw [hcount] at hle hpauses
        rw [← hrequests] at hle
        exact ⟨moments + 1, p, milliseconds, hrun, hpauses, hle⟩

/-- However many pauses there were, the gathering ends or pauses again. -/
theorem exists_end_or_pausing (hdraws : w.DrawsSuffice g start) (pauses : Nat) :
    ∃ moments stage, g.run start (w.happenings g start moments) = some stage ∧
      (g.requests start (w.happenings g start moments)).length ≤ (pauses + 1) * g.mostRequests ∧
      ((∃ result, stage = .ended result ∧
          g.pauses start (w.happenings g start moments) ≤ pauses) ∨
        ∃ p milliseconds, stage = .pausing p milliseconds ∧
          g.pauses start (w.happenings g start moments) = pauses + 1) := by
  -- In so many moments there are more requests than there can be without another pause.
  have hmoments : ∃ moments, moments = 4 * ((pauses + 1) * g.mostRequests) + 2 := ⟨_, rfl⟩
  obtain ⟨moments, hmoments⟩ := hmoments
  by_cases hmore : pauses < g.pauses start (w.happenings g start moments)
  · obtain ⟨moments, p, milliseconds, hrun, hpauses, hle⟩ := exists_pausing hdraws hmore
    exact ⟨moments, _, hrun, hle, Or.inr ⟨p, milliseconds, rfl, hpauses⟩⟩
  · replace hmore := Nat.le_of_not_lt hmore
    obtain ⟨stage, hrun, hstage⟩ := run_happenings hdraws moments
    have hle : (g.requests start (w.happenings g start moments)).length ≤
        (pauses + 1) * g.mostRequests :=
      Nat.le_trans (Gatherer.requests_le hrun)
        (Nat.mul_le_mul_right _ (Nat.add_le_add_right hmore 1))
    refine ⟨moments, stage, hrun, hle, Or.inl ?_⟩
    rcases hstage with ⟨result, rfl⟩ | hlength
    · exact ⟨result, rfl, hmore⟩
    · have hshort := Gatherer.length_le_of_run hrun
      have hreplies := congrArg List.length (Gatherer.requests_eq hrun)
      rw [List.length_append, List.length_map] at hreplies
      omega

end Surroundings

/-- Only pauses keep a gathering alive, whatever is drawn and whatever the peers do. In a part of a
run in which no pause begins it makes no more requests than there are pairs of peers, each peer
being paired with itself too. No more requests are answered than there are peers. So, as long as a
peer comes up each time that may be asked, it ends or pauses again after no more requests than its
pauses so far allow for. -/
theorem only_pauses_keep_a_gathering_alive (g : Gatherer) (start : Summary) :
    (∀ before segment stage, g.run start (before ++ segment) = some stage →
      g.pauses start (before ++ segment) = g.pauses start before →
        (g.requests start (before ++ segment)).length ≤
          (g.requests start before).length + g.peers * (g.peers + 1) / 2) ∧
    (∀ hs stage, g.run start hs = some stage →
      (dispatchedTo start.id (g.replies start hs)).length ≤ g.peers ∧
        (g.requests start hs).length ≤
          (g.pauses start hs + 1) * (g.peers * (g.peers + 1) / 2)) ∧
    ∀ w : Surroundings, w.DrawsSuffice g start → ∀ pauses, ∃ moments stage,
      g.run start (w.happenings g start moments) = some stage ∧
        (g.requests start (w.happenings g start moments)).length ≤
          (pauses + 1) * (g.peers * (g.peers + 1) / 2) ∧
        ((∃ result, stage = .ended result ∧
            g.pauses start (w.happenings g start moments) ≤ pauses) ∨
          ∃ p milliseconds, stage = .pausing p milliseconds ∧
            g.pauses start (w.happenings g start moments) = pauses + 1) := by
  refine ⟨fun before segment stage h hpauses => Gatherer.requests_le_of_no_pause h hpauses, ?_, ?_⟩
  · intro hs stage h
    exact ⟨Gatherer.length_dispatchedTo_le h, Gatherer.requests_le h⟩
  · intro w hdraws pauses
    exact Surroundings.exists_end_or_pausing hdraws pauses

end

namespace Sample

attribute [local instance] standardCrypto

def two : Gatherer := ⟨2, 3, 100, 20⟩

/-- The first of two peers is missed, and asked again as the other one attests. -/
def askedAgain : List Happening :=
  [.drew [0], .replied .undelivered, .drew [1], .replied (.answered (.attestation attestation)),
    .drew [0]]

/-- After the first reply, and after the second. -/
def afterMiss : Progress := ⟨⟨start, [], []⟩, [0], 0⟩

def afterAttestation : Progress := ⟨⟨start.attest attestation, [1], []⟩, [], 0⟩

theorem reply_afterMiss :
    (Delivery.answered (.attestation attestation)).reply afterMiss.quorum.summary.id =
      .attested attestation := by
  simp only [afterMiss, start]
  exact reply_attestation

theorem stages_askedAgain : two.stages start askedAgain =
    [.start start, .asking (.start start) 0, .deciding afterMiss, .asking afterMiss 1,
      .deciding afterAttestation, .asking afterAttestation 0] := by
  apply Run.stages_cons (Gathering.after_drew_ask 0 (by decide +kernel))
  apply Run.stages_cons (Gathering.after_replied rfl)
  apply Run.stages_cons (Gathering.after_drew_ask 1 (by decide +kernel))
  apply Run.stages_cons (Gathering.after_replied reply_afterMiss)
  exact Run.stages_cons (Gathering.after_drew_ask 0 (by decide +kernel)) rfl

theorem run_askedAgain :
    two.run start ([] ++ askedAgain) = some (.asking afterAttestation 0) := by
  apply Run.reach_cons (Gathering.after_drew_ask 0 (by decide +kernel))
  apply Run.reach_cons (Gathering.after_replied rfl)
  apply Run.reach_cons (Gathering.after_drew_ask 1 (by decide +kernel))
  apply Run.reach_cons (Gathering.after_replied reply_afterMiss)
  exact Run.reach_cons (Gathering.after_drew_ask 0 (by decide +kernel)) rfl

/-- Nobody is ever reached. -/
def deserted : Surroundings := ⟨fun _ _ => .undelivered, fun _ => [0, 1]⟩

theorem drawsSuffice_deserted : deserted.DrawsSuffice two start := by
  apply Surroundings.drawsSuffice_of_mem
  intro moment
  exact (by decide : ∀ peer < 2, peer ∈ [0, 1])

/-- Two peers are asked three times without a pause, which is the most there can be. Where nobody
is ever reached there are at most nine requests before the third pause. -/
theorem three_requests_go_to_two_peers :
    two.run start ([] ++ askedAgain) = some (.asking afterAttestation 0) ∧
    two.pauses start ([] ++ askedAgain) = two.pauses start [] ∧
    (two.requests start ([] ++ askedAgain)).length = 3 ∧
    (two.requests start ([] ++ askedAgain)).length ≤ (two.requests start []).length + 2 * 3 / 2 ∧
    deserted.DrawsSuffice two start ∧
    ∃ moments stage, two.run start (deserted.happenings two start moments) = some stage ∧
      (two.requests start (deserted.happenings two start moments)).length ≤ 3 * (2 * 3 / 2) ∧
      ((∃ result, stage = .ended result ∧
          two.pauses start (deserted.happenings two start moments) ≤ 2) ∨
        ∃ p milliseconds, stage = .pausing p milliseconds ∧
          two.pauses start (deserted.happenings two start moments) = 3) := by
  obtain ⟨hsegment, _, hnext⟩ := only_pauses_keep_a_gathering_alive two start
  have hpauses : two.pauses start ([] ++ askedAgain) = two.pauses start [] := by
    rw [List.nil_append, Gatherer.pauses, stages_askedAgain]
    rfl
  have hrequests : (two.requests start ([] ++ askedAgain)).length = 3 := by
    rw [List.nil_append, Gatherer.requests, stages_askedAgain]
    rfl
  exact ⟨run_askedAgain, hpauses, hrequests, hsegment [] askedAgain _ run_askedAgain hpauses,
    drawsSuffice_deserted, hnext deserted drawsSuffice_deserted 2⟩

end Sample

end Admission
