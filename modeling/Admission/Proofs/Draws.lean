-- The draws of a step. What is known decides what a step is, and the draws decide
-- only whom to ask. They are begun only where somebody may be asked, and they end
-- with the first peer that comes up of those who may.
import Admission.Proofs.Quorum

namespace Admission

namespace QuorumState

/-- The random number stands for a peer that may be asked. -/
def Accepts (q : QuorumState) (n : Nat) (failed : List Nat) (random : Nat) : Prop :=
  ∃ peer, drawPeer n random = some peer ∧ q.excludes peer = false ∧ peer ∉ failed

/-- The step is left to the draws: without a random number it has no answer. -/
def LeftToDraws (q : QuorumState) (threshold n : Nat) (failed : List Nat) : Prop :=
  q.step threshold n failed [] = none

variable {q : QuorumState} {threshold n peer random : Nat} {failed : List Nat}

/-! ## Drawing -/

/-- Among some peers every random number stands for one of them. -/
theorem exists_drawPeer (hn : 0 < n) (random : Nat) : ∃ peer < n, drawPeer n random = some peer :=
  ⟨random % n, Nat.mod_lt _ hn, if_neg (Nat.ne_of_gt hn)⟩

theorem drawPeer_of_lt (h : peer < n) : drawPeer n peer = some peer := by
  unfold drawPeer
  rw [if_neg (by omega), Nat.mod_eq_of_lt h]

theorem draw_of_accepts (h : q.Accepts n failed random) (rest : List Nat) :
    q.draw n failed (random :: rest) = (drawPeer n random).map Step.ask := by
  obtain ⟨peer, hpeer, hfree, huntried⟩ := h
  simp [draw, hpeer, hfree, huntried]

/-- Numbers that stand for nobody who may be asked are passed over. -/
theorem draw_append_of_not_accepts {randoms : List Nat} (hn : 0 < n)
    (h : ∀ r ∈ randoms, ¬ q.Accepts n failed r) (rest : List Nat) :
    q.draw n failed (randoms ++ rest) = q.draw n failed rest := by
  induction randoms with
  | nil => rfl
  | cons random later ih =>
    obtain ⟨peer, _, hpeer⟩ := exists_drawPeer hn random
    have hrefused : (q.excludes peer || failed.contains peer) = true := by
      rw [← Bool.not_eq_false]
      intro hmay
      exact h random List.mem_cons_self ⟨peer, hpeer, by simpa using hmay⟩
    rw [List.cons_append, draw, hpeer]
    dsimp only
    rw [if_pos hrefused]
    exact ih fun r hr => h r (List.mem_cons_of_mem _ hr)

/-- Of a sequence of draws just those are taken up to the first that is accepted. -/
theorem draw_of_first {draws : Nat → Nat} {k : Nat} (hn : 0 < n)
    (haccepted : q.Accepts n failed (draws k)) (hfirst : ∀ j < k, ¬ q.Accepts n failed (draws j))
    (m : Nat) : q.draw n failed ((List.range m).map draws) =
      if k < m then (drawPeer n (draws k)).map Step.ask else none := by
  have hpassed : ∀ j ≤ k, ∀ r ∈ (List.range j).map draws, ¬ q.Accepts n failed r := by
    intro j hj r hr
    obtain ⟨i, hi, rfl⟩ := List.mem_map.1 hr
    exact hfirst i (Nat.lt_of_lt_of_le (List.mem_range.1 hi) hj)
  split
  · rename_i hlong
    obtain ⟨more, rfl⟩ : ∃ more, m = k + (more + 1) := ⟨m - k - 1, by omega⟩
    rw [List.range_add, List.map_append, draw_append_of_not_accepts hn (hpassed k (Nat.le_refl k)),
      List.range_succ_eq_map, List.map_cons, List.map_cons]
    exact draw_of_accepts haccepted _
  · rename_i hshort
    rw [← List.append_nil ((List.range m).map draws),
      draw_append_of_not_accepts hn (hpassed m (Nat.not_lt.1 hshort))]
    rfl

/-! ## What decides -/

theorem step_of_enough (h : threshold ≤ q.summary.attestations.size) (randoms : List Nat) :
    q.step threshold n failed randoms = some (.reached q.summary) :=
  if_pos h

theorem step_of_excluded (hfew : q.summary.attestations.size < threshold)
    (hall : ∀ peer < n, q.excludes peer = true) (randoms : List Nat) :
    q.step threshold n failed randoms = some .exhausted := by
  have hempty : q.remaining n = [] := by
    simpa [remaining] using hall
  rw [QuorumState.step, if_neg (Nat.not_le.2 hfew), hempty]
  rfl

theorem step_of_failed (hfew : q.summary.attestations.size < threshold)
    (hleft : ∃ peer < n, q.excludes peer = false)
    (hall : ∀ peer < n, q.excludes peer = false → peer ∈ failed) (randoms : List Nat) :
    q.step threshold n failed randoms = some .backoff := by
  obtain ⟨peer, hpeer⟩ := hleft
  have hsome : ¬ (q.remaining n).isEmpty = true := by
    rw [List.isEmpty_iff]
    exact List.ne_nil_of_mem (mem_remaining.2 hpeer)
  have hfailed : (q.remaining n).all failed.contains = true := by
    rw [List.all_eq_true]
    intro other hother
    obtain ⟨hlt, hfree⟩ := mem_remaining.1 hother
    exact List.contains_iff_mem.2 (hall other hlt hfree)
  rw [QuorumState.step, if_neg (Nat.not_le.2 hfew), if_neg hsome, if_pos hfailed]

/-- Nothing but the draws is left where attestations are missing and somebody may be asked. -/
theorem step_of_candidate (hfew : q.summary.attestations.size < threshold) (hpeer : peer < n)
    (hfree : q.excludes peer = false) (huntried : peer ∉ failed) (randoms : List Nat) :
    q.step threshold n failed randoms = q.draw n failed randoms := by
  have hmem : peer ∈ q.remaining n := mem_remaining.2 ⟨hpeer, hfree⟩
  have hsome : ¬ (q.remaining n).isEmpty = true := by
    rw [List.isEmpty_iff]
    exact List.ne_nil_of_mem hmem
  have hfailed : ¬ (q.remaining n).all failed.contains = true := by
    rw [List.all_eq_true]
    exact fun hall => huntried (List.contains_iff_mem.1 (hall peer hmem))
  rw [QuorumState.step, if_neg (Nat.not_le.2 hfew), if_neg hsome, if_neg hfailed]

theorem leftToDraws_iff :
    q.LeftToDraws threshold n failed ↔
      q.summary.attestations.size < threshold ∧
        ∃ peer < n, q.excludes peer = false ∧ peer ∉ failed := by
  constructor
  · intro h
    have hfew : q.summary.attestations.size < threshold := by
      refine Nat.not_le.1 fun henough => ?_
      simp [LeftToDraws, step_of_enough henough] at h
    refine ⟨hfew, Classical.byContradiction fun hnobody => ?_⟩
    -- Nobody may be asked, so whoever is left has failed.
    have hall : ∀ peer < n, q.excludes peer = false → peer ∈ failed := by
      intro peer hpeer hfree
      exact Classical.byContradiction fun huntried => hnobody ⟨peer, hpeer, hfree, huntried⟩
    by_cases hleft : ∃ peer < n, q.excludes peer = false
    · simp [LeftToDraws, step_of_failed hfew hleft hall] at h
    · have hexcluded : ∀ peer < n, q.excludes peer = true := by
        intro peer hpeer
        rw [← Bool.not_eq_false]
        exact fun hfree => hleft ⟨peer, hpeer, hfree⟩
      simp [LeftToDraws, step_of_excluded hfew hexcluded] at h
  · rintro ⟨hfew, peer, hpeer, hfree, huntried⟩
    exact step_of_candidate hfew hpeer hfree huntried []

theorem step_eq_reached_iff {randoms : List Nat} {summary : Summary} :
    q.step threshold n failed randoms = some (.reached summary) ↔
      threshold ≤ q.summary.attestations.size ∧ summary = q.summary := by
  constructor
  · intro h
    rcases step_cases h with ⟨henough, heq⟩ | ⟨_, _, heq⟩ | ⟨_, _, _, heq⟩ | ⟨_, _, _, _, _, heq⟩
    · cases heq
      exact ⟨henough, rfl⟩
    all_goals cases heq
  · rintro ⟨henough, rfl⟩
    exact step_of_enough henough randoms

theorem step_eq_exhausted_iff {randoms : List Nat} :
    q.step threshold n failed randoms = some .exhausted ↔
      q.summary.attestations.size < threshold ∧ ∀ peer < n, q.excludes peer = true := by
  constructor
  · intro h
    rcases step_cases h with ⟨_, heq⟩ | ⟨hfew, hall, _⟩ | ⟨_, _, _, heq⟩ | ⟨_, _, _, _, _, heq⟩
    · cases heq
    · exact ⟨hfew, hall⟩
    all_goals cases heq
  · rintro ⟨hfew, hall⟩
    exact step_of_excluded hfew hall randoms

theorem step_eq_backoff_iff {randoms : List Nat} :
    q.step threshold n failed randoms = some .backoff ↔
      q.summary.attestations.size < threshold ∧ (∃ peer < n, q.excludes peer = false) ∧
        ∀ peer < n, q.excludes peer = false → peer ∈ failed := by
  constructor
  · intro h
    rcases step_cases h with ⟨_, heq⟩ | ⟨_, _, heq⟩ | ⟨hfew, hleft, hall, _⟩ | ⟨_, _, _, _, _, heq⟩
    · cases heq
    · cases heq
    · exact ⟨hfew, hleft, hall⟩
    · cases heq
  · rintro ⟨hfew, hleft, hall⟩
    exact step_of_failed hfew hleft hall randoms

/-- A request goes to a peer that may be asked, and any of these may come up. -/
theorem exists_step_eq_ask_iff :
    (∃ randoms, q.step threshold n failed randoms = some (.ask peer)) ↔
      q.summary.attestations.size < threshold ∧ peer < n ∧ q.excludes peer = false ∧
        peer ∉ failed := by
  constructor
  · rintro ⟨randoms, h⟩
    rcases step_cases h with ⟨_, heq⟩ | ⟨_, _, heq⟩ | ⟨_, _, _, heq⟩ |
      ⟨hfew, asked, hlt, hfree, huntried, heq⟩
    · cases heq
    · cases heq
    · cases heq
    · cases heq
      exact ⟨hfew, hlt, hfree, huntried⟩
  · rintro ⟨hfew, hlt, hfree, huntried⟩
    have hpeer := drawPeer_of_lt hlt
    refine ⟨[peer], ?_⟩
    rw [step_of_candidate hfew hlt hfree huntried, draw_of_accepts ⟨peer, hpeer, hfree, huntried⟩,
      hpeer]
    rfl

/-! ## The law of a step -/

/-- How a step is decided, and what the draws have to do with it. -/
structure Decides (q : QuorumState) (threshold n : Nat) (failed : List Nat) : Prop where
  /-- The quorum is reached if the attestations are enough. -/
  reached : ∀ randoms summary, q.step threshold n failed randoms = some (.reached summary) ↔
    threshold ≤ q.summary.attestations.size ∧ summary = q.summary
  /-- Otherwise nobody is left if every peer is excluded. -/
  exhausted : ∀ randoms, q.step threshold n failed randoms = some .exhausted ↔
    q.summary.attestations.size < threshold ∧ ∀ peer < n, q.excludes peer = true
  /-- Otherwise there is a pause if everybody who is left has failed. -/
  backoff : ∀ randoms, q.step threshold n failed randoms = some .backoff ↔
    q.summary.attestations.size < threshold ∧ (∃ peer < n, q.excludes peer = false) ∧
      ∀ peer < n, q.excludes peer = false → peer ∈ failed
  /-- Otherwise it is a request, and it may go to any peer that is left and has not failed. -/
  ask : ∀ peer, (∃ randoms, q.step threshold n failed randoms = some (.ask peer)) ↔
    q.summary.attestations.size < threshold ∧ peer < n ∧ q.excludes peer = false ∧ peer ∉ failed
  /-- Draws are begun only where some number is accepted, and each stands for some peer. -/
  begins : q.LeftToDraws threshold n failed →
    (∃ random, q.Accepts n failed random) ∧ ∀ random, ∃ peer < n, drawPeer n random = some peer
  /-- Of any sequence they take what comes up to the first number that is accepted. -/
  ends : q.LeftToDraws threshold n failed → ∀ (draws : Nat → Nat) (k : Nat),
    q.Accepts n failed (draws k) → (∀ j < k, ¬ q.Accepts n failed (draws j)) →
      ∀ m, q.step threshold n failed ((List.range m).map draws) =
        if k < m then (drawPeer n (draws k)).map Step.ask else none

end QuorumState

/-- Draws decide only whom to ask. Whether the quorum is reached, nobody is left, or all who are left
have failed is known before them. A peer that is drawn for a request is one that may be asked, any
such peer can be, and of a sequence of draws it is the first. -/
theorem draws_decide_only_whom_to_ask (q : QuorumState) (threshold n : Nat) (failed : List Nat) :
    q.Decides threshold n failed where
  reached _ _ := QuorumState.step_eq_reached_iff
  exhausted _ := QuorumState.step_eq_exhausted_iff
  backoff _ := QuorumState.step_eq_backoff_iff
  ask _ := QuorumState.exists_step_eq_ask_iff
  begins h := by
    obtain ⟨_, peer, hlt, hmay⟩ := QuorumState.leftToDraws_iff.1 h
    refine ⟨⟨peer, peer, QuorumState.drawPeer_of_lt hlt, hmay⟩, ?_⟩
    exact QuorumState.exists_drawPeer (Nat.zero_lt_of_lt hlt)
  ends h draws k haccepted hfirst m := by
    obtain ⟨hfew, peer, hlt, hfree, huntried⟩ := QuorumState.leftToDraws_iff.1 h
    rw [QuorumState.step_of_candidate hfew hlt hfree huntried]
    exact QuorumState.draw_of_first (Nat.zero_lt_of_lt hlt) haccepted hfirst m

namespace Sample

/-- The lists name some peers twice, and some that there are not. -/
def crowded : QuorumState := ⟨default, [1, 1, 9], [7, 1]⟩

/-- Of four peers one is excluded and one has failed. The first two numbers stand for them, and the
third stands for a peer that may be asked. -/
theorem the_third_number_is_accepted :
    crowded.LeftToDraws 1 4 [0, 0, 12] ∧
      crowded.step 1 4 [0, 0, 12] [5, 8] = none ∧
      crowded.step 1 4 [0, 0, 12] [5, 8, 6] = some (.ask 2) ∧
      crowded.step 1 4 [0, 0, 12] [5, 8, 6, 3] = some (.ask 2) := by
  have hleft : crowded.LeftToDraws 1 4 [0, 0, 12] := rfl
  have hrefused : ∀ j < 2, ¬ crowded.Accepts 4 [0, 0, 12] ([5, 8, 6].getD j 3) := by
    rintro j hj ⟨peer, hpeer, hfree, huntried⟩
    obtain rfl | rfl : j = 0 ∨ j = 1 := by omega
    · obtain rfl : 1 = peer := Option.some.inj hpeer
      exact absurd hfree (by decide)
    · obtain rfl : 0 = peer := Option.some.inj hpeer
      exact absurd huntried (by decide)
  have hends := (draws_decide_only_whom_to_ask crowded 1 4 [0, 0, 12]).ends hleft
    (fun j => [5, 8, 6].getD j 3) 2 ⟨2, rfl, rfl, by decide⟩ hrefused
  exact ⟨hleft, hends 2, hends 3, hends 4⟩

end Sample

end Admission
