-- A gathering in surroundings that are known: what comes of every request, and
-- what is drawn at every moment. Then only one thing can happen next, and a
-- gathering that makes no more than so many requests comes to its end.
import Admission.Proofs.Peers

namespace Admission

/-! ## Surroundings -/

/-- All that a gathering meets: what each request to a peer comes to, counted from zero for each
peer, and the numbers that are drawn at each moment. -/
structure Surroundings where
  delivery : (peer request : Nat) → Delivery
  randoms : (moment : Nat) → List Nat

/-- How many requests to a peer came to something. -/
def requestsTo (peer : Nat) (rs : List (Nat × Delivery)) : Nat := (rs.map (·.1)).count peer

theorem requestsTo_append_singleton (peer asked : Nat) (d : Delivery) (rs : List (Nat × Delivery)) :
    requestsTo peer (rs ++ [(asked, d)]) = requestsTo peer rs + if asked = peer then 1 else 0 := by
  unfold requestsTo
  rw [List.map_append, List.map_singleton, List.count_append, List.count_singleton]
  simp only [beq_iff_eq]

namespace Surroundings

/-- What the next request to a peer comes to, after these replies. -/
def answer (w : Surroundings) (rs : List (Nat × Delivery)) (peer : Nat) : Delivery :=
  w.delivery peer (requestsTo peer rs)

/-- Replies that are in keeping with the surroundings. -/
inductive Gave (w : Surroundings) : List (Nat × Delivery) → Prop
  | nothing : Gave w []
  | reply {rs : List (Nat × Delivery)} (h : Gave w rs) (peer : Nat) :
      Gave w (rs ++ [(peer, w.answer rs peer)])

theorem Gave.delivered {w : Surroundings} {rs : List (Nat × Delivery)} (h : w.Gave rs)
    {peer : Nat} {d : Delivery} (hmem : (peer, d) ∈ rs) :
    ∃ request, d = w.delivery peer request := by
  induction h with
  | nothing => cases hmem
  | reply h asked ih =>
    rcases List.mem_append.1 hmem with hmem | hmem
    · exact ih hmem
    · cases List.mem_singleton.1 hmem
      exact ⟨_, rfl⟩

end Surroundings

variable [Crypto]

/-! ## Requests -/

/-- The peer that a stage sends a request to. -/
def Gathering.request? : Gathering → Option Nat
  | .asking _ peer => some peer
  | _ => none

/-- What comes to something is the request of the stage before. -/
theorem Gathering.Moves.peer_of_reply {g : Gatherer} {stage next : Gathering}
    {happening : Happening} (h : Moves g stage happening next) :
    (reply? (stage, happening)).map (·.1) = stage.request? := by
  cases h <;> rfl

namespace Gatherer

/-- The stages that a gathering passes through. -/
def stages (g : Gatherer) (start : Summary) (hs : List Happening) : List Gathering :=
  Run.stages (Gathering.after g) (.start start) hs

/-- The peers that requests went to, in order. -/
def requests (g : Gatherer) (start : Summary) (hs : List Happening) : List Nat :=
  (g.stages start hs).filterMap Gathering.request?

variable {g : Gatherer} {start : Summary} {hs : List Happening} {stage : Gathering}

/-- Every request has come to something, but for the one that is being made. -/
theorem requests_eq (h : g.run start hs = some stage) :
    g.requests start hs = (g.replies start hs).map (·.1) ++ stage.request?.toList := by
  refine Run.reach_induction (P := fun hs stage =>
    g.requests start hs = (g.replies start hs).map (·.1) ++ stage.request?.toList) ?_ ?_ h
  · rfl
  · intro hs between happening next hrun hbefore hafter
    rw [replies_append_singleton happening hrun hafter, List.map_append, ← Option.toList_map,
      (Gathering.moves_of_after hafter).peer_of_reply, ← hbefore]
    unfold requests stages
    rw [Run.stages_append_singleton happening next hrun hafter, List.filterMap_append]
    cases hrequest : next.request? <;> simp [hrequest]

theorem requests_of_ended {result : Gathered} (h : g.run start hs = some (.ended result)) :
    g.requests start hs = (g.replies start hs).map (·.1) := by
  rw [requests_eq h]
  exact List.append_nil _

theorem known_of_mem_replies {peer : Nat} {d : Delivery} (h : (peer, d) ∈ g.replies start hs) :
    peer < g.peers := by
  obtain ⟨⟨stage, happening⟩, hmem, hreply⟩ := List.mem_filterMap.1 h
  unfold Gathering.reply? at hreply
  split at hreply
  · rename_i p asked delivery heq
    cases hreply
    cases heq
    obtain ⟨before, _, _, hreach⟩ := Run.reach_of_mem_history hmem
    exact (run_tells hreach).mayAsk.known
  · cases hreply

theorem known_of_mem_map_replies {peer : Nat} (h : peer ∈ (g.replies start hs).map (·.1)) :
    peer < g.peers := by
  obtain ⟨⟨asked, d⟩, hmem, rfl⟩ := List.mem_map.1 h
  exact known_of_mem_replies hmem

end Gatherer

/-! ## Failures and pauses -/

/-- A failed peer is one that a request was not dispatched to. -/
def Gathering.FailsBy (id : Hash) (rs : List (Nat × Delivery)) (stage : Gathering) : Prop :=
  ∀ p, stage.progress? = some p → ∀ peer ∈ p.failed,
    ∃ d, (peer, d) ∈ rs ∧ d.reply id = .notDispatched

/-- How many moments it takes at most to come to a stage, given the number of replies. A failed
peer allows for a pause that is still to come, so that each pause is paid by a reply. -/
def Gathering.Paced (moments replies : Nat) : Gathering → Prop
  | .deciding p => moments + 2 * p.failed.length ≤ 4 * replies
  | .asking p _ => moments + 2 * p.failed.length ≤ 4 * replies + 1
  | .pausing p _ => moments + 2 * p.failed.length ≤ 4 * replies + 1 ∧ 0 < p.failed.length
  | .ended _ => moments ≤ 4 * replies + 1

namespace Gathering

variable {g : Gatherer} {start : Summary} {stage next : Gathering} {happening : Happening}
  {hs : List Happening} {rs : List (Nat × Delivery)} {id : Hash} {moments replies : Nat}

theorem FailsBy.mono {more : List (Nat × Delivery)} (h : stage.FailsBy id rs)
    (hprogress : next.progress? = stage.progress?) : next.FailsBy id (rs ++ more) := by
  intro p hp peer hpeer
  obtain ⟨d, hd, hreply⟩ := h p (hprogress ▸ hp) peer hpeer
  exact ⟨d, List.mem_append_left _ hd, hreply⟩

theorem FailsBy.moves (h : stage.FailsBy start.id rs) (htells : stage.Tells g start rs)
    (hmoves : Moves g stage happening next) :
    next.FailsBy start.id (rs ++ (reply? (stage, happening)).toList) := by
  cases hmoves with
  | asks may => exact h.mono rfl
  | pauses few left tried => exact h.mono rfl
  | reaches enough | runsOut few asked | invalidated =>
    intro p hp
    cases hp
  | attested hd | rests =>
    intro p hp peer hpeer
    cases hp
    cases hpeer
  | @missed p asked d hd =>
    intro q hq peer hpeer
    cases hq
    cases htells with
    | asking hp may =>
      rw [hp.id] at hd
      rcases List.mem_cons.1 hpeer with rfl | hpeer
      · exact ⟨d, List.mem_append_right _ (List.mem_singleton.2 rfl), hd⟩
      · obtain ⟨other, hother, hreply⟩ := h p rfl peer hpeer
        exact ⟨other, List.mem_append_left _ hother, hreply⟩
  | @unanswered p asked d hd =>
    intro q hq peer hpeer
    cases hq
    obtain ⟨other, hother, hreply⟩ := h p rfl peer hpeer
    exact ⟨other, List.mem_append_left _ hother, hreply⟩

theorem Paced.moves (h : stage.Paced moments replies) (hmoves : Moves g stage happening next) :
    next.Paced (moments + 1) (replies + (reply? (stage, happening)).toList.length) := by
  cases hmoves with
  | @pauses p _ few left tried =>
    obtain ⟨peer, hknown, hfree⟩ := left
    have hfailed : 0 < p.failed.length := List.length_pos_of_mem (tried peer hknown hfree)
    simp only [Paced, reply?, Option.toList_none, List.length_nil] at h ⊢
    omega
  | asks may | reaches enough | runsOut few asked =>
    simp only [Paced, reply?, Option.toList_none, List.length_nil] at h ⊢
    omega
  | attested hd | invalidated | missed hd | unanswered hd =>
    simp only [Paced, reply?, Option.toList_some, List.length_cons, List.length_nil] at h ⊢
    omega
  | rests =>
    simp only [Paced, reply?, Option.toList_none, List.length_nil, Progress.rested] at h ⊢
    omega

end Gathering

namespace Gatherer

variable {g : Gatherer} {start : Summary} {hs : List Happening} {stage : Gathering}

theorem run_failsBy (h : g.run start hs = some stage) :
    stage.FailsBy start.id (g.replies start hs) := by
  refine Run.reach_induction
    (P := fun hs stage => stage.FailsBy start.id (g.replies start hs)) ?_ ?_ h
  · intro p hp peer hpeer
    cases hp
    cases hpeer
  · intro hs between happening next hrun hbefore hafter
    rw [replies_append_singleton happening hrun hafter]
    exact hbefore.moves (run_tells hrun) (Gathering.moves_of_after hafter)

theorem run_paced (h : g.run start hs = some stage) :
    stage.Paced hs.length (g.replies start hs).length := by
  refine Run.reach_induction
    (P := fun hs stage => stage.Paced hs.length (g.replies start hs).length) ?_ ?_ h
  · exact Nat.zero_le _
  · intro hs between happening next hrun hbefore hafter
    rw [replies_append_singleton happening hrun hafter, List.length_append, List.length_append,
      List.length_singleton]
    exact hbefore.moves (Gathering.moves_of_after hafter)

/-- Pauses alone keep no gathering alive. -/
theorem length_le_of_run (h : g.run start hs = some stage) :
    hs.length ≤ 4 * (g.replies start hs).length + 1 := by
  have hpaced := run_paced h
  cases stage <;> simp only [Gathering.Paced] at hpaced <;> omega

end Gatherer

/-! ## What happens in surroundings -/

namespace Surroundings

/-- What happens after these happenings. Nothing does after the end. -/
def next (w : Surroundings) (g : Gatherer) (start : Summary) (past : List Happening) :
    Option Happening :=
  match g.run start past with
  | some (.deciding _) => some (.drew (w.randoms past.length))
  | some (.asking _ peer) => some (.replied (w.answer (g.replies start past) peer))
  | some (.pausing _ _) => some .rested
  | some (.ended _) => none
  | none => none

/-- All that happens in so many moments. -/
def happenings (w : Surroundings) (g : Gatherer) (start : Summary) :
    (moments : Nat) → List Happening
  | 0 => []
  | moments + 1 =>
    w.happenings g start moments ++ (w.next g start (w.happenings g start moments)).toList

/-- Whenever a peer may be asked, one that may be asked comes up in the draws. -/
def DrawsSuffice (w : Surroundings) (g : Gatherer) (start : Summary) : Prop :=
  ∀ (moments : Nat) (p : Progress) (peer : Nat),
    g.run start (w.happenings g start moments) = some (.deciding p) → p.MayAsk g peer →
      ∃ random ∈ w.randoms (w.happenings g start moments).length, p.MayAsk g (random % g.peers)

/-- The gathering has come to this end after so many moments. -/
def EndsIn (w : Surroundings) (g : Gatherer) (start : Summary) (moments : Nat) (result : Gathered) :
    Prop :=
  g.run start (w.happenings g start moments) = some (.ended result)

variable {w : Surroundings} {g : Gatherer} {start : Summary}

theorem happenings_succ {moments : Nat} {happening : Happening}
    (h : w.next g start (w.happenings g start moments) = some happening) :
    w.happenings g start (moments + 1) = w.happenings g start moments ++ [happening] := by
  rw [happenings, h, Option.toList_some]

theorem happenings_succ_of_ended {moments : Nat} {result : Gathered}
    (h : w.EndsIn g start moments result) :
    w.happenings g start (moments + 1) = w.happenings g start moments := by
  rw [happenings, next, h, Option.toList_none, List.append_nil]

/-- It is enough that every peer comes up each time. -/
theorem drawsSuffice_of_mem (h : ∀ moment, ∀ peer < g.peers, peer ∈ w.randoms moment) :
    w.DrawsSuffice g start := by
  intro moments p peer _ may
  refine ⟨peer, h _ peer may.known, ?_⟩
  rw [Nat.mod_eq_of_lt may.known]
  exact may

theorem exists_decision (hdraws : w.DrawsSuffice g start) {moments : Nat} {p : Progress}
    (hrun : g.run start (w.happenings g start moments) = some (.deciding p)) :
    ∃ following, Gathering.decide g p (w.randoms (w.happenings g start moments).length) =
      some following := by
  have hstep : ∃ step, p.quorum.step g.threshold g.peers p.failed
      (w.randoms (w.happenings g start moments).length) = some step := by
    refine QuorumState.exists_step fun few peer known fresh untried => ?_
    obtain ⟨random, hmem, may⟩ := hdraws moments p peer hrun ⟨few, known, fresh, untried⟩
    exact ⟨random, hmem, may.fresh, may.untried⟩
  obtain ⟨step, hstep⟩ := hstep
  unfold Gathering.decide
  rw [hstep]
  exact ⟨_, rfl⟩

/-- At every moment the gathering has ended, or what comes next can happen. If it is a reply, it is
the one that the surroundings give. -/
theorem exists_next (hdraws : w.DrawsSuffice g start) {moments : Nat} {stage : Gathering}
    (hrun : g.run start (w.happenings g start moments) = some stage) :
    (∃ result, stage = .ended result) ∨ ∃ happening following,
      w.next g start (w.happenings g start moments) = some happening ∧
        stage.after g happening = some following ∧
        Gathering.reply? (stage, happening) = stage.request?.map fun peer =>
          (peer, w.answer (g.replies start (w.happenings g start moments)) peer) := by
  unfold next
  rw [hrun]
  cases stage with
  | ended result => exact Or.inl ⟨result, rfl⟩
  | asking p peer => exact Or.inr ⟨_, _, rfl, rfl, rfl⟩
  | pausing p milliseconds => exact Or.inr ⟨_, _, rfl, rfl, rfl⟩
  | deciding p =>
    obtain ⟨following, hdecide⟩ := exists_decision hdraws hrun
    exact Or.inr ⟨_, following, rfl, hdecide, rfl⟩

/-- As long as the draws suffice, something happens at every moment until the end. -/
theorem run_happenings (hdraws : w.DrawsSuffice g start) (moments : Nat) :
    ∃ stage, g.run start (w.happenings g start moments) = some stage ∧
      ((∃ result, stage = .ended result) ∨ (w.happenings g start moments).length = moments) := by
  induction moments with
  | zero => exact ⟨_, rfl, Or.inr rfl⟩
  | succ moments ih =>
    obtain ⟨stage, hrun, hlength⟩ := ih
    rcases exists_next hdraws hrun with ⟨result, rfl⟩ | ⟨happening, following, hnext, hafter, _⟩
    · rw [happenings_succ_of_ended hrun]
      exact ⟨_, hrun, Or.inl ⟨result, rfl⟩⟩
    · rw [happenings_succ hnext, List.length_append, List.length_singleton]
      refine ⟨following, (Gatherer.run_append_singleton happening).2 ⟨stage, hrun, hafter⟩, ?_⟩
      rcases hlength with ⟨result, rfl⟩ | hlength
      · rw [Gathering.after_ended] at hafter
        cases hafter
      · exact Or.inr (by rw [hlength])

theorem gave_happenings (hdraws : w.DrawsSuffice g start) (moments : Nat) :
    w.Gave (g.replies start (w.happenings g start moments)) := by
  induction moments with
  | zero => exact .nothing
  | succ moments ih =>
    obtain ⟨stage, hrun, _⟩ := run_happenings hdraws moments
    rcases exists_next hdraws hrun with
      ⟨result, rfl⟩ | ⟨happening, following, hnext, hafter, hreply⟩
    · rw [happenings_succ_of_ended hrun]
      exact ih
    · rw [happenings_succ hnext, Gatherer.replies_append_singleton happening hrun hafter, hreply]
      cases stage.request? with
      | none => simpa using ih
      | some peer => exact ih.reply peer

/-- A gathering that makes no more than so many requests comes to an end. -/
theorem exists_end (hdraws : w.DrawsSuffice g start) {most : Nat}
    (hmost : ∀ moments, (g.replies start (w.happenings g start moments)).length ≤ most) :
    ∃ moments result, w.EndsIn g start moments result := by
  obtain ⟨stage, hrun, hended | hlength⟩ := run_happenings hdraws (4 * most + 2)
  · obtain ⟨result, rfl⟩ := hended
    exact ⟨_, result, hrun⟩
  · have hle := Gatherer.length_le_of_run hrun
    have hmost := hmost (4 * most + 2)
    omega

end Surroundings

end Admission
