-- What a caller is told. Each answer comes at the end of one kind of course, so
-- it says what happened: what the peers replied, whether an attempt to submit
-- was accepted, and what became of it.
import Admission.Proofs.Submitted

namespace Admission

section
variable [Crypto]

/-! ## Ends -/

/-- The replies leave no way to a quorum: nobody found the transaction invalid, a request got
through to each peer, and there are too few attestations all the same. -/
structure Gatherer.RunsOut (g : Gatherer) (start : Summary) (rs : List (Nat × Delivery)) :
    Prop where
  valid : ∀ peer, (peer, .answered .invalid) ∉ rs
  asked : ∀ peer < g.peers, peer ∈ dispatchedTo start.id rs
  few : (start.collect rs).attestations.size < g.threshold

namespace Gathering

variable {g : Gatherer} {start : Summary} {rs : List (Nat × Delivery)}

theorem Tells.of_unreachable (h : Tells g start rs (.ended .unreachable)) : g.RunsOut start rs := by
  cases h with
  | unreachable h few asked =>
    refine ⟨h.valid, fun peer hpeer => h.excludes_iff.1 (asked peer hpeer), ?_⟩
    rw [← h.summary]
    exact few

theorem Tells.of_invalidated {peer : Nat} (h : Tells g start rs (.ended (.invalidated peer))) :
    (peer, .answered .invalid) ∈ rs := by
  cases h with
  | invalidated h may => exact List.mem_append_right _ (List.mem_singleton.2 rfl)

end Gathering

namespace Sentinel

/-- The ways in which the handling of a transaction ends, each with the answer. -/
inductive Ends (s : Sentinel) (t : Transaction) : List Happening → Option Verdict → Prop
  | refused {v : Violation} (invalid : t.violation = some v) : Ends s t [] (some (.staticInvalid v))
  | invalidated {hs : List Happening} {peer : Nat} (valid : t.violation = none)
      (h : s.gatherer.run (s.firstSummary t) hs = some (.ended (.invalidated peer))) :
      Ends s t hs (some .stateInvalid)
  | unreachable {hs : List Happening} (valid : t.violation = none)
      (h : s.gatherer.run (s.firstSummary t) hs = some (.ended .unreachable)) : Ends s t hs none
  | concluded {early hs : List Happening} {summary : Summary} {outcome : Option Bool}
      (valid : t.violation = none)
      (gathered : s.gatherer.run (s.firstSummary t) early = some (.ended (.reached summary)))
      (hearly : early <+: hs) (h : Concluded outcome hs) : Ends s t hs (Verdict.ofOutcome outcome)

variable {s : Sentinel} {t : Transaction} {hs : List Happening} {v : Option Verdict}

theorem ends_of_run (h : s.run t hs = some (.answered v)) : s.Ends t hs v := by
  have hcourse := run_course h
  generalize he : Execution.answered v = e at hcourse
  cases hcourse with
  | refused invalid =>
    cases he
    exact .refused invalid
  | @gathering _ stage valid hstage short =>
    cases stage with
    | ended result =>
      cases result with
      | reached summary => exact absurd rfl (short summary)
      | invalidated peer =>
        cases he
        exact .invalidated valid hstage
      | unreachable =>
        cases he
        exact .unreachable valid hstage
    | deciding p | asking p peer | pausing p milliseconds => cases he
  | submitting valid gathered hlate =>
    cases Submission.run_tells hlate with
    | attempting _ | pausing _ | accepted _ => cases he
    | ended hend =>
      cases he
      exact .concluded valid gathered (List.prefix_append _ _)
        (hend.append (Gatherer.not_final_of_run gathered))

/-! ## Answers -/

theorem Ends.confirmed_iff (h : s.Ends t hs v) :
    v = some .confirmed ↔ .accepted ∈ hs ∧ .concluded (some true) ∈ hs := by
  cases h with
  | refused invalid => simp [Verdict.staticInvalid, Verdict.confirmed]
  | invalidated valid h =>
    have hnot := Gatherer.accepted_not_mem h
    simp [Verdict.stateInvalid, Verdict.confirmed, hnot]
  | unreachable valid h =>
    have hnot := Gatherer.accepted_not_mem h
    simp [hnot]
  | concluded valid gathered hearly h =>
    rw [Verdict.ofOutcome_eq_confirmed, h.concluded_some_mem true]
    simp [h.accepted_mem]

/-- What is replied comes from the gathering alone, so nothing is replied after its end. -/
theorem replies_of_gathered {early : List Happening} {result : Gathered}
    (h : s.gatherer.run (s.firstSummary t) early = some (.ended result)) (hearly : early <+: hs) :
    s.replies t hs = s.gatherer.replies (s.firstSummary t) early := by
  obtain ⟨later, rfl⟩ := hearly
  exact Gatherer.replies_append_of_ended h

theorem Ends.stateInvalid_iff (h : s.Ends t hs v) :
    v = some .stateInvalid ↔
      (∃ peer, (peer, .answered .invalid) ∈ s.replies t hs) ∨
        (.accepted ∈ hs ∧ .concluded (some false) ∈ hs) := by
  cases h with
  | refused invalid =>
    simp [Verdict.staticInvalid, Verdict.stateInvalid, replies, Gatherer.replies, Run.history]
  | @invalidated _ peer valid h =>
    have hreplied : (peer, .answered .invalid) ∈ s.replies t hs :=
      (Gatherer.run_tells h).of_invalidated
    exact ⟨fun _ => Or.inl ⟨peer, hreplied⟩, fun _ => rfl⟩
  | unreachable valid h =>
    have hnot := Gatherer.accepted_not_mem h
    have hvalid : ∀ peer, (peer, .answered .invalid) ∉ s.replies t hs :=
      (Gatherer.run_tells h).of_unreachable.valid
    simp [hnot, hvalid]
  | concluded valid gathered hearly h =>
    have hvalid := (Gatherer.run_tells gathered).valid_of_reached
    rw [Verdict.ofOutcome_eq_stateInvalid, h.concluded_some_mem false,
      replies_of_gathered gathered hearly]
    simp [h.accepted_mem, hvalid]

theorem Ends.none_iff (h : s.Ends t hs v) (hvalid : t.violation = none) :
    v = none ↔
      s.gatherer.RunsOut (s.firstSummary t) (s.replies t hs) ∨
        (.accepted ∈ hs ∧ (.concluded none ∈ hs ∨ .dropped ∈ hs)) := by
  cases h with
  | refused invalid =>
    rw [hvalid] at invalid
    cases invalid
  | invalidated valid h =>
    have hnot := Gatherer.accepted_not_mem h
    have hreplied := (Gatherer.run_tells h).of_invalidated
    constructor
    · intro hnone
      cases hnone
    · rintro (hruns | ⟨haccepted, _⟩)
      · exact absurd hreplied (hruns.valid _)
      · exact absurd haccepted hnot
  | unreachable valid h =>
    exact ⟨fun _ => Or.inl (Gatherer.run_tells h).of_unreachable, fun _ => rfl⟩
  | concluded valid gathered hearly h =>
    have henough := (Gatherer.run_tells gathered).enough_of_reached
    rw [Verdict.ofOutcome_eq_none, h.concluded_none_mem, replies_of_gathered gathered hearly]
    constructor
    · intro hnone
      exact Or.inr ⟨h.accepted_mem, hnone⟩
    · rintro (hruns | ⟨_, hnone⟩)
      · exact absurd hruns.few (Nat.not_lt.2 henough)
      · exact hnone

theorem Ends.staticInvalid_iff (h : s.Ends t hs v) :
    (∃ verdict, v = some verdict ∧ verdict.status = .staticInvalid) ↔ t.violation ≠ none := by
  cases h with
  | refused invalid => simp [Verdict.staticInvalid, invalid]
  | invalidated valid h => simp [Verdict.stateInvalid, valid]
  | unreachable valid h => simp [valid]
  | @concluded _ _ _ outcome valid gathered hearly h =>
    rcases outcome with _ | _ | _ <;>
      simp [Verdict.ofOutcome, Verdict.confirmed, Verdict.stateInvalid, valid]

/-! ## What went out before -/

theorem refused_of_violation {w : Violation} (hw : t.violation = some w)
    (h : s.run t hs = some (.answered v)) : v = some (.staticInvalid w) ∧ s.sent t hs = [] := by
  have hstart : s.execute t = .answered (some (.staticInvalid w)) := by simp [execute, hw]
  unfold run at h
  unfold sent
  rw [hstart] at h ⊢
  obtain ⟨rfl, hsame⟩ := Run.reach_of_final (fun _ => rfl) h
  exact ⟨Execution.answered.inj hsame, rfl⟩

/-- A summary is only submitted if no peer found the transaction invalid. -/
theorem not_submitted_of_invalid {peer : Nat}
    (hinvalid : (peer, .answered .invalid) ∈ s.replies t hs) (x : Summary) :
    .submit x ∉ s.sent t hs := by
  intro hsubmit
  obtain ⟨_, early, later, rfl, gathered⟩ := gathered_of_submit hsubmit
  rw [replies_of_gathered gathered (List.prefix_append _ _)] at hinvalid
  exact (Gatherer.run_tells gathered).valid_of_reached peer hinvalid

/-- A summary is only submitted if the replies brought enough attestations. -/
theorem not_submitted_of_runsOut
    (hruns : s.gatherer.RunsOut (s.firstSummary t) (s.replies t hs)) (x : Summary) :
    .submit x ∉ s.sent t hs := by
  intro hsubmit
  obtain ⟨_, early, later, rfl, gathered⟩ := gathered_of_submit hsubmit
  rw [replies_of_gathered gathered (List.prefix_append _ _)] at hruns
  have henough := (Gatherer.run_tells gathered).enough_of_reached
  exact absurd hruns.few (Nat.not_lt.2 henough)

theorem sent_append_of_answered {happening : Happening}
    (h : s.run t (hs ++ [happening]) = some (.answered v)) :
    s.sent t (hs ++ [happening]) = s.sent t hs := by
  obtain ⟨between, hbetween, hlast⟩ := (Run.reach_append_singleton happening).1 h
  unfold sent
  rw [Run.stages_append_singleton happening _ hbetween hlast, List.filterMap_append]
  simp [Execution.message]

/-- Nothing happens after a peer found the transaction invalid, and nothing goes out. -/
theorem last_of_invalid {peer : Nat} (hinvalid : (peer, .answered .invalid) ∈ s.replies t hs)
    (h : s.run t hs = some (.answered v)) :
    ∃ before, hs = before ++ [.replied (.answered .invalid)] ∧ s.sent t hs = s.sent t before := by
  cases ends_of_run h with
  | refused invalid => cases hinvalid
  | invalidated valid hrun =>
    obtain ⟨before, p, rfl, _⟩ := Gatherer.run_invalidated hrun
    exact ⟨before, rfl, sent_append_of_answered h⟩
  | unreachable valid hrun =>
    exact absurd hinvalid ((Gatherer.run_tells hrun).of_unreachable.valid peer)
  | concluded valid gathered hearly _ =>
    rw [replies_of_gathered gathered hearly] at hinvalid
    exact absurd hinvalid ((Gatherer.run_tells gathered).valid_of_reached peer)

end Sentinel

/-- The answer says what happened. A transaction that breaks a rule is refused for that rule, and
nothing goes out. Any other is confirmed if an attempt was accepted and the coordinator committed
it; it is rejected if a peer found it invalid, after which nothing goes out, or if the coordinator
did not commit it; and there is no verdict if the quorum could not be reached, so that nothing was
submitted, or if an accepted attempt had no known outcome. -/
theorem the_answer_says_what_happened (s : Sentinel) (t : Transaction) (hs : List Happening)
    (v : Option Verdict) (h : s.run t hs = some (.answered v)) :
    ((∃ verdict, v = some verdict ∧ verdict.status = .staticInvalid) ↔ t.violation ≠ none) ∧
      (∀ w, t.violation = some w → v = some (.staticInvalid w) ∧ s.sent t hs = []) ∧
      (t.violation = none →
        (v = some .confirmed ↔ .accepted ∈ hs ∧ .concluded (some true) ∈ hs) ∧
        (v = some .stateInvalid ↔
          (∃ peer, (peer, .answered .invalid) ∈ s.replies t hs) ∨
            (.accepted ∈ hs ∧ .concluded (some false) ∈ hs)) ∧
        (v = none ↔
          s.gatherer.RunsOut (s.firstSummary t) (s.replies t hs) ∨
            (.accepted ∈ hs ∧ (.concluded none ∈ hs ∨ .dropped ∈ hs))) ∧
        (∀ peer, (peer, .answered .invalid) ∈ s.replies t hs →
          (∀ x, .submit x ∉ s.sent t hs) ∧
            ∃ before, hs = before ++ [.replied (.answered .invalid)] ∧
              s.sent t hs = s.sent t before) ∧
        (s.gatherer.RunsOut (s.firstSummary t) (s.replies t hs) →
          ∀ x, .submit x ∉ s.sent t hs)) := by
  have hends := Sentinel.ends_of_run h
  refine ⟨hends.staticInvalid_iff, fun w hw => Sentinel.refused_of_violation hw h, ?_⟩
  intro hvalid
  refine ⟨hends.confirmed_iff, hends.stateInvalid_iff, hends.none_iff hvalid, ?_, ?_⟩
  · intro peer hinvalid
    exact ⟨Sentinel.not_submitted_of_invalid hinvalid, Sentinel.last_of_invalid hinvalid h⟩
  · exact Sentinel.not_submitted_of_runsOut

end

namespace Sample

local instance : Crypto := standardCrypto

/-- The first peer attests, and the second finds the transaction invalid. -/
def rejection : List Happening :=
  [.drew [0], .replied (.answered (.attestation peerAttestation)), .drew [1],
    .replied (.answered .invalid)]

theorem run_rejection :
    (sentinel 3).run transaction rejection = some (.answered (some .stateInvalid)) := by
  have hgathering : (sentinel 3).gatherer.run ((sentinel 3).firstSummary transaction) rejection =
      some (.ended (.invalidated 1)) := by
    rw [firstSummary_sentinel (by decide)]
    refine Run.reach_cons (Gathering.after_drew_ask 0 (by decide +kernel)) ?_
    refine Run.reach_cons (Gathering.after_replied reply_attested) ?_
    refine Run.reach_cons (Gathering.after_drew_ask 1 (by decide +kernel)) ?_
    exact Run.reach_cons (Gathering.after_replied rfl) rfl
  exact Sentinel.run_of_gathering violation_transaction hgathering

/-- The word of one peer ends the handling, whatever the other one attested. -/
theorem a_peer_rejects_the_sample :
    (sentinel 3).run transaction rejection = some (.answered (some .stateInvalid)) ∧
    transaction.violation = none ∧
    (∃ peer, (peer, .answered .invalid) ∈ (sentinel 3).replies transaction rejection) ∧
    (∀ x, .submit x ∉ (sentinel 3).sent transaction rejection) ∧
    ∃ before, rejection = before ++ [.replied (.answered .invalid)] ∧
      (sentinel 3).sent transaction rejection = (sentinel 3).sent transaction before := by
  obtain ⟨_, _, hvalid⟩ :=
    the_answer_says_what_happened (sentinel 3) transaction rejection _ run_rejection
  obtain ⟨_, hstateInvalid, _, hinvalid, _⟩ := hvalid violation_transaction
  rcases hstateInvalid.1 rfl with ⟨peer, hpeer⟩ | ⟨haccepted, _⟩
  · obtain ⟨hsubmit, hlast⟩ := hinvalid peer hpeer
    exact ⟨run_rejection, violation_transaction, ⟨peer, hpeer⟩, hsubmit, hlast⟩
  · exact absurd haccepted (by decide)

end Sample

end Admission
