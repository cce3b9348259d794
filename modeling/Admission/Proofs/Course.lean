-- The course of the handling of one transaction. It is refused at once, or it
-- is a gathering, or a gathering that reached its quorum and the submission of
-- what was gathered. Every answer is the end of one such course.
import Admission.Proofs.Gathering

namespace Admission

/-! ## Accepted or not -/

/-- Happenings that leave a submission without an accepted attempt. -/
def Undecided (hs : List Happening) : Prop := ∀ h ∈ hs, h.isFinal = false

/-- An attempt was accepted in the end, and this came of it. -/
inductive Concluded (outcome : Option Bool) : List Happening → Prop
  | intro {hs : List Happening} {last : Happening} (h : Undecided hs)
      (hlast : last = .concluded outcome ∨ (last = .dropped ∧ outcome = none)) :
      Concluded outcome (hs ++ [.accepted, last])

namespace Undecided

variable {hs more : List Happening}

theorem append (h : Undecided hs) (hmore : Undecided more) : Undecided (hs ++ more) := by
  intro happening hmem
  rcases List.mem_append.1 hmem with hmem | hmem
  · exact h happening hmem
  · exact hmore happening hmem

theorem append_singleton (h : Undecided hs) (happening : Happening)
    (hfinal : happening.isFinal = false) : Undecided (hs ++ [happening]) :=
  h.append (by simpa [Undecided] using hfinal)

theorem not_mem (h : Undecided hs) (happening : Happening) (hfinal : happening.isFinal = true) :
    happening ∉ hs := by
  intro hmem
  rw [h happening hmem] at hfinal
  cases hfinal

theorem count_accepted (h : Undecided hs) : hs.count .accepted = 0 :=
  List.count_eq_zero.2 (h.not_mem .accepted rfl)

end Undecided

namespace Concluded

variable {outcome : Option Bool} {hs early : List Happening}

theorem append (h : Concluded outcome hs) (hearly : Undecided early) :
    Concluded outcome (early ++ hs) := by
  obtain ⟨hbefore, hlast⟩ := h
  rw [← List.append_assoc]
  exact ⟨hearly.append hbefore, hlast⟩

theorem accepted_mem (h : Concluded outcome hs) : .accepted ∈ hs := by
  obtain ⟨_, _⟩ := h
  simp

theorem count_accepted (h : Concluded outcome hs) : hs.count .accepted = 1 := by
  obtain ⟨hbefore, hlast⟩ := h
  rw [List.count_append, hbefore.count_accepted]
  rcases hlast with rfl | ⟨rfl, rfl⟩ <;> simp

/-- The outcome that came is the one that is told. -/
theorem concluded_some_mem (h : Concluded outcome hs) (b : Bool) :
    .concluded (some b) ∈ hs ↔ outcome = some b := by
  obtain ⟨hbefore, hlast⟩ := h
  have hnot := hbefore.not_mem (.concluded (some b)) rfl
  rcases hlast with rfl | ⟨rfl, rfl⟩ <;> simp [hnot, eq_comm]

/-- There is no outcome if none came, or if nobody was left to deliver it. -/
theorem concluded_none_mem (h : Concluded outcome hs) :
    (.concluded none ∈ hs ∨ .dropped ∈ hs) ↔ outcome = none := by
  obtain ⟨hbefore, hlast⟩ := h
  have hnot := hbefore.not_mem (.concluded none) rfl
  have hnot' := hbefore.not_mem .dropped rfl
  rcases hlast with rfl | ⟨rfl, rfl⟩ <;> simp [hnot, hnot', eq_comm]

end Concluded

theorem Gatherer.accepted_not_mem [Crypto] {g : Gatherer} {start : Summary} {hs : List Happening}
    {stage : Gathering} (h : g.run start hs = some stage) : .accepted ∉ hs :=
  Undecided.not_mem (Gatherer.not_final_of_run h) .accepted rfl

/-! ## Submissions -/

/-- Each stage of a submission, with what led to it. -/
inductive Submission.Tells (summary : Summary) : List Happening → Submission → Prop
  | attempting {hs : List Happening} (h : Undecided hs) : Tells summary hs (.attempting summary)
  | pausing {hs : List Happening} (h : Undecided hs) : Tells summary hs (.pausing summary)
  | accepted {hs : List Happening} (h : Undecided hs) :
      Tells summary (hs ++ [.accepted]) (.accepted summary)
  | ended {hs : List Happening} {outcome : Option Bool} (h : Concluded outcome hs) :
      Tells summary hs (.ended outcome)

namespace Submission

variable {summary : Summary} {hs : List Happening} {stage next : Submission}

theorem Tells.after (h : stage.Tells summary hs) {happening : Happening}
    (hafter : stage.after happening = some next) : next.Tells summary (hs ++ [happening]) := by
  cases h with
  | attempting h =>
    cases happening <;>
      simp only [Submission.after, Option.some.injEq, reduceCtorEq] at hafter <;> subst hafter
    · exact .pausing (h.append_singleton _ rfl)
    · exact .accepted h
  | pausing h =>
    cases happening <;>
      simp only [Submission.after, Option.some.injEq, reduceCtorEq] at hafter
    subst hafter
    exact .attempting (h.append_singleton _ rfl)
  | accepted h =>
    rw [List.append_assoc]
    cases happening <;>
      simp only [Submission.after, Option.some.injEq, reduceCtorEq] at hafter <;> subst hafter
    · exact .ended ⟨h, Or.inl rfl⟩
    · exact .ended ⟨h, Or.inr ⟨rfl, rfl⟩⟩
  | ended h => cases happening <;> cases hafter

/-- In every run of a submission the summary stays the same, and at most one attempt is accepted. -/
theorem run_tells (h : Submission.run summary hs = some stage) : stage.Tells summary hs := by
  refine Run.reach_induction (P := fun hs stage => stage.Tells summary hs) ?_ ?_ h
  · exact .attempting (by simp [Undecided])
  · intro hs between happening next _ htells hafter
    exact htells.after hafter

theorem Tells.count_accepted_le (h : stage.Tells summary hs) : hs.count .accepted ≤ 1 := by
  cases h with
  | attempting h | pausing h =>
    rw [h.count_accepted]
    exact Nat.zero_le _
  | accepted h =>
    rw [List.count_append, h.count_accepted]
    exact Nat.le_refl _
  | ended h => exact Nat.le_of_eq h.count_accepted

theorem run_append_singleton (happening : Happening) :
    Submission.run summary (hs ++ [happening]) = some next ↔
      ∃ stage, Submission.run summary hs = some stage ∧ stage.after happening = some next :=
  Run.reach_append_singleton happening

end Submission

/-! ## The whole -/

namespace Execution

variable {stage : Gathering} {s : Submission}

theorem ofGathering_of_not_ended (h : ∀ result, stage ≠ .ended result) :
    ofGathering stage = .gathering stage := by
  cases stage with
  | ended result => exact absurd rfl (h result)
  | deciding p | asking p peer | pausing p milliseconds => rfl

theorem ofSubmission_of_not_ended (h : ∀ outcome, s ≠ .ended outcome) :
    ofSubmission s = .submitting s := by
  cases s with
  | ended outcome => exact absurd rfl (h outcome)
  | attempting summary | pausing summary | accepted summary => rfl

end Execution

variable [Crypto]

namespace Sentinel

/-- The courses that the handling of a transaction can take, each with what led to its stage. -/
inductive Course (s : Sentinel) (t : Transaction) : List Happening → Execution → Prop
  | refused {v : Violation} (invalid : t.violation = some v) :
      Course s t [] (.answered (some (.staticInvalid v)))
  | gathering {hs : List Happening} {stage : Gathering} (valid : t.violation = none)
      (h : s.gatherer.run (s.firstSummary t) hs = some stage)
      (short : ∀ summary, stage ≠ .ended (.reached summary)) :
      Course s t hs (.ofGathering stage)
  | submitting {early late : List Happening} {summary : Summary} {stage : Submission}
      (valid : t.violation = none)
      (gathered : s.gatherer.run (s.firstSummary t) early = some (.ended (.reached summary)))
      (h : Submission.run summary late = some stage) :
      Course s t (early ++ late) (.ofSubmission stage)

variable {s : Sentinel} {t : Transaction} {hs more : List Happening} {e next : Execution}

theorem course_start (s : Sentinel) (t : Transaction) : s.Course t [] (s.execute t) := by
  unfold execute
  split
  · rename_i v hv
    exact .refused hv
  · rename_i hv
    exact .gathering hv (rfl : s.gatherer.run _ [] = some (.start _)) (by simp [Gathering.start])

/-- A stage of the gathering is part of the course, be it the last one or not. -/
theorem course_of_gathering {stage : Gathering} (valid : t.violation = none)
    (h : s.gatherer.run (s.firstSummary t) hs = some stage) :
    s.Course t hs (.ofGathering stage) := by
  by_cases hreached : ∃ summary, stage = .ended (.reached summary)
  · obtain ⟨summary, rfl⟩ := hreached
    have hstart : s.Course t (hs ++ []) (.ofSubmission (.start summary)) :=
      .submitting valid h rfl
    rw [List.append_nil] at hstart
    exact hstart
  · exact .gathering valid h fun summary heq => hreached ⟨summary, heq⟩

theorem Course.after (h : s.Course t hs e) {happening : Happening}
    (hafter : e.after s.gatherer happening = some next) : s.Course t (hs ++ [happening]) next := by
  cases h with
  | refused invalid => cases hafter
  | @gathering _ stage valid h short =>
    by_cases hended : ∃ result, stage = .ended result
    · obtain ⟨result, rfl⟩ := hended
      cases result with
      | reached summary => exact absurd rfl (short summary)
      | invalidated peer | unreachable => cases hafter
    · rw [Execution.ofGathering_of_not_ended fun result heq => hended ⟨result, heq⟩] at hafter
      obtain ⟨later, hlater, rfl⟩ := Option.map_eq_some_iff.1 hafter
      exact course_of_gathering valid ((Gatherer.run_append_singleton happening).2 ⟨_, h, hlater⟩)
  | @submitting _ _ _ stage valid gathered h =>
    by_cases hended : ∃ outcome, stage = .ended outcome
    · obtain ⟨outcome, rfl⟩ := hended
      cases hafter
    · rw [Execution.ofSubmission_of_not_ended fun outcome heq => hended ⟨outcome, heq⟩] at hafter
      obtain ⟨later, hlater, rfl⟩ := Option.map_eq_some_iff.1 hafter
      rw [List.append_assoc]
      exact .submitting valid gathered
        ((Submission.run_append_singleton happening).2 ⟨_, h, hlater⟩)

theorem run_course (h : s.run t hs = some e) : s.Course t hs e := by
  refine Run.reach_induction (P := fun hs e => s.Course t hs e) (course_start s t) ?_ h
  intro hs between happening next _ hcourse hafter
  exact hcourse.after hafter

/-- A gathering is run as it would be by itself. -/
theorem run_of_gathering {stage : Gathering} (valid : t.violation = none)
    (h : s.gatherer.run (s.firstSummary t) hs = some stage) :
    s.run t hs = some (.ofGathering stage) := by
  refine Run.reach_induction (P := fun hs stage => s.run t hs = some (.ofGathering stage)) ?_ ?_ h
  · simp [run, Run.reach, execute, valid, Gathering.start, Execution.ofGathering]
  · intro hs between happening next _ hrun hafter
    refine (Run.reach_append_singleton happening).2 ⟨_, hrun, ?_⟩
    -- Something happened in between, so it was not the end.
    have hgoes : ∀ result, between ≠ .ended result := by
      rintro result rfl
      rw [Gathering.after_ended] at hafter
      cases hafter
    rw [Execution.ofGathering_of_not_ended hgoes]
    exact Option.map_eq_some_iff.2 ⟨next, hafter, rfl⟩

/-- So is the submission of what was gathered. -/
theorem run_of_submission {early late : List Happening} {summary : Summary} {stage : Submission}
    (valid : t.violation = none)
    (gathered : s.gatherer.run (s.firstSummary t) early = some (.ended (.reached summary)))
    (h : Submission.run summary late = some stage) :
    s.run t (early ++ late) = some (.ofSubmission stage) := by
  refine Run.reach_induction
    (P := fun late stage => s.run t (early ++ late) = some (.ofSubmission stage)) ?_ ?_ h
  · rw [List.append_nil]
    exact run_of_gathering valid gathered
  · intro late between happening next _ hrun hafter
    rw [← List.append_assoc]
    refine (Run.reach_append_singleton happening).2 ⟨_, hrun, ?_⟩
    have hgoes : ∀ outcome, between ≠ .ended outcome := by
      rintro outcome rfl
      cases happening <;> cases hafter
    rw [Execution.ofSubmission_of_not_ended hgoes]
    exact Option.map_eq_some_iff.2 ⟨next, hafter, rfl⟩

/-- The courses are the runs. -/
theorem run_iff_course : s.run t hs = some e ↔ s.Course t hs e := by
  refine ⟨run_course, ?_⟩
  rintro (invalid | ⟨valid, h, _⟩ | ⟨valid, gathered, h⟩)
  · simp [run, Run.reach, execute, invalid]
  · exact run_of_gathering valid h
  · exact run_of_submission valid gathered h

theorem Course.count_accepted_le (h : s.Course t hs e) : hs.count .accepted ≤ 1 := by
  cases h with
  | refused invalid => exact Nat.zero_le _
  | gathering valid h short =>
    rw [Undecided.count_accepted (Gatherer.not_final_of_run h)]
    exact Nat.zero_le _
  | submitting valid gathered h =>
    rw [List.count_append, Undecided.count_accepted (Gatherer.not_final_of_run gathered),
      Nat.zero_add]
    exact (Submission.run_tells h).count_accepted_le

/-! ## What goes out -/

/-- A message went out if some moment of the run was the one to send it. -/
theorem mem_sent {m : Message} :
    m ∈ s.sent t hs ↔
      ∃ before later e, hs = before ++ later ∧ s.run t before = some e ∧ e.message = some m := by
  unfold sent
  rw [List.mem_filterMap]
  constructor
  · rintro ⟨e, he, hm⟩
    obtain ⟨before, later, hsplit, hrun⟩ := Run.mem_stages.1 he
    exact ⟨before, later, e, hsplit, hrun, hm⟩
  · rintro ⟨before, later, e, hsplit, hrun, hm⟩
    exact ⟨e, Run.mem_stages.2 ⟨before, later, hsplit, hrun⟩, hm⟩

/-- What is submitted was gathered before, for a transaction that breaks no rule. -/
theorem gathered_of_submit {x : Summary} (h : .submit x ∈ s.sent t hs) :
    t.violation = none ∧ ∃ early later, hs = early ++ later ∧
      s.gatherer.run (s.firstSummary t) early = some (.ended (.reached x)) := by
  obtain ⟨before, later, e, rfl, hrun, hm⟩ := mem_sent.1 h
  cases run_course hrun with
  | refused invalid => cases hm
  | @gathering _ stage valid h short =>
    cases stage with
    | ended result =>
      cases result with
      | reached summary => exact absurd rfl (short summary)
      | invalidated peer | unreachable => cases hm
    | deciding p | asking p peer | pausing p milliseconds => cases hm
  | @submitting early late _ _ valid gathered hlate =>
    refine ⟨valid, early, late ++ later, List.append_assoc .., ?_⟩
    cases Submission.run_tells hlate with
    | attempting _ =>
      cases hm
      exact gathered
    | pausing _ | accepted _ | ended _ => cases hm

theorem asking_of_request {peer : Nat} (h : .requestAttestation peer ∈ s.sent t hs) :
    t.violation = none ∧ ∃ early later p, hs = early ++ later ∧
      s.gatherer.run (s.firstSummary t) early = some (.asking p peer) := by
  obtain ⟨before, later, e, rfl, hrun, hm⟩ := mem_sent.1 h
  cases run_course hrun with
  | refused invalid => cases hm
  | @gathering _ stage valid h short =>
    refine ⟨valid, before, later, ?_⟩
    cases stage with
    | asking p asked =>
      cases hm
      exact ⟨p, rfl, h⟩
    | ended result =>
      cases result with
      | reached summary => exact absurd rfl (short summary)
      | invalidated peer | unreachable => cases hm
    | deciding p | pausing p milliseconds => cases hm
  | submitting valid gathered hlate =>
    cases Submission.run_tells hlate with
    | attempting _ | pausing _ | accepted _ | ended _ => cases hm

end Sentinel

end Admission
