-- Runs of a machine that moves on one happening at a time. A happening may be
-- impossible in a stage, and then the machine stays where it is for good.

namespace Admission.Run

variable {σ ε : Type}

/-- Where a machine is after these happenings; none if one of them cannot happen. -/
def reach (after : σ → ε → Option σ) (s : σ) : List ε → Option σ
  | [] => some s
  | h :: rest => (after s h).bind fun next => reach after next rest

/-- The stages that happenings lead through, as far as they can happen. -/
def stages (after : σ → ε → Option σ) (s : σ) : List ε → List σ
  | [] => [s]
  | h :: rest =>
    match after s h with
    | none => [s]
    | some next => s :: stages after next rest

/-- What happened, as far as it can, each time with the stage that it met. -/
def history (after : σ → ε → Option σ) (s : σ) : List ε → List (σ × ε)
  | [] => []
  | h :: rest =>
    match after s h with
    | none => []
    | some next => (s, h) :: history after next rest

variable {after : σ → ε → Option σ} {s e : σ} {hs more : List ε}

theorem reach_cons {h : ε} {next : σ} (hnext : after s h = some next)
    (hrest : reach after next hs = some e) : reach after s (h :: hs) = some e := by
  simp [reach, hnext, hrest]

theorem stages_cons {h : ε} {next : σ} {ss : List σ} (hnext : after s h = some next)
    (hrest : stages after next hs = ss) : stages after s (h :: hs) = s :: ss := by
  simp [stages, hnext, hrest]

theorem reach_append (s : σ) (hs more : List ε) :
    reach after s (hs ++ more) = (reach after s hs).bind fun next => reach after next more := by
  induction hs generalizing s with
  | nil => rfl
  | cons h rest ih =>
    simp only [List.cons_append, reach]
    cases after s h with
    | none => rfl
    | some next => exact ih next

theorem reach_append_eq_some :
    reach after s (hs ++ more) = some e ↔
      ∃ between, reach after s hs = some between ∧ reach after between more = some e := by
  rw [reach_append, Option.bind_eq_some_iff]

theorem reach_append_singleton (h : ε) :
    reach after s (hs ++ [h]) = some e ↔
      ∃ between, reach after s hs = some between ∧ after between h = some e := by
  rw [reach_append_eq_some]
  constructor
  · rintro ⟨between, hbetween, hlast⟩
    refine ⟨between, hbetween, ?_⟩
    simpa [reach] using hlast
  · rintro ⟨between, hbetween, hlast⟩
    exact ⟨between, hbetween, by simp [reach, hlast]⟩

/-- Nothing comes after a stage in which nothing can happen. -/
theorem reach_of_final (hfinal : ∀ h, after s h = none) (h : reach after s hs = some e) :
    hs = [] ∧ e = s := by
  cases hs with
  | nil => exact ⟨rfl, by simpa [reach] using h.symm⟩
  | cons first rest => simp [reach, hfinal first] at h

/-- What holds at the start, and of every happening if it held before it, holds of every run. -/
theorem reach_induction {P : List ε → σ → Prop} (hstart : P [] s)
    (hstep : ∀ hs between h e, reach after s hs = some between → P hs between →
      after between h = some e → P (hs ++ [h]) e)
    (h : reach after s hs = some e) : P hs e := by
  have along : ∀ (more hs : List ε) (between : σ), reach after s hs = some between →
      P hs between → reach after between more = some e → P (hs ++ more) e := by
    intro more
    induction more with
    | nil =>
      intro hs between _ hP hmore
      simp only [reach, Option.some.injEq] at hmore
      subst hmore
      simpa using hP
    | cons first rest ih =>
      intro hs between hreach hP hmore
      obtain ⟨next, hnext, hrest⟩ := Option.bind_eq_some_iff.1 hmore
      have hone := ih (hs ++ [first]) next ((reach_append_singleton first).2 ⟨_, hreach, hnext⟩)
        (hstep hs between first next hreach hP hnext) hrest
      simpa using hone
  simpa using along hs [] s rfl hstart h

theorem history_append_singleton (h : ε) (next : σ) (hreach : reach after s hs = some e)
    (hnext : after e h = some next) :
    history after s (hs ++ [h]) = history after s hs ++ [(e, h)] := by
  induction hs generalizing s with
  | nil =>
    simp only [reach, Option.some.injEq] at hreach
    subst hreach
    simp [history, hnext]
  | cons first rest ih =>
    obtain ⟨between, hbetween, hrest⟩ := Option.bind_eq_some_iff.1 hreach
    simp only [List.cons_append, history, hbetween, ih hrest]

/-- What happened met the stage that everything before it led to. -/
theorem reach_of_mem_history {h : ε} (hmem : (e, h) ∈ history after s hs) :
    ∃ before later, hs = before ++ h :: later ∧ reach after s before = some e := by
  induction hs generalizing s with
  | nil => cases hmem
  | cons first rest ih =>
    simp only [history] at hmem
    split at hmem
    · cases hmem
    · rename_i next hnext
      rcases List.mem_cons.1 hmem with heq | hmem
      · cases heq
        exact ⟨[], rest, rfl, rfl⟩
      · obtain ⟨before, later, rfl, hbefore⟩ := ih hmem
        exact ⟨first :: before, later, rfl, reach_cons hnext hbefore⟩

theorem mem_of_mem_history {h : ε} (hmem : (e, h) ∈ history after s hs) : h ∈ hs := by
  obtain ⟨before, later, rfl, _⟩ := reach_of_mem_history hmem
  simp

/-- Where nothing can happen any more, nothing is added to what happened. -/
theorem history_append_of_final (hreach : reach after s hs = some e)
    (hfinal : ∀ h, after e h = none) : history after s (hs ++ more) = history after s hs := by
  induction hs generalizing s with
  | nil =>
    simp only [reach, Option.some.injEq] at hreach
    subst hreach
    cases more with
    | nil => rfl
    | cons first rest => simp [history, hfinal first]
  | cons first rest ih =>
    obtain ⟨next, hnext, hrest⟩ := Option.bind_eq_some_iff.1 hreach
    simp only [List.cons_append, history, hnext, ih hrest]

/-- What happened before stays as it was, whatever happens after it. -/
theorem history_grows (s : σ) (hs more : List ε) :
    history after s hs <+: history after s (hs ++ more) := by
  induction hs generalizing s with
  | nil => exact List.nil_prefix
  | cons first rest ih =>
    simp only [List.cons_append, history]
    cases after s first with
    | none => exact List.nil_prefix
    | some next => exact (List.prefix_cons_inj _).2 (ih next)

theorem stages_append_singleton (h : ε) (next : σ) (hreach : reach after s hs = some e)
    (hnext : after e h = some next) :
    stages after s (hs ++ [h]) = stages after s hs ++ [next] := by
  induction hs generalizing s with
  | nil =>
    simp only [reach, Option.some.injEq] at hreach
    subst hreach
    simp [stages, hnext]
  | cons first rest ih =>
    obtain ⟨between, hbetween, hrest⟩ := Option.bind_eq_some_iff.1 hreach
    simp only [List.cons_append, stages, hbetween, ih hrest]

/-- The stages on the way are those that the first happenings lead to. -/
theorem mem_stages :
    e ∈ stages after s hs ↔
      ∃ before later, hs = before ++ later ∧ reach after s before = some e := by
  induction hs generalizing s with
  | nil => simp [stages, reach, eq_comm]
  | cons first rest ih =>
    constructor
    · intro h
      simp only [stages] at h
      split at h
      · exact ⟨[], first :: rest, rfl, by simpa [reach, eq_comm] using h⟩
      · rename_i next hnext
        rcases List.mem_cons.1 h with rfl | h
        · exact ⟨[], first :: rest, rfl, rfl⟩
        · obtain ⟨before, later, rfl, hbefore⟩ := ih.1 h
          exact ⟨first :: before, later, rfl, by simpa [reach, hnext] using hbefore⟩
    · rintro ⟨before, later, hsplit, hbefore⟩
      cases before with
      | nil =>
        simp only [reach, Option.some.injEq] at hbefore
        subst hbefore
        simp only [stages]
        split <;> simp
      | cons h before =>
        obtain ⟨rfl, rfl⟩ := List.cons.inj hsplit
        obtain ⟨next, hnext, hrest⟩ := Option.bind_eq_some_iff.1 hbefore
        simp only [stages, hnext]
        exact List.mem_cons_of_mem _ (ih.2 ⟨before, later, rfl, hrest⟩)

end Admission.Run
