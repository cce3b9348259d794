-- A submission from the first attempt to the outcome, with the audit beside it.
-- The attempts are what they are, and the audit may do what it likes: it is told
-- once of what was accepted, and nothing depends on it.
import Admission.Audit
import Admission.Proofs.Attempts
import Admission.Proofs.Course
import Admission.Rehearsal

namespace Admission

/-- What a submission does, in order. -/
inductive Doing where
  /-- An attempt is made with a summary. -/
  | submits (s : Summary)
  /-- The audit is told. -/
  | tells (entry : AuditEntry)
  | waits (a : Awaited)
deriving DecidableEq

/-- A submission on its way. The audit, if there is one, is in some state. -/
structure Submitter (α : Type) where
  stage : Submission
  /-- What happened to the submission so far. -/
  past : List Happening
  audit : Option α
  log : List Doing

/-- All that a submission meets. Of the audit nothing is assumed. -/
structure Handover (α : Type) where
  connectTimeout : Nat
  retryDelay : Nat
  attempt : (number : Nat) → Attempt
  /-- What a message makes of the audit, if it is taken. It is not if the mailbox is full, or if
  nobody reads it any more. -/
  deliver : α → AuditEntry → Option α
  /-- What the audit does by itself before each moment. -/
  goesOn : (moment : Nat) → α → α

variable {α : Type}

namespace Submitter

/-- Sends what a stage has to send. A message that the audit does not take is lost. -/
def send (w : Handover α) (x : Submitter α) : Message → Submitter α
  | .submit s => { x with log := x.log ++ [Doing.submits s] }
  | .record s =>
    match x.audit with
    | none => x
    | some audit =>
      { x with
        audit := some ((w.deliver audit (.ofSummary s)).getD audit)
        log := x.log ++ [Doing.tells (.ofSummary s)] }
  | .requestAttestation _ => x

/-- Enters a stage: first sends what is to be sent, and then waits. -/
def enter (w : Handover α) (x : Submitter α) (stage : Submission) : Submitter α :=
  let x := { x with stage }
  let x := ((Execution.submitting stage).message.map (x.send w)).getD x
  { x with log := x.log ++ ((stage.awaits w.retryDelay).map Doing.waits).toList }

/-- Something happens to the submission. -/
def meet (w : Handover α) (x : Submitter α) (h : Happening) : Submitter α :=
  match x.stage.after h with
  | none => x
  | some stage => { x with past := x.past ++ [h] }.enter w stage

@[simp] theorem stage_send (w : Handover α) (x : Submitter α) (m : Message) :
    (x.send w m).stage = x.stage := by
  unfold send
  split <;> try split
  all_goals rfl

@[simp] theorem past_send (w : Handover α) (x : Submitter α) (m : Message) :
    (x.send w m).past = x.past := by
  unfold send
  split <;> try split
  all_goals rfl

@[simp] theorem stage_enter (w : Handover α) (x : Submitter α) (stage : Submission) :
    (x.enter w stage).stage = stage := by
  unfold enter
  cases (Execution.submitting stage).message <;> simp

@[simp] theorem past_enter (w : Handover α) (x : Submitter α) (stage : Submission) :
    (x.enter w stage).past = x.past := by
  unfold enter
  cases (Execution.submitting stage).message <;> simp

/-! ## The log -/

theorem log_send (w : Handover α) (x : Submitter α) (m : Message) : x.log <+: (x.send w m).log := by
  cases m with
  | requestAttestation peer => exact List.prefix_rfl
  | submit s => exact List.prefix_append _ _
  | record s =>
    unfold send
    dsimp only
    split
    · exact List.prefix_rfl
    · exact List.prefix_append _ _

theorem log_enter (w : Handover α) (x : Submitter α) (stage : Submission) :
    x.log <+: (x.enter w stage).log := by
  unfold enter
  dsimp only
  apply List.IsPrefix.trans _ (List.prefix_append _ _)
  cases (Execution.submitting stage).message with
  | none => exact List.prefix_rfl
  | some m => exact log_send w { x with stage } m

/-- What was done stays in the log. -/
theorem log_meet (w : Handover α) (x : Submitter α) (h : Happening) :
    x.log <+: (x.meet w h).log := by
  unfold meet
  cases x.stage.after h with
  | none => exact List.prefix_rfl
  | some stage => exact log_enter w { x with past := x.past ++ [h] } stage

end Submitter

section
variable [Crypto]

namespace Handover

/-- What the attempt does that is being made, or that was accepted. The ones before it were
refused. -/
def current (w : Handover α) (x : Submitter α) (s : Summary) : List Happening :=
  (w.attempt (x.past.count .refused)).happenings w.connectTimeout s

/-- What happens to the submission next, if anything does. -/
def next (w : Handover α) (x : Submitter α) : Option Happening :=
  match x.stage with
  | .attempting s => (w.current x s).head?
  | .pausing _ => some .rested
  | .accepted s => (w.current x s).tail.head?
  | .ended _ => none

/-- One moment: the audit goes on, and then something may happen to the submission. -/
def step (w : Handover α) (moment : Nat) (x : Submitter α) : Submitter α :=
  let x := { x with audit := x.audit.map (w.goesOn moment) }
  ((w.next x).map (x.meet w)).getD x

/-- Where the submission of a summary is after so many moments. -/
def run (w : Handover α) (s : Summary) (audit : Option α) : (moments : Nat) → Submitter α
  | 0 => Submitter.enter w ⟨.start s, [], audit, []⟩ (.start s)
  | moments + 1 => w.step moments (w.run s audit moments)

variable {w : Handover α} {s : Summary} {past : List Happening} {audit : Option α}
  {log : List Doing} {moment moments n : Nat}

/-! ## One moment -/

theorem step_refused (hcount : past.count .refused = n)
    (h : (w.attempt n).isAccepted w.connectTimeout s = false) :
    w.step moment ⟨.attempting s, past, audit, log⟩ =
      ⟨.pausing s, past ++ [Happening.refused], audit.map (w.goesOn moment),
        log ++ [Doing.waits (.rest w.retryDelay)]⟩ := by
  have hcurrent := Attempt.happenings_of_refused h
  simp [step, next, current, hcount, hcurrent, Submitter.meet, Submission.after, Submitter.enter,
    Execution.message, Submission.awaits]

theorem step_rested :
    w.step moment ⟨.pausing s, past, audit, log⟩ =
      ⟨.attempting s, past ++ [Happening.rested], audit.map (w.goesOn moment),
        log ++ [Doing.submits s, .waits (.acceptance s)]⟩ := by
  simp [step, next, Submitter.meet, Submission.after, Submitter.enter, Submitter.send,
    Execution.message, Submission.awaits]

/-- An accepted summary is told to the audit before the outcome is waited for. -/
theorem step_accepted (hcount : past.count .refused = n)
    (h : (w.attempt n).isAccepted w.connectTimeout s = true) :
    ∃ later : Option α, w.step moment ⟨.attempting s, past, audit, log⟩ =
      ⟨.accepted s, past ++ [Happening.accepted], later,
        log ++ (audit.toList.map fun _ => Doing.tells (.ofSummary s)) ++
          [Doing.waits .outcome]⟩ := by
  have hcurrent : ((w.attempt n).happenings w.connectTimeout s).head? = some .accepted := by
    rcases Attempt.happenings_of_accepted h with ⟨_, heq⟩ | ⟨_, _, _, heq, _⟩ <;> rw [heq] <;> rfl
  cases audit with
  | none =>
    refine ⟨none, ?_⟩
    simp [step, next, current, hcount, hcurrent, Submitter.meet, Submission.after,
      Submitter.enter, Submitter.send, Execution.message, Submission.awaits]
  | some a =>
    refine ⟨some ((w.deliver (w.goesOn moment a) (.ofSummary s)).getD (w.goesOn moment a)), ?_⟩
    simp [step, next, current, hcount, hcurrent, Submitter.meet, Submission.after,
      Submitter.enter, Submitter.send, Execution.message, Submission.awaits]

/-- The result of the accepted attempt ends the submission. -/
theorem step_concluded {outcome : Option Bool} (hcount : past.count .refused = n)
    (h : (w.attempt n).isAccepted w.connectTimeout s = true)
    (hresult : (w.attempt n).result = some outcome) :
    ∃ later, w.step moment ⟨.accepted s, past ++ [Happening.accepted], audit, log⟩ =
      ⟨.ended outcome, later, audit.map (w.goesOn moment), log⟩ := by
  rcases Attempt.happenings_of_accepted h with ⟨hnone, _⟩ | ⟨_, last, hsome, heq, hlast⟩
  · rw [hresult] at hnone
    cases hnone
  · obtain rfl : outcome = _ := Option.some.inj (hresult.symm.trans hsome)
    refine ⟨past ++ [Happening.accepted] ++ [last], ?_⟩
    rcases hlast with rfl | ⟨rfl, rfl⟩ <;>
      simp [step, next, current, hcount, heq, Submitter.meet, Submission.after, Submitter.enter,
        Execution.message, Submission.awaits]

/-- Where nothing ever comes, nothing happens after the acceptance. -/
theorem next_of_no_result (hcount : past.count .refused = n)
    (h : (w.attempt n).isAccepted w.connectTimeout s = true)
    (hresult : (w.attempt n).result = none) :
    w.next ⟨.accepted s, past ++ [Happening.accepted], audit, log⟩ = none := by
  rcases Attempt.happenings_of_accepted h with ⟨_, heq⟩ | ⟨_, _, hsome, _⟩
  · simp [next, current, hcount, heq]
  · rw [hresult] at hsome
    cases hsome

/-! ## All moments -/

/-- The happenings of so many attempts that are refused, each with the rest behind it. -/
def refusals (n : Nat) : List Happening := (List.replicate n [Happening.refused, .rested]).flatten

/-- What is done in so many attempts that are refused. -/
def rounds (w : Handover α) (s : Summary) (n : Nat) : List Doing :=
  (List.replicate n
    [Doing.submits s, .waits (.acceptance s), .waits (.rest w.retryDelay)]).flatten

omit [Crypto] in
theorem refusals_succ (n : Nat) :
    refusals (n + 1) = refusals n ++ [Happening.refused] ++ [Happening.rested] := by
  unfold refusals
  rw [List.replicate_succ', List.flatten_append]
  simp

omit [Crypto] in
theorem count_refusals (n : Nat) : (refusals n).count .refused = n := by
  induction n with
  | zero => rfl
  | succ n ih =>
    rw [refusals_succ, List.count_append, List.count_append, ih]
    rfl

omit [Crypto] in
theorem rounds_succ (w : Handover α) (s : Summary) (n : Nat) :
    w.rounds s (n + 1) = w.rounds s n ++ [Doing.submits s, .waits (.acceptance s)] ++
      [.waits (.rest w.retryDelay)] := by
  unfold rounds
  rw [List.replicate_succ', List.flatten_append]
  simp

/-- As long as attempts are refused, each takes two moments, the one of the attempt and the one of
the rest. -/
theorem run_refused (h : ∀ k < n, (w.attempt k).isAccepted w.connectTimeout s = false) :
    ∃ now : Option α, now.isSome = audit.isSome ∧ w.run s audit (2 * n) =
      ⟨.attempting s, refusals n, now,
        w.rounds s n ++ [Doing.submits s, .waits (.acceptance s)]⟩ := by
  induction n with
  | zero => exact ⟨audit, rfl, rfl⟩
  | succ n ih =>
    obtain ⟨now, hnow, hrun⟩ := ih fun k hk => h k (Nat.lt_succ_of_lt hk)
    refine ⟨(now.map (w.goesOn (2 * n))).map (w.goesOn (2 * n + 1)), by simp [hnow], ?_⟩
    have hlast := h n (Nat.lt_succ_self n)
    have hmoment : 2 * (n + 1) = 2 * n + 1 + 1 := by omega
    rw [hmoment, run, run, hrun, step_refused (count_refusals n) hlast, step_rested,
      refusals_succ, rounds_succ]

/-- Once nothing happens next, the submission stays where it is, whatever the audit does. -/
theorem run_stays {first : Nat} (hnext : w.next (w.run s audit first) = none)
    (h : first ≤ moments) :
    w.next (w.run s audit moments) = none ∧
      (w.run s audit moments).log = (w.run s audit first).log ∧
      (w.run s audit moments).stage = (w.run s audit first).stage := by
  induction moments, h using Nat.le_induction with
  | base => exact ⟨hnext, rfl, rfl⟩
  | succ moments _ ih =>
    obtain ⟨hnone, hlog, hstage⟩ := ih
    have hstep : w.run s audit (moments + 1) = { w.run s audit moments with
        audit := (w.run s audit moments).audit.map (w.goesOn moments) } := by
      have hsame : w.next { w.run s audit moments with
          audit := (w.run s audit moments).audit.map (w.goesOn moments) } = none := hnone
      rw [run]
      unfold step
      dsimp only
      rw [hsame]
      rfl
    rw [hstep]
    exact ⟨hnone, hlog, hstage⟩

theorem log_step (x : Submitter α) : x.log <+: (w.step moment x).log := by
  unfold step
  dsimp only
  cases w.next { x with audit := x.audit.map (w.goesOn moment) } with
  | none => exact List.prefix_rfl
  | some h => exact Submitter.log_meet w { x with audit := x.audit.map (w.goesOn moment) } h

theorem log_run {later : Nat} (h : moments ≤ later) :
    (w.run s audit moments).log <+: (w.run s audit later).log := by
  induction later, h using Nat.le_induction with
  | base => exact List.prefix_rfl
  | succ later _ ih => exact ih.trans (log_step _)

/-- All that is done when so many attempts are refused and the next one is accepted. -/
def fullLog (w : Handover α) (s : Summary) (audit : Option α) (n : Nat) : List Doing :=
  w.rounds s n ++ [Doing.submits s, .waits (.acceptance s)] ++
    (audit.toList.map fun _ => Doing.tells (.ofSummary s)) ++ [Doing.waits .outcome]

section
variable (hrefused : ∀ k < n, (w.attempt k).isAccepted w.connectTimeout s = false)
  (haccepted : (w.attempt n).isAccepted w.connectTimeout s = true)
include hrefused haccepted

theorem run_accepted (audit : Option α) :
    ∃ now, w.run s audit (2 * n + 1) =
      ⟨.accepted s, refusals n ++ [Happening.accepted], now, w.fullLog s audit n⟩ := by
  obtain ⟨now, hnow, hrun⟩ := run_refused hrefused
  obtain ⟨later, hstep⟩ := step_accepted (count_refusals n) haccepted
  refine ⟨later, ?_⟩
  rw [run, hrun, hstep]
  unfold fullLog
  cases now <;> cases audit <;> first | rfl | cases hnow

/-- From then on nothing is done any more, and the result ends the submission if there is one. -/
theorem run_decided (hlate : 2 * n + 2 ≤ moments) :
    (w.run s audit moments).log = w.fullLog s audit n ∧
      (w.run s audit moments).stage = match (w.attempt n).result with
        | some outcome => .ended outcome
        | none => .accepted s := by
  obtain ⟨now, hrun⟩ := run_accepted hrefused haccepted audit
  cases hresult : (w.attempt n).result with
  | none =>
    have hnext : w.next (w.run s audit (2 * n + 1)) = none := by
      rw [hrun]
      exact next_of_no_result (count_refusals n) haccepted hresult
    obtain ⟨_, hlog, hstage⟩ := run_stays hnext (Nat.le_of_succ_le hlate)
    rw [hlog, hstage, hrun]
    exact ⟨rfl, rfl⟩
  | some outcome =>
    obtain ⟨past, hstep⟩ := step_concluded (count_refusals n) haccepted hresult
    have hended : w.run s audit (2 * n + 2) =
        ⟨.ended outcome, past, now.map (w.goesOn (2 * n + 1)), w.fullLog s audit n⟩ := by
      rw [run, hrun, hstep]
    have hnext : w.next (w.run s audit (2 * n + 2)) = none := by
      rw [hended]
      rfl
    obtain ⟨_, hlog, hstage⟩ := run_stays hnext hlate
    rw [hlog, hstage, hended]
    exact ⟨rfl, rfl⟩

end

omit [Crypto] in
theorem run_meet {x : Submitter α} (h : Happening) (hx : Submission.run s x.past = some x.stage) :
    Submission.run s (x.meet w h).past = some (x.meet w h).stage := by
  unfold Submitter.meet
  cases hafter : x.stage.after h with
  | none => exact hx
  | some stage =>
    dsimp only
    rw [Submitter.past_enter, Submitter.stage_enter]
    exact (Submission.run_append_singleton h).2 ⟨x.stage, hx, hafter⟩

/-- It is a run of the submission that takes place, whatever the attempts and the audit do. -/
theorem run_past (w : Handover α) (s : Summary) (audit : Option α) (moments : Nat) :
    Submission.run s (w.run s audit moments).past = some (w.run s audit moments).stage := by
  induction moments with
  | zero =>
    rw [run, Submitter.past_enter, Submitter.stage_enter]
    rfl
  | succ moments ih =>
    rw [run]
    unfold step
    dsimp only
    cases w.next _ with
    | none => exact ih
    | some h => exact run_meet h ih

end Handover

/-- An accepted summary is handed over once. After any number of attempts that are not accepted,
each of them followed by one rest of the length that is set, the first accepted attempt is the last
one. The audit, if there is one, is told once, between the acceptance and the wait for the outcome.
An attempt is accepted just if the whole request was written, and only then the coordinator has a
message, which is the summary. The submission ends with the value of the frame that comes back, or
with no outcome if anything else comes in its place. The audit has no part in any of this. -/
theorem an_accepted_summary_is_handed_over_once (w : Handover α) (s : Summary) (audit : Option α)
    (n : Nat) (hrefused : ∀ k < n, (w.attempt k).isAccepted w.connectTimeout s = false)
    (haccepted : (w.attempt n).isAccepted w.connectTimeout s = true) :
    (∀ moments, (w.run s audit moments).log <+: w.fullLog s audit n) ∧
      (∀ moments, 2 * n + 2 ≤ moments →
        (w.run s audit moments).log = w.fullLog s audit n ∧
          (w.run s audit moments).stage = match (w.attempt n).result with
            | some outcome => .ended outcome
            | none => .accepted s) ∧
      (∀ o committed frame rest, w.attempt n = .connection o →
        Wire.send Wire.coordinatorResponse (.outcome committed) = some frame →
        o.answer.flatten = frame ++ rest → (w.attempt n).result = some committed) ∧
      (∀ o, w.attempt n = .connection o → o.Stops →
        (Wire.Inbox.ofBytes Wire.coordinatorResponse o.answer.flatten).messages = [] →
          (w.attempt n).result = some none) ∧
      ∃ frame, Wire.send Wire.coordinatorRequest (.execute s) = some frame ∧
        (∀ k, (w.attempt k).isAccepted w.connectTimeout s = true ↔
          ((w.attempt k).exchange w.connectTimeout s).written = frame) ∧
        (∀ k < n, (Wire.Inbox.ofBytes Wire.coordinatorRequest
          ((w.attempt k).exchange w.connectTimeout s).written).messages = []) ∧
        ((CoordinatorRequest.execute s).Genuine → (Wire.Inbox.ofBytes Wire.coordinatorRequest
          ((w.attempt n).exchange w.connectTimeout s).written).messages = [.execute s]) := by
  have hdecided : ∀ moments, 2 * n + 2 ≤ moments →
      (w.run s audit moments).log = w.fullLog s audit n ∧
        (w.run s audit moments).stage = match (w.attempt n).result with
          | some outcome => .ended outcome
          | none => .accepted s :=
    fun moments hlate => Handover.run_decided hrefused haccepted hlate
  refine ⟨?_, hdecided, ?_, ?_, ?_⟩
  · intro moments
    have hlate : 2 * n + 2 ≤ max moments (2 * n + 2) := Nat.le_max_right _ _
    rw [← (hdecided _ hlate).1]
    exact Handover.log_run (Nat.le_max_left _ _)
  · intro o committed frame rest hconnection hsend hanswer
    rw [hconnection]
    exact Attempt.result_of_outcome hsend hanswer
  · intro o hconnection hstops hnone
    rw [hconnection]
    exact Attempt.result_of_stops hstops hnone
  · rcases (w.attempt n).written_cases w.connectTimeout s with ⟨_, hsend⟩ | ⟨hnot, _⟩
    · refine ⟨_, hsend, fun k => Attempt.isAccepted_iff hsend, ?_, ?_⟩
      · exact fun k hk => Attempt.messages_of_refused hsend (hrefused k hk)
      · exact fun hgenuine => Attempt.messages_of_accepted hgenuine haccepted
    · rw [haccepted] at hnot
      cases hnot

end

namespace Sample

attribute [local instance] standardCrypto strict_standardCrypto

/-- The frame of the outcome that the transaction was committed. -/
def committed : List UInt8 := [0, 0, 0, 3, 0, 1, 1]

theorem send_committed :
    Wire.send Wire.coordinatorResponse (.outcome (some true)) = some committed := by
  decide +kernel

/-- A coordinator that takes so many bytes, and then commits. -/
def committing (room : Option Nat) : OtherEnd := ⟨.opens 0, room, [committed], .closed, 0⟩

/-- The connection breaks in the first attempt after ten bytes, and nobody makes the second one. The
mailbox of the audit is full. -/
def handover : Handover Unit where
  connectTimeout := 50
  retryDelay := 20
  attempt
    | 0 => .connection (committing (some 10))
    | 1 => .undelivered
    | _ => .connection (committing none)
  deliver _ _ := none
  goesOn _ audit := audit

def summary : Summary := start.attest attestation

/-- Two attempts are refused, and the third one is the last. -/
theorem the_third_attempt_is_accepted :
    (∀ k < 2, (handover.attempt k).isAccepted handover.connectTimeout summary = false) ∧
      (handover.attempt 2).isAccepted handover.connectTimeout summary = true ∧
      (handover.run summary (some ()) 6).stage = .ended (some true) ∧
      (handover.run summary (some ()) 6).log =
        [.submits summary, .waits (.acceptance summary), .waits (.rest 20),
          .submits summary, .waits (.acceptance summary), .waits (.rest 20),
          .submits summary, .waits (.acceptance summary),
          .tells ⟨id, [lock], [lock]⟩, .waits .outcome] := by
  have hrefused : ∀ k < 2,
      (handover.attempt k).isAccepted handover.connectTimeout summary = false := by
    decide +kernel
  have haccepted : (handover.attempt 2).isAccepted handover.connectTimeout summary = true := by
    decide +kernel
  obtain ⟨_, hdecided, hresult, _⟩ :=
    an_accepted_summary_is_handed_over_once handover summary (some ()) 2 hrefused haccepted
  obtain ⟨hlog, hstage⟩ := hdecided 6 (Nat.le_refl 6)
  rw [hresult (committing none) (some true) committed [] rfl send_committed rfl] at hstage
  exact ⟨hrefused, haccepted, hstage, hlog⟩

end Sample

end Admission
