-- How a coordinator is approached, step by step. Each attempt and each wait is a step, the
-- waits are spans, and there is no wait but between two attempts.
import Admission.Readiness
import Admission.Span
import Mathlib.Algebra.BigOperators.Intervals

namespace Admission

inductive Approach.Step where
  | called (came : Probing)
  | waited (length : Span)
deriving DecidableEq

/-- How a coordinator was approached, and what came of it. -/
structure Approach where
  readiness : Readiness
  /-- What was done, in order. -/
  steps : List Approach.Step
deriving DecidableEq

namespace Approach

def Step.call? : Step → Option Probing
  | called came => some came
  | waited _ => none

def Step.wait? : Step → Option Span
  | called _ => none
  | waited length => some length

def calls (a : Approach) : List Probing := a.steps.filterMap Step.call?

def waits (a : Approach) : List Span := a.steps.filterMap Step.wait?

/-- The same after a step. -/
def after (step : Step) (a : Approach) : Approach := ⟨a.readiness, step :: a.steps⟩

/-- Makes the attempts that are left, each with as many before it as its number says. As soon as a
wait is over the next one is made twice as long. If it is no span then, nothing more is done. -/
def go (attempts : Nat) (answer : Nat → Probing) : List Nat → Span → Approach
  | [], _ => ⟨.unreachable, []⟩
  | k :: left, wait =>
    if answer k = .reached then ⟨.ready, [.called .reached]⟩
    else if k + 1 < attempts then
      match wait.times 2 with
      | none => ⟨.overflow, [.called (answer k), .waited wait]⟩
      | some twice =>
        ((go attempts answer left twice).after (.waited wait)).after (.called (answer k))
    else (go attempts answer left wait).after (.called (answer k))

/-- Approaches a coordinator at the most so many times, with a first wait of `delay`. -/
def run (attempts : Nat) (delay : Span) (answer : Nat → Probing) : Approach :=
  go attempts answer (List.range attempts) delay

/-! ## Attempts and waits in turn -/

/-- These were the answers, and between any two attempts was one wait. The first one lasted so many
nanoseconds, and each of the others twice as long as the one before it. -/
inductive InTurn : Nat → List Probing → List Step → Prop
  | none {delay : Nat} : InTurn delay [] []
  | once {delay : Nat} (came : Probing) : InTurn delay [came] [.called came]
  | again {length : Span} {next : Probing} {later : List Probing} {steps : List Step}
      (came : Probing) (h : InTurn (length.inNanoseconds * 2) (next :: later) steps) :
      InTurn length.inNanoseconds (came :: next :: later) (.called came :: .waited length :: steps)

namespace InTurn

variable {delay : Nat} {answers : List Probing} {steps : List Step}

theorem calls_eq (h : InTurn delay answers steps) : steps.filterMap Step.call? = answers := by
  induction h with
  | none | once => rfl
  | again came h ih => exact congrArg (came :: ·) ih

theorem waits_eq (h : InTurn delay answers steps) :
    (steps.filterMap Step.wait?).map Span.inNanoseconds =
      (List.range (answers.length - 1)).map fun i => delay * 2 ^ i := by
  induction h with
  | none | once => rfl
  | @again length next later steps came h ih =>
    have hdouble : (fun i => length.inNanoseconds * 2 * 2 ^ i) =
        fun i => length.inNanoseconds * 2 ^ (i + 1) := by
      funext i
      rw [Nat.pow_succ', Nat.mul_assoc]
    have hwaits : (Step.called came :: .waited length :: steps).filterMap Step.wait? =
        length :: steps.filterMap Step.wait? := rfl
    rw [hwaits, List.map_cons, ih, hdouble]
    simp [List.range_succ_eq_map, Function.comp_def]

/-- Waits that double come to one less than the next one, counted in the first. -/
theorem sum_doubled (delay n : Nat) :
    ((List.range n).map fun i => delay * 2 ^ i).sum = delay * (2 ^ n - 1) := by
  induction n with
  | zero => simp
  | succ n ih =>
    have hpos : 1 ≤ 2 ^ n := Nat.one_le_two_pow
    have hnext : 2 ^ n - 1 + 2 ^ n = 2 ^ (n + 1) - 1 := by omega
    rw [List.range_succ, List.map_append, List.sum_append, ih, List.map_singleton,
      List.sum_singleton, ← Nat.mul_add, hnext]

end InTurn

/-! ## The attempts of an approach -/

section
variable {attempts : Nat} {answer : Nat → Probing} {k : Nat} {left : List Nat} {wait twice : Span}

theorem go_of_reached (h : answer k = .reached) :
    go attempts answer (k :: left) wait = ⟨.ready, [.called .reached]⟩ := by
  rw [go, if_pos h]

theorem go_of_last (h : answer k ≠ .reached) (hlast : attempts ≤ k + 1) :
    go attempts answer (k :: left) wait =
      (go attempts answer left wait).after (.called (answer k)) := by
  rw [go, if_neg h, if_neg (Nat.not_lt.2 hlast)]

theorem go_of_more (h : answer k ≠ .reached) (hmore : k + 1 < attempts)
    (htwice : wait.times 2 = some twice) :
    go attempts answer (k :: left) wait =
      ((go attempts answer left twice).after (.waited wait)).after (.called (answer k)) := by
  rw [go, if_neg h, if_pos hmore, htwice]

theorem go_of_overflow (h : answer k ≠ .reached) (hmore : k + 1 < attempts)
    (hnone : wait.times 2 = none) :
    go attempts answer (k :: left) wait = ⟨.overflow, [.called (answer k), .waited wait]⟩ := by
  rw [go, if_neg h, if_pos hmore, hnone]

theorem inNanoseconds_of_twice (h : wait.times 2 = some twice) :
    twice.inNanoseconds = wait.inNanoseconds * 2 :=
  Span.inNanoseconds_of_times h

theorem exists_twice_iff :
    (∃ twice, wait.times 2 = some twice) ↔ wait.inNanoseconds * 2 < Span.limit :=
  Span.exists_times_iff

/-- What the last of `n + 1` attempts comes to is what they come to if none before it gets through
and the wait may be doubled `n` times. -/
theorem go_inTurn {readiness : Readiness} (n : Nat) : ∀ (k : Nat) (wait : Span) (left : List Nat),
    (∀ i < n, answer (k + i) ≠ .reached) → k + n < attempts →
    wait.inNanoseconds * 2 ^ n < Span.limit →
    (∀ wait, go attempts answer ((k + n) :: left) wait =
      ⟨readiness, [.called (answer (k + n))]⟩) →
    ∃ steps, go attempts answer (List.range' k (n + 1) ++ left) wait = ⟨readiness, steps⟩ ∧
      InTurn wait.inNanoseconds ((List.range' k (n + 1)).map answer) steps := by
  induction n with
  | zero =>
    intro k wait left _ _ _ hlast
    exact ⟨_, hlast wait, .once (answer k)⟩
  | succ n ih =>
    intro k wait left hfail hmore hfits hlast
    have hfailed : answer k ≠ .reached := hfail 0 n.succ_pos
    have hpos : 1 ≤ 2 ^ n := Nat.one_le_two_pow
    have hdoubled : wait.inNanoseconds * 2 ^ (n + 1) = wait.inNanoseconds * 2 * 2 ^ n := by
      rw [Nat.pow_succ', Nat.mul_assoc]
    rw [hdoubled] at hfits
    obtain ⟨twice, htwice⟩ := exists_twice_iff.2
      (Nat.lt_of_le_of_lt (Nat.le_mul_of_pos_right _ hpos) hfits)
    have hlength := inNanoseconds_of_twice htwice
    have hshift : ∀ i, k + 1 + i = k + (i + 1) := fun i => by omega
    obtain ⟨steps, hgo, hsteps⟩ := ih (k + 1) twice left
      (fun i hi => by rw [hshift]; exact hfail (i + 1) (by omega))
      (by omega)
      (by rw [hlength]; exact hfits)
      (by simpa only [hshift] using hlast)
    rw [hlength] at hsteps
    refine ⟨.called (answer k) :: .waited wait :: steps, ?_, ?_⟩
    · rw [List.range'_succ, List.cons_append, go_of_more hfailed (by omega) htwice, hgo]
      rfl
    · exact .again (answer k) hsteps

/-- A first attempt that gets through is the last one that is made. -/
theorem run_of_reached {delay : Span} (hk : k < attempts) (hfirst : ∀ i < k, answer i ≠ .reached)
    (hreached : answer k = .reached) (hfits : delay.inNanoseconds * 2 ^ k < Span.limit) :
    ∃ steps, run attempts delay answer = ⟨.ready, steps⟩ ∧
      InTurn delay.inNanoseconds ((List.range (k + 1)).map answer) steps := by
  obtain ⟨rest, rfl⟩ := Nat.exists_eq_add_of_lt hk
  have hsplit : List.range (k + rest + 1) =
      List.range' 0 (k + 1) ++ List.range' (k + 1) rest := by
    rw [List.range_eq_range', Nat.add_right_comm, ← List.range'_append_1, Nat.zero_add]
  rw [run, hsplit, List.range_eq_range']
  apply go_inTurn k 0 delay _ (by simpa using hfirst) (by omega) hfits
  intro wait
  rw [Nat.zero_add, go_of_reached hreached, hreached]

/-- If none gets through, all the attempts are made. -/
theorem run_of_failed {delay : Span} (hfailed : ∀ i < attempts, answer i ≠ .reached)
    (hfits : delay.inNanoseconds * 2 ^ (attempts - 1) < Span.limit) :
    ∃ steps, run attempts delay answer = ⟨.unreachable, steps⟩ ∧
      InTurn delay.inNanoseconds ((List.range attempts).map answer) steps := by
  cases attempts with
  | zero => exact ⟨[], rfl, .none⟩
  | succ n =>
    have hlast : ∀ wait, go (n + 1) answer [0 + n] wait =
        ⟨.unreachable, [.called (answer (0 + n))]⟩ := by
      intro wait
      rw [Nat.zero_add, go_of_last (hfailed n n.lt_succ_self) le_rfl]
      rfl
    have hrun := go_inTurn n 0 delay [] (fun i hi => hfailed (0 + i) (by omega)) (by omega) hfits
      hlast
    rwa [List.append_nil, ← List.range_eq_range'] at hrun

end

/-- So many calls were made, with the answers in this order, and each of the waits in between was
twice as long as the one before it. -/
structure Takes (a : Approach) (delay : Span) (answer : Nat → Probing) (calls : Nat) : Prop where
  inTurn : InTurn delay.inNanoseconds ((List.range calls).map answer) a.steps
  calls_eq : a.calls = (List.range calls).map answer
  waits_eq : a.waits.map Span.inNanoseconds =
    (List.range (calls - 1)).map fun i => delay.inNanoseconds * 2 ^ i
  total_eq : (a.waits.map Span.inNanoseconds).sum = delay.inNanoseconds * (2 ^ (calls - 1) - 1)

theorem takes_of_inTurn {a : Approach} {delay : Span} {answer : Nat → Probing} {calls : Nat}
    (h : InTurn delay.inNanoseconds ((List.range calls).map answer) a.steps) :
    a.Takes delay answer calls := by
  have hwaits : a.waits.map Span.inNanoseconds =
      (List.range (calls - 1)).map fun i => delay.inNanoseconds * 2 ^ i := by
    rw [waits, h.waits_eq, List.length_map, List.length_range]
  exact ⟨h, h.calls_eq, hwaits, hwaits ▸ InTurn.sum_doubled _ _⟩

end Approach

/-! ## Waits in milliseconds -/

/-- What was done is what the approach tells step by step. -/
structure Preparation.Tells (p : Preparation) (a : Approach) : Prop where
  readiness_eq : p.readiness = a.readiness
  attempts_eq : p.attempts = a.calls
  waits_eq : p.waits.map (· * 1000000) = a.waits.map Span.inNanoseconds

namespace Preparation

/-- A wait may be counted in milliseconds as long as it is doubled. -/
theorem waitLimit_le_iff {wait : Nat} {span : Span} (h : span.inNanoseconds = wait * 1000000) :
    waitLimit ≤ 2 * wait ↔ span.times 2 = none := by
  rw [← Option.not_isSome_iff_eq_none, Option.isSome_iff_exists, Approach.exists_twice_iff, h,
    waitLimit, Span.limit]
  omega

theorem attempt_tells (answer : Nat → Probing) (remaining : Nat) :
    ∀ (k wait : Nat) (span : Span), span.inNanoseconds = wait * 1000000 →
      (attempt answer k wait remaining).Tells
        (Approach.go (k + remaining) answer (List.range' k remaining) span) := by
  induction remaining with
  | zero => exact fun _ _ _ _ => ⟨rfl, rfl, rfl⟩
  | succ remaining ih =>
    intro k wait span hspan
    rw [List.range'_succ, attempt]
    by_cases hreached : answer k = .reached
    · rw [if_pos hreached, Approach.go_of_reached hreached]
      exact ⟨rfl, rfl, rfl⟩
    rw [if_neg hreached]
    by_cases hlast : remaining = 0
    · subst hlast
      rw [if_pos rfl, Approach.go_of_last hreached le_rfl]
      exact ⟨rfl, rfl, rfl⟩
    rw [if_neg hlast]
    cases htwice : span.times 2 with
    | none =>
      rw [if_pos ((waitLimit_le_iff hspan).2 htwice),
        Approach.go_of_overflow hreached (by omega) htwice]
      exact ⟨rfl, rfl, congrArg (fun nanoseconds => [nanoseconds]) hspan.symm⟩
    | some twice =>
      have hfits : ¬waitLimit ≤ 2 * wait := by
        rw [waitLimit_le_iff hspan, htwice]
        exact Option.some_ne_none twice
      rw [if_neg hfits, Approach.go_of_more hreached (by omega) htwice]
      have hlength : twice.inNanoseconds = 2 * wait * 1000000 := by
        rw [Approach.inNanoseconds_of_twice htwice, hspan]
        omega
      have hlater := ih (k + 1) (2 * wait) twice hlength
      rw [Nat.add_right_comm, Nat.add_assoc] at hlater
      exact ⟨hlater.readiness_eq, congrArg (answer k :: ·) hlater.attempts_eq,
        congrArg₂ List.cons hspan.symm hlater.waits_eq⟩

end Preparation

/-- The attempts to reach a coordinator are as many as were asked for, unless one of them gets
through: that is the last one then. Between any two attempts is one wait, and only there. The first
wait lasts as long as was asked for, and each of the others twice as long as the one before it, as
long as spans go that far. What is counted in milliseconds where a sentinel starts is the same. -/
theorem attempts_are_bounded_and_waits_double (attempts : Nat) (delay : Span)
    (answer : Nat → Probing) :
    (∀ k < attempts, (∀ i < k, answer i ≠ .reached) → answer k = .reached →
      delay.inNanoseconds * 2 ^ k < Span.limit →
      (Approach.run attempts delay answer).readiness = .ready ∧
        (Approach.run attempts delay answer).Takes delay answer (k + 1)) ∧
    ((∀ i < attempts, answer i ≠ .reached) →
      delay.inNanoseconds * 2 ^ (attempts - 1) < Span.limit →
      (Approach.run attempts delay answer).readiness = .unreachable ∧
        (Approach.run attempts delay answer).Takes delay answer attempts) ∧
    ∀ milliseconds, delay = .ofMilliseconds milliseconds →
      (Preparation.run attempts milliseconds.toNat answer).Tells
        (Approach.run attempts delay answer) := by
  refine ⟨?_, ?_, ?_⟩
  · intro k hk hfirst hreached hfits
    obtain ⟨steps, hrun, hsteps⟩ := Approach.run_of_reached hk hfirst hreached hfits
    rw [hrun]
    exact ⟨rfl, Approach.takes_of_inTurn hsteps⟩
  · intro hfailed hfits
    obtain ⟨steps, hrun, hsteps⟩ := Approach.run_of_failed hfailed hfits
    rw [hrun]
    exact ⟨rfl, Approach.takes_of_inTurn hsteps⟩
  · rintro milliseconds rfl
    have htells := Preparation.attempt_tells answer attempts 0 milliseconds.toNat _
      (Span.inNanoseconds_ofMilliseconds milliseconds)
    rwa [Nat.zero_add, ← List.range_eq_range'] at htells

namespace Sample

/-- Who gets through at the fourth attempt. -/
def hardToReach (k : Nat) : Probing :=
  if k = 1 then .undelivered else if k < 3 then .failed else .reached

/-- Of five attempts the fourth gets through, after 70 milliseconds. Three are not enough. -/
theorem the_fourth_attempt_gets_through :
    (∀ i < 3, hardToReach i ≠ .reached) ∧ hardToReach 3 = .reached ∧
    (Approach.run 5 (.ofMilliseconds 10) hardToReach).readiness = .ready ∧
    (Approach.run 5 (.ofMilliseconds 10) hardToReach).calls =
      [.failed, .undelivered, .failed, .reached] ∧
    (Approach.run 5 (.ofMilliseconds 10) hardToReach).waits.map Span.inNanoseconds =
      [10000000, 20000000, 40000000] ∧
    ((Approach.run 5 (.ofMilliseconds 10) hardToReach).waits.map Span.inNanoseconds).sum =
      70000000 ∧
    (Preparation.run 5 10 hardToReach).Tells (Approach.run 5 (.ofMilliseconds 10) hardToReach) ∧
    (Approach.run 3 (.ofMilliseconds 10) hardToReach).readiness = .unreachable ∧
    ((Approach.run 3 (.ofMilliseconds 10) hardToReach).waits.map Span.inNanoseconds).sum =
      30000000 := by
  have hfailed : ∀ i < 3, hardToReach i ≠ .reached := by decide
  have hdelay : (Span.ofMilliseconds 10).inNanoseconds = 10000000 :=
    Span.inNanoseconds_ofMilliseconds 10
  obtain ⟨hready, -, htells⟩ :=
    attempts_are_bounded_and_waits_double 5 (.ofMilliseconds 10) hardToReach
  obtain ⟨-, hunreachable, -⟩ :=
    attempts_are_bounded_and_waits_double 3 (.ofMilliseconds 10) hardToReach
  obtain ⟨hseen, htakes⟩ := hready 3 (by decide) hfailed rfl (by rw [hdelay]; decide)
  obtain ⟨hunseen, hgiven⟩ := hunreachable hfailed (by rw [hdelay]; decide)
  refine ⟨hfailed, rfl, hseen, htakes.calls_eq, ?_, ?_, htells 10 rfl, hunseen, ?_⟩
  · rw [htakes.waits_eq, hdelay]
    rfl
  · rw [htakes.total_eq, hdelay]
    rfl
  · rw [hgiven.total_eq, hdelay]
    rfl

end Sample

end Admission
