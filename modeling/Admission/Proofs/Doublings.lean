-- How long a wait for the coordinator may grow. It is doubled as soon as it is over, also where
-- nobody will wait any more, and what no span can hold is a panic. Settings are accepted with
-- any number of attempts and any first wait.
import Admission.Node
import Admission.Proofs.Approaches
import Admission.Proofs.Configuration
import Admission.Proofs.Demands
import Admission.Proofs.HonestPeers

namespace Admission

namespace Approach

variable {a : Approach} {attempts : Nat} {answer : Nat → Probing} {delay wait twice : Span}

/-- One of the waits was too long to be doubled. Each of them is doubled as soon as it is over. -/
def Overflows (a : Approach) : Prop := ∃ wait ∈ a.waits, wait.times 2 = none

theorem overflows_after_called {came : Probing} :
    (a.after (.called came)).Overflows ↔ a.Overflows := Iff.rfl

theorem overflows_after_waited (h : wait.times 2 = some twice) :
    (a.after (.waited wait)).Overflows ↔ a.Overflows := by
  have hwaits : (a.after (.waited wait)).waits = wait :: a.waits := rfl
  simp [Overflows, hwaits, h]

/-- A wait that cannot be doubled is told, and nothing else is told as an overflow. -/
theorem go_overflows_iff (left : List Nat) (wait : Span) :
    (go attempts answer left wait).Overflows ↔
      (go attempts answer left wait).readiness = .overflow := by
  induction left generalizing wait with
  | nil => simp [go, Overflows, waits]
  | cons k left ih =>
    by_cases hreached : answer k = .reached
    · rw [go_of_reached hreached]
      simp [Overflows, waits, Step.wait?]
    by_cases hmore : k + 1 < attempts
    · cases htwice : wait.times 2 with
      | none =>
        rw [go_of_overflow hreached hmore htwice]
        simp [Overflows, waits, Step.wait?, htwice]
      | some twice =>
        rw [go_of_more hreached hmore htwice, overflows_after_called, overflows_after_waited htwice]
        exact ih twice
    · rw [go_of_last hreached (Nat.not_lt.1 hmore), overflows_after_called]
      exact ih wait

theorem run_overflows_iff :
    (run attempts delay answer).Overflows ↔ (run attempts delay answer).readiness = .overflow :=
  go_overflows_iff _ _

/-! ## What is done until a wait cannot be doubled -/

/-- So many calls were made, with the answers in this order, and each of them was followed by a
wait that was twice as long as the one before it. One that is twice as long as the last is no
span. -/
structure BreaksOff (a : Approach) (delay : Span) (answer : Nat → Probing) (calls : Nat) :
    Prop where
  readiness_eq : a.readiness = .overflow
  calls_eq : a.calls = (List.range calls).map answer
  failed : ∀ i < calls, answer i ≠ .reached
  waits_eq : a.waits.map Span.inNanoseconds =
    (List.range calls).map fun i => delay.inNanoseconds * 2 ^ i
  limit_le : Span.limit ≤ delay.inNanoseconds * 2 ^ calls

/-- An approach that breaks off is one that took its turns, with one more wait at the end. -/
theorem breaksOff_of_inTurn {n : Nat} {steps : List Step} {last : Span}
    (h : InTurn delay.inNanoseconds ((List.range (n + 1)).map answer) steps)
    (hlast : last.inNanoseconds = delay.inNanoseconds * 2 ^ n)
    (hfailed : ∀ i < n + 1, answer i ≠ .reached)
    (hlong : Span.limit ≤ delay.inNanoseconds * 2 ^ (n + 1)) :
    BreaksOff ⟨.overflow, steps ++ [.waited last]⟩ delay answer (n + 1) where
  readiness_eq := rfl
  failed := hfailed
  limit_le := hlong
  calls_eq := by
    rw [calls, List.filterMap_append, h.calls_eq]
    exact List.append_nil _
  waits_eq := by
    have hwaits := h.waits_eq
    rw [List.length_map, List.length_range, Nat.add_sub_cancel] at hwaits
    rw [waits, List.filterMap_append, List.map_append, hwaits, List.range_succ, List.map_append,
      List.map_singleton, ← hlast]
    rfl

/-- An approach that reaches nobody breaks off at the first doubling that no span can hold, if that
one comes before the last attempt. -/
theorem go_breaksOff (n : Nat) : ∀ (k : Nat) (wait : Span) (left : List Nat),
    (∀ i < n + 1, answer (k + i) ≠ .reached) → k + n + 1 < attempts →
    wait.inNanoseconds * 2 ^ n < Span.limit → Span.limit ≤ wait.inNanoseconds * 2 ^ (n + 1) →
    ∃ steps last, go attempts answer (List.range' k (n + 1) ++ left) wait =
        ⟨.overflow, steps ++ [.waited last]⟩ ∧
      InTurn wait.inNanoseconds ((List.range' k (n + 1)).map answer) steps ∧
      last.inNanoseconds = wait.inNanoseconds * 2 ^ n := by
  -- The attempt `k` comes first, and what is left starts with twice the wait.
  induction n with
  | zero =>
    intro k wait left hfail hmore _ hlong
    have htwice : wait.times 2 = none := by
      rw [← Option.not_isSome_iff_eq_none, Option.isSome_iff_exists, exists_twice_iff]
      exact Nat.not_lt.2 hlong
    have hfailed : answer k ≠ .reached := hfail 0 Nat.one_pos
    exact ⟨[.called (answer k)], wait, go_of_overflow hfailed hmore htwice, .once (answer k),
      (Nat.mul_one _).symm⟩
  | succ n ih =>
    intro k wait left hfail hmore hfits hlong
    have hfailed : answer k ≠ .reached := hfail 0 (Nat.succ_pos _)
    have hdoubled : ∀ m, wait.inNanoseconds * 2 ^ (m + 1) = wait.inNanoseconds * 2 * 2 ^ m := by
      intro m
      rw [Nat.pow_succ', Nat.mul_assoc]
    rw [hdoubled] at hfits hlong
    obtain ⟨twice, htwice⟩ := exists_twice_iff.2
      (Nat.lt_of_le_of_lt (Nat.le_mul_of_pos_right _ Nat.one_le_two_pow) hfits)
    have hlength := inNanoseconds_of_twice htwice
    rw [← hlength] at hfits hlong
    have hshift : ∀ i, k + 1 + i = k + (i + 1) := fun i => by omega
    obtain ⟨steps, last, hgo, hsteps, hlast⟩ := ih (k + 1) twice left
      (fun i hi => by rw [hshift]; exact hfail (i + 1) (by omega)) (by omega) hfits hlong
    rw [hlength] at hsteps hlast
    refine ⟨.called (answer k) :: .waited wait :: steps, last, ?_, .again (answer k) hsteps, ?_⟩
    · rw [List.range'_succ, List.cons_append, go_of_more hfailed (by omega) htwice, hgo]
      rfl
    · rw [hlast, hdoubled]

theorem run_breaksOff {n : Nat} (hn : n + 1 < attempts)
    (hfailed : ∀ i < n + 1, answer i ≠ .reached)
    (hfits : delay.inNanoseconds * 2 ^ n < Span.limit)
    (hlong : Span.limit ≤ delay.inNanoseconds * 2 ^ (n + 1)) :
    (run attempts delay answer).BreaksOff delay answer (n + 1) := by
  obtain ⟨rest, rfl⟩ := Nat.exists_eq_add_of_lt hn
  have hsplit : List.range (n + 1 + rest + 1) =
      List.range' 0 (n + 1) ++ List.range' (n + 1) (rest + 1) := by
    rw [List.range_eq_range', Nat.add_assoc, ← List.range'_append_1, Nat.zero_add]
  have hmore : 0 + n + 1 < n + 1 + rest + 1 := by omega
  obtain ⟨steps, last, hgo, hsteps, hlast⟩ := go_breaksOff n 0 delay
    (List.range' (n + 1) (rest + 1)) (by simpa using hfailed) hmore hfits hlong
  rw [run, hsplit, hgo]
  rw [← List.range_eq_range'] at hsteps
  exact breaksOff_of_inTurn hsteps hlast hfailed hlong

/-! ## Which approaches overflow -/

/-- The first doubling that no span can hold. -/
theorem exists_first_too_long {n : Nat} (h : Span.limit ≤ delay.inNanoseconds * 2 ^ n) :
    ∃ m < n, delay.inNanoseconds * 2 ^ m < Span.limit ∧
      Span.limit ≤ delay.inNanoseconds * 2 ^ (m + 1) := by
  induction n with
  | zero =>
    rw [Nat.pow_zero, Nat.mul_one] at h
    exact absurd delay.inNanoseconds_lt (Nat.not_lt.2 h)
  | succ n ih =>
    by_cases hfits : delay.inNanoseconds * 2 ^ n < Span.limit
    · exact ⟨n, n.lt_succ_self, hfits, h⟩
    · obtain ⟨m, hm, hfirst⟩ := ih (Nat.not_lt.1 hfits)
      exact ⟨m, Nat.lt_succ_of_lt hm, hfirst⟩

/-- Where no doubling is too long, attempts and waits take their turns up to the end. -/
theorem run_ne_overflow
    (h : ∀ n < attempts, (∀ i < n, answer i ≠ .reached) →
      delay.inNanoseconds * 2 ^ n < Span.limit) :
    (run attempts delay answer).readiness ≠ .overflow := by
  by_cases hreached : ∃ k, k < attempts ∧ answer k = .reached
  · have hfirst : ∀ i < Nat.find hreached, answer i ≠ .reached := fun i hi hi' =>
      Nat.find_min hreached hi ⟨hi.trans (Nat.find_spec hreached).1, hi'⟩
    obtain ⟨hk, hseen⟩ := Nat.find_spec hreached
    obtain ⟨steps, hrun, -⟩ := run_of_reached hk hfirst hseen (h _ hk hfirst)
    rw [hrun]
    exact Readiness.noConfusion
  · have hfailed : ∀ i < attempts, answer i ≠ .reached := fun i hi hi' => hreached ⟨i, hi, hi'⟩
    have hfits : delay.inNanoseconds * 2 ^ (attempts - 1) < Span.limit := by
      cases attempts with
      | zero => simpa using delay.inNanoseconds_lt
      | succ n => exact h n n.lt_succ_self fun i hi => hfailed i (Nat.lt_succ_of_lt hi)
    obtain ⟨steps, hrun, -⟩ := run_of_failed hfailed hfits
    rw [hrun]
    exact Readiness.noConfusion

theorem exists_breaksOff {n : Nat} (hn : n < attempts) (hfailed : ∀ i < n, answer i ≠ .reached)
    (hlong : Span.limit ≤ delay.inNanoseconds * 2 ^ n) :
    ∃ m < attempts, (run attempts delay answer).BreaksOff delay answer m := by
  obtain ⟨m, hm, hfits, hfirst⟩ := exists_first_too_long hlong
  exact ⟨m + 1, by omega, run_breaksOff (by omega) (fun i hi => hfailed i (by omega)) hfits hfirst⟩

theorem run_overflow_iff :
    (run attempts delay answer).readiness = .overflow ↔
      ∃ n < attempts, (∀ i < n, answer i ≠ .reached) ∧
        Span.limit ≤ delay.inNanoseconds * 2 ^ n := by
  constructor
  · intro h
    by_contra hnone
    refine run_ne_overflow (fun n hn hfailed => ?_) h
    by_contra hlong
    exact hnone ⟨n, hn, hfailed, Nat.not_lt.1 hlong⟩
  · rintro ⟨n, hn, hfailed, hlong⟩
    obtain ⟨m, -, hbreaks⟩ := exists_breaksOff hn hfailed hlong
    exact hbreaks.readiness_eq

/-- Whatever the answers are, an approach does not overflow if the wait can be doubled once less
than there are attempts. -/
theorem run_never_overflow_iff :
    (∀ answer, (run attempts delay answer).readiness ≠ .overflow) ↔
      delay.inNanoseconds * 2 ^ (attempts - 1) < Span.limit := by
  constructor
  · intro h
    by_contra hlong
    have hlong := Nat.not_lt.1 hlong
    have hsome : attempts - 1 < attempts := by
      obtain ⟨m, hm, -⟩ := exists_first_too_long hlong
      omega
    refine h (fun _ => .failed) (run_overflow_iff.2 ⟨_, hsome, ?_, hlong⟩)
    exact fun _ _ => Probing.noConfusion
  · intro h answer hoverflow
    obtain ⟨n, hn, -, hlong⟩ := run_overflow_iff.1 hoverflow
    have hpow : 2 ^ n ≤ 2 ^ (attempts - 1) := Nat.pow_le_pow_right Nat.two_pos (by omega)
    have hgrown := Nat.mul_le_mul_left delay.inNanoseconds hpow
    omega

end Approach

/-! ## Waits of so many milliseconds -/

section
variable {delay : UInt64} {attempts : UInt32}

theorem waitLimit_le_doubled_iff {n : Nat} :
    waitLimit ≤ delay.toNat * 2 ^ n ↔
      Span.limit ≤ (Span.ofMilliseconds delay).inNanoseconds * 2 ^ n := by
  rw [Span.inNanoseconds_ofMilliseconds, Nat.mul_right_comm, waitLimit, Span.limit]
  omega

/-- The longest wait can be doubled nine times. -/
theorem doubled_lt_waitLimit_of_le (h : attempts.toNat ≤ 10) (delay : UInt64) :
    delay.toNat * 2 ^ (attempts.toNat - 1) < waitLimit := by
  have hpow : 2 ^ (attempts.toNat - 1) ≤ 2 ^ 9 := Nat.pow_le_pow_right Nat.two_pos (by omega)
  have hgrown := Nat.mul_le_mul_left delay.toNat hpow
  have hdelay := delay.toNat_lt
  unfold waitLimit
  omega

theorem waitLimit_le_longest_doubled (h : 10 < attempts.toNat) :
    waitLimit ≤ (0xffffffffffffffff : UInt64).toNat * 2 ^ (attempts.toNat - 1) := by
  have hpow : 2 ^ 10 ≤ 2 ^ (attempts.toNat - 1) := Nat.pow_le_pow_right Nat.two_pos (by omega)
  exact Nat.le_trans (by decide) (Nat.mul_le_mul_left _ hpow)

/-- The shortest wait cannot be doubled 74 times. -/
theorem waitLimit_le_doubled_of_pos (h : delay ≠ 0) :
    waitLimit ≤ delay.toNat * 2 ^ ((75 : UInt32).toNat - 1) := by
  have hpos : 1 ≤ delay.toNat := Nat.pos_of_ne_zero fun hzero => h (UInt64.toNat_inj.1 hzero)
  exact Nat.le_trans (by decide) (Nat.mul_le_mul_right _ hpos)

end

/-! ## Panics -/

/-- Only a wait that cannot be doubled is a panic, and it always is. -/
theorem Preparation.result_eq_error_iff {p : Preparation} {cause : Panic} :
    p.result = .error cause ↔ p.readiness = .overflow ∧ cause = .spanOverflow := by
  unfold result
  cases p.readiness <;> simp [eq_comm]

/-! ## Settings -/

/-- The same settings with another number of attempts and another first wait. -/
def Settings.approaching (s : Settings) (attempts : UInt32) (delay : UInt64) : Settings :=
  { s with initAttempts := attempts, initDelay := delay }

section
variable [Crypto]

namespace Configuration

def approaching (c : Configuration) (attempts : UInt32) (delay : UInt64) : Configuration :=
  { c with initAttempts := attempts, initDelay := delay }

/-- How a sentinel approaches its coordinator when it starts. -/
def approach (c : Configuration) (answer : Nat → Probing) : Approach :=
  .run c.initAttempts.toNat (.ofMilliseconds c.initDelay) answer

/-- Whatever the coordinator answers, no wait is too long to be doubled. -/
def NeverOverflows (c : Configuration) : Prop := ∀ answer, ¬(c.approach answer).Overflows

variable {c : Configuration} {answer : Nat → Probing}

theorem prepare_tells (c : Configuration) (found : Conditions) :
    (c.prepare found).Tells (c.approach found.coordinator) := by
  have htells := Preparation.attempt_tells found.coordinator c.initAttempts.toNat 0
    c.initDelay.toNat _ (Span.inNanoseconds_ofMilliseconds c.initDelay)
  rwa [Nat.zero_add, ← List.range_eq_range'] at htells

/-- Whoever waits for the coordinator panics if a wait cannot be doubled. -/
theorem result_prepare_eq_error_iff {found : Conditions} {cause : Panic} :
    (c.prepare found).result = .error cause ↔
      (c.approach found.coordinator).Overflows ∧ cause = .spanOverflow := by
  rw [Preparation.result_eq_error_iff, approach, Approach.run_overflows_iff, ← approach,
    ← (prepare_tells c found).readiness_eq]

/-- So the sentinel does not start, also if it could listen. -/
theorem start_eq_panic_iff {found : Conditions} {cause : Panic} :
    c.start found = .error (.panic cause) ↔
      (c.approach found.coordinator).Overflows ∧ cause = .spanOverflow := by
  rw [← result_prepare_eq_error_iff, start]
  cases (c.prepare found).result <;> cases found.listening <;> simp

theorem overflows_iff :
    (c.approach answer).Overflows ↔
      ∃ n < c.initAttempts.toNat, (∀ i < n, answer i ≠ .reached) ∧
        waitLimit ≤ c.initDelay.toNat * 2 ^ n := by
  simp only [approach, Approach.run_overflows_iff, Approach.run_overflow_iff,
    waitLimit_le_doubled_iff]

theorem exists_breaksOff (h : (c.approach answer).Overflows) :
    ∃ n < c.initAttempts.toNat,
      (c.approach answer).BreaksOff (.ofMilliseconds c.initDelay) answer n := by
  obtain ⟨n, hn, hfailed, hlong⟩ := Approach.run_overflow_iff.1 (Approach.run_overflows_iff.1 h)
  exact Approach.exists_breaksOff hn hfailed hlong

theorem neverOverflows_iff :
    c.NeverOverflows ↔ c.initDelay.toNat * 2 ^ (c.initAttempts.toNat - 1) < waitLimit := by
  simp only [NeverOverflows, approach, Approach.run_overflows_iff]
  rw [← Nat.not_le, waitLimit_le_doubled_iff, Nat.not_le]
  exact Approach.run_never_overflow_iff

end Configuration

/-- Accepted settings stay so with any number of attempts and any first wait, and these are taken
over as they are. -/
theorem Settings.validate_approaching {s : Settings} {c : Configuration} (h : s.validate = .ok c)
    (attempts : UInt32) (delay : UInt64) :
    (s.approaching attempts delay).validate = .ok (c.approaching attempts delay) := by
  obtain ⟨hnumber, endpoints, coordinator, keypair, hendpoints, hcoordinator, hkeypair, hfault,
    rfl⟩ := validate_eq_ok_iff.1 h
  exact validate_eq_ok_iff.2 ⟨hnumber, endpoints, coordinator, keypair, hendpoints, hcoordinator,
    hkeypair, hfault, rfl⟩

/-- Settings that are accepted stay so with any number of attempts and any first wait, and some of
these make waits that no span can hold. No wait is too long to be doubled, whatever the answers are,
if and only if the first one can be doubled once less than there are attempts. The last of these
doublings is of no use, as nobody waits any more. A wait is too long if nobody was reached until
then: each call had a wait behind it, the calls that are left are not made, and the start ends in a
panic, also if the sentinel could listen, and there is no other panic. Ten attempts are the most
that fit every first wait, and only a first wait of no length fits every number of attempts. -/
theorem all_doublings_fit_where_the_last_one_does {s : Settings} {c : Configuration}
    (h : s.validate = .ok c) :
    (c.NeverOverflows ↔ s.initDelay.toNat * 2 ^ (s.initAttempts.toNat - 1) < waitLimit) ∧
    (∀ answer, (c.approach answer).Overflows ↔
      ∃ n < s.initAttempts.toNat, (∀ i < n, answer i ≠ .reached) ∧
        waitLimit ≤ s.initDelay.toNat * 2 ^ n) ∧
    (∀ answer, (c.approach answer).Overflows → ∃ n < s.initAttempts.toNat,
      (c.approach answer).BreaksOff (.ofMilliseconds s.initDelay) answer n) ∧
    (∀ found cause, (c.prepare found).result = .error cause ↔
      (c.approach found.coordinator).Overflows ∧ cause = .spanOverflow) ∧
    (∀ found cause, c.start found = .error (.panic cause) ↔
      (c.approach found.coordinator).Overflows ∧ cause = .spanOverflow) ∧
    (∀ attempts delay,
      (s.approaching attempts delay).validate = .ok (c.approaching attempts delay)) ∧
    (∀ attempts, (∀ delay, (c.approaching attempts delay).NeverOverflows) ↔
      attempts.toNat ≤ 10) ∧
    ∀ delay, (∀ attempts, (c.approaching attempts delay).NeverOverflows) ↔ delay = 0 := by
  obtain ⟨-, hresolves⟩ := Settings.validate_eq_ok_iff_resolvesTo.1 h
  rw [← hresolves.initAttempts, ← hresolves.initDelay]
  refine ⟨Configuration.neverOverflows_iff, fun _ => Configuration.overflows_iff,
    fun _ => Configuration.exists_breaksOff,
    fun _ _ => Configuration.result_prepare_eq_error_iff,
    fun _ _ => Configuration.start_eq_panic_iff, Settings.validate_approaching h, ?_, ?_⟩
  · intro attempts
    simp only [Configuration.neverOverflows_iff]
    constructor
    · intro hfits
      by_contra hmany
      exact Nat.not_lt.2 (waitLimit_le_longest_doubled (Nat.not_le.1 hmany)) (hfits _)
    · exact doubled_lt_waitLimit_of_le
  · intro delay
    simp only [Configuration.neverOverflows_iff]
    constructor
    · intro hfits
      by_contra hpos
      exact Nat.not_lt.2 (waitLimit_le_doubled_of_pos hpos) (hfits 75)
    · rintro rfl attempts
      exact (Nat.zero_mul _).trans_lt (by decide)

end

namespace Sample

attribute [local instance] standardCrypto

/-- Who gets through at the eleventh attempt. -/
def hardlyReached (k : Nat) : Probing := if k < 10 then .failed else .reached

/-- Eleven attempts with the longest first wait there is. -/
def patient : Settings := keyed.approaching 11 0xffffffffffffffff

def patientPeer : Configuration := keyedPeer.approaching 11 0xffffffffffffffff

theorem validate_patient : patient.validate = .ok patientPeer :=
  Settings.validate_approaching validate_keyed _ _

/-- The settings are accepted, and the tenth wait is the last one. It is doubled all the same, and
that is too long. So the start ends in a panic, and the eleventh attempt is not made, which would
have got through. -/
theorem the_wait_before_the_last_attempt_overflows :
    patient.validate = .ok patientPeer ∧ patientPeer.initAttempts = 11 ∧
    hardlyReached 10 = .reached ∧
    (patientPeer.approach hardlyReached).calls = List.replicate 10 .failed ∧
    (patientPeer.approach hardlyReached).waits.length = 10 ∧
    (∃ wait ∈ (patientPeer.approach hardlyReached).waits, wait.times 2 = none) ∧
    (∀ auditOpens listening, patientPeer.start ⟨auditOpens, hardlyReached, listening⟩ =
      .error (.panic ⟨"overflow when multiplying duration by scalar"⟩)) ∧
    ¬∀ (s : Settings) (c : Configuration) (answer : Nat → Probing), s.validate = .ok c →
      ∀ wait ∈ (c.approach answer).waits, ∃ twice, wait.times 2 = some twice := by
  have hbreaks : (patientPeer.approach hardlyReached).BreaksOff
      (.ofMilliseconds 0xffffffffffffffff) hardlyReached 10 := by
    apply Approach.run_breaksOff
    · decide
    · decide
    · rw [Span.inNanoseconds_ofMilliseconds]
      decide
    · rw [Span.inNanoseconds_ofMilliseconds]
      decide
  have hwaits := congrArg List.length hbreaks.waits_eq
  rw [List.length_map, List.length_map, List.length_range] at hwaits
  have hoverflows : (patientPeer.approach hardlyReached).Overflows :=
    Approach.run_overflows_iff.2 hbreaks.readiness_eq
  refine ⟨validate_patient, rfl, rfl, hbreaks.calls_eq, hwaits, hoverflows,
    fun _ _ => Configuration.start_eq_panic_iff.2 ⟨hoverflows, rfl⟩, fun hall => ?_⟩
  obtain ⟨wait, hwait, hnone⟩ := hoverflows
  obtain ⟨twice, htwice⟩ := hall patient patientPeer hardlyReached validate_patient wait hwait
  rw [hnone] at htwice
  cases htwice

/-- A second can be doubled 63 times, so 64 attempts never overflow, and 65 do if nobody is
reached. -/
theorem a_second_is_doubled_sixty_three_times :
    (keyed.approaching 64 1000).validate = .ok (keyedPeer.approaching 64 1000) ∧
    (keyedPeer.approaching 64 1000).NeverOverflows ∧
    (keyed.approaching 65 1000).validate = .ok (keyedPeer.approaching 65 1000) ∧
    ((keyedPeer.approaching 65 1000).approach fun _ => .failed).Overflows := by
  obtain ⟨-, -, -, -, -, haccepted, -⟩ := all_doublings_fit_where_the_last_one_does validate_keyed
  obtain ⟨hnever, -⟩ := all_doublings_fit_where_the_last_one_does (haccepted 64 1000)
  obtain ⟨-, hoverflows, -⟩ := all_doublings_fit_where_the_last_one_does (haccepted 65 1000)
  refine ⟨haccepted 64 1000, hnever.2 (by decide), haccepted 65 1000, ?_⟩
  exact (hoverflows _).2 ⟨64, by decide, fun _ _ => Probing.noConfusion, by decide⟩

end Sample

end Admission
