-- Spans of time as a machine keeps them: whole seconds in a word of 64 bits and the
-- nanoseconds beyond them in one of 32. What grows beyond the seconds is no span. A
-- rest may be asked for any length, and still has an end that is not too far off.

namespace Admission

/-! ## Rests -/

/-- No rest lasts longer than thirty years of 365 days. In milliseconds. -/
def longestRest : Nat := 30 * 365 * 24 * 60 * 60 * 1000

/-- How long a rest lasts that is asked for so many milliseconds. -/
def restLength (milliseconds : Nat) : Nat := min milliseconds longestRest

/-! ## Words -/

/-- The word of 64 bits that stands for a number, if there is one. -/
def word? (n : Nat) : Option UInt64 :=
  if n < 0x10000000000000000 then some (.ofNat n) else none

theorem word?_eq_some_iff {n : Nat} {w : UInt64} : word? n = some w ↔ w.toNat = n := by
  unfold word?
  split
  · rename_i h
    rw [Option.some.injEq, ← UInt64.toNat_inj, UInt64.toNat_ofNat_of_lt' h, eq_comm]
  · rename_i h
    have hword := w.toNat_lt
    simp only [reduceCtorEq, false_iff]
    omega

theorem exists_word?_iff {n : Nat} : (∃ w, word? n = some w) ↔ n < 0x10000000000000000 := by
  unfold word?
  split <;> simp_all

/-! ## Spans -/

structure Span where
  seconds : UInt64
  /-- Less than a second. -/
  nanoseconds : UInt32
  proper : nanoseconds.toNat < 1000000000
deriving DecidableEq

namespace Span

def inNanoseconds (s : Span) : Nat := s.seconds.toNat * 1000000000 + s.nanoseconds.toNat

/-- All spans are shorter than this. In nanoseconds. -/
def limit : Nat := 0x10000000000000000 * 1000000000

theorem inNanoseconds_lt (s : Span) : s.inNanoseconds < limit := by
  have hseconds := s.seconds.toNat_lt
  have hnanoseconds := s.proper
  unfold inNanoseconds limit
  omega

/-! ## From milliseconds -/

theorem toNat_millisecondsBeyond (milliseconds : UInt64) :
    ((milliseconds % 1000).toUInt32 * 1000000).toNat = milliseconds.toNat % 1000 * 1000000 := by
  simp only [UInt32.toNat_mul, UInt64.toNat_toUInt32, UInt64.toNat_mod, UInt64.reduceToNat,
    UInt32.reduceToNat]
  omega

def ofMilliseconds (milliseconds : UInt64) : Span where
  seconds := milliseconds / 1000
  nanoseconds := (milliseconds % 1000).toUInt32 * 1000000
  proper := by
    rw [toNat_millisecondsBeyond]
    omega

/-- Every word of milliseconds is a span. -/
@[simp] theorem inNanoseconds_ofMilliseconds (milliseconds : UInt64) :
    (ofMilliseconds milliseconds).inNanoseconds = milliseconds.toNat * 1000000 := by
  simp only [inNanoseconds, ofMilliseconds, toNat_millisecondsBeyond, UInt64.toNat_div,
    UInt64.reduceToNat]
  omega

/-! ## A span several times over -/

/-- The nanoseconds beyond the seconds, so many times over. A word holds them. -/
def scaled (s : Span) (factor : UInt32) : UInt64 := s.nanoseconds.toUInt64 * factor.toUInt64

theorem toNat_scaled (s : Span) (factor : UInt32) :
    (s.scaled factor).toNat = s.nanoseconds.toNat * factor.toNat := by
  have hproduct : s.nanoseconds.toNat * factor.toNat ≤ 1000000000 * 0x100000000 :=
    Nat.mul_le_mul (Nat.le_of_lt s.proper) (Nat.le_of_lt factor.toNat_lt)
  simp only [scaled, UInt64.toNat_mul, UInt32.toNat_toUInt64]
  omega

theorem toNat_scaled_div (s : Span) (factor : UInt32) :
    (s.scaled factor / 1000000000).toNat = s.nanoseconds.toNat * factor.toNat / 1000000000 := by
  simp only [UInt64.toNat_div, toNat_scaled, UInt64.reduceToNat]

theorem toNat_scaled_mod (s : Span) (factor : UInt32) :
    (s.scaled factor % 1000000000).toUInt32.toNat =
      s.nanoseconds.toNat * factor.toNat % 1000000000 := by
  simp only [UInt64.toNat_toUInt32, UInt64.toNat_mod, toNat_scaled, UInt64.reduceToNat]
  omega

/-- The span so many times over, if that is one: first the seconds, then those that the nanoseconds
come to. -/
def times (s : Span) (factor : UInt32) : Option Span :=
  (word? (s.seconds.toNat * factor.toNat)).bind fun whole =>
    (word? (whole.toNat + (s.scaled factor / 1000000000).toNat)).map fun seconds =>
      ⟨seconds, (s.scaled factor % 1000000000).toUInt32, by rw [toNat_scaled_mod]; omega⟩

/-- What the seconds and the nanoseconds come to is what the span comes to. -/
theorem carried_eq (s : Span) (factor : UInt32) :
    (s.seconds.toNat * factor.toNat + s.nanoseconds.toNat * factor.toNat / 1000000000) *
          1000000000 + s.nanoseconds.toNat * factor.toNat % 1000000000 =
      s.inNanoseconds * factor.toNat := by
  rw [inNanoseconds, Nat.add_mul, Nat.add_mul, Nat.mul_right_comm, Nat.add_assoc,
    Nat.div_add_mod']

variable {s r : Span} {factor : UInt32}

theorem inNanoseconds_of_times (h : s.times factor = some r) :
    r.inNanoseconds = s.inNanoseconds * factor.toNat := by
  obtain ⟨whole, hwhole, hrest⟩ := Option.bind_eq_some_iff.1 h
  obtain ⟨seconds, hseconds, rfl⟩ := Option.map_eq_some_iff.1 hrest
  rw [word?_eq_some_iff] at hwhole hseconds
  rw [← carried_eq, inNanoseconds, hseconds, hwhole, toNat_scaled_div, toNat_scaled_mod]

/-- Nothing is lost on the way: a span so many times over is one unless it is too long. -/
theorem exists_times_iff :
    (∃ r, s.times factor = some r) ↔ s.inNanoseconds * factor.toNat < limit := by
  constructor
  · rintro ⟨r, h⟩
    rw [← inNanoseconds_of_times h]
    exact r.inNanoseconds_lt
  · intro h
    rw [← carried_eq, limit] at h
    obtain ⟨whole, hwhole⟩ := exists_word?_iff.2
      (by omega : s.seconds.toNat * factor.toNat < 0x10000000000000000)
    obtain ⟨seconds, hseconds⟩ := exists_word?_iff.2
      (by rw [word?_eq_some_iff.1 hwhole, toNat_scaled_div]; omega :
        whole.toNat + (s.scaled factor / 1000000000).toNat < 0x10000000000000000)
    unfold times
    rw [hwhole, Option.bind_some, hseconds]
    exact ⟨_, rfl⟩

end Span

end Admission
