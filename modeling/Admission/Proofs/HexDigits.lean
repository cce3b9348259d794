-- Hexadecimal digits among the bytes of a text. Pairs of them are read as the number
-- that they write, and reading fails at the first byte that is no digit.
import Admission.Proofs.Secrets
import Mathlib.Data.List.Induction
import Mathlib.Data.Nat.Digits.Defs

namespace Admission

/-! ## Letters -/

namespace Text

/-- What holds of the characters with these numbers holds of each ASCII character. -/
theorem of_ascii {P : Char → Prop} (h : ∀ n < 128, P (Char.ofNat n)) {c : Char}
    (hc : c.toNat < 128) : P c := by
  have := h c.toNat hc
  rwa [Char.ofNat_toNat] at this

/-- Only the letters of ASCII have another case here. -/
theorem toLower_of_not_ascii {c : Char} (h : 128 ≤ c.toNat) : c.toLower = c := by
  unfold Char.toLower
  rw [dif_neg]
  rintro ⟨-, hle⟩
  have hsmall : c.toNat ≤ 'Z'.toNat := UInt32.le_iff_toNat_le.1 hle
  have hz : 'Z'.toNat = 90 := rfl
  omega

end Text

/-! ## One digit -/

namespace Text.Hex

def digits : List Char :=
  ['0', '1', '2', '3', '4', '5', '6', '7', '8', '9', 'a', 'b', 'c', 'd', 'e', 'f']

/-- The value of a character as a hexadecimal digit, of either case. -/
def digitValue? (c : Char) : Option Nat := digits.idxOf? c.toLower

/-- Whether a byte is a hexadecimal digit. -/
def IsDigit (b : UInt8) : Prop := ∃ v, digitValue? (Char.ofNat b.toNat) = some v

theorem value?_eq (b : UInt8) : value? b = digitValue? (Char.ofNat b.toNat) := by
  have hall : ∀ n < 256, value? (UInt8.ofNat n) = digitValue? (Char.ofNat n) := by decide +kernel
  have hb := hall b.toNat b.toNat_lt
  rwa [UInt8.ofNat_toNat] at hb

theorem isDigit_iff {b : UInt8} : IsDigit b ↔ ∃ v, value? b = some v := by
  rw [IsDigit, value?_eq]

theorem not_isDigit_iff {b : UInt8} : ¬ IsDigit b ↔ value? b = none := by
  rw [isDigit_iff]
  cases value? b <;> simp

theorem value?_lt {b : UInt8} {v : Nat} (h : value? b = some v) : v < 16 := by
  unfold value? at h
  dsimp only at h
  split at h
  · cases h
    omega
  · split at h
    · cases h
      omega
    · split at h
      · cases h
        omega
      · cases h

/-- No byte of a character beyond ASCII is a digit. -/
theorem value?_eq_none {b : UInt8} (h : 128 ≤ b.toNat) : value? b = none := by
  unfold value?
  dsimp only
  rw [if_neg (by omega), if_neg (by omega), if_neg (by omega)]

theorem digitValue?_eq_none {c : Char} (h : 128 ≤ c.toNat) : digitValue? c = none := by
  unfold digitValue?
  rw [toLower_of_not_ascii h, List.idxOf?_eq_none_iff]
  intro hmem
  have hall : digits.all (fun d => decide (d.toNat < 128)) = true := by decide
  have := of_decide_eq_true (List.all_eq_true.1 hall c hmem)
  omega

theorem utf8EncodeChar_of_ascii {c : Char} (h : c.toNat < 128) :
    String.utf8EncodeChar c = [UInt8.ofNat c.toNat] := by
  have hval : c.val.toNat ≤ 127 := Nat.le_of_lt_succ h
  simp only [String.utf8EncodeChar, if_pos hval]
  rfl

theorem value?_of_ascii {c : Char} (h : c.toNat < 128) :
    value? (UInt8.ofNat c.toNat) = digitValue? c := by
  rw [value?_eq, UInt8.toNat_ofNat', Nat.mod_eq_of_lt (by omega), Char.ofNat_toNat]

/-- A character is a single byte of the same value as a digit, or neither it nor the first of its
bytes is a digit. -/
theorem utf8EncodeChar_cases (c : Char) :
    (∃ b, String.utf8EncodeChar c = [b] ∧ value? b = digitValue? c) ∨
      ∃ b rest, String.utf8EncodeChar c = b :: rest ∧ value? b = none ∧ digitValue? c = none := by
  by_cases h : c.toNat < 128
  · exact Or.inl ⟨_, utf8EncodeChar_of_ascii h, value?_of_ascii h⟩
  · refine Or.inr ?_
    have hnone := digitValue?_eq_none (Nat.le_of_not_lt h)
    have hval : ¬ c.val.toNat ≤ 127 := fun hle => h (Nat.lt_succ_of_le hle)
    have hbyte : ∀ n, 128 ≤ n % 256 → value? (UInt8.ofNat n) = none := by
      intro n hn
      apply value?_eq_none
      rwa [UInt8.toNat_ofNat']
    simp only [String.utf8EncodeChar, if_neg hval]
    split
    · exact ⟨_, _, rfl, hbyte _ (by omega), hnone⟩
    · split
      · exact ⟨_, _, rfl, hbyte _ (by omega), hnone⟩
      · exact ⟨_, _, rfl, hbyte _ (by omega), hnone⟩

/-- The bytes of a text have these values if and only if its characters have. -/
theorem map_value?_utf8_iff {cs : List Char} {values : List Nat} :
    (utf8 cs).map value? = values.map some ↔ cs.map digitValue? = values.map some := by
  induction cs generalizing values with
  | nil => rfl
  | cons c cs ih =>
    rw [utf8, List.flatMap_cons, ← utf8]
    rcases utf8EncodeChar_cases c with ⟨b, hb, hvalue⟩ | ⟨b, rest, hb, hnone, hvalue⟩
    · cases values with
      | nil => simp [hb]
      | cons v values => simp [hb, hvalue, ih]
    · cases values with
      | nil => simp [hb]
      | cons v values => simp [hb, hnone, hvalue]

/-! ## Pairs of digits -/

/-- Bytes that start with the highest one: it counts for the most. -/
theorem ofBigEndian_cons (b : UInt8) (bytes : List UInt8) :
    ofBigEndian (b :: bytes) = ofBigEndian bytes + 16 ^ (2 * bytes.length) * b.toNat := by
  have hlimit : ∀ n, bytesLimit n = 16 ^ (2 * n) := by
    intro n
    induction n with
    | zero => rfl
    | succ n ih =>
      rw [bytesLimit, ih, Nat.mul_succ, Nat.pow_add]
      omega
  unfold ofBigEndian
  rw [List.reverse_cons, ofLittleEndian_append_singleton, List.length_reverse, hlimit]

/-- The bytes that are read are those of the number that the digits write. -/
theorem ofBigEndian_of_decodePairs {index : Nat} {text bytes : List UInt8}
    (h : decodePairs index text = .ok bytes) :
    ∃ values : List Nat, text.map value? = values.map some ∧
      ofBigEndian bytes = Nat.ofDigits 16 values.reverse := by
  fun_induction decodePairs index text generalizing bytes with
  | case1 index =>
    cases h
    exact ⟨[], rfl, rfl⟩
  | case2 index b => cases h
  | case3 index a b rest ih =>
    obtain ⟨high, hhigh, h⟩ := exists_ok_of_bind h
    obtain ⟨low, hlow, h⟩ := exists_ok_of_bind h
    obtain ⟨later, hlater, h⟩ := exists_ok_of_bind h
    cases h
    obtain ⟨values, hvalues, hnumber⟩ := ih hlater
    replace hhigh := value?_of_valueAt hhigh
    replace hlow := value?_of_valueAt hlow
    refine ⟨high :: low :: values, by simp [hhigh, hlow, hvalues], ?_⟩
    have hlength : 2 * later.length = values.length := by
      rw [(digits_of_decodePairs hlater).1]
      simpa using congrArg List.length hvalues
    have hbyte : (UInt8.ofNat (16 * high + low)).toNat = 16 * high + low := by
      have := value?_lt hhigh
      have := value?_lt hlow
      rw [UInt8.toNat_ofNat', Nat.mod_eq_of_lt (by omega)]
    rw [ofBigEndian_cons, hbyte, hnumber, hlength, List.reverse_cons, List.reverse_cons,
      List.append_assoc, List.singleton_append, Nat.ofDigits_append, List.length_reverse]
    congr 2
    rw [Nat.ofDigits_cons, Nat.ofDigits_singleton]
    omega

/-- This byte, at this place, is the first one that is no digit. -/
def FirstOther (text : List UInt8) (byte : UInt8) (index : Nat) : Prop :=
  ∃ before after, text = before ++ byte :: after ∧ before.length = index ∧
    (∀ b ∈ before, IsDigit b) ∧ ¬ IsDigit byte

theorem FirstOther.cons {text : List UInt8} {a byte : UInt8} {index : Nat} (ha : IsDigit a) :
    FirstOther (a :: text) byte index ↔ ∃ earlier, index = earlier + 1 ∧
      FirstOther text byte earlier := by
  constructor
  · rintro ⟨before, after, htext, rfl, hdigits, hother⟩
    cases before with
    | nil =>
      cases htext
      exact absurd ha hother
    | cons b before =>
      cases htext
      exact ⟨before.length, rfl, before, after, rfl, rfl,
        fun b hb => hdigits b (List.mem_cons_of_mem _ hb), hother⟩
  · rintro ⟨earlier, rfl, before, after, rfl, rfl, hdigits, hother⟩
    exact ⟨a :: before, after, rfl, rfl, List.forall_mem_cons.2 ⟨ha, hdigits⟩, hother⟩

theorem firstOther_cons_self {text : List UInt8} {a byte : UInt8} {index : Nat}
    (ha : ¬ IsDigit a) : FirstOther (a :: text) byte index ↔ byte = a ∧ index = 0 := by
  constructor
  · rintro ⟨before, after, htext, rfl, hdigits, hother⟩
    cases before with
    | nil =>
      cases htext
      exact ⟨rfl, rfl⟩
    | cons b before =>
      cases htext
      exact absurd (hdigits a List.mem_cons_self) ha
  · rintro ⟨rfl, rfl⟩
    exact ⟨[], text, rfl, rfl, by simp, ha⟩

theorem firstOther_nil {byte : UInt8} {index : Nat} : ¬ FirstOther [] byte index := by
  rintro ⟨before, after, htext, -⟩
  simp at htext

theorem valueAt_of_isDigit {b : UInt8} (h : IsDigit b) (index : Nat) :
    ∃ v, valueAt b index = .ok v := by
  obtain ⟨v, hv⟩ := isDigit_iff.1 h
  exact ⟨v, by simp [valueAt, hv]⟩

theorem valueAt_of_not_isDigit {b : UInt8} (h : ¬ IsDigit b) (index : Nat) :
    valueAt b index = .error (.notADigit b index) := by
  simp [valueAt, not_isDigit_iff.1 h]

section
variable {index : Nat} {a b : UInt8} {rest : List UInt8}

theorem decodePairs_of_first (ha : ¬ IsDigit a) :
    decodePairs index (a :: b :: rest) = .error (.notADigit a index) := by
  rw [decodePairs, valueAt_of_not_isDigit ha]
  rfl

theorem decodePairs_of_second (ha : IsDigit a) (hb : ¬ IsDigit b) :
    decodePairs index (a :: b :: rest) = .error (.notADigit b (index + 1)) := by
  obtain ⟨high, hhigh⟩ := valueAt_of_isDigit ha index
  rw [decodePairs, hhigh, valueAt_of_not_isDigit hb]
  rfl

theorem decodePairs_of_pair {high low : Nat} (ha : value? a = some high)
    (hb : value? b = some low) :
    decodePairs index (a :: b :: rest) =
      (decodePairs (index + 2) rest).map (UInt8.ofNat (16 * high + low) :: ·) := by
  simp only [decodePairs, valueAt, ha, hb]
  cases decodePairs (index + 2) rest <;> rfl

theorem decodePairs_eq_error_of_pair {cause : Error} (ha : IsDigit a) (hb : IsDigit b) :
    decodePairs index (a :: b :: rest) = .error cause ↔
      decodePairs (index + 2) rest = .error cause := by
  obtain ⟨high, ha⟩ := isDigit_iff.1 ha
  obtain ⟨low, hb⟩ := isDigit_iff.1 hb
  rw [decodePairs_of_pair ha hb]
  cases decodePairs (index + 2) rest <;> simp [Except.map]

end

/-- Reading pairs fails at the first byte that is no digit. -/
theorem decodePairs_eq_error_iff {index : Nat} {text : List UInt8} {cause : Error}
    (heven : text.length % 2 = 0) :
    decodePairs index text = .error cause ↔
      ∃ byte offset, cause = .notADigit byte (index + offset) ∧ FirstOther text byte offset := by
  induction text using List.twoStepInduction generalizing index with
  | nil => simp [decodePairs, firstOther_nil]
  | singleton b => cases heven
  | cons_cons a b rest ih _ =>
    replace ih := @ih (index + 2) (by simp only [List.length_cons] at heven; omega)
    by_cases ha : IsDigit a
    · by_cases hb : IsDigit b
      · rw [decodePairs_eq_error_of_pair ha hb, ih]
        constructor
        · rintro ⟨byte, offset, rfl, hfirst⟩
          refine ⟨byte, offset + 2, by rw [Nat.add_right_comm, Nat.add_assoc], ?_⟩
          exact (FirstOther.cons ha).2 ⟨_, rfl, (FirstOther.cons hb).2 ⟨_, rfl, hfirst⟩⟩
        · rintro ⟨byte, _, rfl, hfirst⟩
          obtain ⟨_, rfl, hsecond⟩ := (FirstOther.cons ha).1 hfirst
          obtain ⟨offset, rfl, hthird⟩ := (FirstOther.cons hb).1 hsecond
          exact ⟨byte, offset, by congr 1; omega, hthird⟩
      · rw [decodePairs_of_second ha hb, Except.error.injEq]
        constructor
        · rintro rfl
          exact ⟨b, 1, rfl, (FirstOther.cons ha).2 ⟨0, rfl, (firstOther_cons_self hb).2 ⟨rfl, rfl⟩⟩⟩
        · rintro ⟨byte, _, rfl, hfirst⟩
          obtain ⟨_, rfl, hsecond⟩ := (FirstOther.cons ha).1 hfirst
          obtain ⟨rfl, rfl⟩ := (firstOther_cons_self hb).1 hsecond
          rfl
    · rw [decodePairs_of_first ha, Except.error.injEq]
      constructor
      · rintro rfl
        exact ⟨a, 0, rfl, (firstOther_cons_self ha).2 ⟨rfl, rfl⟩⟩
      · rintro ⟨byte, offset, rfl, hfirst⟩
        obtain ⟨rfl, rfl⟩ := (firstOther_cons_self ha).1 hfirst
        rfl

/-! ## Letters of the other case -/

/-- An error without the byte that it shows. -/
def Error.withoutByte : Error → Error
  | oddLength => oddLength
  | notADigit _ index => notADigit 0 index

/-- Reading looks at the values of the bytes, and only shows the first one that has none. -/
theorem decodePairs_withoutByte {index : Nat} {text other : List UInt8}
    (h : other.map value? = text.map value?) :
    (decodePairs index other).mapError Error.withoutByte =
      (decodePairs index text).mapError Error.withoutByte := by
  induction text using List.twoStepInduction generalizing index other with
  | nil =>
    obtain rfl := List.map_eq_nil_iff.1 h
    rfl
  | singleton b =>
    obtain ⟨b', rfl, hb⟩ := List.map_eq_singleton_iff.1 h
    rfl
  | cons_cons a b rest ih _ =>
    obtain ⟨a', others, rfl, ha, h⟩ := List.map_eq_cons_iff.1 h
    obtain ⟨b', others, rfl, hb, h⟩ := List.map_eq_cons_iff.1 h
    cases hhigh : value? a with
    | none =>
      rw [decodePairs_of_first (not_isDigit_iff.2 hhigh),
        decodePairs_of_first (not_isDigit_iff.2 (ha.trans hhigh))]
      rfl
    | some high =>
      cases hlow : value? b with
      | none =>
        rw [decodePairs_of_second (isDigit_iff.2 ⟨high, hhigh⟩) (not_isDigit_iff.2 hlow),
          decodePairs_of_second (isDigit_iff.2 ⟨high, ha.trans hhigh⟩)
            (not_isDigit_iff.2 (hb.trans hlow))]
        rfl
      | some low =>
        rw [decodePairs_of_pair hhigh hlow,
          decodePairs_of_pair (ha.trans hhigh) (hb.trans hlow)]
        replace ih := @ih (index + 2) others h
        cases hothers : decodePairs (index + 2) others <;>
          cases hrest : decodePairs (index + 2) rest <;>
          simp_all [Except.mapError, Except.map]

theorem map_value?_utf8EncodeChar_toLower (c : Char) :
    (String.utf8EncodeChar c.toLower).map value? = (String.utf8EncodeChar c).map value? := by
  by_cases h : c.toNat < 128
  · exact Text.of_ascii (P := fun c => (String.utf8EncodeChar c.toLower).map value? =
      (String.utf8EncodeChar c).map value?) (by decide +kernel) h
  · rw [toLower_of_not_ascii (Nat.le_of_not_lt h)]

theorem map_value?_utf8_toLower (cs : List Char) :
    (utf8 (cs.map Char.toLower)).map value? = (utf8 cs).map value? := by
  induction cs with
  | nil => rfl
  | cons c cs ih =>
    simp only [utf8] at ih
    simp only [utf8, List.map_cons, List.flatMap_cons, List.map_append,
      map_value?_utf8EncodeChar_toLower, ih]

/-! ## Whole texts -/

theorem decode_eq_error_iff {text : List UInt8} {cause : Error} :
    decode text = .error cause ↔
      text.length % 2 = 1 ∧ cause = .oddLength ∨
        text.length % 2 = 0 ∧ ∃ byte index, cause = .notADigit byte index ∧
          FirstOther text byte index := by
  unfold decode
  rcases Nat.mod_two_eq_zero_or_one text.length with heven | hodd
  · simp [heven, decodePairs_eq_error_iff heven]
  · simp [hodd, eq_comm]

theorem decode_eq_ok {text bytes : List UInt8} (h : decode text = .ok bytes) :
    decodePairs 0 text = .ok bytes := by
  unfold decode at h
  split at h
  · cases h
  · exact h

theorem exists_decode_eq_ok {text : List UInt8} (heven : text.length % 2 = 0)
    (hdigits : ∀ b ∈ text, IsDigit b) :
    ∃ bytes, decode text = .ok bytes ∧ 2 * bytes.length = text.length := by
  unfold decode
  rw [if_neg (by omega)]
  exact decodePairs_of_digits 0 heven fun b hb => isDigit_iff.1 (hdigits b hb)

theorem decode_withoutByte {text other : List UInt8} (h : other.map value? = text.map value?) :
    (decode other).mapError Error.withoutByte = (decode text).mapError Error.withoutByte := by
  have hlength : other.length = text.length := by simpa using congrArg List.length h
  unfold decode
  rw [hlength]
  split
  · rfl
  · exact decodePairs_withoutByte h

theorem decode_utf8_encode (bytes : List UInt8) : decode (utf8 (encode bytes)) = .ok bytes := by
  have hpairs := decodePairs_encode 0 bytes
  have hlength := (digits_of_decodePairs hpairs).1
  unfold decode utf8
  rw [if_neg (by omega), hpairs]

end Text.Hex

end Admission
