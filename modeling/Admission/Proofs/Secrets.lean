-- Which texts write a secret. It has 32 bytes, and two hexadecimal digits stand
-- for each of them.
import Admission.Proofs.Configuration

namespace Admission

/-! ## Digits -/

namespace Text.Hex

/-- Pairs of digits can be read, and nothing else. They write half as many bytes. -/
theorem decodePairs_of_digits (index : Nat) {text : List UInt8} (heven : text.length % 2 = 0)
    (hdigits : ∀ b ∈ text, ∃ v, value? b = some v) :
    ∃ bytes, decodePairs index text = .ok bytes ∧ 2 * bytes.length = text.length := by
  fun_induction decodePairs index text with
  | case1 index => exact ⟨[], rfl, rfl⟩
  | case2 index b => cases heven
  | case3 index a b rest ih =>
    obtain ⟨high, hhigh⟩ := hdigits a (by simp)
    obtain ⟨low, hlow⟩ := hdigits b (by simp)
    obtain ⟨bytes, hbytes, hlength⟩ := ih
      (by simp only [List.length_cons] at heven; omega)
      (fun later hlater => hdigits later (by simp [hlater]))
    refine ⟨UInt8.ofNat (16 * high + low) :: bytes, ?_, ?_⟩
    · simp only [valueAt, hhigh, hlow, hbytes]
      rfl
    · rw [List.length_cons, List.length_cons, List.length_cons]
      omega

theorem value?_of_valueAt {b : UInt8} {index v : Nat} (h : valueAt b index = .ok v) :
    value? b = some v := by
  unfold valueAt at h
  split at h
  · cases h
    assumption
  · cases h

theorem digits_of_decodePairs {index : Nat} {text bytes : List UInt8}
    (h : decodePairs index text = .ok bytes) :
    2 * bytes.length = text.length ∧ ∀ b ∈ text, ∃ v, value? b = some v := by
  fun_induction decodePairs index text generalizing bytes with
  | case1 index =>
    cases h
    exact ⟨rfl, by simp⟩
  | case2 index b => cases h
  | case3 index a b rest ih =>
    obtain ⟨high, hhigh, h⟩ := exists_ok_of_bind h
    obtain ⟨low, hlow, h⟩ := exists_ok_of_bind h
    obtain ⟨later, hlater, h⟩ := exists_ok_of_bind h
    cases h
    obtain ⟨hlength, hdigits⟩ := ih hlater
    refine ⟨by simp only [List.length_cons]; omega, ?_⟩
    simp only [List.forall_mem_cons]
    exact ⟨⟨high, value?_of_valueAt hhigh⟩, ⟨low, value?_of_valueAt hlow⟩, hdigits⟩

end Text.Hex

/-! ## Secrets -/

/-- The text writes a secret: 64 digits, with white space around them allowed. -/
def IsSecretText (text : String) : Prop :=
  (utf8 (Text.trim text.toList)).length = 64 ∧
    ∀ b ∈ utf8 (Text.trim text.toList), ∃ v, Text.Hex.value? b = some v

theorem Secret.exists_ofText_iff {text : String} :
    (∃ secret, Secret.ofText text = .ok secret) ↔ IsSecretText text := by
  unfold IsSecretText Secret.ofText Text.Hex.decode
  generalize utf8 (Text.trim text.toList) = digits
  constructor
  · rintro ⟨secret, h⟩
    by_cases hodd : digits.length % 2 = 1
    · rw [if_pos hodd] at h
      cases h
    rw [if_neg hodd] at h
    cases hread : Text.Hex.decodePairs 0 digits with
    | error cause =>
      rw [hread] at h
      cases h
    | ok bytes =>
      obtain ⟨hlength, hdigits⟩ := Text.Hex.digits_of_decodePairs hread
      refine ⟨?_, hdigits⟩
      rw [hread] at h
      cases hsecret : ByteString.ofList? 32 bytes with
      | none =>
        simp only [hsecret] at h
        cases h
      | some found =>
        rw [← hlength, ByteString.ofList?_eq_some.1 hsecret, found.length_eq]
  · rintro ⟨hlength, hdigits⟩
    obtain ⟨bytes, hread, hhalf⟩ :=
      Text.Hex.decodePairs_of_digits 0 (by rw [hlength]) hdigits
    have hbytes : bytes.length = 32 := by omega
    refine ⟨⟨bytes, hbytes⟩, ?_⟩
    rw [if_neg (by rw [hlength]; decide), hread]
    simp only [ByteString.ofList?, dif_pos hbytes]

theorem Keypair.exists_ofText_iff [Crypto] {text : String} :
    (∃ pair, Keypair.ofText text = .ok pair) ↔ IsSecretText text := by
  rw [← Secret.exists_ofText_iff, Keypair.ofText]
  cases Secret.ofText text with
  | error cause => simp [Except.map]
  | ok secret => simp [Except.map]

end Admission
