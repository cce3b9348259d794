-- The choice that every deployed fleet makes: BLAKE3 for hashes and Ed25519
-- for signatures.
import Admission.Crypto
import Admission.Crypto.Blake3
import Admission.Crypto.Ed25519

namespace Admission

@[reducible] def standardCrypto : Crypto where
  hash := Blake3.hash
  publicKey secret := .ofListFilled 32 (Ed25519.publicKey secret.toList)
  sign secret key message := .ofListFilled 64 (Ed25519.sign secret.toList key.toList message)
  verify key message signature := Ed25519.verify key.toList message signature.toList
  isPublicKey key := (Ed25519.Point.decode? key.toList).isSome

/-- A number below 2^253 in the second half leaves the top three bits clear. -/
theorem Signature.wellFormed_of_lt {s : Signature}
    (h : ofLittleEndian (s.toList.drop 32) < bytesLimit 31 * 32) :
    Signature.wellFormed s = true := by
  have hlength : (s.toList.drop 32).length = 32 := by simp
  rcases List.eq_nil_or_concat (s.toList.drop 32) with hnil | ⟨low, top, hdrop⟩
  · rw [hnil] at hlength
    cases hlength
  · rw [List.concat_eq_append] at hdrop
    rw [hdrop, List.length_append, List.length_singleton, Nat.add_right_cancel_iff] at hlength
    have hlast : s.toList.getLast? = some top := by
      rw [← List.take_append_drop 32 s.toList, hdrop, ← List.append_assoc, List.getLast?_concat]
    rw [hdrop, ofLittleEndian_append_singleton, hlength] at h
    have htop : top.toNat < 32 :=
      Nat.lt_of_mul_lt_mul_left (Nat.lt_of_le_of_lt (Nat.le_add_left _ _) h)
    simpa [wellFormed, hlast] using htop

theorem strict_standardCrypto : @StrictCrypto standardCrypto := by
  refine @StrictCrypto.mk standardCrypto ?_
  intro key message signature h
  obtain ⟨hkey, hresponse⟩ := Ed25519.of_verify h
  refine ⟨hkey, Signature.wellFormed_of_lt (Nat.lt_trans hresponse ?_)⟩
  decide +kernel

end Admission
