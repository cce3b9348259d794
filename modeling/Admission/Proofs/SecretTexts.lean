-- What is read as a secret, and what is told of a text that is none. The white space
-- around a text is passed over, and faults are told as places among the bytes.
import Admission.Proofs.HexDigits
import Admission.Proofs.Peers
import Mathlib.Data.List.TakeWhile

namespace Admission

/-! ## White space -/

namespace Text

theorem isBlank_toLower (c : Char) : isBlank c.toLower = isBlank c := by
  by_cases h : c.toNat < 128
  · exact of_ascii (P := fun c => isBlank c.toLower = isBlank c) (by decide +kernel) h
  · rw [toLower_of_not_ascii (Nat.le_of_not_lt h)]

theorem dropWhile_isBlank_append {blanks : List Char} (h : ∀ c ∈ blanks, isBlank c = true)
    (cs : List Char) : (blanks ++ cs).dropWhile isBlank = cs.dropWhile isBlank :=
  List.dropWhile_append_of_pos h

theorem trim_append_left {left : List Char} (h : ∀ c ∈ left, isBlank c = true) (cs : List Char) :
    trim (left ++ cs) = trim cs := by
  unfold trim
  rw [dropWhile_isBlank_append h]

theorem trim_append_right {right : List Char} (h : ∀ c ∈ right, isBlank c = true)
    (cs : List Char) : trim (cs ++ right) = trim cs := by
  have hreverse : ∀ c ∈ right.reverse, isBlank c = true := fun c hc => h c (List.mem_reverse.1 hc)
  unfold trim
  rw [List.dropWhile_append]
  split
  · rename_i hempty
    have hright := dropWhile_isBlank_append h []
    rw [List.append_nil] at hright
    rw [List.isEmpty_iff.1 hempty, hright]
    rfl
  · rw [List.reverse_append, dropWhile_isBlank_append hreverse]

theorem trim_eq_self {cs : List Char} (h : ∀ c ∈ cs, isBlank c = false) : trim cs = cs := by
  have hkeep : ∀ cs : List Char, (∀ c ∈ cs, isBlank c = false) → cs.dropWhile isBlank = cs := by
    intro cs hcs
    rw [List.dropWhile_eq_self_iff]
    intro hlength
    simp [hcs cs[0] (List.getElem_mem hlength)]
  unfold trim
  rw [hkeep cs h, hkeep cs.reverse fun c hc => h c (List.mem_reverse.1 hc), List.reverse_reverse]

theorem trim_map_toLower (cs : List Char) :
    trim (cs.map Char.toLower) = (trim cs).map Char.toLower := by
  have hblank : isBlank ∘ Char.toLower = isBlank := funext isBlank_toLower
  unfold trim
  rw [List.dropWhile_map, hblank, ← List.map_reverse, List.dropWhile_map, hblank, List.map_reverse]

theorem isBlank_of_mem_encode {bytes : List UInt8} {c : Char} (h : c ∈ Hex.encode bytes) :
    isBlank c = false := by
  have hdigit : ∀ n < 16, isBlank (Hex.digit n) = false := by decide
  obtain ⟨b, -, hc⟩ := List.mem_flatMap.1 h
  have hb := b.toNat_lt
  rcases List.mem_cons.1 hc with rfl | hc
  · exact hdigit _ (by omega)
  · rw [List.mem_singleton.1 hc]
    exact hdigit _ (by omega)

end Text

/-! ## Secrets -/

/-- The bytes of a text without the white space around it. -/
def trimmedBytes (text : String) : List UInt8 := utf8 (Text.trim text.toList)

open Text.Hex

namespace Secret

variable {text : String}

theorem ofText_of_decode_error {cause : Text.Hex.Error}
    (h : decode (trimmedBytes text) = .error cause) : ofText text = .error (.hex cause) := by
  rw [trimmedBytes] at h
  simp [ofText, h]

/-- Where all digits are read there is a secret, or the number of bytes is told. -/
theorem ofText_of_decode {bytes : List UInt8} (h : decode (trimmedBytes text) = .ok bytes) :
    ofText text =
      if h : bytes.length = 32 then .ok ⟨bytes, h⟩ else .error (.secretLength bytes.length) := by
  rw [trimmedBytes] at h
  simp only [ofText, h, ByteString.ofList?]
  by_cases hlength : bytes.length = 32 <;> simp [hlength]

theorem decodePairs_of_ofText {secret : Secret} (h : ofText text = .ok secret) :
    decodePairs 0 (trimmedBytes text) = .ok secret.toList := by
  cases hread : decode (trimmedBytes text) with
  | error cause =>
    rw [ofText_of_decode_error hread] at h
    cases h
  | ok bytes =>
    rw [ofText_of_decode hread] at h
    split at h
    · cases h
      exact decode_eq_ok hread
    · cases h

/-- The digits write the number whose bytes the secret is. -/
theorem values_of_ofText {secret : Secret} (h : ofText text = .ok secret) :
    ∃ values : List Nat, values.length = 64 ∧
      (Text.trim text.toList).map digitValue? = values.map some ∧
      ofBigEndian secret.toList = Nat.ofDigits 16 values.reverse := by
  have hpairs := decodePairs_of_ofText h
  obtain ⟨values, hvalues, hnumber⟩ := ofBigEndian_of_decodePairs hpairs
  refine ⟨values, ?_, map_value?_utf8_iff.1 hvalues, hnumber⟩
  have hlength := congrArg List.length hvalues
  rw [List.length_map, List.length_map, ← (digits_of_decodePairs hpairs).1,
    secret.length_eq] at hlength
  exact hlength.symm

theorem isSecretText_of_values {values : List Nat} (hlength : values.length = 64)
    (hvalues : (Text.trim text.toList).map digitValue? = values.map some) :
    IsSecretText text := by
  replace hvalues := map_value?_utf8_iff.2 hvalues
  refine ⟨?_, ?_⟩
  · simpa [hlength] using congrArg List.length hvalues
  · intro b hb
    have hmem := List.mem_map_of_mem (f := value?) hb
    rw [hvalues] at hmem
    obtain ⟨v, -, hv⟩ := List.mem_map.1 hmem
    exact ⟨v, hv.symm⟩

theorem ofBigEndian_inj {secret other : Secret}
    (h : ofBigEndian secret.toList = ofBigEndian other.toList) : secret = other := by
  apply ByteString.ext
  rw [← bigEndian_ofBigEndian secret.length_eq, h, bigEndian_ofBigEndian other.length_eq]

theorem ofText_eq_ok_iff {secret : Secret} :
    ofText text = .ok secret ↔
      ∃ values : List Nat, values.length = 64 ∧
        (Text.trim text.toList).map digitValue? = values.map some ∧
        ofBigEndian secret.toList = Nat.ofDigits 16 values.reverse := by
  constructor
  · exact values_of_ofText
  · rintro ⟨values, hlength, hvalues, hnumber⟩
    obtain ⟨found, hfound⟩ := exists_ofText_iff.2 (isSecretText_of_values hlength hvalues)
    obtain ⟨values', -, hvalues', hnumber'⟩ := values_of_ofText hfound
    have hsame : values' = values :=
      List.map_injective_iff.2 (Option.some_injective _) (hvalues'.symm.trans hvalues)
    rw [hfound, ofBigEndian_inj (hnumber'.trans (hsame ▸ hnumber.symm))]

theorem ofText_eq_hex_iff {cause : Text.Hex.Error} :
    ofText text = .error (.hex cause) ↔ decode (trimmedBytes text) = .error cause := by
  cases h : decode (trimmedBytes text) with
  | error other => simp [ofText_of_decode_error h]
  | ok bytes =>
    rw [ofText_of_decode h]
    split <;> simp

theorem ofText_eq_secretLength_iff {length : Nat} :
    ofText text = .error (.secretLength length) ↔
      length ≠ 32 ∧ (trimmedBytes text).length = 2 * length ∧
        ∀ b ∈ trimmedBytes text, IsDigit b := by
  constructor
  · intro h
    cases hread : decode (trimmedBytes text) with
    | error cause => simp [ofText_of_decode_error hread] at h
    | ok bytes =>
      rw [ofText_of_decode hread] at h
      split at h
      · cases h
      · rename_i hwrong
        cases h
        obtain ⟨hlength, hdigits⟩ := digits_of_decodePairs (decode_eq_ok hread)
        exact ⟨hwrong, hlength.symm, fun b hb => isDigit_iff.2 (hdigits b hb)⟩
  · rintro ⟨hwrong, hlength, hdigits⟩
    obtain ⟨bytes, hread, hbytes⟩ := exists_decode_eq_ok (by omega) hdigits
    obtain rfl : bytes.length = length := by omega
    rw [ofText_of_decode hread, dif_neg hwrong]

/-- Nothing else goes wrong. -/
theorem error_cases {e : KeyError} (h : ofText text = .error e) :
    (∃ cause, e = .hex cause) ∨ ∃ length, e = .secretLength length := by
  cases hread : decode (trimmedBytes text) with
  | error cause =>
    rw [ofText_of_decode_error hread] at h
    cases h
    exact Or.inl ⟨cause, rfl⟩
  | ok bytes =>
    rw [ofText_of_decode hread] at h
    split at h
    · cases h
    · cases h
      exact Or.inr ⟨_, rfl⟩

/-- What writes a secret reads as it. -/
theorem ofText_text (secret : Secret) : ofText (Text.Hex.text secret.toList) = .ok secret := by
  have htrim : trimmedBytes (Text.Hex.text secret.toList) = utf8 (encode secret.toList) := by
    unfold trimmedBytes Text.Hex.text
    rw [String.toList_ofList, Text.trim_eq_self fun c hc => Text.isBlank_of_mem_encode hc]
  rw [ofText_of_decode (htrim ▸ decode_utf8_encode secret.toList), dif_pos secret.length_eq]

theorem ofText_congr {other : String}
    (h : Text.trim other.toList = Text.trim text.toList) : ofText other = ofText text := by
  unfold ofText
  rw [h]

end Secret

/-! ## Pairs of keys -/

/-- An error without the byte that it may show. -/
def KeyError.withoutByte : KeyError → KeyError
  | .hex cause => .hex cause.withoutByte
  | e => e

/-- Texts that differ in the case of letters only are read as the same secret, or fail alike. -/
theorem Secret.ofText_withoutByte {text other : String}
    (h : other.toList.map Char.toLower = text.toList.map Char.toLower) :
    (ofText other).mapError KeyError.withoutByte = (ofText text).mapError KeyError.withoutByte := by
  have hbytes : (trimmedBytes other).map value? = (trimmedBytes text).map value? := by
    unfold trimmedBytes
    rw [← map_value?_utf8_toLower, ← Text.trim_map_toLower, h, Text.trim_map_toLower,
      map_value?_utf8_toLower]
  have hdecode := decode_withoutByte hbytes
  cases hother : decode (trimmedBytes other) <;> cases hread : decode (trimmedBytes text) <;>
    rw [hother, hread] at hdecode
  · rw [ofText_of_decode_error hother, ofText_of_decode_error hread]
    simpa [Except.mapError, KeyError.withoutByte] using hdecode
  · cases hdecode
  · cases hdecode
  · rw [ofText_of_decode hother, ofText_of_decode hread, Except.ok.inj hdecode]

/-- Reads the bytes of a secret as the signature scheme does, which counts them itself. -/
def Secret.ofBytes (bytes : List UInt8) : Except KeyFailure Secret :=
  match ByteString.ofList? 32 bytes with
  | some secret => .ok secret
  | none => .error (.scheme (schemeMessage "Some(SecretKey must be 32 bytes in length)"))

section
variable [Crypto]

namespace Keypair

theorem ofSecret_secret (pair : Keypair) : ofSecret pair.secret = pair := by
  obtain ⟨secret, key, rfl⟩ := pair
  rfl

/-- Reads a pair of keys step by step: the digits, the number of bytes, and what the scheme makes of
them. The failures are those that are reported. -/
def ofTextInSteps (text : String) : Except KeyFailure Keypair := do
  let bytes ← (decode (trimmedBytes text)).mapError fun cause => .hex cause.message
  unless bytes.length = 32 do throw (.secretLength bytes.length)
  let secret ← Secret.ofBytes bytes
  return ofSecret secret

/-- The scheme counts bytes that were counted before. -/
theorem ofTextInSteps_eq (text : String) :
    ofTextInSteps text = (ofText text).mapError KeyError.failure := by
  unfold ofTextInSteps ofText
  cases hread : decode (trimmedBytes text) with
  | error cause =>
    rw [Secret.ofText_of_decode_error hread]
    rfl
  | ok bytes =>
    rw [Secret.ofText_of_decode hread]
    by_cases hlength : bytes.length = 32
    · simp [hlength, Secret.ofBytes, ByteString.ofList?, Except.mapError, Except.map, bind,
        Except.bind, pure, Except.pure]
    · simp [hlength, Except.mapError, Except.map, bind, Except.bind, throw, throwThe,
        MonadExceptOf.throw, KeyError.failure]

theorem ofText_eq_ok_iff {text : String} {pair : Keypair} :
    ofText text = .ok pair ↔ Secret.ofText text = .ok pair.secret := by
  unfold ofText
  cases Secret.ofText text with
  | error e => simp [Except.map]
  | ok secret =>
    simp only [Except.map, Except.ok.injEq]
    constructor
    · rintro rfl
      rfl
    · rintro rfl
      exact ofSecret_secret pair

theorem ofText_eq_error_iff {text : String} {e : KeyError} :
    ofText text = .error e ↔ Secret.ofText text = .error e := by
  unfold ofText
  cases Secret.ofText text <;> simp [Except.map]

/-- The scheme never refuses what came to it. -/
theorem ofTextInSteps_ne_scheme (text cause : String) :
    ofTextInSteps text ≠ .error (.scheme cause) := by
  rw [ofTextInSteps_eq]
  cases h : ofText text with
  | ok pair => simp [Except.mapError]
  | error e =>
    rcases Secret.error_cases (ofText_eq_error_iff.1 h) with ⟨why, rfl⟩ | ⟨length, rfl⟩ <;>
      simp [Except.mapError, KeyError.failure]

theorem ofText_withoutByte {text other : String}
    (h : other.toList.map Char.toLower = text.toList.map Char.toLower) :
    (ofText other).mapError KeyError.withoutByte = (ofText text).mapError KeyError.withoutByte := by
  have hsecret := Secret.ofText_withoutByte h
  unfold ofText
  cases hother : Secret.ofText other <;> cases hread : Secret.ofText text <;>
    simp_all [Except.mapError, Except.map]

end Keypair

/-- A secret is written in sixty-four hexadecimal digits, which write the number whose bytes it is.
Of any other text it is told that it has an odd number of bytes; otherwise which byte is the first
that is no digit, and where it stands; otherwise how many bytes the digits write. Every secret can
be read from its writing. White space at both ends does not matter, nor does the case of letters,
but for the byte that an error shows. The signature scheme itself finds no fault any more. -/
theorem a_secret_is_written_in_sixty_four_digits (text : String) :
    (∀ pair : Keypair, Keypair.ofText text = .ok pair ↔
      ∃ values : List Nat, values.length = 64 ∧
        (Text.trim text.toList).map digitValue? = values.map some ∧
        ofBigEndian pair.secret.toList = Nat.ofDigits 16 values.reverse) ∧
    (Keypair.ofText text = .error (.hex .oddLength) ↔ (trimmedBytes text).length % 2 = 1) ∧
    (∀ byte index, Keypair.ofText text = .error (.hex (.notADigit byte index)) ↔
      (trimmedBytes text).length % 2 = 0 ∧ FirstOther (trimmedBytes text) byte index) ∧
    (∀ length, Keypair.ofText text = .error (.secretLength length) ↔
      length ≠ 32 ∧ (trimmedBytes text).length = 2 * length ∧
        ∀ b ∈ trimmedBytes text, IsDigit b) ∧
    (∀ secret : Secret, Keypair.ofText (Text.Hex.text secret.toList) = .ok (.ofSecret secret)) ∧
    (∀ left right : String, (∀ c ∈ left.toList ++ right.toList, Text.isBlank c = true) →
      Keypair.ofText (left ++ text ++ right) = Keypair.ofText text) ∧
    (∀ other : String, other.toList.map Char.toLower = text.toList.map Char.toLower →
      (Keypair.ofText other).mapError KeyError.withoutByte =
        (Keypair.ofText text).mapError KeyError.withoutByte) ∧
    Keypair.ofTextInSteps text = (Keypair.ofText text).mapError KeyError.failure ∧
    ∀ cause, Keypair.ofTextInSteps text ≠ .error (.scheme cause) := by
  refine ⟨fun pair => Keypair.ofText_eq_ok_iff.trans Secret.ofText_eq_ok_iff, ?_, ?_, ?_, ?_, ?_,
    fun other => Keypair.ofText_withoutByte, Keypair.ofTextInSteps_eq text,
    Keypair.ofTextInSteps_ne_scheme text⟩
  · rw [Keypair.ofText_eq_error_iff, Secret.ofText_eq_hex_iff, decode_eq_error_iff]
    simp
  · intro byte index
    rw [Keypair.ofText_eq_error_iff, Secret.ofText_eq_hex_iff, decode_eq_error_iff]
    simp
  · intro length
    rw [Keypair.ofText_eq_error_iff, Secret.ofText_eq_secretLength_iff]
  · intro secret
    exact Keypair.ofText_eq_ok_iff.2 (Secret.ofText_text secret)
  · intro left right hblank
    have htrim : Text.trim (left ++ text ++ right).toList = Text.trim text.toList := by
      rw [String.toList_append, String.toList_append,
        Text.trim_append_right fun c hc => hblank c (List.mem_append_right _ hc),
        Text.trim_append_left fun c hc => hblank c (List.mem_append_left _ hc)]
    unfold Keypair.ofText
    rw [Secret.ofText_congr htrim]

end

namespace Sample

attribute [local instance] standardCrypto

/-- The secret of the sample in capital letters. -/
def capitals : String := "9D61B19DEFFD5A60BA844AF492EC2CC44449C5697B326919703BAC031CAE7F60"

/-- The secret is read from between blanks, and in capital letters too. -/
theorem a_secret_is_read_in_either_case :
    (∀ c ∈ "\n".toList ++ "\u3000".toList, Text.isBlank c = true) ∧
    Keypair.ofText ("\n" ++ Text.Hex.text secret.toList ++ "\u3000") = .ok pair ∧
    capitals.toList.map Char.toLower = (Text.Hex.text secret.toList).toList.map Char.toLower ∧
    Keypair.ofText capitals = .ok pair := by
  obtain ⟨_, _, _, _, hread, hblanks, hcase, _⟩ :=
    a_secret_is_written_in_sixty_four_digits (Text.Hex.text secret.toList)
  have hpair : Keypair.ofText (Text.Hex.text secret.toList) = .ok pair := by
    rw [hread secret]
    exact congrArg Except.ok (Keypair.ofSecret_secret pair)
  have hblank : ∀ c ∈ "\n".toList ++ "\u3000".toList, Text.isBlank c = true :=
    List.all_eq_true.1 (by decide +kernel)
  have hsame : capitals.toList.map Char.toLower =
      (Text.Hex.text secret.toList).toList.map Char.toLower := by decide +kernel
  refine ⟨hblank, (hblanks _ _ hblank).trans hpair, hsame, ?_⟩
  have hcapitals := hcase capitals hsame
  rw [hpair] at hcapitals
  cases hresult : Keypair.ofText capitals with
  | ok other =>
    rw [hresult] at hcapitals
    exact hcapitals
  | error e =>
    rw [hresult] at hcapitals
    cases hcapitals

end Sample

end Admission
