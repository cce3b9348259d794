-- Numbers on the wire take one byte if they are small, and otherwise two, four
-- or eight bytes behind a mark that says how many. Longer forms than needed are
-- read as well.
import Admission.Format

namespace Admission

namespace Varint

/-- Numbers below this are a single byte. -/
def smallLimit : Nat := 251

def mark16 : UInt8 := 251

def mark32 : UInt8 := 252

def mark64 : UInt8 := 253

def mark128 : UInt8 := 254

def write (n : Nat) : List UInt8 :=
  if n < smallLimit then [UInt8.ofNat n]
  else if n < 0x10000 then mark16 :: littleEndian 2 n
  else if n < 0x100000000 then mark32 :: littleEndian 4 n
  else mark64 :: littleEndian 8 n

def read : List UInt8 → Reading Nat
  | [] => .error .endOfInput
  | b :: rest =>
    if b.toNat < smallLimit then .ok (b.toNat, rest)
    else if b = mark16 then (Format.lowFirst 2).read rest
    else if b = mark32 then (Format.lowFirst 4).read rest
    else if b = mark64 then (Format.lowFirst 8).read rest
    else if b = mark128 then .error .wideNumber
    else .error .reserved

def format : Format Nat := ⟨write, read⟩

/-- Every number of 64 bits is read back. -/
theorem format_readsBack : format.ReadsBack fun n => n < 0x10000000000000000 := by
  intro n rest h
  have low (width : Nat) (hn : n < bytesLimit width) :
      (Format.lowFirst width).read (littleEndian width n ++ rest) = .ok (n, rest) :=
    Format.lowFirst_readsBack width n rest hn
  simp only [format, write]
  by_cases h1 : n < smallLimit
  · have hn : (UInt8.ofNat n).toNat = n := by
      simp only [smallLimit] at h1
      simp only [UInt8.toNat_ofNat']
      omega
    simp only [if_pos h1, List.cons_append, List.nil_append, read, hn]
  · by_cases h2 : n < 0x10000
    · simp only [if_neg h1, if_pos h2, List.cons_append, read]
      exact low 2 h2
    · by_cases h3 : n < 0x100000000
      · simp only [if_neg h1, if_neg h2, if_pos h3, List.cons_append, read]
        exact low 4 h3
      · simp only [if_neg h1, if_neg h2, if_neg h3, List.cons_append, read]
        exact low 8 h

end Varint

end Admission
