-- Strings of a fixed number of bytes: hashes, keys and signatures. They are
-- compared byte by byte, so a sorted list of keys has one order only.

namespace Admission

/-- A string of exactly `n` bytes. -/
structure ByteString (n : Nat) where
  toList : List UInt8
  length_eq : toList.length = n
deriving DecidableEq

/-- The hash of a string of bytes, and every identifier made of one. -/
abbrev Hash := ByteString 32

namespace ByteString

/-! ## Building -/

/-- The bytes as a string of `n`, if there are `n` of them. -/
def ofList? (n : Nat) (bytes : List UInt8) : Option (ByteString n) :=
  if h : bytes.length = n then some ⟨bytes, h⟩ else none

/-- The first `n` bytes, filled up with zeros where there are fewer. -/
def ofListFilled (n : Nat) (bytes : List UInt8) : ByteString n :=
  ⟨(bytes ++ List.replicate n 0).take n, by simp⟩

def zeros (n : Nat) : ByteString n := ⟨List.replicate n 0, List.length_replicate⟩

instance {n : Nat} : Inhabited (ByteString n) := ⟨zeros n⟩

@[ext] theorem ext {n : Nat} {a b : ByteString n} (h : a.toList = b.toList) : a = b := by
  cases a; cases b; simp_all

@[simp] theorem length_toList {n : Nat} (b : ByteString n) : b.toList.length = n := b.length_eq

@[simp] theorem ofList?_toList {n : Nat} (b : ByteString n) : ofList? n b.toList = some b := by
  simp [ofList?]

theorem ofList?_eq_some {n : Nat} {bytes : List UInt8} {b : ByteString n} :
    ofList? n bytes = some b ↔ bytes = b.toList := by
  constructor
  · intro h
    unfold ofList? at h
    split at h
    · cases h; rfl
    · cases h
  · rintro rfl
    exact ofList?_toList b

/-! ## Order -/

/-- The order of two lists of bytes, the first difference deciding. -/
def compareBytes : List UInt8 → List UInt8 → Ordering
  | [], [] => .eq
  | [], _ :: _ => .lt
  | _ :: _, [] => .gt
  | a :: as, b :: bs => if a < b then .lt else if b < a then .gt else compareBytes as bs

instance {n : Nat} : Ord (ByteString n) := ⟨fun a b => compareBytes a.toList b.toList⟩

instance {n : Nat} : LT (ByteString n) := ⟨fun a b => compare a b = .lt⟩

instance {n : Nat} (a b : ByteString n) : Decidable (a < b) :=
  inferInstanceAs (Decidable (compare a b = .lt))

theorem compareBytes_eq_iff (a b : List UInt8) : compareBytes a b = .eq ↔ a = b := by
  induction a generalizing b with
  | nil => cases b <;> simp [compareBytes]
  | cons x xs ih =>
    cases b with
    | nil => simp [compareBytes]
    | cons y ys =>
      simp only [compareBytes, UInt8.lt_iff_toNat_lt, List.cons.injEq, ← UInt8.toNat_inj]
      by_cases h1 : x.toNat < y.toNat
      · simp [h1, Nat.ne_of_lt h1]
      · by_cases h2 : y.toNat < x.toNat
        · simp [h1, h2, (Nat.ne_of_lt h2).symm]
        · have h3 : x.toNat = y.toNat := by omega
          simp [h3, ih]

theorem compareBytes_swap (a b : List UInt8) : (compareBytes a b).swap = compareBytes b a := by
  induction a generalizing b with
  | nil => cases b <;> simp [compareBytes]
  | cons x xs ih =>
    cases b with
    | nil => simp [compareBytes]
    | cons y ys =>
      simp only [compareBytes, UInt8.lt_iff_toNat_lt]
      by_cases h1 : x.toNat < y.toNat
      · simp [h1, Nat.not_lt.2 (Nat.le_of_lt h1)]
      · by_cases h2 : y.toNat < x.toNat <;> simp [h1, h2, ih]

theorem compareBytes_trans (a b c : List UInt8) (h1 : compareBytes a b = .lt)
    (h2 : compareBytes b c = .lt) : compareBytes a c = .lt := by
  induction a generalizing b c with
  | nil => cases b <;> cases c <;> simp_all [compareBytes]
  | cons x xs ih =>
    cases b with
    | nil => simp [compareBytes] at h1
    | cons y ys =>
      cases c with
      | nil => simp [compareBytes] at h2
      | cons z zs =>
        simp only [compareBytes, UInt8.lt_iff_toNat_lt] at h1 h2 ⊢
        split at h1
        · split at h2
          · rw [if_pos (by omega)]
          · split at h2
            · cases h2
            · rw [if_pos (by omega)]
        · split at h1
          · cases h1
          · split at h2
            · rw [if_pos (by omega)]
            · split at h2
              · cases h2
              · rw [if_neg (by omega), if_neg (by omega)]
                exact ih ys zs h1 h2

variable {n : Nat}

theorem compare_eq_iff {a b : ByteString n} : compare a b = .eq ↔ a = b :=
  (compareBytes_eq_iff _ _).trans ⟨ByteString.ext, fun h => h ▸ rfl⟩

theorem lt_of_gt {a b : ByteString n} (h : compare a b = .gt) : b < a :=
  (compareBytes_swap a.toList b.toList).symm.trans (congrArg Ordering.swap h)

theorem gt_of_lt {a b : ByteString n} (h : a < b) : compare b a = .gt :=
  (compareBytes_swap a.toList b.toList).symm.trans (congrArg Ordering.swap h)

theorem lt_irrefl (a : ByteString n) : ¬ a < a := fun h => by
  have h1 : compare a a = .lt := h
  rw [compare_eq_iff.2 rfl] at h1
  cases h1

theorem lt_trans {a b c : ByteString n} (h1 : a < b) (h2 : b < c) : a < c :=
  compareBytes_trans _ _ _ h1 h2

end ByteString

/-! ## Numbers as bytes -/

/-- The `width` low bytes of a number, the lowest first. -/
def littleEndian : (width : Nat) → Nat → List UInt8
  | 0, _ => []
  | width + 1, k => UInt8.ofNat k :: littleEndian width (k / 256)

/-- The `width` low bytes of a number, the highest first. -/
def bigEndian (width k : Nat) : List UInt8 := (littleEndian width k).reverse

/-- The number whose bytes are given, the lowest first. -/
def ofLittleEndian : List UInt8 → Nat
  | [] => 0
  | b :: rest => b.toNat + 256 * ofLittleEndian rest

/-- The number whose bytes are given, the highest first. -/
def ofBigEndian (bytes : List UInt8) : Nat := ofLittleEndian bytes.reverse

/-- The numbers of `width` bytes are smaller than this. -/
def bytesLimit : (width : Nat) → Nat
  | 0 => 1
  | width + 1 => 256 * bytesLimit width

@[simp] theorem length_littleEndian (width k : Nat) : (littleEndian width k).length = width := by
  induction width generalizing k with
  | zero => rfl
  | succ w ih => simp [littleEndian, ih]

@[simp] theorem length_bigEndian (width k : Nat) : (bigEndian width k).length = width := by
  simp [bigEndian]

/-- Reading undoes writing where the number fits. -/
theorem ofLittleEndian_littleEndian (width k : Nat) (h : k < bytesLimit width) :
    ofLittleEndian (littleEndian width k) = k := by
  induction width generalizing k with
  | zero => simp only [bytesLimit, Nat.lt_one_iff] at h; simp [littleEndian, ofLittleEndian, h]
  | succ w ih =>
    have hk : k / 256 < bytesLimit w := Nat.div_lt_of_lt_mul h
    simp only [littleEndian, ofLittleEndian, ih _ hk, UInt8.toNat_ofNat']
    omega

theorem ofBigEndian_bigEndian (width k : Nat) (h : k < bytesLimit width) :
    ofBigEndian (bigEndian width k) = k := by
  simp [ofBigEndian, bigEndian, ofLittleEndian_littleEndian width k h]

/-- Writing undoes reading. -/
theorem littleEndian_ofLittleEndian (bytes : List UInt8) :
    littleEndian bytes.length (ofLittleEndian bytes) = bytes := by
  induction bytes with
  | nil => rfl
  | cons b rest ih =>
    have hrest : (b.toNat + 256 * ofLittleEndian rest) / 256 = ofLittleEndian rest := by
      have hb := b.toNat_lt
      omega
    have hfirst : UInt8.ofNat (b.toNat + 256 * ofLittleEndian rest) = b := by
      rw [← UInt8.toNat_inj, UInt8.toNat_ofNat']
      have hb := b.toNat_lt
      omega
    rw [List.length_cons, ofLittleEndian, littleEndian, hrest, hfirst, ih]

theorem bigEndian_ofBigEndian {width : Nat} {bytes : List UInt8} (h : bytes.length = width) :
    bigEndian width (ofBigEndian bytes) = bytes := by
  have hreverse := littleEndian_ofLittleEndian bytes.reverse
  rw [List.length_reverse, h] at hreverse
  rw [bigEndian, ofBigEndian, hreverse, List.reverse_reverse]

/-- The highest byte counts for the most. -/
theorem ofLittleEndian_append_singleton (bytes : List UInt8) (b : UInt8) :
    ofLittleEndian (bytes ++ [b]) = ofLittleEndian bytes + bytesLimit bytes.length * b.toNat := by
  induction bytes with
  | nil => simp [ofLittleEndian, bytesLimit]
  | cons first rest ih =>
    simp only [List.cons_append, List.length_cons, ofLittleEndian, bytesLimit, ih]
    rw [Nat.mul_add, Nat.add_assoc, Nat.mul_assoc]

/-- What is beyond the low bytes of a number leaves no trace in them. -/
theorem littleEndian_mod (width k : Nat) :
    littleEndian width (k % bytesLimit width) = littleEndian width k := by
  induction width generalizing k with
  | zero => rfl
  | succ w ih =>
    simp only [littleEndian, bytesLimit, Nat.mod_mul_right_div_self, ih, List.cons.injEq, and_true]
    rw [← UInt8.toNat_inj, UInt8.toNat_ofNat', UInt8.toNat_ofNat']
    exact Nat.mod_mul_right_mod k 256 (bytesLimit w)

theorem bigEndian_mod (width k : Nat) :
    bigEndian width (k % bytesLimit width) = bigEndian width k := by
  simp only [bigEndian, littleEndian_mod]

theorem bigEndian_inj {width a b : Nat} (ha : a < bytesLimit width) (hb : b < bytesLimit width) :
    bigEndian width a = bigEndian width b ↔ a = b := by
  constructor
  · intro h
    rw [← ofBigEndian_bigEndian width a ha, h, ofBigEndian_bigEndian width b hb]
  · rintro rfl
    rfl

end Admission
