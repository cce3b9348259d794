-- Formats: how values are written as bytes and read back. A format is built of
-- smaller ones, and the law that reading undoes writing is kept by every way of
-- building, so it holds of a message because it holds of its parts.
import Admission.Key

namespace Admission

/-- Why bytes are no writing of a value. -/
inductive ReadError where
  | endOfInput
  | leftOver
  /-- There are only `count` variants, numbered from zero. -/
  | unknownVariant (number count : Nat)
  /-- The number of a variant does not fit 32 bits. -/
  | largeVariant (number : Nat)
  /-- The byte in front of an optional value is neither 0 nor 1. -/
  | presence (byte : UInt8)
  /-- A truth value is neither 0 nor 1. -/
  | truth (byte : UInt8)
  | wideNumber
  /-- The byte that is reserved for extensions. -/
  | reserved
  | key (cause : KeyError)
  | time
deriving DecidableEq

/-- What is left of a reading: the value, and the bytes behind it. -/
abbrev Reading (α : Type) := Except ReadError (α × List UInt8)

/-- A way to write values, and a way to read them from the front of some bytes. -/
structure Format (α : Type) where
  write : α → List UInt8
  read : List UInt8 → Reading α

namespace Format

variable {α β : Type}

/-- Reading undoes writing for the values in `P`, whatever follows. -/
def ReadsBack (f : Format α) (P : α → Prop) : Prop :=
  ∀ a rest, P a → f.read (f.write a ++ rest) = .ok (a, rest)

/-! ## Bytes -/

/-- The first `n` bytes, and the rest. -/
def takeBytes (n : Nat) (bytes : List UInt8) : Reading (List UInt8) :=
  if bytes.length < n then .error .endOfInput else .ok (bytes.splitAt n)

def byte : Format UInt8 where
  write b := [b]
  read
    | [] => .error .endOfInput
    | b :: rest => .ok (b, rest)

def bytes (n : Nat) : Format (ByteString n) where
  write b := b.toList
  read input :=
    if h : input.length < n then .error .endOfInput
    else .ok (⟨input.take n, by simp; omega⟩, input.drop n)

/-- A number in so many bytes, the lowest first. -/
def lowFirst (width : Nat) : Format Nat where
  write := littleEndian width
  read input := (takeBytes width input).map fun (low, rest) => (ofLittleEndian low, rest)

/-- A number in so many bytes, the highest first. -/
def highFirst (width : Nat) : Format Nat where
  write := bigEndian width
  read input := (takeBytes width input).map fun (high, rest) => (ofBigEndian high, rest)

/-! ## Ways of building -/

def pair (f : Format α) (g : Format β) : Format (α × β) where
  write p := f.write p.1 ++ g.write p.2
  read input := (f.read input).bind fun (a, rest) => (g.read rest).map fun (b, rest) => ((a, b), rest)

/-- The same bytes, for a value that is another view of it. -/
def view (f : Format α) (into : α → β) (back : β → α) : Format β where
  write b := f.write (back b)
  read input := (f.read input).map fun (a, rest) => (into a, rest)

/-- The same bytes, where some values are refused when they are read. -/
def accept (f : Format α) (into : α → Except ReadError β) (back : β → α) : Format β where
  write b := f.write (back b)
  read input := (f.read input).bind fun (a, rest) => (into a).map fun b => (b, rest)

def readMany (f : Format α) : Nat → List UInt8 → Reading (List α)
  | 0, input => .ok ([], input)
  | n + 1, input =>
    (f.read input).bind fun (a, rest) => (f.readMany n rest).map fun (as, rest) => (a :: as, rest)

def list (count : Format Nat) (f : Format α) : Format (List α) where
  write as := count.write as.length ++ as.flatMap f.write
  read input := (count.read input).bind fun (n, rest) => f.readMany n rest

/-- A value that may be absent, behind a byte that says so. -/
def optional (f : Format α) : Format (Option α) where
  write
    | none => [0]
    | some a => 1 :: f.write a
  read
    | [] => .error .endOfInput
    | b :: rest =>
      if b = 0 then .ok (none, rest)
      else if b = 1 then (f.read rest).map fun (a, rest) => (some a, rest)
      else .error (.presence b)

def truth : Format Bool :=
  byte.accept
    (fun b => if b = 0 then .ok false else if b = 1 then .ok true else .error (.truth b))
    (fun b => if b then 1 else 0)

/-- No bytes at all, for a value that is known. -/
def constant (a : α) : Format α where
  write _ := []
  read input := .ok (a, input)

/-- The number of a variant, of which there are `count`. -/
def variant (numbers : Format Nat) (count : Nat) : Format Nat :=
  numbers.accept
    (fun n =>
      if 0x100000000 ≤ n then .error (.largeVariant n)
      else if count ≤ n then .error (.unknownVariant n count)
      else .ok n)
    id

/-- A value of one of several variants, behind the number of its variant. -/
def oneOf (numbers : Format Nat) (count : Nat) (number : α → Nat) (body : Nat → Format α) :
    Format α where
  write a := (variant numbers count).write (number a) ++ (body (number a)).write a
  read input := ((variant numbers count).read input).bind fun (n, rest) => (body n).read rest

def readAll (f : Format α) (input : List UInt8) : Except ReadError α :=
  match f.read input with
  | .error e => .error e
  | .ok (a, rest) => if rest.isEmpty then .ok a else .error .leftOver

/-! ## Laws -/

theorem bytes_readsBack (n : Nat) : (bytes n).ReadsBack fun _ => True := by
  intro a rest _
  have h : ¬ (a.toList ++ rest).length < n := by simp
  simp only [bytes, h, dite_false]
  congr 2
  · apply ByteString.ext
    simp [List.take_left' a.length_toList]
  · exact List.drop_left' a.length_toList

theorem takeBytes_append {n : Nat} {front : List UInt8} (rest : List UInt8)
    (h : front.length = n) : takeBytes n (front ++ rest) = .ok (front, rest) := by
  have hl : ¬ (front ++ rest).length < n := by simp; omega
  simp only [takeBytes, hl, if_false, List.splitAt_eq, List.take_left' h, List.drop_left' h]

theorem lowFirst_readsBack (width : Nat) :
    (lowFirst width).ReadsBack fun k => k < bytesLimit width := by
  intro k rest h
  simp only [lowFirst, takeBytes_append rest (length_littleEndian width k), Except.map,
    ofLittleEndian_littleEndian width k h]

theorem highFirst_readsBack (width : Nat) :
    (highFirst width).ReadsBack fun k => k < bytesLimit width := by
  intro k rest h
  simp only [highFirst, takeBytes_append rest (length_bigEndian width k), Except.map,
    ofBigEndian_bigEndian width k h]

theorem pair_readsBack {f : Format α} {g : Format β} {P : α → Prop} {Q : β → Prop}
    (hf : f.ReadsBack P) (hg : g.ReadsBack Q) : (f.pair g).ReadsBack fun p => P p.1 ∧ Q p.2 := by
  intro p rest h
  simp only [pair, List.append_assoc, hf p.1 _ h.1, hg p.2 _ h.2, Except.bind, Except.map]

theorem view_readsBack {f : Format α} {P : α → Prop} {into : α → β} {back : β → α}
    (hf : f.ReadsBack P) (h : ∀ b, into (back b) = b) : (f.view into back).ReadsBack fun b => P (back b) := by
  intro b rest hb
  simp only [view, hf (back b) rest hb, Except.map, h]

theorem accept_readsBack {f : Format α} {P : α → Prop} {into : α → Except ReadError β} {back : β → α}
    (hf : f.ReadsBack P) :
    (f.accept into back).ReadsBack fun b => P (back b) ∧ into (back b) = .ok b := by
  intro b rest hb
  simp only [accept, hf (back b) rest hb.1, hb.2, Except.bind, Except.map]

theorem readMany_writes {f : Format α} {P : α → Prop} (hf : f.ReadsBack P) (as : List α)
    (rest : List UInt8) (h : ∀ a ∈ as, P a) :
    f.readMany as.length (as.flatMap f.write ++ rest) = .ok (as, rest) := by
  induction as with
  | nil => rfl
  | cons a as ih =>
    simp only [List.length_cons, List.flatMap_cons, List.append_assoc, readMany,
      hf a _ (h a List.mem_cons_self), ih fun b hb => h b (List.mem_cons_of_mem _ hb), Except.bind,
      Except.map]

theorem list_readsBack {count : Format Nat} {f : Format α} {P : α → Prop} {Q : Nat → Prop}
    (hc : count.ReadsBack Q) (hf : f.ReadsBack P) :
    (list count f).ReadsBack fun as => Q as.length ∧ ∀ a ∈ as, P a := by
  intro as rest h
  simp only [list, List.append_assoc, hc as.length _ h.1, Except.bind]
  exact readMany_writes hf as rest h.2

theorem optional_readsBack {f : Format α} {P : α → Prop} (hf : f.ReadsBack P) :
    f.optional.ReadsBack fun o => ∀ a, o = some a → P a := by
  intro o rest h
  cases o with
  | none => rfl
  | some a =>
    have ha := hf a rest (h a rfl)
    simp only [optional, List.cons_append, ha, Except.map]
    rfl

theorem truth_readsBack : truth.ReadsBack fun _ => True := by
  intro b rest _
  cases b <;> rfl

theorem oneOf_readsBack {numbers : Format Nat} {count : Nat} {number : α → Nat}
    {body : Nat → Format α} {P : α → Prop} (hn : numbers.ReadsBack fun n => n < count)
    (hc : count ≤ 0x100000000) (hb : ∀ a rest, P a → number a < count ∧
      (body (number a)).read ((body (number a)).write a ++ rest) = .ok (a, rest)) :
    (oneOf numbers count number body).ReadsBack P := by
  intro a rest h
  have ha := hb a rest h
  have h1 : ¬ 0x100000000 ≤ number a := by omega
  have h2 : ¬ count ≤ number a := by omega
  have hv : (variant numbers count).read ((variant numbers count).write (number a) ++
      ((body (number a)).write a ++ rest)) =
        .ok (number a, (body (number a)).write a ++ rest) :=
    accept_readsBack hn (number a) _ ⟨ha.1, by simp only [id, if_neg h1, if_neg h2]⟩
  simp only [oneOf, List.append_assoc, hv, Except.bind, ha.2]

theorem readAll_write {f : Format α} {P : α → Prop} (hf : f.ReadsBack P) (a : α) (h : P a) :
    f.readAll (f.write a) = .ok a := by
  have := hf a [] h
  rw [List.append_nil] at this
  simp [readAll, this]

end Format

end Admission
