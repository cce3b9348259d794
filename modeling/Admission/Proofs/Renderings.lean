-- What becomes of a text that is taken for a truth value or a number and then written
-- out again. Most texts stay what they are, and so do numbers as they would be written.
import Admission.Proofs.HexDigits
import Admission.Settings.Environment

namespace Admission

/-! ## Digits -/

namespace Binary64

theorem ofDigits_toDigits (n : Nat) : ofDigits (Nat.toDigits 10 n) = n :=
  Nat.ofDigitChars_ten_toDigits

/-- The characters of which numbers are written, but for those that have names. -/
def isNumberChar (c : Char) : Bool :=
  c.isDigit || c = '+' || c = '-' || c = '.' || c = 'e' || c = 'E'

theorem toNat_lt_of_isNumberChar {c : Char} (h : isNumberChar c = true) : c.toNat < 128 := by
  simp only [isNumberChar, Char.isDigit, Bool.or_eq_true, Bool.and_eq_true, decide_eq_true_eq] at h
  rcases h with ((((⟨-, hle⟩ | rfl) | rfl) | rfl) | rfl) | rfl
  · have hle : c.toNat ≤ 57 := UInt32.le_iff_toNat_le.1 hle
    omega
  all_goals decide

theorem isNumberChar_of_isDigit {c : Char} (h : c.isDigit = true) : isNumberChar c = true := by
  simp [isNumberChar, h]

section
variable {c : Char} {cs : List Char}

theorem mem_of_splitSign (hc : c ∈ cs) : isNumberChar c = true ∨ c ∈ (splitSign cs).2 := by
  unfold splitSign
  split
  · rcases List.mem_cons.1 hc with rfl | hc
    · exact Or.inl rfl
    · exact Or.inr hc
  · rcases List.mem_cons.1 hc with rfl | hc
    · exact Or.inl rfl
    · exact Or.inr hc
  · exact Or.inr hc

theorem length_splitSign (cs : List Char) : cs.length ≤ (splitSign cs).2.length + 1 := by
  unfold splitSign
  split <;> simp

theorem splitSign_of_digits (h : ∀ c ∈ cs, c.isDigit = true) : splitSign cs = (false, cs) := by
  unfold splitSign
  split
  · exact absurd (h '-' List.mem_cons_self) (by decide)
  · exact absurd (h '+' List.mem_cons_self) (by decide)
  · rfl

/-- The digits in front of a text are no part of what is behind them, and nothing else is left
out. -/
theorem mem_behind_digits (hc : c ∈ cs) :
    isNumberChar c = true ∨ c ∈ cs.drop (cs.takeWhile Char.isDigit).length := by
  induction cs with
  | nil => cases hc
  | cons d rest ih =>
    by_cases hd : d.isDigit
    · rw [List.takeWhile_cons_of_pos hd, List.length_cons, List.drop_succ_cons]
      rcases List.mem_cons.1 hc with rfl | hc
      · exact Or.inl (isNumberChar_of_isDigit hd)
      · exact ih hc
    · rw [List.takeWhile_cons_of_neg hd]
      exact Or.inr hc

theorem isNumberChar_of_mem_digits (h : cs.all Char.isDigit = true) (hc : c ∈ cs) :
    isNumberChar c = true :=
  isNumberChar_of_isDigit (List.all_eq_true.1 h c hc)

theorem isNumberChar_of_mem_exponent {letter : Char}
    (h : (letter = 'e' ∨ letter = 'E') ∧ !(splitSign cs).2.isEmpty ∧
      (splitSign cs).2.all Char.isDigit) (hc : c ∈ letter :: cs) : isNumberChar c = true := by
  obtain ⟨hletter, -, hdigits⟩ := h
  rcases List.mem_cons.1 hc with rfl | hc
  · rcases hletter with rfl | rfl <;> rfl
  rcases mem_of_splitSign hc with hnumber | hc
  · exact hnumber
  · exact isNumberChar_of_mem_digits hdigits hc

theorem isNumberChar_of_readDecimal {negative : Bool} {x : Binary64}
    (h : readDecimal negative cs = some x) (hc : c ∈ cs) : isNumberChar c = true := by
  rcases mem_behind_digits hc with hnumber | hrest
  · exact hnumber
  unfold readDecimal at h
  dsimp only at h
  split at h
  · rename_i behind heq
    rw [heq] at hrest
    rcases List.mem_cons.1 hrest with rfl | hrest
    · rfl
    rcases mem_behind_digits hrest with hnumber | hrest
    · exact hnumber
    split at h
    · cases h
    split at h <;> rename_i heq
    · rw [show behind.drop _ = [] from heq] at hrest
      cases hrest
    · split at h
      · rename_i hexponent
        rw [show behind.drop _ = _ :: _ from heq] at hrest
        exact isNumberChar_of_mem_exponent hexponent hrest
      · cases h
  · split at h
    · cases h
    split at h <;> rename_i heq
    · rw [show cs.drop _ = [] from heq] at hrest
      cases hrest
    · split at h
      · rename_i hexponent
        rw [show cs.drop _ = _ :: _ from heq] at hrest
        exact isNumberChar_of_mem_exponent hexponent hrest
      · cases h

end

/-- Only a short text can be the name of a number. -/
theorem isNumberChar_of_ofText? {s : String} {x : Binary64} {c : Char} (h : ofText? s = some x)
    (hlong : 10 ≤ s.length) (hc : c ∈ s.toList) : isNumberChar c = true := by
  have hshort : ∀ name : String, name.length < 9 →
      String.ofList ((splitSign s.toList).2.map Char.toLower) ≠ name := by
    intro name hname heq
    have hlength := congrArg String.length heq
    rw [String.length_ofList, List.length_map] at hlength
    have hsign := length_splitSign s.toList
    rw [String.length_toList] at hsign
    omega
  unfold ofText? at h
  dsimp only at h
  split at h
  · exact absurd ‹_› (hshort "inf" (by decide))
  · exact absurd ‹_› (hshort "infinity" (by decide))
  · exact absurd ‹_› (hshort "nan" (by decide))
  · rcases mem_of_splitSign hc with hnumber | hc
    · exact hnumber
    · exact isNumberChar_of_readDecimal h hc

end Binary64

namespace Value

open Binary64

/-! ## Letters -/

/-- A character in lower case, as far as that is done here. -/
def loweredChar (c : Char) : Char := if c.toNat = 0x212A then 'k' else c.toLower

theorem toList_lowered (s : String) : (lowered s).toList = s.toList.map loweredChar :=
  String.toList_ofList

/-! ## Whole numbers -/

section
variable {s : String} {n : Int}

theorem isNumberChar_of_integerOf? {c : Char} (h : integerOf? s = some n) (hc : c ∈ s.toList) :
    isNumberChar c = true := by
  unfold integerOf? at h
  dsimp only at h
  split at h
  · cases h
  · rename_i hdigits
    rw [Bool.not_eq_true, Bool.or_eq_false_iff, Bool.not_eq_false'] at hdigits
    rcases mem_of_splitSign hc with hnumber | hc
    · exact hnumber
    · exact isNumberChar_of_mem_digits hdigits.2 hc

theorem inIntegerRange_of_integerOf? (h : integerOf? s = some n) : inIntegerRange n = true := by
  unfold integerOf? at h
  dsimp only at h
  split at h
  · cases h
  generalize (if (splitSign s.toList).1 = true then _ else _ : Int) = m at h
  split at h
  · cases h
    assumption
  · cases h

theorem integerOf?_of_digits {negative : Bool} {m : Nat}
    (h : splitSign s.toList = (negative, Nat.toDigits 10 m)) :
    integerOf? s =
      if inIntegerRange (if negative then -(m : Int) else m) then
        some (if negative then -(m : Int) else m) else none := by
  have hempty : (Nat.toDigits 10 m).isEmpty = false := by
    rw [List.isEmpty_eq_false_iff]
    exact Nat.toDigits_ne_nil
  have hdigits : (Nat.toDigits 10 m).all Char.isDigit = true :=
    List.all_eq_true.2 fun c hc => Nat.isDigit_of_mem_toDigits (by decide) le_rfl hc
  simp only [integerOf?, h, hempty, hdigits, ofDigits_toDigits, Bool.not_true, Bool.or_self,
    Bool.false_eq_true, if_false]

/-- A whole number that is kept as such is read back as it is written. -/
theorem integerOf?_toString (h : inIntegerRange n = true) : integerOf? (toString n) = some n := by
  cases n with
  | ofNat m =>
    have hlist : (toString (Int.ofNat m)).toList = Nat.toDigits 10 m := Nat.toList_repr
    have hsplit : splitSign (toString (Int.ofNat m)).toList = (false, Nat.toDigits 10 m) := by
      rw [hlist]
      exact splitSign_of_digits fun c hc => Nat.isDigit_of_mem_toDigits (by decide) le_rfl hc
    rw [integerOf?_of_digits hsplit]
    exact if_pos h
  | negSucc m =>
    have hlist : (toString (Int.negSucc m)).toList = '-' :: Nat.toDigits 10 (m + 1) := by
      change ("-" ++ Nat.repr (m + 1)).toList = _
      rw [String.toList_append, Nat.toList_repr]
      rfl
    have hsplit : splitSign (toString (Int.negSucc m)).toList =
        (true, Nat.toDigits 10 (m + 1)) := by
      rw [hlist]
      rfl
    rw [integerOf?_of_digits hsplit]
    exact if_pos h

end

end Value

namespace Environment

open Binary64 Value

/-! ## What a text is taken for -/

/-- The truth value or number that a text is taken for, if it is taken for one. -/
def guess? (content : String) : Option Value :=
  match lowered content with
  | "true" => some (.truth true)
  | "false" => some (.truth false)
  | _ =>
    match integerOf? content, Binary64.ofText? content with
    | some n, _ => some (.integer n)
    | none, some x => some (.decimal x)
    | none, none => none

/-- What is read where a text is asked for. -/
def rendered (content : String) : String :=
  ((guess? content).bind toText?).getD content

section
variable {key content : String}

theorem value_eq (hkey : key ∉ listKeys) :
    value key content = (guess? content).getD (.text content) := by
  unfold value guess?
  split
  · simp_all
  · simp_all
  · cases hinteger : integerOf? content with
    | some n => simp
    | none => cases hdecimal : Binary64.ofText? content <;> simp [hkey]

theorem guess?_cases {v : Value} (h : guess? content = some v) :
    (lowered content = "true" ∧ v = .truth true) ∨ (lowered content = "false" ∧ v = .truth false) ∨
    (∃ n, integerOf? content = some n ∧ v = .integer n) ∨
    ∃ x, Binary64.ofText? content = some x ∧ v = .decimal x := by
  unfold guess? at h
  split at h
  · cases h
    exact Or.inl ⟨‹_›, rfl⟩
  · cases h
    exact Or.inr (Or.inl ⟨‹_›, rfl⟩)
  · split at h
    · cases h
      exact Or.inr (Or.inr (Or.inl ⟨_, ‹_›, rfl⟩))
    · cases h
      exact Or.inr (Or.inr (Or.inr ⟨_, ‹_›, rfl⟩))
    · cases h

theorem toText?_of_guess? {v : Value} (h : guess? content = some v) : v.toText?.isSome := by
  rcases guess?_cases h with ⟨-, rfl⟩ | ⟨-, rfl⟩ | ⟨n, -, rfl⟩ | ⟨x, -, rfl⟩ <;> rfl

theorem toText?_value (hkey : key ∉ listKeys) :
    (value key content).toText? = some (rendered content) := by
  rw [value_eq hkey, rendered]
  cases hguess : guess? content with
  | none => rfl
  | some v =>
    obtain ⟨s, hs⟩ := Option.isSome_iff_exists.1 (toText?_of_guess? hguess)
    simp [hs]

theorem value_ne_table (key content : String) (es : List (String × Value)) :
    value key content ≠ .table es := by
  unfold value
  split
  · simp
  · simp
  · split
    · simp
    · simp
    · split <;> simp

/-! ## What stays as it is -/

theorem length_lowered (content : String) : (lowered content).length = content.length := by
  rw [← String.length_toList, toList_lowered, List.length_map, String.length_toList]

/-- No word for a truth value begins like a number. -/
theorem lowered_ne_of_isNumberChar (h : ∀ c ∈ content.toList, isNumberChar c = true) :
    lowered content ≠ "true" ∧ lowered content ≠ "false" := by
  have hletters : ∀ c, isNumberChar c = true → loweredChar c ≠ 't' ∧ loweredChar c ≠ 'f' := by
    intro c hc
    exact Text.of_ascii
      (P := fun c => isNumberChar c = true → loweredChar c ≠ 't' ∧ loweredChar c ≠ 'f')
      (by decide +kernel) (toNat_lt_of_isNumberChar hc) hc
  have hfirst : ∀ (first : Char) (rest : List Char),
      lowered content = String.ofList (first :: rest) →
        ∃ c, isNumberChar c = true ∧ loweredChar c = first := by
    intro first rest heq
    have hmem : first ∈ content.toList.map loweredChar := by
      rw [← toList_lowered, heq, String.toList_ofList]
      exact List.mem_cons_self
    obtain ⟨c, hc, hlow⟩ := List.mem_map.1 hmem
    exact ⟨c, h c hc, hlow⟩
  constructor
  · intro heq
    obtain ⟨c, hc, hlow⟩ := hfirst 't' ['r', 'u', 'e'] heq
    exact (hletters c hc).1 hlow
  · intro heq
    obtain ⟨c, hc, hlow⟩ := hfirst 'f' ['a', 'l', 's', 'e'] heq
    exact (hletters c hc).2 hlow

theorem guess?_of_integerOf? {n : Int} (h : integerOf? content = some n) :
    guess? content = some (.integer n) := by
  have hnumber : ∀ c ∈ content.toList, isNumberChar c = true :=
    fun c hc => isNumberChar_of_integerOf? h hc
  obtain ⟨htrue, hfalse⟩ := lowered_ne_of_isNumberChar hnumber
  unfold guess?
  split
  · exact absurd ‹_› htrue
  · exact absurd ‹_› hfalse
  · rw [h]

/-- A text with a character that no number has is taken for none, if it is longer than the names of
numbers and truth values. -/
theorem guess?_eq_none_of_not_isNumberChar {c : Char} (hc : c ∈ content.toList)
    (hletter : isNumberChar c = false) (hlong : 10 ≤ content.length) : guess? content = none := by
  have hnumber : isNumberChar c ≠ true := by simp [hletter]
  have hlength := length_lowered content
  rw [Option.eq_none_iff_forall_ne_some]
  intro v hv
  rcases guess?_cases hv with ⟨hword, -⟩ | ⟨hword, -⟩ | ⟨n, hn, -⟩ | ⟨x, hx, -⟩
  · rw [hword] at hlength
    have hshort : "true".length = 4 := by decide
    omega
  · rw [hword] at hlength
    have hshort : "false".length = 5 := by decide
    omega
  · exact hnumber (isNumberChar_of_integerOf? hn hc)
  · exact hnumber (Binary64.isNumberChar_of_ofText? hx hlong hc)

theorem rendered_of_guess?_none (h : guess? content = none) : rendered content = content := by
  rw [rendered, h]
  rfl

/-- What comes back as it was written: what is taken for nothing else, and what a truth value or a
number is written like. -/
theorem rendered_eq_self_iff : rendered content = content ↔
    guess? content = none ∨ content = "true" ∨ content = "false" ∨
    (∃ n, inIntegerRange n = true ∧ content = toString n) ∨
    ∃ x, guess? content = some (.decimal x) ∧ content = x.text := by
  constructor
  · intro h
    cases hguess : guess? content with
    | none => exact Or.inl rfl
    | some v =>
      rw [rendered, hguess] at h
      rcases guess?_cases hguess with ⟨-, rfl⟩ | ⟨-, rfl⟩ | ⟨n, hn, rfl⟩ | ⟨x, -, rfl⟩
      · exact Or.inr (Or.inl h.symm)
      · exact Or.inr (Or.inr (Or.inl h.symm))
      · exact Or.inr (Or.inr (Or.inr (Or.inl ⟨n, inIntegerRange_of_integerOf? hn, h.symm⟩)))
      · exact Or.inr (Or.inr (Or.inr (Or.inr ⟨x, rfl, h.symm⟩)))
  · rintro (h | rfl | rfl | ⟨n, hn, rfl⟩ | ⟨x, hx, h⟩)
    · exact rendered_of_guess?_none h
    · rfl
    · rfl
    · rw [rendered, guess?_of_integerOf? (integerOf?_toString hn)]
      rfl
    · rw [rendered, hx]
      exact h.symm

end

end Environment

end Admission
