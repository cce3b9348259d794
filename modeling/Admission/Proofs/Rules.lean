-- The static rules one by one: what each asks of a transaction, what a violation
-- says of one, and that it is always the first broken rule that is reported,
-- with the first place where it is broken.
import Admission.Proofs.InOrder
import Admission.Violation
import Mathlib.Algebra.Ring.Nat
import Mathlib.Data.List.Basic
import Mathlib.Order.Bounds.Basic

namespace Admission

/-! ## What the rules ask -/

/-- What is asked of a transaction. -/
inductive Rule where
  | someInputs
  | someOutputs
  | witnessForEach
  | noRepeatedInput
  | noZeroOutput
  | boundedSums
  | equalSums
  | unlocked
deriving DecidableEq

/-- The place of a rule in the order in which they are checked. -/
def Rule.position : Rule → Nat
  | someInputs => 0
  | someOutputs => 1
  | witnessForEach => 2
  | noRepeatedInput => 3
  | noZeroOutput => 4
  | boundedSums => 5
  | equalSums => 6
  | unlocked => 7

theorem Rule.position_injective {a b : Rule} (h : a.position = b.position) : a = b := by
  cases a <;> cases b <;> first | rfl | cases h

namespace Transaction

/-- The sum of what the inputs spend, however large it is. -/
def inputSum (t : Transaction) : Nat := (t.inputs.map (·.spent.value.toNat)).sum

def outputSum (t : Transaction) : Nat := (t.outputs.map (·.value.toNat)).sum

/-- The input at this position spends what an earlier one spends. -/
def RepeatsAt (t : Transaction) (index : Nat) : Prop :=
  ∃ input, t.inputs[index]? = some input ∧
    ∃ earlier ∈ t.inputs.take index, earlier.outpoint = input.outpoint

def ZeroAt (t : Transaction) (index : Nat) : Prop :=
  ∃ output, t.outputs[index]? = some output ∧ output.value = 0

variable [Crypto]

/-- The witness at this position does not open the lock of its input. -/
def LockedAt (t : Transaction) (index : Nat) : Prop :=
  ∃ input witness, t.inputs[index]? = some input ∧ t.witnesses[index]? = some witness ∧
    witness.unlocks input.spent t.id = false

/-- The key of the witness at this position is not the one that its input is locked to. -/
def MismatchAt (t : Transaction) (index : Nat) : Prop :=
  ∃ input witness, t.inputs[index]? = some input ∧ t.witnesses[index]? = some witness ∧
    witness.owner.lock ≠ input.spent.lock

end Transaction

section
variable [Crypto]

def Rule.KeptBy (t : Transaction) : Rule → Prop
  | someInputs => t.inputs ≠ []
  | someOutputs => t.outputs ≠ []
  | witnessForEach => t.witnesses.length = t.inputs.length
  | noRepeatedInput => t.inputs.Pairwise fun a b => a.outpoint ≠ b.outpoint
  | noZeroOutput => ∀ o ∈ t.outputs, 0 < o.value
  | boundedSums => t.inputSum < amountLimit ∧ t.outputSum < amountLimit
  | equalSums => t.inputSum = t.outputSum
  | unlocked => ∀ (index : Nat) (input : Input) (witness : Witness), t.inputs[index]? = some input →
      t.witnesses[index]? = some witness → witness.unlocks input.spent t.id = true

/-- All the rules in front of this one are kept. -/
def Transaction.KeepsBefore (t : Transaction) (rule : Rule) : Prop :=
  ∀ earlier : Rule, earlier.position < rule.position → earlier.KeptBy t

/-! ## What violations say -/

/-- The rule that is broken. -/
def Violation.rule : Violation → Rule
  | noInputs => .someInputs
  | noOutputs => .someOutputs
  | missingWitness _ _ => .witnessForEach
  | duplicateInput _ => .noRepeatedInput
  | zeroValueOutput _ => .noZeroOutput
  | valueOverflow => .boundedSums
  | asymmetricValues _ _ => .equalSums
  | witnessLockMismatch _ => .unlocked
  | invalidWitnessSignature _ => .unlocked

/-- What the violation says of the transaction is so. Where it names a position, there is no
smaller one; of a witness with a wrong key nothing is said of its signature. -/
def Violation.HoldsOf (t : Transaction) : Violation → Prop
  | noInputs => t.inputs = []
  | noOutputs => t.outputs = []
  | missingWitness inputs witnesses =>
    inputs = t.inputs.length ∧ witnesses = t.witnesses.length ∧ witnesses ≠ inputs
  | duplicateInput index => IsLeast {k | t.RepeatsAt k} index
  | zeroValueOutput index => IsLeast {k | t.ZeroAt k} index
  | valueOverflow => amountLimit ≤ t.inputSum ∨ amountLimit ≤ t.outputSum
  | asymmetricValues inputs outputs =>
    inputs = t.inputSum ∧ outputs = t.outputSum ∧ inputs ≠ outputs
  | witnessLockMismatch index => IsLeast {k | t.LockedAt k} index ∧ t.MismatchAt index
  | invalidWitnessSignature index => IsLeast {k | t.LockedAt k} index ∧ ¬ t.MismatchAt index

end

/-! ## Sums -/

theorem toNat_addAmounts {a b sum : UInt64} :
    addAmounts a b = some sum ↔ sum.toNat = a.toNat + b.toNat := by
  unfold addAmounts
  have hsum := sum.toNat_lt
  split
  · rename_i hfits
    have hadd : (a + b).toNat = a.toNat + b.toNat := by
      rw [UInt64.toNat_add]
      exact Nat.mod_eq_of_lt hfits
    rw [Option.some.injEq, ← UInt64.toNat_inj, hadd]
    exact eq_comm
  · rename_i hlarge
    simp only [reduceCtorEq, false_iff]
    intro heq
    simp only [amountLimit] at hlarge
    omega

/-- A sum that is an amount in the end was one all the way, as the others only add to it. -/
theorem foldl_addAmounts_eq_some {amounts : List UInt64} {start : Option UInt64} {sum : UInt64} :
    amounts.foldl (fun sum a => sum.bind fun sum => addAmounts sum a) start = some sum ↔
      ∃ first, start = some first ∧ sum.toNat = first.toNat + (amounts.map (·.toNat)).sum := by
  induction amounts generalizing start with
  | nil => simp [UInt64.toNat_inj]
  | cons a rest ih =>
    rw [List.foldl_cons, ih]
    constructor
    · rintro ⟨next, hnext, hsum⟩
      obtain ⟨first, rfl, hadd⟩ := Option.bind_eq_some_iff.1 hnext
      refine ⟨first, rfl, ?_⟩
      rw [hsum, toNat_addAmounts.1 hadd, List.map_cons, List.sum_cons, Nat.add_assoc]
    · rintro ⟨first, rfl, hsum⟩
      rw [List.map_cons, List.sum_cons] at hsum
      have hlt := sum.toNat_lt
      have hnext : (UInt64.ofNat (first.toNat + a.toNat)).toNat = first.toNat + a.toNat :=
        UInt64.toNat_ofNat_of_lt' (show _ < 2 ^ 64 by omega)
      refine ⟨UInt64.ofNat (first.toNat + a.toNat), ?_, ?_⟩
      · rw [Option.bind_some, toNat_addAmounts, hnext]
      · rw [hsum, hnext, Nat.add_assoc]

theorem sumAmounts_eq_some_iff {amounts : List UInt64} {sum : UInt64} :
    sumAmounts amounts = some sum ↔ sum.toNat = (amounts.map (·.toNat)).sum := by
  simp [sumAmounts, foldl_addAmounts_eq_some]

theorem sumAmounts_eq_none_iff {amounts : List UInt64} :
    sumAmounts amounts = none ↔ amountLimit ≤ (amounts.map (·.toNat)).sum := by
  constructor
  · intro h
    by_contra hfits
    have hsum : sumAmounts amounts = some (UInt64.ofNat (amounts.map (·.toNat)).sum) := by
      rw [sumAmounts_eq_some_iff]
      exact UInt64.toNat_ofNat_of_lt' (Nat.not_le.1 hfits)
    rw [h] at hsum
    cases hsum
  · intro hlarge
    cases h : sumAmounts amounts with
    | none => rfl
    | some sum =>
      have hlt : sum.toNat < amountLimit := sum.toNat_lt
      rw [sumAmounts_eq_some_iff.1 h] at hlt
      exact absurd hlt (Nat.not_lt.2 hlarge)

/-! ## Searches -/

/-- At this position stands one of `seen`, or what stands at an earlier one. -/
def RepeatsIn {α : Type} (seen list : List α) (index : Nat) : Prop :=
  ∃ x, list[index]? = some x ∧ (x ∈ seen ∨ x ∈ list.take index)

theorem repeatsIn_zero {α : Type} {seen rest : List α} {x : α} :
    RepeatsIn seen (x :: rest) 0 ↔ x ∈ seen := by
  simp [RepeatsIn]

theorem repeatsIn_succ {α : Type} {seen rest : List α} {x : α} {index : Nat} :
    RepeatsIn seen (x :: rest) (index + 1) ↔ RepeatsIn (x :: seen) rest index := by
  simp only [RepeatsIn, List.getElem?_cons_succ, List.take_succ_cons, List.mem_cons]
  constructor
  · rintro ⟨y, hy, hmem⟩
    exact ⟨y, hy, by tauto⟩
  · rintro ⟨y, hy, hmem⟩
    exact ⟨y, hy, by tauto⟩

theorem firstRepeated_eq_none {α : Type} [DecidableEq α] {seen list : List α}
    (h : firstRepeated seen list = none) (index : Nat) : ¬ RepeatsIn seen list index := by
  induction list generalizing seen index with
  | nil => simp [RepeatsIn]
  | cons x rest ih =>
    simp only [firstRepeated] at h
    split at h
    · cases h
    · rename_i hnew
      cases index with
      | zero => rwa [repeatsIn_zero]
      | succ index =>
        rw [repeatsIn_succ]
        exact ih (Option.map_eq_none_iff.1 h) index

theorem isLeast_of_firstRepeated {α : Type} [DecidableEq α] {seen list : List α} {index : Nat}
    (h : firstRepeated seen list = some index) : IsLeast {k | RepeatsIn seen list k} index := by
  induction list generalizing seen index with
  | nil => cases h
  | cons x rest ih =>
    simp only [firstRepeated] at h
    split at h
    · rename_i hseen
      cases h
      exact ⟨repeatsIn_zero.2 hseen, fun k _ => Nat.zero_le k⟩
    · rename_i hnew
      obtain ⟨later, hlater, rfl⟩ := Option.map_eq_some_iff.1 h
      obtain ⟨hrepeats, hleast⟩ := ih hlater
      refine ⟨repeatsIn_succ.2 hrepeats, ?_⟩
      intro k hk
      cases k with
      | zero => exact absurd (repeatsIn_zero.1 hk) hnew
      | succ k => exact Nat.succ_le_succ (hleast (repeatsIn_succ.1 hk))

namespace Transaction

theorem repeatsAt_iff {t : Transaction} {index : Nat} :
    t.RepeatsAt index ↔ RepeatsIn [] (t.inputs.map (·.outpoint)) index := by
  simp only [RepeatsAt, RepeatsIn, List.getElem?_map, Option.map_eq_some_iff, ← List.map_take,
    List.mem_map, List.not_mem_nil, false_or]
  constructor
  · rintro ⟨input, hinput, earlier, hearlier, hsame⟩
    exact ⟨_, ⟨input, hinput, rfl⟩, earlier, hearlier, hsame⟩
  · rintro ⟨_, ⟨input, hinput, rfl⟩, earlier, hearlier, hsame⟩
    exact ⟨input, hinput, earlier, hearlier, hsame⟩

theorem isLeast_of_findIdx {t : Transaction} {index : Nat}
    (h : t.outputs.findIdx? (·.value = 0) = some index) : IsLeast {k | t.ZeroAt k} index := by
  obtain ⟨hindex, hzero, hbefore⟩ := List.findIdx?_eq_some_iff_getElem.1 h
  refine ⟨⟨_, List.getElem?_eq_getElem hindex, by simpa using hzero⟩, ?_⟩
  rintro k ⟨output, hk, hvalue⟩
  by_contra hlt
  obtain ⟨hlength, rfl⟩ := List.getElem?_eq_some_iff.1 hk
  exact hbefore k (Nat.not_le.1 hlt) (by simpa using hvalue)

end Transaction

section
variable [Crypto]

/-- The pair at this position is one whose witness does not open the lock. -/
def LockedIn (id : Hash) (pairs : List (Input × Witness)) (index : Nat) : Prop :=
  ∃ p, pairs[index]? = some p ∧ p.2.unlocks p.1.spent id = false

theorem not_lockedIn_of_witnessViolationFrom {id : Hash} {first : Nat}
    {pairs : List (Input × Witness)} (h : Transaction.witnessViolationFrom id first pairs = none)
    (index : Nat) : ¬ LockedIn id pairs index := by
  induction pairs generalizing first index with
  | nil => simp [LockedIn]
  | cons p rest ih =>
    simp only [Transaction.witnessViolationFrom] at h
    split at h
    · cases h
    · rename_i hlock
      split at h
      · cases h
      · rename_i hverify
        cases index with
        | zero =>
          rintro ⟨q, hq, hlocked⟩
          cases hq
          simp_all [Witness.unlocks]
        | succ index => exact ih h index

/-- A violation that is found is told of the first pair that is locked, and of its key if that is
the wrong one. -/
theorem isLeast_of_witnessViolationFrom {id : Hash} {first : Nat}
    {pairs : List (Input × Witness)} {v : Violation}
    (h : Transaction.witnessViolationFrom id first pairs = some v) :
    ∃ (index : Nat) (p : Input × Witness), IsLeast {k | LockedIn id pairs k} index ∧
      pairs[index]? = some p ∧
      ((p.2.owner.lock ≠ p.1.spent.lock ∧ v = .witnessLockMismatch (first + index)) ∨
        (p.2.owner.lock = p.1.spent.lock ∧ v = .invalidWitnessSignature (first + index))) := by
  induction pairs generalizing first with
  | nil => cases h
  | cons p rest ih =>
    simp only [Transaction.witnessViolationFrom] at h
    have here : p.2.unlocks p.1.spent id = false →
        IsLeast {k | LockedIn id (p :: rest) k} 0 :=
      fun hlocked => ⟨⟨p, rfl, hlocked⟩, fun k _ => Nat.zero_le k⟩
    split at h
    · rename_i hlock
      cases h
      exact ⟨0, p, here (by simp [Witness.unlocks, hlock]), rfl, Or.inl ⟨hlock, rfl⟩⟩
    · rename_i hlock
      split at h
      · rename_i hverify
        cases h
        refine ⟨0, p, here ?_, rfl, Or.inr ⟨not_not.1 hlock, rfl⟩⟩
        simp_all [Witness.unlocks]
      · rename_i hverify
        obtain ⟨index, q, ⟨hlocked, hleast⟩, hq, hv⟩ := ih h
        refine ⟨index + 1, q, ⟨hlocked, ?_⟩, hq, ?_⟩
        · intro k hk
          cases k with
          | zero =>
            obtain ⟨_, hp, hopen⟩ := hk
            cases hp
            simp_all [Witness.unlocks]
          | succ k => exact Nat.succ_le_succ (hleast hk)
        · rwa [Nat.add_right_comm] at hv

/-! ## The first broken rule -/

namespace Transaction

variable {t : Transaction}

theorem keepsBefore_first (t : Transaction) : t.KeepsBefore .someInputs := KeptBefore.of_first rfl

/-- From one rule to the next. -/
theorem KeepsBefore.next {rule following : Rule} (h : t.KeepsBefore rule) (hkept : rule.KeptBy t)
    (hnext : following.position = rule.position + 1) : t.KeepsBefore following :=
  KeptBefore.next h (fun _ _ => Rule.position_injective) hkept hnext

theorem KeepsBefore.all (h : t.KeepsBefore .unlocked) (hkept : Rule.unlocked.KeptBy t)
    (rule : Rule) : rule.KeptBy t := by
  refine KeptBefore.all h (fun _ _ => Rule.position_injective) hkept ?_ rule
  intro rule
  cases rule <;> decide

/-- A check found the first broken rule, or it found none in front of this one. -/
def Checked (t : Transaction) (found : Option Violation) (upTo : Rule) : Prop :=
  (∃ v, found = some v ∧ v.HoldsOf t ∧ t.KeepsBefore v.rule) ∨
    (found = none ∧ t.KeepsBefore upTo)

theorem checked_shape (t : Transaction) : t.Checked t.shapeViolation .noZeroOutput := by
  have hstart := keepsBefore_first t
  unfold shapeViolation
  split
  · rename_i hempty
    exact Or.inl ⟨_, rfl, List.isEmpty_iff.1 hempty, hstart⟩
  rename_i hinputs
  have hinputs : t.KeepsBefore .someOutputs :=
    hstart.next (fun he => hinputs (List.isEmpty_iff.2 he)) rfl
  split
  · rename_i hempty
    exact Or.inl ⟨_, rfl, List.isEmpty_iff.1 hempty, hinputs⟩
  rename_i houtputs
  have houtputs : t.KeepsBefore .witnessForEach :=
    hinputs.next (fun he => houtputs (List.isEmpty_iff.2 he)) rfl
  split
  · rename_i hcount
    exact Or.inl ⟨_, rfl, ⟨rfl, rfl, hcount⟩, houtputs⟩
  rename_i hcount
  have hwitnesses : t.KeepsBefore .noRepeatedInput := houtputs.next (not_not.1 hcount) rfl
  cases hfound : firstRepeated [] (t.inputs.map (·.outpoint)) with
  | some index =>
    refine Or.inl ⟨_, rfl, ?_, hwitnesses⟩
    have hleast := isLeast_of_firstRepeated hfound
    simp only [← repeatsAt_iff] at hleast
    exact hleast
  | none =>
    refine Or.inr ⟨rfl, hwitnesses.next ?_ rfl⟩
    refine List.pairwise_iff_getElem.2 fun i j hi hj hij hsame => ?_
    refine firstRepeated_eq_none hfound j (repeatsAt_iff.1 ?_)
    exact ⟨_, List.getElem?_eq_getElem hj, _, List.mem_take_iff_getElem.2 ⟨i, by omega, rfl⟩, hsame⟩

theorem checked_values (h : t.KeepsBefore .noZeroOutput) :
    t.Checked t.valueViolation .unlocked := by
  unfold valueViolation
  split
  · rename_i index hindex
    exact Or.inl ⟨_, rfl, isLeast_of_findIdx hindex, h⟩
  rename_i hpositive
  have hpositive : t.KeepsBefore .boundedSums := by
    refine h.next (fun o ho => ?_) rfl
    have hne := List.findIdx?_eq_none_iff.1 hpositive o ho
    exact UInt64.pos_iff_ne_zero.2 (by simpa using hne)
  have hinputs : ((t.inputs.map (·.spent.value)).map (·.toNat)).sum = t.inputSum := by
    rw [List.map_map]
    rfl
  have houtputs : ((t.outputs.map (·.value)).map (·.toNat)).sum = t.outputSum := by
    rw [List.map_map]
    rfl
  split
  · rename_i inputs outputs hin hout
    rw [sumAmounts_eq_some_iff, hinputs] at hin
    rw [sumAmounts_eq_some_iff, houtputs] at hout
    have hbounded : t.KeepsBefore .equalSums :=
      hpositive.next ⟨hin ▸ inputs.toNat_lt, hout ▸ outputs.toNat_lt⟩ rfl
    split
    · rename_i hequal
      refine Or.inr ⟨rfl, hbounded.next ?_ rfl⟩
      show t.inputSum = t.outputSum
      rw [← hin, ← hout, hequal]
    · rename_i hdiffer
      exact Or.inl ⟨_, rfl, ⟨hin, hout, fun he => hdiffer (UInt64.toNat_inj.1 he)⟩, hbounded⟩
  · rename_i hnone
    refine Or.inl ⟨_, rfl, ?_, hpositive⟩
    show amountLimit ≤ t.inputSum ∨ amountLimit ≤ t.outputSum
    rw [← hinputs, ← houtputs, ← sumAmounts_eq_none_iff, ← sumAmounts_eq_none_iff]
    by_contra hsome
    obtain ⟨hin, hout⟩ := not_or.1 hsome
    obtain ⟨inputs, hin⟩ := Option.ne_none_iff_exists'.1 hin
    obtain ⟨outputs, hout⟩ := Option.ne_none_iff_exists'.1 hout
    exact hnone inputs outputs hin hout

theorem lockedAt_iff {index : Nat} :
    t.LockedAt index ↔ LockedIn t.id (t.inputs.zip t.witnesses) index := by
  simp only [LockedAt, LockedIn, List.getElem?_zip_eq_some]
  constructor
  · rintro ⟨input, witness, hinput, hwitness, hlocked⟩
    exact ⟨(input, witness), ⟨hinput, hwitness⟩, hlocked⟩
  · rintro ⟨p, ⟨hinput, hwitness⟩, hlocked⟩
    exact ⟨p.1, p.2, hinput, hwitness, hlocked⟩

theorem checked_witnesses (h : t.KeepsBefore .unlocked) :
    (∃ v, t.witnessViolation = some v ∧ v.HoldsOf t ∧ t.KeepsBefore v.rule) ∨
      (t.witnessViolation = none ∧ ∀ rule : Rule, rule.KeptBy t) := by
  unfold witnessViolation
  cases hfound : witnessViolationFrom t.id 0 (t.inputs.zip t.witnesses) with
  | none =>
    refine Or.inr ⟨rfl, h.all ?_⟩
    intro index input witness hinput hwitness
    by_contra hlocked
    refine not_lockedIn_of_witnessViolationFrom hfound index (lockedAt_iff.1 ?_)
    exact ⟨input, witness, hinput, hwitness, Bool.eq_false_iff.2 hlocked⟩
  | some v =>
    obtain ⟨index, p, hleast, hp, hv⟩ := isLeast_of_witnessViolationFrom hfound
    simp only [← lockedAt_iff] at hleast
    obtain ⟨hinput, hwitness⟩ := List.getElem?_zip_eq_some.1 hp
    rw [Nat.zero_add] at hv
    rcases hv with ⟨hlock, rfl⟩ | ⟨hlock, rfl⟩
    · exact Or.inl ⟨_, rfl, ⟨hleast, p.1, p.2, hinput, hwitness, hlock⟩, h⟩
    · refine Or.inl ⟨_, rfl, ⟨hleast, ?_⟩, h⟩
      rintro ⟨input, witness, hinput', hwitness', hmismatch⟩
      rw [hinput] at hinput'
      rw [hwitness] at hwitness'
      cases hinput'
      cases hwitness'
      exact hmismatch hlock

theorem checked (t : Transaction) :
    (∃ v, t.violation = some v ∧ v.HoldsOf t ∧ t.KeepsBefore v.rule) ∨
      (t.violation = none ∧ ∀ rule : Rule, rule.KeptBy t) := by
  unfold violation
  rcases checked_shape t with ⟨v, hv, hfirst⟩ | ⟨hshape, hkept⟩
  · exact Or.inl ⟨v, by simp [hv], hfirst⟩
  rcases checked_values hkept with ⟨v, hv, hfirst⟩ | ⟨hvalues, hkept⟩
  · exact Or.inl ⟨v, by simp [hshape, hv], hfirst⟩
  rcases checked_witnesses hkept with ⟨v, hv, hfirst⟩ | ⟨hwitnesses, hkept⟩
  · exact Or.inl ⟨v, by simp [hshape, hvalues, hv], hfirst⟩
  · exact Or.inr ⟨by simp [hshape, hvalues, hwitnesses], hkept⟩

end Transaction

/-! ## Only one violation is the first -/

theorem Transaction.RepeatsAt.not_kept {t : Transaction} {index : Nat} (h : t.RepeatsAt index) :
    ¬ Rule.noRepeatedInput.KeptBy t := by
  intro hkept
  obtain ⟨input, hinput, earlier, hearlier, hsame⟩ := h
  obtain ⟨i, hi, rfl⟩ := List.mem_take_iff_getElem.1 hearlier
  obtain ⟨hindex, rfl⟩ := List.getElem?_eq_some_iff.1 hinput
  exact List.pairwise_iff_getElem.1 hkept i index (by omega) hindex (by omega) hsame

namespace Violation

variable {t : Transaction} {v other : Violation}

theorem HoldsOf.broken (h : v.HoldsOf t) : ¬ v.rule.KeptBy t := by
  intro hkept
  cases v with
  | noInputs => exact hkept h
  | noOutputs => exact hkept h
  | missingWitness inputs witnesses =>
    obtain ⟨hinputs, hwitnesses, hdiffer⟩ := h
    exact hdiffer (by rw [hinputs, hwitnesses, hkept])
  | duplicateInput index => exact h.1.not_kept hkept
  | zeroValueOutput index =>
    obtain ⟨output, houtput, hzero⟩ := h.1
    have hpos := hkept output (List.mem_of_getElem? houtput)
    rw [hzero] at hpos
    exact absurd hpos (by decide)
  | valueOverflow =>
    rcases h with h | h
    · exact absurd hkept.1 (Nat.not_lt.2 h)
    · exact absurd hkept.2 (Nat.not_lt.2 h)
  | asymmetricValues inputs outputs =>
    obtain ⟨hinputs, houtputs, hdiffer⟩ := h
    exact hdiffer (by rw [hinputs, houtputs, hkept])
  | witnessLockMismatch index | invalidWitnessSignature index =>
    obtain ⟨input, witness, hinput, hwitness, hlocked⟩ := h.1.1
    rw [hkept index input witness hinput hwitness] at hlocked
    cases hlocked

/-- What a rule is said to be broken by is determined by the transaction. -/
theorem HoldsOf.unique (h : v.HoldsOf t) (hother : other.HoldsOf t) (hrule : v.rule = other.rule) :
    v = other := by
  cases v <;> cases other <;> simp only [rule, reduceCtorEq] at hrule
  case noInputs.noInputs => rfl
  case noOutputs.noOutputs => rfl
  case missingWitness.missingWitness => rw [h.1, h.2.1, hother.1, hother.2.1]
  case duplicateInput.duplicateInput => rw [IsLeast.unique h hother]
  case zeroValueOutput.zeroValueOutput => rw [IsLeast.unique h hother]
  case valueOverflow.valueOverflow => rfl
  case asymmetricValues.asymmetricValues => rw [h.1, h.2.1, hother.1, hother.2.1]
  case witnessLockMismatch.witnessLockMismatch => rw [h.1.unique hother.1]
  case witnessLockMismatch.invalidWitnessSignature =>
    rw [h.1.unique hother.1] at h
    exact absurd h.2 hother.2
  case invalidWitnessSignature.witnessLockMismatch =>
    rw [h.1.unique hother.1] at h
    exact absurd hother.2 h.2
  case invalidWitnessSignature.invalidWitnessSignature => rw [h.1.unique hother.1]

/-- Two violations that are both the first are the same. -/
theorem HoldsOf.first_unique (h : v.HoldsOf t) (hother : other.HoldsOf t)
    (hfirst : t.KeepsBefore v.rule) (hfirst' : t.KeepsBefore other.rule) : v = other := by
  apply h.unique hother
  exact FirstBroken.unique (fun _ _ => Rule.position_injective) ⟨h.broken, hfirst⟩
    ⟨hother.broken, hfirst'⟩

end Violation

namespace Transaction

variable {t : Transaction}

theorem violation_eq_none_iff : t.violation = none ↔ ∀ rule : Rule, rule.KeptBy t := by
  rcases checked t with ⟨v, hv, hholds, _⟩ | ⟨hnone, hkept⟩
  · rw [hv]
    simp only [reduceCtorEq, false_iff]
    exact fun hkept => hholds.broken (hkept _)
  · exact iff_of_true hnone hkept

theorem violation_eq_some_iff {v : Violation} :
    t.violation = some v ↔ v.HoldsOf t ∧ t.KeepsBefore v.rule := by
  rcases checked t with ⟨found, hfound, hholds, hfirst⟩ | ⟨hnone, hkept⟩
  · rw [hfound, Option.some.injEq]
    constructor
    · rintro rfl
      exact ⟨hholds, hfirst⟩
    · rintro ⟨hholds', hfirst'⟩
      exact hholds.first_unique hholds' hfirst hfirst'
  · rw [hnone]
    simp only [reduceCtorEq, false_iff, not_and]
    exact fun hholds => absurd (hkept _) hholds.broken

end Transaction

/-- A transaction is accepted if it keeps all the rules, and only then. Otherwise the violation is
told that holds of the first rule it breaks. -/
theorem the_first_broken_rule_is_reported (t : Transaction) :
    (t.violation = none ↔ ∀ rule : Rule, rule.KeptBy t) ∧
      ∀ v : Violation, t.violation = some v ↔
        v.HoldsOf t ∧ ∀ earlier : Rule, earlier.position < v.rule.position → earlier.KeptBy t :=
  ⟨Transaction.violation_eq_none_iff, fun _ => Transaction.violation_eq_some_iff⟩

end

end Admission
