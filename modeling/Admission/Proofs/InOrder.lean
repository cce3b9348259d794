-- Conditions that are looked at one after the other. The first that does not hold
-- is what a check reports, and there is at most one of it.
import Mathlib.Logic.Function.Basic
import Mathlib.Order.Basic

namespace Admission

variable {ι : Type} {place : ι → Nat} {kept : ι → Prop} {i j : ι}

/-- All the conditions in front of this one hold. -/
def KeptBefore (place : ι → Nat) (kept : ι → Prop) (i : ι) : Prop :=
  ∀ earlier, place earlier < place i → kept earlier

/-- The condition does not hold, and all in front of it do. -/
def FirstBroken (place : ι → Nat) (kept : ι → Prop) (i : ι) : Prop :=
  ¬ kept i ∧ KeptBefore place kept i

theorem KeptBefore.of_first (h : place i = 0) : KeptBefore place kept i :=
  fun _ hearlier => absurd hearlier (h ▸ Nat.not_lt_zero _)

/-- From one condition to the next. -/
theorem KeptBefore.next (h : KeptBefore place kept i) (hplace : place.Injective) (hkept : kept i)
    (hnext : place j = place i + 1) : KeptBefore place kept j := by
  intro earlier hearlier
  rcases Nat.lt_or_eq_of_le (Nat.le_of_lt_succ (hnext ▸ hearlier)) with hlt | heq
  · exact h earlier hlt
  · rw [hplace heq]
    exact hkept

/-- Behind the last condition there is none. -/
theorem KeptBefore.all (h : KeptBefore place kept i) (hplace : place.Injective) (hkept : kept i)
    (hlast : ∀ j, place j ≤ place i) (j : ι) : kept j := by
  rcases Nat.lt_or_eq_of_le (hlast j) with hlt | heq
  · exact h j hlt
  · rw [hplace heq]
    exact hkept

theorem FirstBroken.unique (hplace : place.Injective) (hi : FirstBroken place kept i)
    (hj : FirstBroken place kept j) : i = j := by
  apply hplace
  rcases Nat.lt_trichotomy (place i) (place j) with hlt | heq | hlt
  · exact absurd (hj.2 i hlt) hi.1
  · exact heq
  · exact absurd (hi.2 j hlt) hj.1

end Admission
