-- When an entry counts as unspent. The audit goes by the order in which messages
-- come: what was consumed is unspent again once a message comes that produces it,
-- be it late or told a second time.
import Admission.Proofs.Records

namespace Admission

/-! ## The order of messages -/

/-- Of two places in a list, one is before the other unless they are the same. -/
theorem order_of_splits {α : Type} {before later front behind : List α} {a b : α}
    (h : before ++ a :: later = front ++ b :: behind) : a = b ∨ b ∈ later ∨ a ∈ behind := by
  rcases List.append_eq_append_iff.1 h with ⟨between, _, hsplit⟩ | ⟨between, _, hsplit⟩
  · cases between with
    | nil => exact Or.inl (List.cons.inj hsplit).1
    | cons first rest =>
      obtain ⟨_, hlater⟩ := List.cons.inj hsplit
      exact Or.inr (Or.inl (by rw [hlater]; simp))
  · cases between with
    | nil => exact Or.inl (List.cons.inj hsplit).1.symm
    | cons first rest =>
      obtain ⟨_, hbehind⟩ := List.cons.inj hsplit
      exact Or.inr (Or.inr (by rw [hbehind]; simp))

namespace Audit

variable {ms : List Telling} {id : Hash}

/-- No message produces the entry together with consuming it, or after one that consumes it. -/
structure ProducedFirst (id : Hash) (ms : List Telling) : Prop where
  apart : ∀ m ∈ ms, id ∈ m.inputs → id ∉ m.outputs
  ordered : ms.Pairwise fun m later => id ∈ m.inputs → id ∉ later.outputs

/-- This message produces the entry, and no later one consumes it. -/
structure UnspentSince (id : Hash) (before : List Telling) (m : Telling) (later ms : List Telling) :
    Prop where
  split : ms = before ++ m :: later
  produced : id ∈ m.outputs
  kept : ∀ x ∈ later, id ∉ x.inputs

/-- If nothing consumes the entry behind a message that produces it, the last message that has to
do with it produces it too. -/
theorem UnspentSince.last {before later : List Telling} {m : Telling}
    (h : UnspentSince id before m later ms) :
    ∃ x, lastThat (Telling.Mentions id) ms = some x ∧ id ∈ x.outputs := by
  cases hlast : lastThat (Telling.Mentions id) ms with
  | none =>
    have hnone := lastThat_eq_none_iff.1 hlast m (by simp [h.split])
    exact absurd (Or.inr h.produced) hnone
  | some x =>
    obtain ⟨hmentions, front, behind, hsplit, hbehind⟩ := lastThat_eq_some_iff.1 hlast
    refine ⟨x, rfl, ?_⟩
    rcases order_of_splits (h.split.symm.trans hsplit) with rfl | hlater | hearlier
    · exact h.produced
    · exact hmentions.resolve_left (h.kept x hlater)
    · exact absurd (Or.inr h.produced) (hbehind m hearlier)

theorem isUnspent_iff_since :
    (told ms).isUnspent id = true ↔
      ∃ before m later, UnspentSince id before m later (stored ms) := by
  rw [isUnspent_told]
  constructor
  · rintro ⟨m, hlast, hproduced⟩
    obtain ⟨_, before, later, hsplit, hlater⟩ := lastThat_eq_some_iff.1 hlast
    exact ⟨before, m, later, hsplit, hproduced, fun x hx hx' => hlater x hx (Or.inl hx')⟩
  · rintro ⟨before, m, later, h⟩
    exact h.last

/-- Where an entry is produced first, what is unspent was never consumed. -/
theorem ProducedFirst.not_consumed {before later : List Telling} {m x : Telling}
    (hfirst : ProducedFirst id ms) (h : UnspentSince id before m later ms) (hx : x ∈ ms) :
    id ∉ x.inputs := by
  intro hconsumed
  obtain ⟨front, behind, hsplit⟩ := List.append_of_mem hx
  rcases order_of_splits (h.split.symm.trans hsplit) with rfl | hlater | hearlier
  · exact hfirst.apart m hx hconsumed h.produced
  · exact h.kept x hlater hconsumed
  · have hordered := hfirst.ordered
    rw [hsplit] at hordered
    obtain ⟨_, hbehind, _⟩ := List.pairwise_append.1 hordered
    exact (List.pairwise_cons.1 hbehind).1 m hearlier hconsumed h.produced

end Audit

/-- An entry is unspent just if some stored message produced it and no later one consumed it. Where
every message that produces it comes before all that consume it, this means that it was produced and
not consumed by any. -/
theorem what_is_unspent_was_not_consumed_since (ms : List Telling) (id : Hash) :
    ((Audit.told ms).isUnspent id = true ↔
      ∃ before m later, Audit.UnspentSince id before m later (Audit.stored ms)) ∧
    (Audit.ProducedFirst id (Audit.stored ms) →
      ((Audit.told ms).isUnspent id = true ↔
        (∃ m ∈ Audit.stored ms, id ∈ m.outputs) ∧ ∀ m ∈ Audit.stored ms, id ∉ m.inputs)) := by
  refine ⟨Audit.isUnspent_iff_since, fun hfirst => ?_⟩
  rw [Audit.isUnspent_iff_since]
  constructor
  · rintro ⟨before, m, later, h⟩
    refine ⟨⟨m, by simp [h.split], h.produced⟩, fun x hx => hfirst.not_consumed h hx⟩
  · rintro ⟨⟨m, hm, hproduced⟩, hnever⟩
    obtain ⟨before, later, hsplit⟩ := List.append_of_mem hm
    refine ⟨before, m, later, hsplit, hproduced, fun x hx => hnever x ?_⟩
    rw [hsplit]
    simp [hx]

namespace Sample

/-- What was paid and then spent is not unspent, as long as nothing is told twice. -/
theorem a_spent_entry_is_not_unspent :
    Audit.ProducedFirst (mark 11) (Audit.stored [paying, spending]) ∧
      (Audit.told [paying, spending]).isUnspent (mark 11) = false := by
  obtain ⟨_, hordered⟩ := what_is_unspent_was_not_consumed_since [paying, spending] (mark 11)
  have hfirst : Audit.ProducedFirst (mark 11) (Audit.stored [paying, spending]) :=
    ⟨by decide, by decide⟩
  refine ⟨hfirst, ?_⟩
  rw [Bool.eq_false_iff, ne_eq, hordered hfirst]
  rintro ⟨_, hnever⟩
  exact hnever spending (by decide) (by decide)

/-- The first of two transactions is told a second time, and the entry that the second one consumed
is unspent again. -/
theorem a_message_told_again_undoes_the_spending :
    ¬ ((Audit.told [paying, spending, paying]).isUnspent (mark 11) = true ↔
      (∃ m ∈ Audit.stored [paying, spending, paying], mark 11 ∈ m.outputs) ∧
        ∀ m ∈ Audit.stored [paying, spending, paying], mark 11 ∉ m.inputs) := by
  have hunspent : (Audit.told [paying, spending, paying]).isUnspent (mark 11) = true := by
    decide +kernel
  intro h
  obtain ⟨_, hnever⟩ := h.1 hunspent
  exact absurd (hnever spending (by decide)) (by decide)

end Sample

end Admission
