-- What a table holds after writes. A pair stays until something else is put
-- under its key, so of pairs that are put one after the other the last one under
-- each key is there.
import Mathlib.Data.Finset.Card
import Mathlib.Data.List.Induction
import Admission.Table

namespace Admission

variable {α : Type}

/-! ## One write -/

/-- A write takes the place of what was under its key, and of nothing else. -/
theorem mem_putEntry {key : Hash} {value : α} {entries : List (Hash × α)} {e : Hash × α}
    (h : KeysAscend entries) :
    e ∈ putEntry key value entries ↔ e = (key, value) ∨ (e ∈ entries ∧ e.1 ≠ key) := by
  have hlater : ∀ {k : Hash} {rest : List (Hash × α)}, (∀ b ∈ rest, k < b.1) → e ∈ rest →
      e.1 ≠ k := by
    intro k rest hk he heq
    have hlt := hk e he
    rw [heq] at hlt
    exact ByteString.lt_irrefl k hlt
  unfold KeysAscend at h
  induction entries with
  | nil => simp [putEntry]
  | cons x rest ih =>
    obtain ⟨hx, hrest⟩ := List.pairwise_cons.1 h
    unfold putEntry
    split
    · rename_i hlt
      have hbefore : ∀ b ∈ x :: rest, key < b.1 := by
        intro b hb
        rcases List.mem_cons.1 hb with rfl | hb
        · exact hlt
        · exact ByteString.lt_trans hlt (hx b hb)
      rw [List.mem_cons]
      exact or_congr_right ⟨fun he => ⟨he, hlater hbefore he⟩, fun he => he.1⟩
    · rename_i heq
      have hkey : key = x.1 := ByteString.compare_eq_iff.1 heq
      rw [List.mem_cons, List.mem_cons]
      refine or_congr_right ⟨fun he => ⟨Or.inr he, hkey ▸ hlater hx he⟩, ?_⟩
      rintro ⟨rfl | he, hne⟩
      · exact absurd hkey.symm hne
      · exact he
    · rename_i hgt
      have hne : x.1 ≠ key := by
        intro heq
        rw [ByteString.compare_eq_iff.2 heq.symm] at hgt
        cases hgt
      rw [List.mem_cons, List.mem_cons]
      refine (or_congr_right (ih hrest)).trans ?_
      constructor
      · rintro (rfl | rfl | ⟨he, hkey⟩)
        · exact Or.inr ⟨Or.inl rfl, hne⟩
        · exact Or.inl rfl
        · exact Or.inr ⟨Or.inr he, hkey⟩
      · rintro (rfl | ⟨rfl | he, hkey⟩)
        · exact Or.inr (Or.inl rfl)
        · exact Or.inl rfl
        · exact Or.inr (Or.inr ⟨he, hkey⟩)

/-! ## Writes one after the other -/

/-- Of pairs that are written one after the other, this is the last one under its key. -/
def LastUnderKey (pairs : List (Hash × α)) (e : Hash × α) : Prop :=
  ∃ before later, pairs = before ++ e :: later ∧ ∀ x ∈ later, x.1 ≠ e.1

theorem lastUnderKey_append_singleton {pairs : List (Hash × α)} {last e : Hash × α} :
    LastUnderKey (pairs ++ [last]) e ↔ e = last ∨ (LastUnderKey pairs e ∧ e.1 ≠ last.1) := by
  constructor
  · rintro ⟨before, later, hsplit, hlater⟩
    rcases List.eq_nil_or_concat later with rfl | ⟨later, final, rfl⟩
    · exact Or.inl (List.append_singleton_inj.1 hsplit).2.symm
    · rw [List.concat_eq_append, ← List.cons_append, ← List.append_assoc] at hsplit
      obtain ⟨hpairs, rfl⟩ := List.append_singleton_inj.1 hsplit
      rw [List.concat_eq_append] at hlater
      refine Or.inr ⟨⟨before, later, hpairs, ?_⟩, ?_⟩
      · exact fun x hx => hlater x (List.mem_append_left _ hx)
      · exact (hlater last (by simp)).symm
  · rintro (rfl | ⟨⟨before, later, rfl, hlater⟩, hne⟩)
    · exact ⟨pairs, [], rfl, by simp⟩
    · refine ⟨before, later ++ [last], by simp, ?_⟩
      intro x hx
      rcases List.mem_append.1 hx with hx | hx
      · exact hlater x hx
      · rw [List.mem_singleton.1 hx]
        exact hne.symm

namespace Table

theorem mem_entries_put {t : Table α} {key : Hash} {value : α} {e : Hash × α} :
    e ∈ (t.put key value).entries ↔ e = (key, value) ∨ (e ∈ t.entries ∧ e.1 ≠ key) :=
  mem_putEntry t.ascend

theorem ofEntries_append_singleton (pairs : List (Hash × α)) (last : Hash × α) :
    ofEntries (pairs ++ [last]) = (ofEntries pairs).put last.1 last.2 := by
  simp [ofEntries, List.foldl_append]

/-- A table that pairs build holds the last of them under each key. -/
theorem mem_entries_ofEntries {pairs : List (Hash × α)} {e : Hash × α} :
    e ∈ (ofEntries pairs).entries ↔ LastUnderKey pairs e := by
  induction pairs using List.reverseRecOn with
  | nil =>
    constructor
    · intro he
      cases he
    · rintro ⟨before, later, hsplit, _⟩
      cases before <;> cases hsplit
  | append_singleton pairs last ih =>
    rw [ofEntries_append_singleton, mem_entries_put, ih, lastUnderKey_append_singleton]

/-- What is looked up is what stands under the key. -/
theorem get?_eq_some_iff {t : Table α} {key : Hash} {value : α} :
    t.get? key = some value ↔ (key, value) ∈ t.entries := by
  unfold get?
  rw [List.lookup_eq_some_iff]
  constructor
  · rintro ⟨before, later, hsplit, _⟩
    rw [hsplit]
    simp
  · intro hmem
    obtain ⟨before, later, hsplit⟩ := List.append_of_mem hmem
    refine ⟨before, later, hsplit, ?_⟩
    intro e he
    have hnodup := t.keys_nodup
    unfold keys at hnodup
    rw [hsplit, List.map_append, List.nodup_append] at hnodup
    have hne := hnodup.2.2 e.1 (List.mem_map_of_mem he) key (by simp)
    simpa using hne.symm

theorem get?_put (t : Table α) (key other : Hash) (value : α) :
    (t.put key value).get? other = if other = key then some value else t.get? other := by
  apply Option.ext
  intro found
  rw [get?_eq_some_iff, mem_entries_put]
  by_cases hkey : other = key
  · rw [if_pos hkey]
    simp [hkey, eq_comm]
  · rw [if_neg hkey, get?_eq_some_iff]
    simp [hkey]

theorem get?_erase (t : Table α) (key other : Hash) :
    (t.erase key).get? other = if other = key then none else t.get? other := by
  apply Option.ext
  intro found
  rw [get?_eq_some_iff]
  unfold erase
  rw [List.mem_filter]
  by_cases hkey : other = key
  · simp [hkey]
  · rw [if_neg hkey, get?_eq_some_iff]
    simp [hkey]

theorem contains_iff_get? {t : Table α} {key : Hash} :
    t.contains key = true ↔ ∃ value, t.get? key = some value := by
  rw [contains_iff]
  unfold keys
  rw [List.mem_map]
  constructor
  · rintro ⟨e, he, rfl⟩
    exact ⟨e.2, get?_eq_some_iff.2 he⟩
  · rintro ⟨value, hvalue⟩
    exact ⟨(key, value), get?_eq_some_iff.1 hvalue, rfl⟩

theorem mem_keys_put {t : Table α} {key other : Hash} {value : α} :
    other ∈ (t.put key value).keys ↔ other = key ∨ other ∈ t.keys := by
  unfold keys
  simp only [List.mem_map, mem_entries_put]
  constructor
  · rintro ⟨e, rfl | ⟨he, _⟩, rfl⟩
    · exact Or.inl rfl
    · exact Or.inr ⟨e, he, rfl⟩
  · intro h
    by_cases hkey : other = key
    · exact ⟨(key, value), Or.inl rfl, hkey.symm⟩
    · obtain ⟨e, he, rfl⟩ := h.resolve_left hkey
      exact ⟨e, Or.inr ⟨he, hkey⟩, rfl⟩

/-- The keys of a table that pairs build are the keys of the pairs. -/
theorem mem_keys_ofEntries {pairs : List (Hash × α)} {key : Hash} :
    key ∈ (ofEntries pairs).keys ↔ key ∈ pairs.map (·.1) := by
  induction pairs using List.reverseRecOn with
  | nil => exact Iff.rfl
  | append_singleton pairs last ih =>
    rw [ofEntries_append_singleton, mem_keys_put, ih]
    simp [or_comm]

/-- The size of a table counts each key once. -/
theorem card_keys (t : Table α) : t.keys.toFinset.card = t.size := by
  rw [List.toFinset_card_of_nodup t.keys_nodup]
  exact List.length_map _

end Table

end Admission
