-- Sets of attestations that are built by inserting alone. Of the attestations under
-- one key the first stays, and which keys there are decides how the set is listed.
import Admission.Proofs.OwnKeys

namespace Admission

/-! ## The order of keys -/

/-- Strings of bytes are in the order of dictionaries. -/
theorem ByteString.compareBytes_eq_lt_iff {a b : List UInt8} : compareBytes a b = .lt ↔ a < b := by
  induction a generalizing b with
  | nil => cases b <;> simp [compareBytes]
  | cons x xs ih =>
    cases b with
    | nil => simp [compareBytes]
    | cons y ys =>
      rw [compareBytes, List.cons_lt_cons_iff]
      by_cases hlt : x < y
      · simp [hlt]
      · by_cases hgt : y < x
        · have hne : x ≠ y := fun heq => hlt (heq ▸ hgt)
          simp [hlt, hgt, hne]
        · have heq : x = y := UInt8.le_antisymm (UInt8.not_lt.1 hgt) (UInt8.not_lt.1 hlt)
          simp [heq, ih]

namespace Table

variable {α : Type}

theorem keys_ascend (t : Table α) : t.keys.Pairwise (· < ·) := by
  unfold keys
  rw [List.pairwise_map]
  exact t.ascend

/-- Tables with the same keys list them in the same order. -/
theorem keys_eq_of_mem_iff {β : Type} {s : Table α} {t : Table β}
    (h : ∀ key, key ∈ s.keys ↔ key ∈ t.keys) : s.keys = t.keys := by
  have hperm : s.keys.Perm t.keys := (List.perm_ext_iff_of_nodup s.keys_nodup t.keys_nodup).2 h
  refine hperm.eq_of_pairwise ?_ s.keys_ascend t.keys_ascend
  intro a b _ _ hab hba
  exact absurd (ByteString.lt_trans hab hba) (ByteString.lt_irrefl a)

theorem mem_toList_iff {t : Table α} {value : α} :
    value ∈ t.toList ↔ ∃ key, t.get? key = some value := by
  unfold toList
  rw [List.mem_map]
  constructor
  · rintro ⟨e, he, rfl⟩
    exact ⟨e.1, get?_eq_some_iff.2 he⟩
  · rintro ⟨key, hkey⟩
    exact ⟨_, get?_eq_some_iff.1 hkey, rfl⟩

end Table

namespace AttestationSet

/-! ## One call -/

/-- Adds an attestation unless its key has one already, and tells whether the set grew. -/
def add (s : AttestationSet) (a : Attestation) : Bool × AttestationSet :=
  if s.contains a.publicKey then (false, s) else (true, s.put a.publicKey a)

theorem add_eq (s : AttestationSet) (a : Attestation) :
    s.add a = (!s.contains a.publicKey, insert s a) := by
  unfold add insert
  split <;> rename_i h <;> simp [h]

/-- What is looked up after a call: what was there before it, or else the new attestation. -/
theorem get?_insert (s : AttestationSet) (a : Attestation) (key : PublicKey) :
    (insert s a).get? key = (s.get? key).or (if a.publicKey = key then some a else none) := by
  unfold insert
  by_cases hmem : s.contains a.publicKey = true
  · rw [if_pos hmem]
    obtain ⟨first, hfirst⟩ := Table.contains_iff_get?.1 hmem
    by_cases hkey : a.publicKey = key
    · rw [← hkey, hfirst]
      rfl
    · rw [if_neg hkey, Option.or_none]
  · rw [if_neg hmem, Table.get?_put]
    by_cases hkey : key = a.publicKey
    · have hnone : s.get? key = none := by
        rw [Option.eq_none_iff_forall_ne_some]
        intro first hfirst
        exact hmem (Table.contains_iff_get?.2 ⟨first, hkey ▸ hfirst⟩)
      rw [if_pos hkey, if_pos hkey.symm, hnone]
      rfl
    · rw [if_neg hkey, if_neg (Ne.symm hkey), Option.or_none]

/-! ## Calls one after the other -/

/-- The set that calls with these attestations build from nothing. -/
def ofInserted (as : List Attestation) : AttestationSet := as.foldl insert .empty

theorem ofInserted_append_singleton (as : List Attestation) (a : Attestation) :
    ofInserted (as ++ [a]) = insert (ofInserted as) a := by
  simp [ofInserted, List.foldl_append]

variable {as bs : List Attestation} {key : PublicKey} {a : Attestation}

/-- Under each key stands the first attestation that came with it. -/
theorem get?_ofInserted (as : List Attestation) (key : PublicKey) :
    (ofInserted as).get? key = as.find? fun a => a.publicKey = key := by
  induction as using List.reverseRecOn with
  | nil => rfl
  | append_singleton as a ih =>
    rw [ofInserted_append_singleton, get?_insert, ih, List.find?_append]
    by_cases hkey : a.publicKey = key <;> simp [hkey]

theorem contains_ofInserted_iff :
    (ofInserted as).contains key = true ↔ ∃ a ∈ as, a.publicKey = key := by
  rw [Table.contains_iff_get?, get?_ofInserted, ← Option.isSome_iff_exists, List.find?_isSome]
  simp

theorem keys_ofInserted_toFinset (as : List Attestation) :
    (ofInserted as).keys.toFinset = (as.map (·.publicKey)).toFinset := by
  ext key
  rw [List.mem_toFinset, List.mem_toFinset, ← Table.contains_iff, contains_ofInserted_iff,
    List.mem_map]

theorem ownKeys_ofInserted (as : List Attestation) : (ofInserted as).OwnKeys := by
  intro e he
  have hfound := Table.get?_eq_some_iff.2 he
  rw [get?_ofInserted] at hfound
  have hkey := List.find?_some hfound
  exact (of_decide_eq_true hkey).symm

theorem get?_ofInserted_append (later : List Attestation)
    (h : (ofInserted as).get? key = some a) : (ofInserted (as ++ later)).get? key = some a := by
  rw [get?_ofInserted] at h ⊢
  rw [List.find?_append, h]
  rfl

theorem verify_iff [Crypto] {s : AttestationSet} {transaction : Hash} :
    verify s transaction = true ↔
      ∀ key a, s.get? key = some a → a.verify transaction = true := by
  unfold verify
  rw [List.all_eq_true]
  constructor
  · intro h key a hfound
    exact h a (Table.mem_toList_iff.2 ⟨key, hfound⟩)
  · intro h a ha
    obtain ⟨key, hfound⟩ := Table.mem_toList_iff.1 ha
    exact h key a hfound

theorem keys_ofInserted_eq
    (h : ∀ key, (∃ a ∈ as, a.publicKey = key) ↔ ∃ b ∈ bs, b.publicKey = key) :
    (ofInserted as).keys = (ofInserted bs).keys := by
  apply Table.keys_eq_of_mem_iff
  intro key
  rw [← Table.contains_iff, ← Table.contains_iff, contains_ofInserted_iff, contains_ofInserted_iff]
  exact h key

end AttestationSet

/-- To attest is to call with the attestation. -/
theorem Summary.add_attestations (s : Summary) (a : Attestation) :
    s.attestations.add a = (s.lacks a, (s.attest a).attestations) :=
  s.attestations.add_eq a

open AttestationSet

/-- A set of attestations counts each key once, and the first attestation of a key stays. After any
calls from the empty set, the next one makes it grow if its key is new, and only then. The size is
the number of different keys, a key is contained if it was inserted, and what is kept under it is
the first attestation that came with it, whatever comes later. The attestations are listed with
their keys in strictly increasing order of the bytes, and all of them verify if each that is kept
does. Attesting to a summary is such a call. The keys alone decide the size, what is contained and
the order. -/
theorem the_first_attestation_of_a_key_stays [Crypto] (as : List Attestation) :
    (∀ a, (ofInserted as).add a =
      (decide (∀ earlier ∈ as, earlier.publicKey ≠ a.publicKey), ofInserted (as ++ [a]))) ∧
    (ofInserted as).size = (as.map (·.publicKey)).toFinset.card ∧
    (∀ key, (ofInserted as).contains key = true ↔ ∃ a ∈ as, a.publicKey = key) ∧
    (∀ key, (ofInserted as).get? key = as.find? fun a => a.publicKey = key) ∧
    (∀ key a later, (ofInserted as).get? key = some a →
      (ofInserted (as ++ later)).get? key = some a) ∧
    (∀ a, a ∈ (ofInserted as).toList ↔ (ofInserted as).get? a.publicKey = some a) ∧
    ((ofInserted as).toList.map (·.publicKey.toList)).Pairwise (· < ·) ∧
    (∀ transaction, AttestationSet.verify (ofInserted as) transaction = true ↔
      ∀ key a, (ofInserted as).get? key = some a → a.verify transaction = true) ∧
    (∀ s : Summary, s.attestations = ofInserted as → ∀ a,
      (ofInserted as).add a = (s.lacks a, (s.attest a).attestations)) ∧
    ∀ bs : List Attestation,
      (∀ key, (∃ a ∈ as, a.publicKey = key) ↔ ∃ b ∈ bs, b.publicKey = key) →
        (ofInserted as).size = (ofInserted bs).size ∧
        (∀ key, (ofInserted as).contains key = (ofInserted bs).contains key) ∧
        (ofInserted as).toList.map (·.publicKey) = (ofInserted bs).toList.map (·.publicKey) := by
  have hown := ownKeys_ofInserted as
  refine ⟨?_, ?_, fun _ => contains_ofInserted_iff, get?_ofInserted as,
    fun _ _ later h => get?_ofInserted_append later h, ?_, ?_, fun _ => verify_iff,
    fun s h a => h ▸ s.add_attestations a, ?_⟩
  · intro a
    rw [add_eq, ofInserted_append_singleton, Prod.mk.injEq]
    refine ⟨?_, rfl⟩
    rw [Bool.eq_iff_iff, Bool.not_eq_true', ← Bool.not_eq_true, contains_ofInserted_iff]
    simp
  · rw [← Table.card_keys, keys_ofInserted_toFinset]
  · intro a
    rw [Table.mem_toList_iff]
    refine ⟨fun ⟨key, hkey⟩ => ?_, fun h => ⟨_, h⟩⟩
    rwa [← hown _ (Table.get?_eq_some_iff.1 hkey)]
  · have hascend := (ofInserted as).keys_ascend
    rw [hown.keys_eq, List.pairwise_map] at hascend
    rw [List.pairwise_map]
    exact hascend.imp ByteString.compareBytes_eq_lt_iff.1
  · intro bs hsame
    have hkeys := keys_ofInserted_eq hsame
    refine ⟨?_, ?_, ?_⟩
    · rw [← Table.card_keys, ← Table.card_keys, hkeys]
    · intro key
      unfold Table.contains
      rw [hkeys]
    · rw [← hown.keys_eq, ← (ownKeys_ofInserted bs).keys_eq, hkeys]

namespace Sample

attribute [local instance] standardCrypto

/-- The key of the first attestation with the signature of another one. -/
def falseAttestation : Attestation := ⟨key, peerSignature⟩

/-- Three calls with two keys, and the same calls in another order. -/
def calls : List Attestation := [attestation, peerAttestation, falseAttestation]

def reordered : List Attestation := [peerAttestation, falseAttestation, attestation]

theorem same_keys_called (used : PublicKey) :
    (∃ a ∈ calls, a.publicKey = used) ↔ ∃ b ∈ reordered, b.publicKey = used := by
  simp [calls, reordered, attestation, peerAttestation, falseAttestation, or_comm]

/-- The last call in each order changes nothing, so the orders keep different attestations under the
one key. The sets have the same keys all the same. -/
theorem two_of_three_attestations_stay :
    (ofInserted [attestation, peerAttestation]).add falseAttestation = (false, ofInserted calls) ∧
    (ofInserted calls).get? key = some attestation ∧
    (ofInserted (calls ++ [falseAttestation])).get? key = some attestation ∧
    (ofInserted reordered).get? key = some falseAttestation ∧
    (ofInserted calls).size = 2 ∧ (ofInserted reordered).size = 2 ∧
    (ofInserted reordered).toList.map (·.publicKey) = [peerKey, key] ∧
    (∀ used, (∃ a ∈ calls, a.publicKey = used) ↔ ∃ b ∈ reordered, b.publicKey = used) ∧
    (ofInserted calls).toList.map (·.publicKey) =
      (ofInserted reordered).toList.map (·.publicKey) := by
  obtain ⟨hcall, _⟩ := the_first_attestation_of_a_key_stays [attestation, peerAttestation]
  obtain ⟨_, hsize, _, hfirst, hstays, _, _, _, _, hsame⟩ :=
    the_first_attestation_of_a_key_stays calls
  obtain ⟨_, hsize', _, hfirst', _⟩ := the_first_attestation_of_a_key_stays reordered
  have hkept : (ofInserted calls).get? key = some attestation := by
    rw [hfirst]
    rfl
  refine ⟨?_, hkept, hstays _ _ _ hkept, ?_, ?_, ?_, ?_, same_keys_called,
    (hsame reordered same_keys_called).2.2⟩
  · rw [hcall]
    rfl
  · rw [hfirst']
    rfl
  · rw [hsize]
    rfl
  · rw [hsize']
    rfl
  · rfl

end Sample

end Admission
