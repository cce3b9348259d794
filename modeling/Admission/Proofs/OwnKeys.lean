-- Sets of attestations that come over the wire. A set that is built by
-- inserting has each attestation under its own key. A set that was read has its
-- attestations under the keys that the bytes list them under.
import Admission.Proofs.Streams
import Admission.Proofs.Tables

namespace Admission

namespace AttestationSet

variable {s : AttestationSet}

/-! ## Own keys -/

/-- Every attestation is stored under its own key. -/
def OwnKeys (s : AttestationSet) : Prop := ∀ e ∈ s.entries, e.1 = e.2.publicKey

/-- The keys that attested, each once. -/
def attesters (s : AttestationSet) : Finset PublicKey := (s.toList.map (·.publicKey)).toFinset

theorem card_attesters_le (s : AttestationSet) : s.attesters.card ≤ s.size := by
  have hcard := List.toFinset_card_le (s.toList.map (·.publicKey))
  unfold Table.toList at hcard
  simp only [List.length_map] at hcard
  exact hcard

/-- Whoever only inserts keeps each attestation under its own key. -/
theorem OwnKeys.insert (h : s.OwnKeys) (a : Attestation) : (insert s a).OwnKeys := by
  intro e he
  rcases mem_entries_insert s a e he with he | rfl
  · exact h e he
  · rfl

theorem OwnKeys.keys_eq (h : s.OwnKeys) : s.keys = s.toList.map (·.publicKey) := by
  unfold Table.keys Table.toList
  rw [List.map_map]
  exact List.map_congr_left h

/-- Then the size of the set is the number of keys that attested. -/
theorem OwnKeys.card_attesters (h : s.OwnKeys) : s.attesters.card = s.size := by
  unfold attesters
  rw [← h.keys_eq, Table.card_keys]

/-- Then a key is in the set if it attested. -/
theorem OwnKeys.contains_iff (h : s.OwnKeys) (key : PublicKey) :
    s.contains key = true ↔ ∃ a ∈ s.toList, a.publicKey = key := by
  rw [Table.contains_iff, h.keys_eq, List.mem_map]

end AttestationSet

/-! ## Formats that read the same bytes -/

namespace Format

variable {α β γ : Type} {f : Format α} {g : Format β} {into : α → β}

/-- Bytes are read as `f` reads them, and then another value is made of what was read. -/
def ReadsAs (g : Format β) (f : Format α) (into : α → β) : Prop :=
  ∀ input, g.read input = (f.read input).map fun (a, rest) => (into a, rest)

theorem readsAs_view {back : β → α} : (f.view into back).ReadsAs f into := fun _ => rfl

theorem ReadsAs.pair {first : Format γ} (h : g.ReadsAs f into) :
    (first.pair g).ReadsAs (first.pair f) (Prod.map id into) := by
  intro input
  unfold Format.pair
  dsimp only
  cases first.read input with
  | error cause => rfl
  | ok c =>
    dsimp only [Except.bind]
    rw [h c.2]
    cases f.read c.2 <;> rfl

/-- What was read may be looked at in another way on both sides. -/
theorem ReadsAs.view {δ : Type} {outer : β → γ} {outerBack : γ → β} {inner : α → δ}
    {innerBack : δ → α} {made : δ → γ} (h : g.ReadsAs f into)
    (hmade : ∀ a, made (inner a) = outer (into a)) :
    (g.view outer outerBack).ReadsAs (f.view inner innerBack) made := by
  intro input
  unfold Format.view
  dsimp only
  rw [h input]
  cases f.read input with
  | error cause => rfl
  | ok a =>
    dsimp only [Except.map]
    rw [hmade a.1]

theorem ReadsAs.readAll (h : g.ReadsAs f into) (input : List UInt8) :
    g.readAll input = (f.readAll input).map into := by
  unfold Format.readAll
  rw [h input]
  cases f.read input with
  | error cause => rfl
  | ok a =>
    dsimp only [Except.map]
    split <;> rfl

end Format

/-! ## What the bytes list -/

/-- A summary as bytes list it: attestations with the keys they are put under, in the order in
which they come. -/
structure Listing where
  id : Hash
  inputs : List Hash
  outputs : List Hash
  pairs : List (Hash × Attestation)

/-- The keys that attestations are listed under, each once. -/
def Listing.keySet (l : Listing) : Finset PublicKey := (l.pairs.map (·.1)).toFinset

/-- The summary that is made of a listing. -/
def Listing.summary (l : Listing) : Summary := ⟨l.id, l.inputs, l.outputs, .ofEntries l.pairs⟩

section
variable [Crypto]

namespace Wire

def listing : Format Listing :=
  (hash.pair ((many hash).pair ((many hash).pair (many (hash.pair attestation))))).view
    (fun p => ⟨p.1, p.2.1, p.2.2.1, p.2.2.2⟩) (fun l => (l.id, l.inputs, l.outputs, l.pairs))

/-- A request to the coordinator, as its bytes list it. -/
def listedRequest : Format Listing := oneOf 1 (fun _ => 0) fun _ => listing

theorem summary_readsAs : summary.ReadsAs listing Listing.summary := by
  have hpairs : attestations.ReadsAs (many (hash.pair attestation)) Table.ofEntries :=
    Format.readsAs_view
  exact hpairs.pair.pair.pair.view fun _ => rfl

theorem coordinatorRequest_readsAs :
    coordinatorRequest.ReadsAs listedRequest fun l => .execute l.summary := by
  intro bytes
  unfold coordinatorRequest listedRequest oneOf Format.oneOf
  dsimp only
  cases (Format.variant Varint.format 1).read bytes with
  | error cause => rfl
  | ok number =>
    dsimp only [Except.bind, Format.view]
    rw [summary_readsAs number.2]
    cases listing.read number.2 <;> rfl

end Wire

/-- A summary that a request carries has its attestations as the bytes list them, of two under one
key the later one. The size counts the keys that are listed, and no key is compared with the one of
its attestation. Where the bytes list each attestation under its own key, these are the keys that
attested. Elsewhere there are at least as many. -/
theorem attestations_are_stored_as_listed {bytes : List UInt8} {s : Summary}
    (h : Wire.coordinatorRequest.readAll bytes = .ok (.execute s)) :
    ∃ l, Wire.listedRequest.readAll bytes = .ok l ∧
      s.id = l.id ∧ s.inputs = l.inputs ∧ s.outputs = l.outputs ∧
      (∀ e, e ∈ s.attestations.entries ↔ LastUnderKey l.pairs e) ∧
      s.attestations.size = l.keySet.card ∧
      (∀ key, s.attestations.contains key = true ↔ key ∈ l.keySet) ∧
      (s.attestations.OwnKeys ↔ ∀ e, LastUnderKey l.pairs e → e.1 = e.2.publicKey) ∧
      (s.attestations.OwnKeys → s.attestations.size = s.attestations.attesters.card ∧
        ∀ key, s.attestations.contains key = true ↔
          ∃ a ∈ s.attestations.toList, a.publicKey = key) ∧
      s.attestations.attesters.card ≤ s.attestations.size := by
  rw [Wire.coordinatorRequest_readsAs.readAll] at h
  cases hlisted : Wire.listedRequest.readAll bytes with
  | error cause =>
    rw [hlisted] at h
    cases h
  | ok l =>
    rw [hlisted] at h
    obtain rfl : l.summary = s := by
      cases h
      rfl
    have hentries : ∀ e, e ∈ l.summary.attestations.entries ↔ LastUnderKey l.pairs e :=
      fun e => Table.mem_entries_ofEntries
    have hkeys : ∀ key, key ∈ l.summary.attestations.keys ↔ key ∈ l.keySet := by
      intro key
      unfold Listing.keySet
      rw [List.mem_toFinset]
      exact Table.mem_keys_ofEntries
    have hset : l.summary.attestations.keys.toFinset = l.keySet := by
      ext key
      rw [List.mem_toFinset, hkeys]
    refine ⟨l, rfl, rfl, rfl, rfl, hentries, ?_, ?_, ?_, ?_, ?_⟩
    · rw [← hset, Table.card_keys]
    · intro key
      rw [Table.contains_iff, hkeys]
    · unfold AttestationSet.OwnKeys
      simp only [hentries]
    · intro hown
      exact ⟨hown.card_attesters.symm, hown.contains_iff⟩
    · exact AttestationSet.card_attesters_le _

end

namespace Sample

attribute [local instance] standardCrypto strict_standardCrypto

/-- The sample with the attestation of its owner, put under these keys. -/
def attestedUnder (keys : List PublicKey) : Summary :=
  ⟨id, [lock], [lock], .ofEntries (keys.map fun k => (k, attestation))⟩

def bytesUnder (keys : List PublicKey) : List UInt8 :=
  Wire.coordinatorRequest.write (.execute (attestedUnder keys))

theorem attestation_of_mem {keys : List PublicKey} {e : Hash × Attestation}
    (he : e ∈ (attestedUnder keys).attestations.entries) : e.2 = attestation := by
  obtain ⟨before, later, hsplit, _⟩ := Table.mem_entries_ofEntries.1 he
  have hlisted : e ∈ keys.map fun k => (k, attestation) := by
    rw [hsplit]
    simp
  obtain ⟨k, _, rfl⟩ := List.mem_map.1 hlisted
  rfl

/-- Whatever the keys are, the set is read as it was written. -/
theorem readAll_bytesUnder {keys : List PublicKey}
    (hshort : (attestedUnder keys).attestations.size < wireLimit) :
    Wire.coordinatorRequest.readAll (bytesUnder keys) = .ok (.execute (attestedUnder keys)) := by
  have hone : [lock].length < wireLimit := by decide
  refine Format.readAll_write Wire.coordinatorRequest_readsBack _ ⟨hone, hone, hshort, ?_⟩
  intro e he
  rw [attestation_of_mem he]
  exact StrictCrypto.of_verify verify_signature

theorem the_owner_attests_once :
    Wire.coordinatorRequest.readAll (bytesUnder [key]) = .ok (.execute (attestedUnder [key])) ∧
      (attestedUnder [key]).attestations.OwnKeys ∧
      (attestedUnder [key]).attestations.size =
        (attestedUnder [key]).attestations.attesters.card := by
  have hread : Wire.coordinatorRequest.readAll (bytesUnder [key]) =
      .ok (.execute (attestedUnder [key])) := readAll_bytesUnder (by decide)
  obtain ⟨l, _, _, _, _, _, _, _, _, hown, _⟩ := attestations_are_stored_as_listed hread
  have hkeys : (attestedUnder [key]).attestations.OwnKeys := by
    intro e he
    rw [List.mem_singleton.1 he]
    rfl
  exact ⟨hread, hkeys, (hown hkeys).1⟩

/-- An attestation is read under its own key and under another one. Both count, although only one
key attested. -/
theorem the_owner_attests_twice :
    Wire.coordinatorRequest.readAll (bytesUnder [peerKey, key]) =
        .ok (.execute (attestedUnder [peerKey, key])) ∧
      (attestedUnder [peerKey, key]).verify = true ∧
      ¬ (attestedUnder [peerKey, key]).attestations.OwnKeys ∧
      (attestedUnder [peerKey, key]).attestations.size = 2 ∧
      (attestedUnder [peerKey, key]).attestations.attesters = {key} ∧
      (attestedUnder [peerKey, key]).attestations.contains peerKey = true := by
  have hentries : (attestedUnder [peerKey, key]).attestations.entries =
      [(peerKey, attestation), (key, attestation)] := by decide +kernel
  have htwo : (attestedUnder [peerKey, key]).attestations.size = 2 := by
    unfold Table.size
    rw [hentries]
    rfl
  refine ⟨readAll_bytesUnder (by rw [htwo]; decide), ?_, ?_, htwo, ?_, ?_⟩
  · unfold Summary.verify AttestationSet.verify Table.toList
    rw [hentries]
    simp only [List.map_cons, List.map_nil, List.all_cons, List.all_nil]
    unfold Attestation.verify
    simp [attestedUnder, attestation, verify_signature]
  · intro hown
    have hsame : peerKey = key := hown (peerKey, attestation) (by rw [hentries]; simp)
    exact absurd hsame (by decide +kernel)
  · unfold AttestationSet.attesters Table.toList
    rw [hentries]
    simp [attestation]
  · rw [Table.contains_iff]
    unfold Table.keys
    rw [hentries]
    simp

end Sample

end Admission
