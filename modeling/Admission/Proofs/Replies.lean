-- What the replies of peers bring to a gathering: the attestations that count,
-- the peers that gave no usable answer, and the summary that is collected. An
-- attestation counts only if it verifies.
import Admission.Execution
import Mathlib.Data.List.Induction
import Mathlib.Data.List.Nodup

namespace Admission

section
variable [Crypto]

/-! ## Replies -/

/-- The attestation of a reply with the peer that gave it, if it is one that counts. -/
def attestation? (id : Hash) (r : Nat × Delivery) : Option (Nat × Attestation) :=
  match r.2.reply id with
  | .attested a => some (r.1, a)
  | _ => none

/-- The peer of a reply that is no usable answer. -/
def silentPeer? (id : Hash) (r : Nat × Delivery) : Option Nat :=
  match r.2.reply id with
  | .noAnswer => some r.1
  | _ => none

/-- Whether a reply says that the request was dispatched. -/
def wasDispatched (id : Hash) (r : Nat × Delivery) : Bool :=
  decide (r.2.reply id ≠ .notDispatched)

/-- The attestations that count, in order. -/
def attestedBy (id : Hash) (rs : List (Nat × Delivery)) : List (Nat × Attestation) :=
  rs.filterMap (attestation? id)

def silentOf (id : Hash) (rs : List (Nat × Delivery)) : List Nat := rs.filterMap (silentPeer? id)

/-- The peers that a request was dispatched to, in order. -/
def dispatchedTo (id : Hash) (rs : List (Nat × Delivery)) : List Nat :=
  (rs.filter (wasDispatched id)).map (·.1)

namespace Delivery

/-- Only an attestation that verifies counts as one. -/
theorem reply_eq_attested {id : Hash} {d : Delivery} {a : Attestation} :
    d.reply id = .attested a ↔ d = .answered (.attestation a) ∧ a.verify id = true := by
  constructor
  · intro h
    rcases d with (b | _ | _ | _) | _ | _ <;> simp only [Delivery.reply, reduceCtorEq] at h
    split at h
    · rename_i hverify
      cases h
      exact ⟨rfl, hverify⟩
    · cases h
  · rintro ⟨rfl, hverify⟩
    simp [Delivery.reply, hverify]

theorem reply_eq_invalid {id : Hash} {d : Delivery} :
    d.reply id = .invalid ↔ d = .answered .invalid := by
  constructor
  · intro h
    rcases d with (b | _ | _ | _) | _ | _ <;> simp only [Delivery.reply, reduceCtorEq] at h
    · split at h <;> cases h
    · rfl
  · rintro rfl
    rfl

/-- A request was not dispatched if nobody took it or its peer could not be reached. -/
theorem reply_eq_notDispatched {id : Hash} {d : Delivery} :
    d.reply id = .notDispatched ↔ d = .answered .unreachable ∨ d = .undelivered := by
  constructor
  · intro h
    rcases d with (b | _ | _ | _) | _ | _ <;> simp only [Delivery.reply, reduceCtorEq] at h
    · split at h <;> cases h
    · exact Or.inl rfl
    · exact Or.inr rfl
  · rintro (rfl | rfl) <;> rfl

end Delivery

theorem mem_attestedBy {id : Hash} {rs : List (Nat × Delivery)} {peer : Nat} {a : Attestation} :
    (peer, a) ∈ attestedBy id rs ↔
      (peer, .answered (.attestation a)) ∈ rs ∧ a.verify id = true := by
  unfold attestedBy attestation?
  rw [List.mem_filterMap]
  constructor
  · rintro ⟨⟨asked, d⟩, hmem, h⟩
    split at h
    · rename_i b hreply
      cases h
      obtain ⟨rfl, hverify⟩ := Delivery.reply_eq_attested.1 hreply
      exact ⟨hmem, hverify⟩
    · cases h
  · rintro ⟨hmem, hverify⟩
    exact ⟨_, hmem, by simp [Delivery.reply, hverify]⟩

theorem mem_silentOf {id : Hash} {rs : List (Nat × Delivery)} {peer : Nat} :
    peer ∈ silentOf id rs ↔ ∃ d, (peer, d) ∈ rs ∧ d.reply id = .noAnswer := by
  unfold silentOf silentPeer?
  rw [List.mem_filterMap]
  constructor
  · rintro ⟨⟨asked, d⟩, hmem, h⟩
    split at h
    · rename_i hreply
      cases h
      exact ⟨d, hmem, hreply⟩
    · cases h
  · rintro ⟨d, hmem, hreply⟩
    exact ⟨(peer, d), hmem, by simp [hreply]⟩

theorem mem_dispatchedTo {id : Hash} {rs : List (Nat × Delivery)} {peer : Nat} :
    peer ∈ dispatchedTo id rs ↔ ∃ d, (peer, d) ∈ rs ∧ d.reply id ≠ .notDispatched := by
  simp [dispatchedTo, wasDispatched]

/-! ## One reply more -/

section
variable {id : Hash} {rs : List (Nat × Delivery)} {peer : Nat} {d : Delivery}

theorem attestedBy_append_of_attested {a : Attestation} (h : d.reply id = .attested a) :
    attestedBy id (rs ++ [(peer, d)]) = attestedBy id rs ++ [(peer, a)] := by
  simp [attestedBy, attestation?, h]

theorem attestedBy_append_of_not (h : ∀ a, d.reply id ≠ .attested a) :
    attestedBy id (rs ++ [(peer, d)]) = attestedBy id rs := by
  unfold attestedBy attestation?
  rw [List.filterMap_append]
  cases hreply : d.reply id <;> simp_all

theorem silentOf_append_of_noAnswer (h : d.reply id = .noAnswer) :
    silentOf id (rs ++ [(peer, d)]) = silentOf id rs ++ [peer] := by
  simp [silentOf, silentPeer?, h]

theorem silentOf_append_of_not (h : d.reply id ≠ .noAnswer) :
    silentOf id (rs ++ [(peer, d)]) = silentOf id rs := by
  unfold silentOf silentPeer?
  rw [List.filterMap_append]
  cases hreply : d.reply id <;> simp_all

theorem dispatchedTo_append (id : Hash) (rs more : List (Nat × Delivery)) :
    dispatchedTo id (rs ++ more) = dispatchedTo id rs ++ dispatchedTo id more := by
  simp [dispatchedTo]

theorem dispatchedTo_append_of_dispatched (h : d.reply id ≠ .notDispatched) :
    dispatchedTo id (rs ++ [(peer, d)]) = dispatchedTo id rs ++ [peer] := by
  simp [dispatchedTo, wasDispatched, h]

theorem dispatchedTo_append_of_not (h : d.reply id = .notDispatched) :
    dispatchedTo id (rs ++ [(peer, d)]) = dispatchedTo id rs := by
  simp [dispatchedTo, wasDispatched, h]

end

/-! ## Peers that answer once -/

section
variable {id : Hash} {rs : List (Nat × Delivery)} {peer : Nat} {d other : Delivery}

/-- Where no peer answers twice, the answer of a peer is the only one it gave. -/
theorem answer_unique (honce : (dispatchedTo id rs).Nodup) (hd : (peer, d) ∈ rs)
    (hother : (peer, other) ∈ rs) (h : d.reply id ≠ .notDispatched)
    (h' : other.reply id ≠ .notDispatched) : d = other := by
  have hsame := List.inj_on_of_nodup_map honce
    (List.mem_filter.2 ⟨hd, by simpa [wasDispatched] using h⟩)
    (List.mem_filter.2 ⟨hother, by simpa [wasDispatched] using h'⟩) rfl
  exact congrArg Prod.snd hsame

theorem attestedBy_sublist (id : Hash) (rs : List (Nat × Delivery)) :
    ((attestedBy id rs).map (·.1)).Sublist (dispatchedTo id rs) := by
  induction rs using List.reverseRecOn with
  | nil => simp [attestedBy]
  | append_singleton rs r ih =>
    obtain ⟨peer, d⟩ := r
    cases h : d.reply id with
    | attested a =>
      rw [attestedBy_append_of_attested h, dispatchedTo_append_of_dispatched (by simp [h])]
      simpa using ih
    | notDispatched =>
      rw [attestedBy_append_of_not (by simp [h]), dispatchedTo_append_of_not h]
      exact ih
    | invalid | noAnswer =>
      rw [attestedBy_append_of_not (by simp [h]), dispatchedTo_append_of_dispatched (by simp [h])]
      exact ih.trans (List.sublist_append_left _ _)

theorem silentOf_sublist (id : Hash) (rs : List (Nat × Delivery)) :
    (silentOf id rs).Sublist (dispatchedTo id rs) := by
  induction rs using List.reverseRecOn with
  | nil => simp [silentOf]
  | append_singleton rs r ih =>
    obtain ⟨peer, d⟩ := r
    cases h : d.reply id with
    | noAnswer =>
      rw [silentOf_append_of_noAnswer h, dispatchedTo_append_of_dispatched (by simp [h])]
      simpa using ih
    | notDispatched =>
      rw [silentOf_append_of_not (by simp [h]), dispatchedTo_append_of_not h]
      exact ih
    | attested a | invalid =>
      rw [silentOf_append_of_not (by simp [h]), dispatchedTo_append_of_dispatched (by simp [h])]
      exact ih.trans (List.sublist_append_left _ _)

end

end

/-! ## What is collected -/

namespace Summary

/-- The summary with more attestations, added one after the other. -/
def attestAll (s : Summary) (as : List Attestation) : Summary := as.foldl attest s

theorem attestAll_append (s : Summary) (as : List Attestation) (a : Attestation) :
    s.attestAll (as ++ [a]) = (s.attestAll as).attest a := by
  simp [attestAll, List.foldl_append]

theorem fields_attestAll (s : Summary) (as : List Attestation) :
    (s.attestAll as).id = s.id ∧ (s.attestAll as).inputs = s.inputs ∧
      (s.attestAll as).outputs = s.outputs := by
  unfold attestAll
  induction as generalizing s with
  | nil => exact ⟨rfl, rfl, rfl⟩
  | cons a as ih => exact ih (s.attest a)

/-- What was attested before stays. -/
theorem mem_attestAll_of_mem (s : Summary) (as : List Attestation) (e : Hash × Attestation)
    (h : e ∈ s.attestations.entries) : e ∈ (s.attestAll as).attestations.entries := by
  unfold attestAll
  induction as generalizing s with
  | nil => exact h
  | cons a as ih => exact ih (s.attest a) (AttestationSet.mem_entries_insert_of_mem _ a e h)

/-- What is attested was attested before, or is one of the attestations under its own key. -/
theorem mem_attestAll (s : Summary) (as : List Attestation) (e : Hash × Attestation)
    (h : e ∈ (s.attestAll as).attestations.entries) :
    e ∈ s.attestations.entries ∨ ∃ a ∈ as, e = (a.publicKey, a) := by
  unfold attestAll at h
  induction as generalizing s with
  | nil => exact Or.inl h
  | cons a as ih =>
    rcases ih (s.attest a) h with hmem | ⟨b, hb, rfl⟩
    · rcases AttestationSet.mem_entries_insert _ a e hmem with hmem | rfl
      · exact Or.inl hmem
      · exact Or.inr ⟨a, List.mem_cons_self, rfl⟩
    · exact Or.inr ⟨b, List.mem_cons_of_mem _ hb, rfl⟩

/-- The summary with the attestations that replies brought. -/
def collect [Crypto] (start : Summary) (rs : List (Nat × Delivery)) : Summary :=
  start.attestAll ((attestedBy start.id rs).map (·.2))

theorem mem_collect [Crypto] (start : Summary) (rs : List (Nat × Delivery)) (e : Hash × Attestation)
    (h : e ∈ (start.collect rs).attestations.entries) :
    e ∈ start.attestations.entries ∨
      ∃ peer, (peer, e.2) ∈ attestedBy start.id rs ∧ e.1 = e.2.publicKey := by
  rcases mem_attestAll _ _ e h with hmem | ⟨a, ha, rfl⟩
  · exact Or.inl hmem
  · obtain ⟨⟨peer, b⟩, hb, rfl⟩ := List.mem_map.1 ha
    exact Or.inr ⟨peer, hb, rfl⟩

end Summary

end Admission
