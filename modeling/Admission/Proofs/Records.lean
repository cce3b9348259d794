-- What the tables of the audit hold after any messages, some of which may fail
-- to be stored. Each table tells of the last message that had to do with an
-- identifier, so the four of them agree with each other.
import Admission.Audit
import Admission.Proofs.Tables

namespace Admission

/-! ## Storing a message -/

/-- A write into one of the tables, in the storing of one transaction. -/
inductive Write where
  | record (bytes : List UInt8)
  /-- The entry is noted as consumed by the transaction. -/
  | input (id : Hash)
  | spent (id : Hash)
  /-- The entry is noted as produced by it. -/
  | output (id : Hash)
  | unspent (id : Hash)
deriving DecidableEq

def Audit.write (transaction : Hash) (audit : Audit) : Write → Audit
  | .record bytes => audit.store transaction bytes
  | .input id => { audit with inputs := audit.inputs.put id transaction }
  | .spent id => { audit with unspent := audit.unspent.erase id }
  | .output id => { audit with outputs := audit.outputs.put id transaction }
  | .unspent id => { audit with unspent := audit.unspent.put id transaction }

/-- A message that reaches the audit, at some moment. A list in memory can be counted in eight
bytes, and the moments of a clock are in range. -/
structure Telling extends AuditEntry where
  moment : Moment
  /-- The step that fails when the message is stored, if one does: a write, or what comes after
  the last of them. -/
  fault : Option Nat
  inputs_lt : inputs.length < bytesLimit 8
  outputs_lt : outputs.length < bytesLimit 8
  moment_inRange : moment.inRange = true
deriving DecidableEq

namespace Telling

def bytes (m : Telling) : List UInt8 :=
  AuditRecord.format.write ⟨m.inputs, m.outputs, m.moment⟩

/-- The writes that store a message, in order. -/
def writes (m : Telling) : List Write :=
  .record m.bytes ::
    (m.inputs.flatMap fun id => [.input id, .spent id]) ++
      m.outputs.flatMap fun id => [.output id, .unspent id]

/-- Whether all writes succeed and then are kept. -/
def Succeeds (m : Telling) : Prop := ∀ step, m.fault = some step → m.writes.length < step

instance : DecidablePred Succeeds := fun m =>
  match h : m.fault with
  | none => isTrue (by simp [Succeeds, h])
  | some step => decidable_of_iff (m.writes.length < step) (by simp [Succeeds, h])

/-- A stored record is read back as it was written. -/
theorem ofBytes_bytes (m : Telling) :
    AuditRecord.ofBytes m.bytes = .ok ⟨m.inputs, m.outputs, m.moment⟩ := by
  have hread := AuditRecord.format_readsBack ⟨m.inputs, m.outputs, m.moment⟩ []
    ⟨m.inputs_lt, m.outputs_lt, m.moment_inRange⟩
  rw [List.append_nil] at hread
  unfold AuditRecord.ofBytes bytes
  rw [hread]
  rfl

end Telling

namespace Audit

/-- Makes the writes in a copy. If one of them fails, the copy is of no use. -/
def writeAll (transaction : Hash) (audit : Audit) : Option Nat → List Write → Except AuditError Audit
  | some 0, _ => .error .storage
  | _, [] => .ok audit
  | fault, w :: later => writeAll transaction (audit.write transaction w) (fault.map (· - 1)) later

/-- Stores a message: the copy takes the place of the tables, or else they stay as they are. -/
def tell (audit : Audit) (m : Telling) : Except AuditError Unit × Audit :=
  match audit.writeAll m.id m.fault m.writes with
  | .ok next => (.ok (), next)
  | .error cause => (.error cause, audit)

/-- The audit that was told all this, from empty tables on. -/
def told (ms : List Telling) : Audit := ms.foldl (fun audit m => (audit.tell m).2) empty

/-- The messages that were stored. -/
def stored (ms : List Telling) : List Telling := ms.filter Telling.Succeeds

theorem writeAll_eq (transaction : Hash) (audit : Audit) (fault : Option Nat) (ws : List Write) :
    audit.writeAll transaction fault ws =
      if ∀ step, fault = some step → ws.length < step then .ok (ws.foldl (write transaction) audit)
      else .error .storage := by
  induction ws generalizing audit fault with
  | nil => rcases fault with _ | _ | step <;> simp [writeAll]
  | cons w later ih => rcases fault with _ | _ | step <;> simp [writeAll, ih]

theorem foldl_inputs (transaction : Hash) (audit : Audit) (ids : List Hash) :
    (ids.flatMap fun id => [Write.input id, .spent id]).foldl (write transaction) audit =
      ids.foldl (consume transaction) audit := by
  induction ids generalizing audit with
  | nil => rfl
  | cons id ids ih => exact ih (audit.consume transaction id)

theorem foldl_outputs (transaction : Hash) (audit : Audit) (ids : List Hash) :
    (ids.flatMap fun id => [Write.output id, .unspent id]).foldl (write transaction) audit =
      ids.foldl (produce transaction) audit := by
  induction ids generalizing audit with
  | nil => rfl
  | cons id ids ih => exact ih (audit.produce transaction id)

/-- A message that is stored is recorded, and any other one leaves all tables as they were. -/
theorem tell_eq (audit : Audit) (m : Telling) :
    audit.tell m = if m.Succeeds then (.ok (), audit.record m.moment m.toAuditEntry)
      else (.error .storage, audit) := by
  have hwrites : m.writes.foldl (write m.id) audit = audit.record m.moment m.toAuditEntry := by
    unfold Telling.writes record
    rw [List.foldl_append, List.foldl_cons, foldl_inputs, foldl_outputs]
    rfl
  unfold tell
  rw [writeAll_eq, hwrites]
  by_cases h : m.Succeeds
  · rw [if_pos h, if_pos (show ∀ step, m.fault = some step → m.writes.length < step from h)]
  · rw [if_neg h, if_neg (show ¬ ∀ step, m.fault = some step → m.writes.length < step from h)]

theorem told_append_singleton (ms : List Telling) (m : Telling) :
    told (ms ++ [m]) =
      if m.Succeeds then (told ms).record m.moment m.toAuditEntry else told ms := by
  unfold told
  rw [List.foldl_append, List.foldl_cons, List.foldl_nil, tell_eq]
  split <;> rfl

theorem stored_append_singleton (ms : List Telling) (m : Telling) :
    stored (ms ++ [m]) = if m.Succeeds then stored ms ++ [m] else stored ms := by
  unfold stored
  rw [List.filter_append]
  by_cases h : m.Succeeds <;> simp [h]

end Audit

/-! ## One message -/

namespace Audit

section
variable {β : Type} (look : Audit → β) {change : Audit → Hash → Audit} {id : Hash} {value : β}

/-- What each change sets for its own identifier is set for all of them. -/
theorem look_foldl (h : ∀ audit first, look (change audit first) =
      if id = first then value else look audit) (audit : Audit) (ids : List Hash) :
    look (ids.foldl change audit) = if id ∈ ids then value else look audit := by
  induction ids generalizing audit with
  | nil => simp
  | cons first ids ih =>
    rw [List.foldl_cons, ih, h]
    by_cases hmem : id ∈ ids <;> by_cases hfirst : id = first <;> simp [hmem, hfirst]

end

section
variable (audit : Audit) (transaction : Hash) (ids : List Hash)

theorem foldl_consume_same :
    (ids.foldl (consume transaction) audit).transactions = audit.transactions ∧
      (ids.foldl (consume transaction) audit).outputs = audit.outputs := by
  induction ids generalizing audit with
  | nil => exact ⟨rfl, rfl⟩
  | cons id ids ih => exact ih (audit.consume transaction id)

theorem foldl_produce_same :
    (ids.foldl (produce transaction) audit).transactions = audit.transactions ∧
      (ids.foldl (produce transaction) audit).inputs = audit.inputs := by
  induction ids generalizing audit with
  | nil => exact ⟨rfl, rfl⟩
  | cons id ids ih => exact ih (audit.produce transaction id)

end

variable (audit : Audit) (moment : Moment) (entry : AuditEntry) (id : Hash)

theorem get?_transactions_record :
    (audit.record moment entry).transactions.get? id =
      if id = entry.id then
        some (AuditRecord.format.write ⟨entry.inputs, entry.outputs, moment⟩)
      else audit.transactions.get? id := by
  unfold record
  dsimp only
  rw [(foldl_produce_same _ _ _).1, (foldl_consume_same _ _ _).1]
  exact Table.get?_put _ _ _ _

theorem get?_inputs_record :
    (audit.record moment entry).inputs.get? id =
      if id ∈ entry.inputs then some entry.id else audit.inputs.get? id := by
  unfold record
  dsimp only
  rw [(foldl_produce_same _ _ _).2,
    look_foldl (fun audit => audit.inputs.get? id) fun _ _ => Table.get?_put _ _ _ _]
  rfl

theorem get?_outputs_record :
    (audit.record moment entry).outputs.get? id =
      if id ∈ entry.outputs then some entry.id else audit.outputs.get? id := by
  unfold record
  dsimp only
  rw [look_foldl (fun audit => audit.outputs.get? id) fun _ _ => Table.get?_put _ _ _ _,
    (foldl_consume_same _ _ _).2]
  rfl

/-- What a message produces is there afterwards, also if it consumes the same. -/
theorem get?_unspent_record :
    (audit.record moment entry).unspent.get? id =
      if id ∈ entry.outputs then some entry.id
      else if id ∈ entry.inputs then none
      else audit.unspent.get? id := by
  unfold record
  dsimp only
  rw [look_foldl (fun audit => audit.unspent.get? id) fun _ _ => Table.get?_put _ _ _ _,
    look_foldl (fun audit => audit.unspent.get? id) fun _ _ => Table.get?_erase _ _ _]
  rfl

end Audit

/-! ## All messages -/

/-- The last of these that `p` holds of. -/
def lastThat {α : Type} (p : α → Prop) [DecidablePred p] (as : List α) : Option α :=
  as.reverse.find? p

section
variable {α : Type} {p : α → Prop} [DecidablePred p] {as : List α} {a : α}

theorem lastThat_append_singleton (as : List α) (a : α) :
    lastThat p (as ++ [a]) = if p a then some a else lastThat p as := by
  unfold lastThat
  rw [List.reverse_append, List.reverse_singleton, List.singleton_append, List.find?_cons]
  by_cases h : p a <;> simp [h]

theorem lastThat_eq_some_iff :
    lastThat p as = some a ↔
      p a ∧ ∃ before later, as = before ++ a :: later ∧ ∀ x ∈ later, ¬ p x := by
  unfold lastThat
  rw [List.find?_eq_some_iff_append]
  constructor
  · rintro ⟨hp, later, before, hsplit, hlater⟩
    refine ⟨by simpa using hp, before.reverse, later.reverse, ?_, ?_⟩
    · rw [← List.reverse_reverse as, hsplit]
      simp
    · intro x hx
      simpa using hlater x (List.mem_reverse.1 hx)
  · rintro ⟨hp, before, later, rfl, hlater⟩
    refine ⟨by simpa using hp, later.reverse, before.reverse, by simp, ?_⟩
    intro x hx
    simpa using hlater x (List.mem_reverse.1 hx)

theorem lastThat_eq_none_iff : lastThat p as = none ↔ ∀ a ∈ as, ¬ p a := by
  unfold lastThat
  simp

theorem mem_of_lastThat (h : lastThat p as = some a) : a ∈ as := by
  obtain ⟨_, before, later, rfl, _⟩ := lastThat_eq_some_iff.1 h
  simp

end

/-- Whether a message has to do with an entry. -/
def Telling.Mentions (id : Hash) (m : Telling) : Prop := id ∈ m.inputs ∨ id ∈ m.outputs

instance (id : Hash) : DecidablePred (Telling.Mentions id) :=
  fun m => inferInstanceAs (Decidable (id ∈ m.inputs ∨ id ∈ m.outputs))

namespace Audit

/-- What each stored message changes if it has to do with something, is as the last such message
left it. -/
theorem look_told {β : Type} (look : Audit → Option β) {p : Telling → Prop} [DecidablePred p]
    {value : Telling → Option β} (hempty : look empty = none)
    (hrecord : ∀ audit m, look (record audit m.moment m.toAuditEntry) =
      if p m then value m else look audit) (ms : List Telling) :
    look (told ms) = (lastThat p (stored ms)).bind value := by
  induction ms using List.reverseRecOn with
  | nil => exact hempty
  | append_singleton ms m ih =>
    rw [told_append_singleton, stored_append_singleton]
    by_cases hstored : m.Succeeds
    · rw [if_pos hstored, if_pos hstored, hrecord, lastThat_append_singleton, ih]
      by_cases hp : p m
      · rw [if_pos hp, if_pos hp]
        rfl
      · rw [if_neg hp, if_neg hp]
    · rw [if_neg hstored, if_neg hstored, ih]

variable (ms : List Telling) (id : Hash)

theorem get?_transactions_told :
    (told ms).transactions.get? id =
      (lastThat (fun m => id = m.id) (stored ms)).map Telling.bytes := by
  rw [Option.map_eq_bind]
  exact look_told (fun audit => audit.transactions.get? id) rfl
    (fun audit m => get?_transactions_record audit m.moment m.toAuditEntry id) ms

theorem get?_inputs_told :
    (told ms).inputs.get? id =
      (lastThat (fun m => id ∈ m.inputs) (stored ms)).map fun m => m.id := by
  rw [Option.map_eq_bind]
  exact look_told (fun audit => audit.inputs.get? id) rfl
    (fun audit m => get?_inputs_record audit m.moment m.toAuditEntry id) ms

theorem get?_outputs_told :
    (told ms).outputs.get? id =
      (lastThat (fun m => id ∈ m.outputs) (stored ms)).map fun m => m.id := by
  rw [Option.map_eq_bind]
  exact look_told (fun audit => audit.outputs.get? id) rfl
    (fun audit m => get?_outputs_record audit m.moment m.toAuditEntry id) ms

theorem get?_unspent_told :
    (told ms).unspent.get? id =
      (lastThat (Telling.Mentions id) (stored ms)).bind fun m =>
        if id ∈ m.outputs then some m.id else none := by
  refine look_told (fun audit => audit.unspent.get? id) rfl (fun audit m => ?_) ms
  rw [get?_unspent_record]
  unfold Telling.Mentions
  by_cases hproduced : id ∈ m.outputs <;> by_cases hconsumed : id ∈ m.inputs <;>
    simp [hproduced, hconsumed]

/-- An entry is unspent just if the last message that has to do with it produced it. -/
theorem isUnspent_told :
    (told ms).isUnspent id = true ↔
      ∃ m, lastThat (Telling.Mentions id) (stored ms) = some m ∧ id ∈ m.outputs := by
  unfold isUnspent
  rw [Table.contains_iff_get?, get?_unspent_told]
  cases lastThat (Telling.Mentions id) (stored ms) with
  | none => simp
  | some m => by_cases hproduced : id ∈ m.outputs <;> simp [hproduced]

/-- What is asked of a transaction is what the last message of it said. -/
theorem get_told :
    (told ms).get id = .ok ((lastThat (fun m => id = m.id) (stored ms)).map fun m =>
      ⟨m.inputs, m.outputs, m.moment⟩) := by
  unfold get
  rw [get?_transactions_told]
  cases lastThat (fun m => id = m.id) (stored ms) with
  | none => rfl
  | some m => simp [m.ofBytes_bytes]

/-- What the tables say of each other, and of the messages that were stored. -/
structure Consistent (audit : Audit) (ms : List Telling) : Prop where
  /-- The lists of the last message of a transaction are kept as they were. -/
  record : ∀ id, (audit.get id).map (Option.map fun r => (r.inputs, r.outputs)) =
    .ok ((lastThat (fun m => id = m.id) ms).map fun m => (m.inputs, m.outputs))
  input : ∀ id, audit.inputs.get? id = (lastThat (fun m => id ∈ m.inputs) ms).map fun m => m.id
  output : ∀ id, audit.outputs.get? id = (lastThat (fun m => id ∈ m.outputs) ms).map fun m => m.id
  unspent : ∀ id, audit.isUnspent id = true ↔
    ∃ m, lastThat (Telling.Mentions id) ms = some m ∧ id ∈ m.outputs
  /-- What is unspent was produced, by the same transaction. -/
  produced : ∀ e ∈ audit.unspent.entries, e ∈ audit.outputs.entries
  /-- There is a record of each transaction that a table names. -/
  recorded : ∀ e, e ∈ audit.inputs.entries ∨ e ∈ audit.outputs.entries ∨ e ∈ audit.unspent.entries →
    ∃ r, audit.get e.2 = .ok (some r)

/-- The last message that has to do with an entry is also the last one that produces it, if it
does. -/
theorem output_of_unspent {e : Hash × Hash} (h : e ∈ (told ms).unspent.entries) :
    e ∈ (told ms).outputs.entries := by
  obtain ⟨id, transaction⟩ := e
  rw [← Table.get?_eq_some_iff, get?_unspent_told, Option.bind_eq_some_iff] at h
  obtain ⟨m, hlast, hproduced⟩ := h
  split at hproduced
  · rename_i hmem
    obtain ⟨_, before, later, hsplit, hlater⟩ := lastThat_eq_some_iff.1 hlast
    have houtput : lastThat (fun m => id ∈ m.outputs) (stored ms) = some m :=
      lastThat_eq_some_iff.2
        ⟨hmem, before, later, hsplit, fun x hx hx' => hlater x hx (Or.inr hx')⟩
    rw [← Table.get?_eq_some_iff, get?_outputs_told, houtput]
    exact hproduced
  · cases hproduced

/-- A message that was stored has left a record of its transaction, if not the last one. -/
theorem recorded_of_mem {m : Telling} (h : m ∈ stored ms) :
    ∃ r, (told ms).get m.id = .ok (some r) := by
  rw [get_told]
  cases hlast : lastThat (fun x : Telling => m.id = x.id) (stored ms) with
  | none => exact absurd rfl (lastThat_eq_none_iff.1 hlast m h)
  | some x => exact ⟨_, rfl⟩

theorem recorded_of_output {e : Hash × Hash} (h : e ∈ (told ms).outputs.entries) :
    ∃ r, (told ms).get e.2 = .ok (some r) := by
  obtain ⟨id, transaction⟩ := e
  rw [← Table.get?_eq_some_iff, get?_outputs_told, Option.map_eq_some_iff] at h
  obtain ⟨m, hlast, rfl⟩ := h
  exact recorded_of_mem ms (mem_of_lastThat hlast)

theorem recorded_of_input {e : Hash × Hash} (h : e ∈ (told ms).inputs.entries) :
    ∃ r, (told ms).get e.2 = .ok (some r) := by
  obtain ⟨id, transaction⟩ := e
  rw [← Table.get?_eq_some_iff, get?_inputs_told, Option.map_eq_some_iff] at h
  obtain ⟨m, hlast, rfl⟩ := h
  exact recorded_of_mem ms (mem_of_lastThat hlast)

end Audit

/-- The four tables agree with each other and with what the audit was told. Whatever messages come,
and whichever of them cannot be stored, a table names the last stored message that had to do with
an identifier, and an entry is unspent just if that message produced it. A message that cannot be
stored leaves no trace. -/
theorem the_tables_name_the_last_message (ms : List Telling) :
    (Audit.told ms).Consistent (Audit.stored ms) ∧
      ∀ m : Telling, ¬ m.Succeeds →
        (Audit.told ms).tell m = (.error .storage, Audit.told ms) ∧
          Audit.told (ms ++ [m]) = Audit.told ms ∧ Audit.stored (ms ++ [m]) = Audit.stored ms := by
  refine ⟨?_, ?_⟩
  · refine ⟨?_, Audit.get?_inputs_told ms, Audit.get?_outputs_told ms, Audit.isUnspent_told ms,
      fun e he => Audit.output_of_unspent ms he, ?_⟩
    · intro id
      rw [Audit.get_told]
      cases lastThat (fun m : Telling => id = m.id) (Audit.stored ms) <;> rfl
    · rintro e (he | he | he)
      · exact Audit.recorded_of_input ms he
      · exact Audit.recorded_of_output ms he
      · exact Audit.recorded_of_output ms (Audit.output_of_unspent ms he)
  · intro m hfails
    refine ⟨?_, ?_, ?_⟩
    · rw [Audit.tell_eq, if_neg hfails]
    · rw [Audit.told_append_singleton, if_neg hfails]
    · rw [Audit.stored_append_singleton, if_neg hfails]

namespace Sample

/-- An identifier that is the same byte all over. -/
def mark (byte : UInt8) : Hash := ⟨List.replicate 32 byte, List.length_replicate⟩

/-- A transaction that produces two entries. -/
def paying : Telling where
  id := mark 1
  inputs := [mark 10]
  outputs := [mark 11, mark 12]
  moment := ⟨0x4000000000000000, 0⟩
  fault := none
  inputs_lt := by decide
  outputs_lt := by decide
  moment_inRange := by decide

/-- A transaction that consumes one of them. -/
def spending : Telling where
  id := mark 2
  inputs := [mark 11]
  outputs := [mark 13]
  moment := ⟨0x4000000000000001, 0⟩
  fault := none
  inputs_lt := by decide
  outputs_lt := by decide
  moment_inRange := by decide

/-- Storing it fails at the third write, when the entry is already taken out of the copy. -/
def unstorable : Telling := { spending with fault := some 3 }

theorem not_succeeds_unstorable : ¬ unstorable.Succeeds := by decide

/-- Of two transactions the second is not stored, and the entry that it consumes stays unspent. -/
theorem the_second_message_leaves_no_trace :
    ¬ unstorable.Succeeds ∧
      Audit.told [paying, unstorable] = Audit.told [paying] ∧
      (Audit.told [paying, unstorable]).isUnspent (mark 11) = true ∧
      (Audit.told [paying, unstorable]).get (mark 2) = .ok none := by
  obtain ⟨hpaying, hfails⟩ := the_tables_name_the_last_message [paying]
  obtain ⟨_, htold, _⟩ := hfails unstorable not_succeeds_unstorable
  have hsame : Audit.told [paying, unstorable] = Audit.told [paying] := htold
  refine ⟨not_succeeds_unstorable, hsame, ?_, ?_⟩
  · rw [hsame, hpaying.unspent]
    exact ⟨paying, rfl, by decide⟩
  · rw [hsame]
    decide +kernel

end Sample

end Admission
