-- What a sentinel passes on of a request that it was sent. Numbers may arrive in
-- longer forms than needed, and never in shorter ones, so whatever was read takes
-- no more room when it is written again.
import Admission.Proofs.Configuration
import Admission.Proofs.Frames
import Admission.Proofs.Lengths

namespace Admission

/-! ## Writing again -/

namespace Format

variable {α β : Type} {f : Format α}

/-- Written again, a value takes no more room than it was read from. -/
def NeverGrows (f : Format α) : Prop :=
  ∀ input a rest, f.read input = .ok (a, rest) → (f.write a).length + rest.length ≤ input.length

theorem bytes_neverGrows (n : Nat) : (bytes n).NeverGrows := by
  intro input b rest h
  unfold bytes at h
  dsimp only at h
  split at h
  · cases h
  · rename_i hlong
    obtain ⟨rfl, rfl⟩ := Prod.mk.inj (Except.ok.inj h)
    simp only [bytes, List.length_take, List.length_drop]
    omega

/-- Bytes that are taken off stood in front of the others. -/
theorem append_of_takeBytes {n : Nat} {input front rest : List UInt8}
    (h : takeBytes n input = .ok (front, rest)) : front.length = n ∧ front ++ rest = input := by
  unfold takeBytes at h
  split at h
  · cases h
  · rename_i hlong
    rw [List.splitAt_eq] at h
    cases h
    refine ⟨?_, List.take_append_drop n input⟩
    rw [List.length_take]
    omega

theorem pair_neverGrows {g : Format β} (hf : f.NeverGrows) (hg : g.NeverGrows) :
    (f.pair g).NeverGrows := by
  intro input p rest h
  obtain ⟨⟨a, between⟩, ha, h⟩ := exists_ok_of_bind h
  obtain ⟨⟨b, behind⟩, hb, h⟩ := exists_ok_of_map h
  cases h
  have ha := hf input a between ha
  have hb := hg between b rest hb
  have hwrite : (f.pair g).write (a, b) = f.write a ++ g.write b := rfl
  rw [hwrite, List.length_append]
  omega

theorem view_neverGrows {into : α → β} {back : β → α} (hf : f.NeverGrows)
    (hback : ∀ a, (f.write (back (into a))).length ≤ (f.write a).length) :
    (f.view into back).NeverGrows := by
  intro input b rest h
  obtain ⟨⟨a, behind⟩, ha, h⟩ := exists_ok_of_map h
  cases h
  exact Nat.le_trans (Nat.add_le_add_right (hback a) _) (hf input a rest ha)

theorem accept_neverGrows {into : α → Except ReadError β} {back : β → α} (hf : f.NeverGrows)
    (hback : ∀ a b, into a = .ok b → (f.write (back b)).length ≤ (f.write a).length) :
    (f.accept into back).NeverGrows := by
  intro input b rest h
  obtain ⟨⟨a, behind⟩, ha, h⟩ := exists_ok_of_bind h
  obtain ⟨_, hb, h⟩ := exists_ok_of_map h
  cases h
  exact Nat.le_trans (Nat.add_le_add_right (hback a b hb) _) (hf input a rest ha)

/-- As many values are read as were asked for. -/
theorem readMany_neverGrows (hf : f.NeverGrows) {n : Nat} {input rest : List UInt8} {as : List α}
    (h : f.readMany n input = .ok (as, rest)) :
    as.length = n ∧ (as.flatMap f.write).length + rest.length ≤ input.length := by
  induction n generalizing input as with
  | zero =>
    cases h
    exact ⟨rfl, Nat.le_of_eq (Nat.zero_add _)⟩
  | succ n ih =>
    obtain ⟨⟨a, between⟩, ha, h⟩ := exists_ok_of_bind h
    obtain ⟨⟨later, behind⟩, hlater, h⟩ := exists_ok_of_map h
    cases h
    have ha := hf input a between ha
    obtain ⟨hcount, hlength⟩ := ih hlater
    refine ⟨congrArg (· + 1) hcount, ?_⟩
    rw [List.flatMap_cons, List.length_append]
    omega

theorem list_neverGrows {count : Format Nat} (hcount : count.NeverGrows) (hf : f.NeverGrows) :
    (list count f).NeverGrows := by
  intro input as rest h
  obtain ⟨⟨n, between⟩, hn, h⟩ := exists_ok_of_bind h
  obtain ⟨rfl, hlength⟩ := readMany_neverGrows hf h
  have hn := hcount input as.length between hn
  have hwrite : (list count f).write as = count.write as.length ++ as.flatMap f.write := rfl
  rw [hwrite, List.length_append]
  omega

/-- Whatever is read behind the number of a variant has to be of this variant. -/
theorem oneOf_neverGrows {numbers : Format Nat} {count : Nat} {number : α → Nat}
    {body : Nat → Format α} (hnumbers : numbers.NeverGrows)
    (hbody : ∀ n < count, (body n).NeverGrows ∧
      ∀ input a rest, (body n).read input = .ok (a, rest) → number a = n) :
    (oneOf numbers count number body).NeverGrows := by
  intro input a rest h
  obtain ⟨⟨n, between⟩, hn, h⟩ := exists_ok_of_bind h
  obtain ⟨⟨found, behind⟩, hfound, hn⟩ := exists_ok_of_bind hn
  obtain ⟨_, haccepted, hn⟩ := exists_ok_of_map hn
  cases hn
  -- The number of a variant that there is not is refused.
  dsimp only at haccepted
  split at haccepted
  · cases haccepted
  split at haccepted
  · cases haccepted
  rename_i hknown
  cases haccepted
  obtain ⟨hgrows, hnumber⟩ := hbody n (Nat.not_le.1 hknown)
  have hfound := hnumbers input n between hfound
  have ha := hgrows between a rest h
  have hwrite : (oneOf numbers count number body).write a =
      numbers.write (number a) ++ (body (number a)).write a := rfl
  rw [hwrite, hnumber between a rest h, List.length_append]
  omega

theorem length_le_of_readAll {payload : List UInt8} {a : α} (hf : f.NeverGrows)
    (h : f.readAll payload = .ok a) : (f.write a).length ≤ payload.length := by
  unfold readAll at h
  split at h
  · cases h
  · rename_i found rest hread
    split at h
    · cases h
      exact Nat.le_trans (Nat.le_add_right _ _) (hf payload a rest hread)
    · cases h

end Format

/-! ## Numbers -/

theorem ofLittleEndian_lt (bytes : List UInt8) : ofLittleEndian bytes < bytesLimit bytes.length := by
  induction bytes with
  | nil => decide
  | cons b rest ih =>
    have hb := b.toNat_lt
    simp only [ofLittleEndian, List.length_cons, bytesLimit]
    omega

namespace Varint

/-- A number that fits so many bytes is not written with more of them behind its mark. -/
theorem length_write_le_of_lt {width n : Nat} (hwidth : width = 2 ∨ width = 4 ∨ width = 8)
    (h : n < bytesLimit width) : (write n).length ≤ width + 1 := by
  rw [length_write]
  rcases hwidth with rfl | rfl | rfl
  · simp only [bytesLimit] at h
    split_ifs <;> omega
  · simp only [bytesLimit] at h
    split_ifs <;> omega
  · split_ifs <;> decide

theorem length_write_of_lowFirst {width n : Nat} {input rest : List UInt8}
    (hwidth : width = 2 ∨ width = 4 ∨ width = 8)
    (h : (Format.lowFirst width).read input = .ok (n, rest)) :
    (write n).length + rest.length ≤ input.length + 1 := by
  obtain ⟨⟨low, behind⟩, hlow, h⟩ := exists_ok_of_map h
  cases h
  obtain ⟨hwidth', rfl⟩ := Format.append_of_takeBytes hlow
  have hwrite := length_write_le_of_lt hwidth (hwidth' ▸ ofLittleEndian_lt low)
  rw [List.length_append]
  omega

/-- A mark may stand in front of a number that is small enough to do with less. -/
theorem format_neverGrows : format.NeverGrows := by
  intro input n rest h
  cases input with
  | nil => cases h
  | cons mark behind =>
    have h : read (mark :: behind) = .ok (n, rest) := h
    have hwrite : format.write n = write n := rfl
    rw [hwrite, List.length_cons]
    rw [read] at h
    by_cases hsmall : mark.toNat < smallLimit
    · rw [if_pos hsmall] at h
      cases h
      rw [length_write, if_pos hsmall, Nat.add_comm]
    rw [if_neg hsmall] at h
    by_cases h16 : mark = mark16
    · rw [if_pos h16] at h
      exact length_write_of_lowFirst (Or.inl rfl) h
    rw [if_neg h16] at h
    by_cases h32 : mark = mark32
    · rw [if_pos h32] at h
      exact length_write_of_lowFirst (Or.inr (Or.inl rfl)) h
    rw [if_neg h32] at h
    by_cases h64 : mark = mark64
    · rw [if_pos h64] at h
      exact length_write_of_lowFirst (Or.inr (Or.inr rfl)) h
    rw [if_neg h64] at h
    split at h <;> cases h

end Varint

/-! ## Messages -/

theorem PublicKey.eq_toList_of_ofBytes [Crypto] {bytes : List UInt8} {key : PublicKey}
    (h : PublicKey.ofBytes bytes = .ok key) : bytes = key.toList := by
  unfold PublicKey.ofBytes at h
  split at h
  · cases h
  · rename_i found hfound
    split at h
    · cases h
      exact ByteString.ofList?_eq_some.1 hfound
    · cases h

namespace Wire

theorem word_neverGrows : word.NeverGrows := by
  refine Format.view_neverGrows Varint.format_neverGrows fun n => ?_
  apply Varint.length_write_mono
  rw [UInt64.toNat_ofNat']
  exact Nat.mod_le _ _

theorem many_neverGrows {α : Type} {f : Format α} (hf : f.NeverGrows) : (many f).NeverGrows :=
  Format.list_neverGrows Varint.format_neverGrows hf

theorem output_neverGrows : output.NeverGrows :=
  Format.view_neverGrows (Format.pair_neverGrows (Format.bytes_neverGrows 32) word_neverGrows)
    fun _ => Nat.le_refl _

theorem input_neverGrows : input.NeverGrows := by
  have houtpoint : outpoint.NeverGrows :=
    Format.view_neverGrows (Format.pair_neverGrows (Format.bytes_neverGrows 32) word_neverGrows)
      fun _ => Nat.le_refl _
  exact Format.view_neverGrows (Format.pair_neverGrows houtpoint output_neverGrows)
    fun _ => Nat.le_refl _

theorem signature_neverGrows : signature.NeverGrows := by
  refine Format.accept_neverGrows (Format.bytes_neverGrows 64) fun s s' h => ?_
  split at h
  · cases h
    exact Nat.le_refl _
  · cases h

variable [Crypto]

theorem publicKey_neverGrows : publicKey.NeverGrows := by
  intro input key rest h
  obtain ⟨⟨length, between⟩, hlength, hread⟩ := exists_ok_of_bind h
  obtain ⟨⟨bytes, behind⟩, hbytes, hchecked⟩ := exists_ok_of_bind hread
  obtain ⟨rfl, rfl⟩ := Format.append_of_takeBytes hbytes
  -- A key of another length is refused, so what is written is the length that was read.
  have hlength := Varint.format_neverGrows input bytes.length _ hlength
  dsimp only at hchecked
  cases hkey : PublicKey.ofBytes bytes with
  | error cause =>
    rw [hkey] at hchecked
    cases hchecked
  | ok found =>
    rw [hkey] at hchecked
    cases hchecked
    rw [PublicKey.eq_toList_of_ofBytes hkey, List.length_append] at hlength
    have hwrite : publicKey.write key = Varint.format.write key.toList.length ++ key.toList := rfl
    rw [hwrite, List.length_append]
    omega

theorem witness_neverGrows : witness.NeverGrows :=
  Format.view_neverGrows (Format.pair_neverGrows publicKey_neverGrows signature_neverGrows)
    fun _ => Nat.le_refl _

theorem transaction_neverGrows : transaction.NeverGrows :=
  Format.view_neverGrows
    (Format.pair_neverGrows (many_neverGrows input_neverGrows)
      (Format.pair_neverGrows (many_neverGrows output_neverGrows)
        (many_neverGrows witness_neverGrows)))
    fun _ => Nat.le_refl _

theorem request_neverGrows : request.NeverGrows := by
  unfold request oneOf
  refine Format.oneOf_neverGrows Varint.format_neverGrows fun n hn => ?_
  obtain rfl | rfl : n = 0 ∨ n = 1 := by omega
  · refine ⟨Format.view_neverGrows transaction_neverGrows fun _ => Nat.le_refl _, ?_⟩
    intro input r rest h
    obtain ⟨_, _, h⟩ := exists_ok_of_map h
    cases h
    rfl
  · refine ⟨Format.view_neverGrows transaction_neverGrows fun _ => Nat.le_refl _, ?_⟩
    intro input r rest h
    obtain ⟨_, _, h⟩ := exists_ok_of_map h
    cases h
    rfl

end Wire

/-! ## What is passed on -/

namespace OtherEnd

variable {α β : Type} {o : OtherEnd} {f : Format α} {g : Format β}

/-- What comes back comes behind a request that was written. -/
theorem firstReceived_ne_unwritten : o.firstReceived g ≠ .unwritten := by
  unfold firstReceived
  dsimp only
  split
  · simp
  · simp
  · split <;> simp
  · simp
  · simp

/-- A request that fits a frame is only not written where the other end does not take all of it. -/
theorem exists_room_of_unwritten {limit : Nat} {request : α} {bytes : List UInt8}
    (hsend : Wire.send f request = some bytes)
    (h : (o.exchange limit f g request).received = .unwritten) :
    ∃ room < bytes.length, o.room = some room := by
  unfold exchange at h
  dsimp only at h
  rw [hsend] at h
  split at h
  · cases h
  dsimp only at h
  split at h
  · rename_i hshort
    cases hroom : o.room with
    | none =>
      rw [hroom] at hshort
      exact absurd hshort (Nat.lt_irrefl _)
    | some room =>
      rw [hroom] at hshort
      exact ⟨room, hshort, rfl⟩
  · exact absurd h firstReceived_ne_unwritten

end OtherEnd

section
variable [Crypto]

/-- What goes to the coordinator of a transaction with inputs is shorter than the request, as
nothing remains of an input but its identifier. -/
theorem Wire.length_summary_lt {t : Transaction} (h : t.inputs ≠ []) :
    (coordinatorRequest.write (.execute (.ofTransaction t))).length <
      (request.write (.execute t)).length := by
  have hrequest := le_length_write_request (.execute t)
  have hsome := List.length_pos_iff.2 h
  have hinputs : (Summary.ofTransaction t).inputs.length = t.inputs.length := List.length_map _
  have houtputs : (Summary.ofTransaction t).outputs.length = t.outputs.length := List.length_mapIdx
  have hnobody : (Summary.ofTransaction t).attestations.entries.length = 0 := rfl
  have hzero : (Varint.write 0).length = 1 := rfl
  simp only [Request.transaction] at hrequest
  rw [length_write_coordinatorRequest, hinputs, houtputs, hnobody, hzero]
  omega

/-- What was sent to a sentinel can be passed on. A request to attest the transaction takes no more
room than the request that arrived, so it fits a frame too, and is written unless the other end does
not take it. What goes to the coordinator of a valid transaction takes less, as long as nobody has
attested it. -/
theorem what_arrived_can_be_passed_on {payload : List UInt8} {t : Transaction}
    (h : Wire.request.readAll payload = .ok (.execute t)) :
    (Wire.request.write (.validate t)).length ≤ payload.length ∧
      (∀ bytes rest, Wire.firstFrame bytes = .ok (some (payload, rest)) →
        ∃ frame, Wire.send Wire.request (.validate t) = some frame ∧
          ∀ (o : OtherEnd) (limit : Nat), (o.call limit (.validate t)).received = .unwritten →
            ∃ room < frame.length, o.room = some room) ∧
      (t.violation = none →
        (Wire.coordinatorRequest.write (.execute (.ofTransaction t))).length < payload.length) := by
  have harrived := Format.length_le_of_readAll Wire.request_neverGrows h
  have hpassed : (Wire.request.write (.validate t)).length ≤ payload.length := harrived
  refine ⟨hpassed, ?_, ?_⟩
  · intro bytes rest hfirst
    obtain ⟨whole, hframe, _⟩ := Wire.firstFrame_eq_some_iff.1 hfirst
    have hfits := Nat.le_trans hpassed (Wire.length_le_of_frame hframe)
    obtain ⟨frame, hsend⟩ := Wire.exists_send_iff_fits.2 hfits
    exact ⟨frame, hsend, fun o limit hunwritten => OtherEnd.exists_room_of_unwritten hsend hunwritten⟩
  · intro hvalid
    have hsome := Transaction.violation_eq_none_iff.1 hvalid .someInputs
    exact Nat.lt_of_lt_of_le (Wire.length_summary_lt hsome) harrived

end

namespace Sample

attribute [local instance] standardCrypto

/-- The request of the sample, with the number of its variant in a longer form than needed. -/
def padded : List UInt8 := [251, 0, 0] ++ Wire.transaction.write transaction

theorem readAll_padded : Wire.request.readAll padded = .ok (.execute transaction) := by
  decide +kernel

/-- Two bytes are saved on the way to another sentinel. -/
theorem a_padded_request_can_be_passed_on :
    Wire.request.readAll padded = .ok (.execute transaction) ∧ transaction.violation = none ∧
      (Wire.request.write (.validate transaction)).length + 2 = padded.length ∧
      ∃ bytes frame, Wire.firstFrame bytes = .ok (some (padded, [])) ∧
        Wire.send Wire.request (.validate transaction) = some frame ∧
        (Wire.coordinatorRequest.write (.execute (.ofTransaction transaction))).length <
          padded.length := by
  obtain ⟨_, hframe, hsummary⟩ := what_arrived_can_be_passed_on readAll_padded
  have hlimit : ¬ Wire.frameLimit < padded.length := by decide +kernel
  have hfirst := Wire.firstFrame_frame [] (if_neg hlimit)
  obtain ⟨frame, hsend, _⟩ := hframe _ _ hfirst
  exact ⟨readAll_padded, violation_transaction, by decide +kernel, _, frame, hfirst, hsend,
    hsummary violation_transaction⟩

end Sample

end Admission
