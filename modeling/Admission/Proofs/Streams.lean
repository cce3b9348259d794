-- Streams of messages between a sender and a receiver. What was sent is read
-- however its bytes are cut into pieces. Of a stream that ends early just those
-- messages are read whose frames have come as a whole.
import Admission.Proofs.Deliveries

namespace Admission

namespace Wire

variable {α : Type} {f : Format α} {messages : List α} {a : α}

/-! ## Parts of a frame -/

theorem length_of_frame {payload bytes : List UInt8} (h : frame payload = some bytes) :
    bytes.length = headerLength + payload.length := by
  unfold frame at h
  split at h
  · cases h
  · cases h
    simp

theorem length_le_of_frame {payload bytes : List UInt8} (h : frame payload = some bytes) :
    payload.length ≤ frameLimit := by
  unfold frame at h
  split at h
  · cases h
  · rename_i hlimit
    exact Nat.not_lt.1 hlimit

/-- Nothing is read of a frame before its last byte has come. -/
theorem firstFrame_of_part {payload bytes part : List UInt8} (hframe : frame payload = some bytes)
    (hpart : part <+: bytes) (hshort : part.length < bytes.length) :
    firstFrame part = .ok none := by
  have hlength := length_of_frame hframe
  have hlimit := length_le_of_frame hframe
  obtain ⟨missing, hmissing⟩ := hpart
  unfold firstFrame
  by_cases hheader : part.length < headerLength
  · simp [hheader]
  · -- The header is there, and says how long the payload is.
    have htake : part.take headerLength = bigEndian headerLength payload.length := by
      have hwhole : bytes.take headerLength = bigEndian headerLength payload.length := by
        unfold frame at hframe
        rw [if_neg (Nat.not_lt.2 hlimit)] at hframe
        cases hframe
        exact List.take_left' (length_bigEndian _ _)
      rw [← hwhole, ← hmissing, List.take_append_of_le_length (Nat.not_lt.1 hheader)]
    have hread : ofBigEndian (part.take headerLength) = payload.length := by
      rw [htake]
      exact ofBigEndian_bigEndian _ _ (Nat.lt_of_le_of_lt hlimit (by decide))
    have hbehind : (part.drop headerLength).length < payload.length := by
      rw [List.length_drop]
      omega
    simp only [hread, if_neg hheader, if_neg (Nat.not_lt.2 hlimit), if_pos hbehind]

theorem Inbox.ofBytes_of_part {part : List UInt8} (h : firstFrame part = .ok none) :
    Inbox.ofBytes f part = ⟨[], part, none⟩ := by
  rw [Inbox.ofBytes]
  split
  · rename_i e; rw [h] at e; cases e
  · rfl
  · rename_i e; rw [h] at e; cases e

/-! ## Senders -/

/-- A message that a frame has room for. -/
def Fits (f : Format α) (a : α) : Prop := (f.write a).length ≤ frameLimit

theorem exists_send_iff_fits : (∃ bytes, send f a = some bytes) ↔ Fits f a := by
  unfold send frame Fits
  by_cases h : frameLimit < (f.write a).length
  · simp [h]
  · simp [h, Nat.not_lt.1 h]

theorem sendAll_cons {bytes : List UInt8} (h : send f a = some bytes) (rest : List α) :
    sendAll f (a :: rest) = bytes ++ sendAll f rest := by
  simp [sendAll, h]

/-- Behind messages that fit, the others are written as they are alone. -/
theorem sendAll_append (h : ∀ a ∈ messages, Fits f a) (others : List α) :
    sendAll f (messages ++ others) = sendAll f messages ++ sendAll f others := by
  induction messages with
  | nil => rfl
  | cons a rest ih =>
    obtain ⟨bytes, hsend⟩ := exists_send_iff_fits.2 (h a List.mem_cons_self)
    rw [List.cons_append, sendAll_cons hsend, sendAll_cons hsend, List.append_assoc,
      ih fun b hb => h b (List.mem_cons_of_mem a hb)]

/-- A message that does not fit is refused, and nothing of it is written. -/
theorem sendAll_of_not_fits (h : ¬ Fits f a) (before later : List α) :
    sendAll f (before ++ a :: later) = sendAll f before := by
  induction before with
  | nil =>
    cases hsend : send f a with
    | none => simp [sendAll, hsend]
    | some bytes => exact absurd (exists_send_iff_fits.1 ⟨bytes, hsend⟩) h
  | cons b before ih =>
    simp only [List.cons_append, sendAll, ih]

/-! ## Streams that end early -/

/-- How many of the first `n` bytes of a stream lie behind the frames of its first `k` messages. -/
def overhang (f : Format α) (messages : List α) (n k : Nat) : Nat :=
  min n (sendAll f messages).length - (sendAll f (messages.take k)).length

/-- What a receiver has of these messages when the stream ends after `n` bytes: the first `k` of
them, whose frames have come as a whole, and a fault if more than a length has come of the next
frame, or less. -/
structure CutAfter (f : Format α) (messages : List α) (n k : Nat) (inbox : Inbox α) : Prop where
  among : k ≤ messages.length
  complete : ∀ j ≤ messages.length, (sendAll f (messages.take j)).length ≤ n ↔ j ≤ k
  yields : inbox.messages = messages.take k
  fault : inbox.fault =
    if overhang f messages n k = 0 ∨ overhang f messages n k = headerLength then none
    else some .cutOff

/-- The first bytes of a stream are some whole frames and a part of another one. -/
theorem exists_take_sendAll (hfits : ∀ a ∈ messages, Fits f a) (n : Nat) :
    ∃ k part, k ≤ messages.length ∧
      (sendAll f messages).take n = sendAll f (messages.take k) ++ part ∧
      (∀ j ≤ messages.length, (sendAll f (messages.take j)).length ≤ n ↔ j ≤ k) ∧
      firstFrame part = .ok none := by
  induction messages generalizing n with
  | nil => exact ⟨0, [], Nat.le_refl 0, by simp [sendAll], by simp [sendAll], rfl⟩
  | cons a rest ih =>
    obtain ⟨bytes, hsend⟩ := exists_send_iff_fits.2 (hfits a List.mem_cons_self)
    have hcons := sendAll_cons hsend
    by_cases hshort : n < bytes.length
    · refine ⟨0, bytes.take n, Nat.zero_le _, ?_, ?_, ?_⟩
      · rw [hcons, List.take_append_of_le_length (Nat.le_of_lt hshort)]
        simp [sendAll]
      · intro j hj
        cases j with
        | zero => simp [sendAll]
        | succ j =>
          rw [List.take_succ_cons, hcons, List.length_append]
          omega
      · refine firstFrame_of_part hsend (List.take_prefix n bytes) ?_
        rw [List.length_take]
        omega
    · obtain ⟨k, part, hk, htake, hcomplete, hpart⟩ :=
        ih (fun b hb => hfits b (List.mem_cons_of_mem a hb)) (n - bytes.length)
      refine ⟨k + 1, part, Nat.succ_le_succ hk, ?_, ?_, hpart⟩
      · rw [hcons, List.take_append, List.take_of_length_le (Nat.not_lt.1 hshort), htake,
          List.take_succ_cons, hcons, List.append_assoc]
      · intro j hj
        cases j with
        | zero => simp [sendAll]
        | succ j =>
          have hrest := hcomplete j (Nat.le_of_succ_le_succ hj)
          rw [List.take_succ_cons, hcons, List.length_append]
          omega

theorem cutAfter_ofStream {P : α → Prop} (hf : f.ReadsBack P)
    (h : ∀ a ∈ messages, P a ∧ Fits f a) {pieces : List (List UInt8)} {n : Nat}
    (hpieces : pieces.flatten = (sendAll f messages).take n) :
    ∃ k, CutAfter f messages n k (Inbox.ofStream f pieces) := by
  obtain ⟨k, part, hk, htake, hcomplete, hpart⟩ :=
    exists_take_sendAll (fun a ha => (h a ha).2) n
  have hread : Inbox.ofStream f pieces = (⟨messages.take k, part, none⟩ : Inbox α).close := by
    rw [Inbox.ofStream_eq, hpieces, htake,
      Inbox.ofBytes_sendAll hf _ part fun a ha => h a (List.mem_of_mem_take ha),
      Inbox.ofBytes_of_part hpart, List.append_nil]
  have hoverhang : overhang f messages n k = part.length := by
    have hlength := congrArg List.length htake
    rw [List.length_take, List.length_append] at hlength
    unfold overhang
    omega
  refine ⟨k, hk, hcomplete, ?_, ?_⟩
  · rw [hread, Inbox.messages_close]
  · rw [hread, hoverhang]
    unfold Inbox.close
    dsimp only
    split <;> rfl

/-- What a sender and a receiver of one format keep between them, for the messages in `P`. -/
structure Carries (f : Format α) (P : α → Prop) : Prop where
  /-- However the stream is cut into pieces, what was sent is read, and then the stream has
  ended. -/
  whole : ∀ (messages : List α) (pieces : List (List UInt8)), (∀ a ∈ messages, P a ∧ Fits f a) →
    pieces.flatten = sendAll f messages → Inbox.ofStream f pieces = ⟨messages, [], none⟩
  /-- So it is with a stream that ends early, as far as its frames have come. -/
  cut : ∀ (messages : List α) (pieces : List (List UInt8)) (n : Nat),
    (∀ a ∈ messages, P a ∧ Fits f a) → pieces.flatten = (sendAll f messages).take n →
      ∃ k, CutAfter f messages n k (Inbox.ofStream f pieces)
  /-- A message that does not fit a frame is refused, and nothing of it is written. -/
  refuses : ∀ a, (send f a = none ↔ ¬ Fits f a) ∧
    (¬ Fits f a → ∀ before later, sendAll f (before ++ a :: later) = sendAll f before)

theorem carries_of_readsBack {P Q : α → Prop} (hf : f.ReadsBack Q)
    (h : ∀ a, P a → Fits f a → Q a) : Carries f P := by
  have hread : ∀ messages : List α, (∀ a ∈ messages, P a ∧ Fits f a) →
      ∀ a ∈ messages, Q a ∧ Fits f a := by
    intro messages hmessages a ha
    obtain ⟨hP, hfits⟩ := hmessages a ha
    exact ⟨h a hP hfits, hfits⟩
  refine ⟨?_, ?_, ?_⟩
  · intro messages pieces hmessages hpieces
    have hwhole := Inbox.ofBytes_sendAll hf messages [] (hread messages hmessages)
    rw [List.append_nil, Inbox.ofBytes_nil] at hwhole
    rw [Inbox.ofStream_eq, hpieces, hwhole]
    simp [Inbox.empty, Inbox.close]
  · intro messages pieces n hmessages hpieces
    exact cutAfter_ofStream hf (hread messages hmessages) hpieces
  · intro a
    refine ⟨?_, fun hfits => sendAll_of_not_fits hfits⟩
    rw [← exists_send_iff_fits, ← Option.ne_none_iff_exists', not_not]

end Wire

/-! ## The messages of a fleet -/

section
variable [Crypto]

/-- Keys and signatures in it are ones that the scheme knows. -/
def Request.Genuine (r : Request) : Prop := ∀ w ∈ r.transaction.witnesses, w.Sendable

def CoordinatorRequest.Genuine : CoordinatorRequest → Prop
  | execute s => ∀ e ∈ s.attestations.entries, e.2.Sendable

/-- A request that fits a frame has lists that can be counted. -/
theorem Request.sendable_of_fits {r : Request} (h : r.Genuine) (hfits : Wire.Fits Wire.request r) :
    r.transaction.Sendable := by
  have hlength : (Wire.request.write (.validate r.transaction)).length =
      (Wire.request.write r).length := by
    cases r <;> rfl
  have hlimit : Wire.frameLimit < wireLimit := by decide
  obtain ⟨hinputs, houtputs, hwitnesses⟩ := r.transaction.lengths_le
  unfold Wire.Fits at hfits
  exact ⟨by omega, by omega, by omega, h⟩

theorem Summary.lengths_le (s : Summary) :
    s.inputs.length ≤ (Wire.coordinatorRequest.write (.execute s)).length ∧
      s.outputs.length ≤ (Wire.coordinatorRequest.write (.execute s)).length ∧
      s.attestations.entries.length ≤ (Wire.coordinatorRequest.write (.execute s)).length := by
  rw [Wire.length_write_coordinatorRequest]
  omega

theorem Summary.sendable_of_fits {s : Summary} (h : (CoordinatorRequest.execute s).Genuine)
    (hfits : Wire.Fits Wire.coordinatorRequest (.execute s)) : s.Sendable := by
  have hlimit : Wire.frameLimit < wireLimit := by decide
  obtain ⟨hinputs, houtputs, hattestations⟩ := s.lengths_le
  unfold Wire.Fits at hfits
  exact ⟨by omega, by omega, by omega, h⟩

/-- Reading undoes writing. What callers, sentinels and the coordinator send each other arrives as
it was sent, wherever the bytes are cut into pieces. Of a stream that ends early the messages are
read whose frames are complete, and a message that is too long is not begun. -/
theorem reading_undoes_writing :
    Wire.Carries Wire.request Request.Genuine ∧
      Wire.Carries Wire.response Response.Sendable ∧
      Wire.Carries Wire.coordinatorRequest CoordinatorRequest.Genuine ∧
      Wire.Carries Wire.coordinatorResponse fun _ => True := by
  refine ⟨?_, ?_, ?_, ?_⟩
  · exact Wire.carries_of_readsBack Wire.request_readsBack fun r h hfits =>
      Request.sendable_of_fits h hfits
  · exact Wire.carries_of_readsBack Wire.response_readsBack fun _ h _ => h
  · refine Wire.carries_of_readsBack Wire.coordinatorRequest_readsBack ?_
    rintro ⟨s⟩ h hfits
    exact Summary.sendable_of_fits h hfits
  · exact Wire.carries_of_readsBack Wire.coordinatorResponse_readsBack fun _ h _ => h

end

namespace Sample

local instance : Crypto := standardCrypto

def requests : List Request := [.validate transaction, .execute transaction]

theorem genuine_requests : ∀ r ∈ requests, r.Genuine ∧ Wire.Fits Wire.request r := by
  have hfits : ∀ r ∈ requests, (Wire.request.write r).length ≤ Wire.frameLimit := by
    decide +kernel
  intro r hr
  refine ⟨?_, hfits r hr⟩
  have hsame : r.transaction = transaction := by
    rcases List.mem_cons.1 hr with rfl | hr
    · rfl
    · rw [List.mem_singleton.1 hr]
      rfl
  unfold Request.Genuine
  rw [hsame]
  exact sendable_transaction.2.2.2

/-- Two requests of 204 bytes each arrive in two pieces. If nothing comes behind the first 210
bytes, the first of them is read and the second is missing. -/
theorem two_requests_arrive_in_pieces :
    (∀ r ∈ requests, r.Genuine ∧ Wire.Fits Wire.request r) ∧
      Wire.Inbox.ofStream Wire.request
        [(Wire.sendAll Wire.request requests).take 3,
          (Wire.sendAll Wire.request requests).drop 3] = ⟨requests, [], none⟩ ∧
      (Wire.Inbox.ofStream Wire.request [(Wire.sendAll Wire.request requests).take 210]).messages =
        [.validate transaction] ∧
      (Wire.Inbox.ofStream Wire.request [(Wire.sendAll Wire.request requests).take 210]).fault =
        some .cutOff := by
  obtain ⟨hcarries, _⟩ := reading_undoes_writing
  obtain ⟨k, hcut⟩ := hcarries.cut requests [(Wire.sendAll Wire.request requests).take 210] 210
    genuine_requests List.flatten_singleton
  have hone : (Wire.sendAll Wire.request (requests.take 1)).length = 204 := by decide +kernel
  have htwo : (Wire.sendAll Wire.request requests).length = 408 := by decide +kernel
  have hk : k = 1 := by
    have hfirst := hcut.complete 1 (by decide)
    have hsecond := hcut.complete 2 (by decide)
    have hall : requests.take 2 = requests := rfl
    rw [hone] at hfirst
    rw [hall, htwo] at hsecond
    omega
  subst hk
  refine ⟨genuine_requests, ?_, hcut.yields, ?_⟩
  · refine hcarries.whole requests _ genuine_requests ?_
    rw [List.flatten_cons, List.flatten_singleton, List.take_append_drop]
  · rw [hcut.fault]
    unfold Wire.overhang
    rw [hone, htwo]
    rfl

end Sample

end Admission
