-- Frames: a message travels as the length of its payload in four bytes, and the
-- payload. Bytes arrive in pieces of any size, and what is read from them does
-- not depend on where they were cut.
import Admission.Wire.Fault

namespace Admission

namespace Wire

/-! ## Frames -/

/-- A payload is at most eight mebibytes long. -/
def frameLimit : Nat := 8 * 1024 * 1024

def headerLength : Nat := 4

/-- The frame of a payload, unless it is too long. -/
def frame (payload : List UInt8) : Option (List UInt8) :=
  if frameLimit < payload.length then none
  else some (bigEndian headerLength payload.length ++ payload)

/-- The payload of the first frame and the bytes behind it; none if they are not all there yet. -/
def firstFrame (bytes : List UInt8) : Except StreamFault (Option (List UInt8 × List UInt8)) :=
  let behind := bytes.drop headerLength
  let length := ofBigEndian (bytes.take headerLength)
  if bytes.length < headerLength then .ok none
  else if frameLimit < length then .error .tooLong
  else if behind.length < length then .ok none
  else .ok (some (behind.splitAt length))

/-- A frame takes bytes away. -/
theorem firstFrame_length {bytes payload rest : List UInt8}
    (h : firstFrame bytes = .ok (some (payload, rest))) : rest.length < bytes.length := by
  simp only [firstFrame] at h
  split at h
  · cases h
  · split at h
    · cases h
    · split at h
      · cases h
      · simp only [Except.ok.injEq, Option.some.injEq, List.splitAt_eq, Prod.mk.injEq] at h
        rw [← h.2]
        simp only [List.length_drop]
        simp only [headerLength] at *
        omega

/-! ## Reading -/

/-- What was read from a stream so far. -/
structure Inbox (α : Type) where
  messages : List α
  /-- The bytes behind the last message. -/
  pending : List UInt8
  /-- Once there is a fault, nothing more is read. -/
  fault : Option StreamFault
deriving DecidableEq

namespace Inbox

variable {α : Type}

def empty : Inbox α := ⟨[], [], none⟩

/-- Reads the messages whose frames are all there. -/
def ofBytes (f : Format α) (bytes : List UInt8) : Inbox α :=
  match _h : firstFrame bytes with
  | .error fault => ⟨[], bytes, some fault⟩
  | .ok none => ⟨[], bytes, none⟩
  | .ok (some (payload, rest)) =>
    match f.readAll payload with
    | .error cause => ⟨[], rest, some (.payload cause)⟩
    | .ok a =>
      let later := ofBytes f rest
      { later with messages := a :: later.messages }
termination_by bytes.length
decreasing_by exact firstFrame_length ‹_›

def receive (f : Format α) (inbox : Inbox α) (bytes : List UInt8) : Inbox α :=
  match inbox.fault with
  | some _ => { inbox with pending := inbox.pending ++ bytes }
  | none =>
    let later := ofBytes f (inbox.pending ++ bytes)
    { later with messages := inbox.messages ++ later.messages }

/-- The stream ends. Nothing may be left, or else exactly the length of a frame that has not
begun. -/
def close (inbox : Inbox α) : Inbox α :=
  match inbox.fault with
  | some _ => inbox
  | none =>
    if inbox.pending.length = 0 ∨ inbox.pending.length = headerLength then inbox
    else { inbox with fault := some .cutOff }

@[simp] theorem messages_close (inbox : Inbox α) : inbox.close.messages = inbox.messages := by
  unfold close
  split
  · rfl
  · split <;> rfl

/-- Reads a whole stream that arrives in pieces. -/
def ofStream (f : Format α) (pieces : List (List UInt8)) : Inbox α :=
  (pieces.foldl (receive f) empty).close

end Inbox

/-! ## Writing -/

/-- The frame of a message, unless it is too long. -/
def send {α : Type} (f : Format α) (a : α) : Option (List UInt8) := frame (f.write a)

/-- The frames of messages, up to the first that is too long. -/
def sendAll {α : Type} (f : Format α) : List α → List UInt8
  | [] => []
  | a :: rest =>
    match send f a with
    | none => []
    | some bytes => bytes ++ sendAll f rest

/-! ## Laws -/

theorem firstFrame_frame {payload bytes : List UInt8} (rest : List UInt8)
    (h : frame payload = some bytes) : firstFrame (bytes ++ rest) = .ok (some (payload, rest)) := by
  simp only [frame] at h
  split at h
  · cases h
  · rename_i hlimit
    cases h
    have hlength : payload.length < bytesLimit headerLength :=
      Nat.lt_of_le_of_lt (Nat.not_lt.1 hlimit) (by decide)
    have htake : (bigEndian headerLength payload.length ++ payload ++ rest).take headerLength =
        bigEndian headerLength payload.length := by
      rw [List.append_assoc]
      exact List.take_left' (length_bigEndian _ _)
    have hdrop : (bigEndian headerLength payload.length ++ payload ++ rest).drop headerLength =
        payload ++ rest := by
      rw [List.append_assoc]
      exact List.drop_left' (length_bigEndian _ _)
    have h1 : ¬ (bigEndian headerLength payload.length ++ payload ++ rest).length <
        headerLength := by
      simp only [List.length_append, length_bigEndian]
      omega
    have h2 : ¬ (payload ++ rest).length < payload.length := by
      simp only [List.length_append]
      omega
    simp only [firstFrame, htake, hdrop, ofBigEndian_bigEndian _ _ hlength, h1, h2, hlimit,
      if_false, List.splitAt_eq, List.take_left, List.drop_left]

/-- What was sent is read, whatever follows. -/
theorem Inbox.ofBytes_sendAll {α : Type} {f : Format α} {P : α → Prop} (hf : f.ReadsBack P)
    (messages : List α) (rest : List UInt8)
    (h : ∀ a ∈ messages, P a ∧ (f.write a).length ≤ frameLimit) :
    Inbox.ofBytes f (sendAll f messages ++ rest) =
      { Inbox.ofBytes f rest with messages := messages ++ (Inbox.ofBytes f rest).messages } := by
  induction messages with
  | nil => rfl
  | cons a later ih =>
    have ha := h a List.mem_cons_self
    have hsend : send f a =
        some (bigEndian headerLength (f.write a).length ++ f.write a) := by
      simp only [send, frame, if_neg (Nat.not_lt.2 ha.2)]
    have hframe := firstFrame_frame (sendAll f later ++ rest) hsend
    have hmore := ih fun b hb => h b (List.mem_cons_of_mem _ hb)
    simp only [sendAll, hsend]
    rw [List.append_assoc, Inbox.ofBytes]
    split
    · rename_i e; rw [hframe] at e; cases e
    · rename_i e; rw [hframe] at e; cases e
    · rename_i payload behind e
      rw [hframe] at e
      cases e
      simp only [Format.readAll_write hf a ha.1, hmore, List.cons_append]

theorem firstFrame_append {bytes : List UInt8} (more : List UInt8) :
    (∀ fault, firstFrame bytes = .error fault → firstFrame (bytes ++ more) = .error fault) ∧
      ∀ payload rest, firstFrame bytes = .ok (some (payload, rest)) →
        firstFrame (bytes ++ more) = .ok (some (payload, rest ++ more)) := by
  by_cases hshort : bytes.length < headerLength
  · simp [firstFrame, hshort]
  · have hlong : ¬ (bytes ++ more).length < headerLength := by
      simp only [List.length_append]; omega
    have htake : (bytes ++ more).take headerLength = bytes.take headerLength :=
      List.take_append_of_le_length (by omega)
    have hdrop : (bytes ++ more).drop headerLength = bytes.drop headerLength ++ more :=
      List.drop_append_of_le_length (by omega)
    simp only [firstFrame, hshort, hlong, htake, hdrop, if_false]
    by_cases hbig : frameLimit < ofBigEndian (bytes.take headerLength)
    · simp [hbig]
    · by_cases hbehind : (bytes.drop headerLength).length < ofBigEndian (bytes.take headerLength)
      · simp only [hbig, hbehind, if_false, if_true]
        refine ⟨fun _ h => ?_, fun _ _ h => ?_⟩ <;> cases h
      · have hmore : ¬ (bytes.drop headerLength ++ more).length <
            ofBigEndian (bytes.take headerLength) := by
          simp only [List.length_append]; omega
        simp only [hbig, hbehind, hmore, if_false, List.splitAt_eq,
          List.take_append_of_le_length (Nat.not_lt.1 hbehind),
          List.drop_append_of_le_length (Nat.not_lt.1 hbehind)]
        refine ⟨fun _ h => ?_, fun _ _ h => ?_⟩ <;> cases h
        rfl

/-- Reading goes on where it stopped. -/
theorem Inbox.ofBytes_append {α : Type} (f : Format α) (bytes more : List UInt8) :
    Inbox.ofBytes f (bytes ++ more) = (Inbox.ofBytes f bytes).receive f more := by
  fun_induction Inbox.ofBytes f bytes with
  | case1 bytes fault h =>
    have hmore := (firstFrame_append more).1 fault h
    rw [Inbox.ofBytes]
    split
    · rename_i e; rw [hmore] at e; cases e; rfl
    · rename_i e; rw [hmore] at e; cases e
    · rename_i e; rw [hmore] at e; cases e
  | case2 bytes h =>
    simp only [receive, List.nil_append]
  | case3 bytes payload rest h cause hread =>
    have hmore := (firstFrame_append more).2 payload rest h
    rw [Inbox.ofBytes]
    split
    · rename_i e; rw [hmore] at e; cases e
    · rename_i e; rw [hmore] at e; cases e
    · rename_i e; rw [hmore] at e; cases e
      simp only [hread, receive]
  | case4 bytes payload rest h a hread later ih =>
    have hmore := (firstFrame_append more).2 payload rest h
    rw [Inbox.ofBytes]
    split
    · rename_i e; rw [hmore] at e; cases e
    · rename_i e; rw [hmore] at e; cases e
    · rename_i e; rw [hmore] at e; cases e
      simp only [hread, ih]
      simp only [receive]
      cases (Inbox.ofBytes f rest).fault <;> rfl

theorem Inbox.ofBytes_nil {α : Type} (f : Format α) : Inbox.ofBytes f [] = empty := by
  rw [Inbox.ofBytes]
  rfl

/-- Pieces are read as the bytes that they make up. -/
theorem Inbox.foldl_receive {α : Type} (f : Format α) (pieces : List (List UInt8)) :
    pieces.foldl (receive f) empty = Inbox.ofBytes f pieces.flatten := by
  have fold : ∀ (later : List (List UInt8)) (before : List UInt8),
      later.foldl (receive f) (Inbox.ofBytes f before) =
        Inbox.ofBytes f (before ++ later.flatten) := by
    intro later
    induction later with
    | nil => intro before; simp
    | cons piece later ih =>
      intro before
      rw [List.foldl_cons, ← Inbox.ofBytes_append, ih, List.flatten_cons, List.append_assoc]
  simp only [← Inbox.ofBytes_nil f, fold pieces [], List.nil_append]

/-- Where a stream is cut into pieces does not matter. -/
theorem Inbox.ofStream_eq {α : Type} (f : Format α) (pieces : List (List UInt8)) :
    Inbox.ofStream f pieces = (Inbox.ofBytes f pieces.flatten).close := by
  rw [Inbox.ofStream, Inbox.foldl_receive]

/-- What was read stays read when more bytes arrive. -/
theorem Inbox.messages_grow {α : Type} (f : Format α) (bytes more : List UInt8) :
    (Inbox.ofBytes f bytes).messages <+: (Inbox.ofBytes f (bytes ++ more)).messages := by
  rw [Inbox.ofBytes_append]
  simp only [receive]
  split
  · exact List.prefix_rfl
  · exact List.prefix_append _ _

/-- Of a single frame the message is read that its payload is, if it is one. -/
theorem Inbox.messages_of_frame {α : Type} {f : Format α} {payload bytes : List UInt8}
    (hframe : frame payload = some bytes) :
    (Inbox.ofBytes f bytes).messages =
      match f.readAll payload with
      | .ok a => [a]
      | .error _ => [] := by
  have hfirst := firstFrame_frame [] hframe
  rw [List.append_nil] at hfirst
  rw [Inbox.ofBytes]
  split
  · rename_i e; rw [hfirst] at e; cases e
  · rename_i e; rw [hfirst] at e; cases e
  · rename_i e
    rw [hfirst] at e
    cases e
    cases f.readAll payload with
    | error cause => rfl
    | ok a => simp [Inbox.ofBytes_nil, empty]

end Wire

end Admission
