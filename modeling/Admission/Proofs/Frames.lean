-- What a stream begins with. A receiver reads the messages of the longest part of
-- the stream that is made up of whole frames of messages. It stops where the next
-- frame has not come as a whole, or is no frame of a message.
import Admission.Proofs.Streams

namespace Admission

namespace Wire

variable {α : Type} {f : Format α}

/-! ## The next frame -/

/-- The next message and the bytes behind it; none if it is not all there yet. -/
def next (f : Format α) (bytes : List UInt8) : Except StreamFault (Option (α × List UInt8)) :=
  match firstFrame bytes with
  | .error fault => .error fault
  | .ok none => .ok none
  | .ok (some (payload, rest)) =>
    match f.readAll payload with
    | .error cause => .error (.payload cause)
    | .ok a => .ok (some (a, rest))

/-- Not all of a frame is there: the length is not, or less than it says comes behind it. -/
def Short (bytes : List UInt8) : Prop :=
  bytes.length < headerLength ∨
    ofBigEndian (bytes.take headerLength) ≤ frameLimit ∧
      bytes.length < headerLength + ofBigEndian (bytes.take headerLength)

/-- The bytes begin with a frame that no message is read from. -/
inductive Bad (f : Format α) : List UInt8 → StreamFault → Prop
  | tooLong {header rest : List UInt8} (hheader : header.length = headerLength)
      (hlimit : frameLimit < ofBigEndian header) : Bad f (header ++ rest) .tooLong
  | payload {payload bytes rest : List UInt8} {cause : ReadError}
      (hframe : frame payload = some bytes) (hread : f.readAll payload = .error cause) :
      Bad f (bytes ++ rest) (.payload cause)

section
variable {bytes rest payload : List UInt8} {fault : StreamFault} {a : α}

theorem firstFrame_eq_none_iff : firstFrame bytes = .ok none ↔ Short bytes := by
  unfold firstFrame Short
  dsimp only
  rw [List.length_drop]
  by_cases hheader : bytes.length < headerLength
  · simp [hheader]
  · by_cases hlimit : frameLimit < ofBigEndian (bytes.take headerLength)
    · simp only [hheader, hlimit, if_true, if_false, false_or, Nat.not_le.2 hlimit, false_and,
        iff_false]
      simp
    · by_cases hbehind : bytes.length - headerLength < ofBigEndian (bytes.take headerLength)
      · simp only [hheader, hlimit, hbehind, if_true, if_false, false_or, Nat.not_lt.1 hlimit,
          true_and, true_iff]
        omega
      · simp only [hheader, hlimit, hbehind, if_false, false_or, Nat.not_lt.1 hlimit, true_and]
        simp
        omega

theorem firstFrame_eq_error_iff :
    firstFrame bytes = .error fault ↔ fault = .tooLong ∧ headerLength ≤ bytes.length ∧
      frameLimit < ofBigEndian (bytes.take headerLength) := by
  unfold firstFrame
  dsimp only
  by_cases hheader : bytes.length < headerLength
  · simp [hheader, Nat.not_le.2 hheader]
  · by_cases hlimit : frameLimit < ofBigEndian (bytes.take headerLength)
    · simp [hheader, hlimit, Nat.not_lt.1 hheader, eq_comm]
    · simp only [hheader, hlimit, if_false, and_false, iff_false]
      split <;> simp

/-- A frame that is taken off was written there. -/
theorem firstFrame_eq_some_iff :
    firstFrame bytes = .ok (some (payload, rest)) ↔
      ∃ whole, frame payload = some whole ∧ bytes = whole ++ rest := by
  constructor
  · intro h
    unfold firstFrame at h
    dsimp only at h
    rw [List.length_drop] at h
    by_cases hheader : bytes.length < headerLength
    · simp [hheader] at h
    · by_cases hlimit : frameLimit < ofBigEndian (bytes.take headerLength)
      · simp [hheader, hlimit] at h
      · by_cases hbehind : bytes.length - headerLength < ofBigEndian (bytes.take headerLength)
        · simp [hheader, hlimit, hbehind] at h
        · rw [if_neg hheader, if_neg hlimit, if_neg hbehind, Except.ok.injEq, Option.some.injEq,
            List.splitAt_eq, Prod.mk.injEq] at h
          obtain ⟨rfl, rfl⟩ := h
          have htake : (bytes.take headerLength).length = headerLength := by
            rw [List.length_take]
            omega
          have hlength : ((bytes.drop headerLength).take
              (ofBigEndian (bytes.take headerLength))).length =
                ofBigEndian (bytes.take headerLength) := by
            rw [List.length_take, List.length_drop]
            omega
          refine ⟨bytes.take headerLength ++
            (bytes.drop headerLength).take (ofBigEndian (bytes.take headerLength)), ?_, ?_⟩
          · unfold frame
            rw [hlength, if_neg hlimit, bigEndian_ofBigEndian htake]
          · rw [List.append_assoc, List.take_append_drop, List.take_append_drop]
  · rintro ⟨whole, hframe, rfl⟩
    exact firstFrame_frame rest hframe

theorem next_eq_none_iff : next f bytes = .ok none ↔ Short bytes := by
  rw [← firstFrame_eq_none_iff]
  unfold next
  cases hfirst : firstFrame bytes with
  | error fault => simp
  | ok first =>
    cases first with
    | none => simp
    | some first =>
      cases hread : f.readAll first.1 <;> simp [hread]

theorem next_eq_some_iff :
    next f bytes = .ok (some (a, rest)) ↔
      ∃ payload whole, frame payload = some whole ∧ f.readAll payload = .ok a ∧
        bytes = whole ++ rest := by
  have hfirst : next f bytes = .ok (some (a, rest)) ↔
      ∃ payload, firstFrame bytes = .ok (some (payload, rest)) ∧ f.readAll payload = .ok a := by
    unfold next
    cases firstFrame bytes with
    | error fault => simp
    | ok first =>
      cases first with
      | none => simp
      | some first =>
        obtain ⟨payload, behind⟩ := first
        cases hread : f.readAll payload with
        | error cause => simp [hread]
        | ok b =>
          simp only [hread, Except.ok.injEq, Option.some.injEq, Prod.mk.injEq]
          constructor
          · rintro ⟨rfl, rfl⟩
            exact ⟨payload, ⟨rfl, rfl⟩, hread⟩
          · rintro ⟨other, ⟨rfl, rfl⟩, hother⟩
            rw [hread] at hother
            exact ⟨Except.ok.inj hother, rfl⟩
  rw [hfirst]
  constructor
  · rintro ⟨payload, hpayload, hread⟩
    obtain ⟨whole, hframe, hbytes⟩ := firstFrame_eq_some_iff.1 hpayload
    exact ⟨payload, whole, hframe, hread, hbytes⟩
  · rintro ⟨payload, whole, hframe, hread, hbytes⟩
    exact ⟨payload, firstFrame_eq_some_iff.2 ⟨whole, hframe, hbytes⟩, hread⟩

/-- A message takes bytes away. -/
theorem next_length (h : next f bytes = .ok (some (a, rest))) : rest.length < bytes.length := by
  obtain ⟨payload, whole, hframe, _, rfl⟩ := next_eq_some_iff.1 h
  have hlength := length_of_frame hframe
  have hheader : 0 < headerLength := by decide
  rw [List.length_append]
  omega

theorem next_eq_error_iff : next f bytes = .error fault ↔ Bad f bytes fault := by
  constructor
  · intro h
    unfold next at h
    split at h
    · rename_i cause hfirst
      cases h
      obtain ⟨rfl, hlength, hlimit⟩ := firstFrame_eq_error_iff.1 hfirst
      rw [← List.take_append_drop headerLength bytes]
      refine .tooLong ?_ hlimit
      rw [List.length_take]
      omega
    · cases h
    · rename_i payload rest hfirst
      obtain ⟨whole, hframe, rfl⟩ := firstFrame_eq_some_iff.1 hfirst
      split at h
      · rename_i cause hread
        cases h
        exact .payload hframe hread
      · cases h
  · intro h
    unfold next
    cases h with
    | tooLong hheader hlimit =>
      rename_i header rest
      have hfirst : firstFrame (header ++ rest) = .error .tooLong := by
        rw [firstFrame_eq_error_iff, List.take_left' hheader, List.length_append]
        exact ⟨rfl, by omega, hlimit⟩
      rw [hfirst]
    | payload hframe hread =>
      rw [firstFrame_frame _ hframe]
      simp only [hread]

/-- A bad frame stays one when more bytes arrive. -/
theorem Bad.append (h : Bad f bytes fault) (more : List UInt8) : Bad f (bytes ++ more) fault := by
  cases h with
  | tooLong hheader hlimit =>
    rw [List.append_assoc]
    exact .tooLong hheader hlimit
  | payload hframe hread =>
    rw [List.append_assoc]
    exact .payload hframe hread

end

/-! ## Reading one after the other -/

section
variable {bytes rest : List UInt8} {a : α}

theorem messages_of_some (h : next f bytes = .ok (some (a, rest))) :
    (Inbox.ofBytes f bytes).messages = a :: (Inbox.ofBytes f rest).messages := by
  obtain ⟨payload, whole, hframe, hread, rfl⟩ := next_eq_some_iff.1 h
  have hfirst := firstFrame_frame rest hframe
  rw [Inbox.ofBytes]
  split
  · rename_i e; rw [hfirst] at e; cases e
  · rename_i e; rw [hfirst] at e; cases e
  · rename_i e
    rw [hfirst] at e
    cases e
    simp only [hread]

/-- Nothing more is read if no message is next. -/
theorem messages_of_not_some (h : ∀ a rest, next f bytes ≠ .ok (some (a, rest))) :
    (Inbox.ofBytes f bytes).messages = [] := by
  rw [Inbox.ofBytes]
  split
  · rfl
  · rfl
  · rename_i payload rest hfirst
    obtain ⟨whole, hframe, hbytes⟩ := firstFrame_eq_some_iff.1 hfirst
    split
    · rfl
    · rename_i a hread
      exact absurd (next_eq_some_iff.2 ⟨payload, whole, hframe, hread, hbytes⟩) (h a rest)

end

/-- The bytes begin with frames of these messages, and this is left. -/
inductive BeginsWith (f : Format α) : List UInt8 → List α → List UInt8 → Prop
  | nothing (rest : List UInt8) : BeginsWith f rest [] rest
  | message {payload whole more rest : List UInt8} {a : α} {as : List α}
      (hframe : frame payload = some whole) (hread : f.readAll payload = .ok a)
      (later : BeginsWith f more as rest) : BeginsWith f (whole ++ more) (a :: as) rest

namespace BeginsWith

variable {bytes more rest : List UInt8} {as : List α} {a : α}

/-- More bytes come behind what is left. -/
theorem append (h : BeginsWith f bytes as rest) (more : List UInt8) :
    BeginsWith f (bytes ++ more) as (rest ++ more) := by
  induction h with
  | nothing rest => exact .nothing _
  | message hframe hread _ ih =>
    rw [List.append_assoc]
    exact .message hframe hread ih

/-- The next message is one more. -/
theorem snoc (h : BeginsWith f bytes as rest) (hnext : next f rest = .ok (some (a, more))) :
    BeginsWith f bytes (as ++ [a]) more := by
  induction h with
  | nothing rest =>
    obtain ⟨payload, whole, hframe, hread, rfl⟩ := next_eq_some_iff.1 hnext
    exact .message hframe hread (.nothing more)
  | message hframe hread _ ih => exact .message hframe hread (ih hnext)

theorem messages_eq (h : BeginsWith f bytes as rest) :
    (Inbox.ofBytes f bytes).messages = as ++ (Inbox.ofBytes f rest).messages := by
  induction h with
  | nothing rest => rfl
  | message hframe hread _ ih =>
    rw [messages_of_some (next_eq_some_iff.2 ⟨_, _, hframe, hread, rfl⟩), ih]
    rfl

/-- These are all the messages that are read if no other is next. -/
theorem messages_of_stop (h : BeginsWith f bytes as rest)
    (hstop : ∀ a more, next f rest ≠ .ok (some (a, more))) :
    (Inbox.ofBytes f bytes).messages = as := by
  rw [h.messages_eq, messages_of_not_some hstop, List.append_nil]

end BeginsWith

/-- The longest list of messages whose frames the bytes begin with. -/
structure LongestPrefix (f : Format α) (bytes : List UInt8) (as : List α) : Prop where
  begins : ∃ rest, BeginsWith f bytes as rest
  longest : ∀ others rest, BeginsWith f bytes others rest → others <+: as

theorem exists_beginsWith (f : Format α) (bytes : List UInt8) :
    ∃ rest, BeginsWith f bytes (Inbox.ofBytes f bytes).messages rest := by
  fun_induction Inbox.ofBytes f bytes with
  | case1 bytes fault h => exact ⟨bytes, .nothing bytes⟩
  | case2 bytes h => exact ⟨bytes, .nothing bytes⟩
  | case3 bytes payload rest h cause hread => exact ⟨bytes, .nothing bytes⟩
  | case4 bytes payload rest h a hread later ih =>
    obtain ⟨whole, hframe, rfl⟩ := firstFrame_eq_some_iff.1 h
    obtain ⟨left, hleft⟩ := ih
    exact ⟨left, .message hframe hread hleft⟩

/-- A receiver reads the longest list of messages. -/
theorem longestPrefix_messages (f : Format α) (bytes : List UInt8) :
    LongestPrefix f bytes (Inbox.ofBytes f bytes).messages where
  begins := exists_beginsWith f bytes
  longest others rest h := by
    rw [h.messages_eq]
    exact List.prefix_append _ _

end Wire

end Admission
