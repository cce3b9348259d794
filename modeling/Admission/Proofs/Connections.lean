-- A connection of the server, from the first byte to the close. It is a machine with
-- stages, and the bytes that arrive, the executions of requests and the room for
-- responses are handed in as events. What an event can do is said once.
import Admission.Proofs.Frames
import Admission.Proofs.Lengths
import Admission.Server
import Admission.Service

namespace Admission

/-! ## Responses fit -/

namespace Wire

theorem length_violation_le (v : Violation) : (violation.write v).length ≤ 19 := by
  cases v with
  | noInputs | noOutputs | valueOverflow => decide
  | duplicateInput n | zeroValueOutput n | witnessLockMismatch n | invalidWitnessSignature n =>
    have hn := Varint.length_write_le n
    change (_ :: Varint.write n).length ≤ 19
    rw [List.length_cons]
    omega
  | missingWitness n m | asymmetricValues n m =>
    have hn := Varint.length_write_le n
    have hm := Varint.length_write_le m
    change (_ :: (Varint.write n ++ Varint.write m)).length ≤ 19
    rw [List.length_cons, List.length_append]
    omega

theorem length_verdict_le (v : Verdict) : (verdict.write v).length ≤ 21 := by
  obtain ⟨code, found⟩ := v
  have hstatus : (status.write code).length = 1 := by cases code <;> rfl
  have hwrite : verdict.write ⟨code, found⟩ = status.write code ++ violation.optional.write found :=
    rfl
  rw [hwrite, List.length_append, hstatus]
  cases found with
  | none => decide
  | some v =>
    have hv := length_violation_le v
    change 1 + (_ :: violation.write v).length ≤ 21
    rw [List.length_cons]
    omega

variable [Crypto]

/-- The bytes of the longest response, in a frame. -/
def responseLimit : Nat := headerLength + 99

theorem length_response_le (r : Response) : (response.write r).length ≤ 99 := by
  cases r with
  | unavailable => exact (by decide : 1 ≤ 99)
  | executed verdict =>
    cases verdict with
    | none => exact (by decide : 2 ≤ 99)
    | some v =>
      have hv := length_verdict_le v
      change (_ :: _ :: Wire.verdict.write v).length ≤ 99
      rw [List.length_cons, List.length_cons]
      omega
  | validated attestation =>
    cases attestation with
    | none => exact (by decide : 2 ≤ 99)
    | some a =>
      have ha := length_write_attestation a
      change (_ :: _ :: Wire.attestation.write a).length ≤ 99
      rw [List.length_cons, List.length_cons]
      omega

/-- Every response fits a frame. -/
theorem fits_response (r : Response) : Fits response r :=
  Nat.le_trans (length_response_le r) (by decide)

theorem length_le_responseLimit {r : Response} {bytes : List UInt8}
    (h : send response r = some bytes) : bytes.length ≤ responseLimit := by
  rw [length_of_frame h]
  exact Nat.add_le_add_left (length_response_le r) headerLength

theorem exists_send_response (r : Response) : ∃ bytes, send response r = some bytes :=
  exists_send_iff_fits.2 (fits_response r)

end Wire

/-! ## The machine -/

/-- Why nothing more is read from a connection. -/
inductive Closing where
  | ended
  | broken
  | faulty (fault : StreamFault)
deriving DecidableEq

/-- What the server does with a connection. -/
inductive Serving where
  | reading
  /-- The sentinel has a request, and this has happened in its execution. -/
  | asking (r : Request) (hs : List Happening)
  /-- These bytes of a response are not written yet. -/
  | answering (r : Request) (response : Response) (left : List UInt8)
  | closed (why : Closing)
  /-- The rest of a response could not be written, and that is the end of the connection. -/
  | lost (r : Request) (response : Response) (left : List UInt8)
deriving DecidableEq

structure Connection where
  /-- The bytes that have arrived and are not read yet. -/
  pending : List UInt8
  /-- What comes behind the bytes that have arrived, as far as it is known. -/
  ending : StreamEnd
  /-- The sentinel behind the server is gone. -/
  gone : Bool
  /-- The requests that are answered, with the responses. -/
  answered : List (Request × Response)
  written : List UInt8
  serving : Serving
deriving DecidableEq

inductive ConnectionEvent where
  | arrives (piece : List UInt8)
  | ends
  | breaks
  /-- The sentinel behind the server is gone from now on. -/
  | goes
  | reads
  /-- Something happens in the execution that was asked for. -/
  | happens (h : Happening)
  | answers
  /-- A request got lost with the sentinel. -/
  | loses
  | writes (count : Nat)
  /-- Nothing more of a response can be written. -/
  | fails
deriving DecidableEq

section
variable [Crypto]

/-- The response of a sentinel to a request, once there is one. -/
def Request.response? (s : Sentinel) (r : Request) (hs : List Happening) : Option Response :=
  (s.response r (s.run r.transaction hs).toList).1

namespace Connection

def start : Connection := ⟨[], .silent, false, [], [], .reading⟩

/-- The server turns to writing a response. -/
def respond (c : Connection) (r : Request) (response : Response) : Connection :=
  match Wire.send Wire.response response with
  | none => { c with serving := .lost r response [] }
  | some frame => { c with serving := .answering r response frame }

/-- What a stream comes to that ends where no frame is complete. -/
def closing (c : Connection) : Option Closing :=
  match c.ending with
  | .silent => none
  | .broken => some .broken
  | .closed =>
    match (⟨[], c.pending, none⟩ : Wire.Inbox Request).close.fault with
    | none => some .ended
    | some fault => some (.faulty fault)

/-- Reads the next request, or closes the connection if there will be none. -/
def read (c : Connection) : Option Connection :=
  match Wire.next Wire.request c.pending with
  | .error fault => some { c with serving := .closed (.faulty fault) }
  | .ok none => c.closing.map fun why => { c with serving := .closed why }
  | .ok (some (r, rest)) =>
    let next := { c with pending := rest }
    some (if c.gone then next.respond r .unavailable else { next with serving := .asking r [] })

/-- Writes some bytes of a response. With the last of them the request is answered. -/
def write (c : Connection) (r : Request) (response : Response) (left : List UInt8) (count : Nat) :
    Option Connection :=
  let next := { c with written := c.written ++ left.take count }
  if count = 0 ∨ left.length < count then none
  else if count < left.length then
    some { next with serving := .answering r response (left.drop count) }
  else some { next with answered := c.answered ++ [(r, response)], serving := .reading }

def after (s : Sentinel) (c : Connection) : ConnectionEvent → Option Connection
  | .arrives piece =>
    if c.ending = .silent then some { c with pending := c.pending ++ piece } else none
  | .ends => if c.ending = .silent then some { c with ending := .closed } else none
  | .breaks => if c.ending = .silent then some { c with ending := .broken } else none
  | .goes => some { c with gone := true }
  | .reads =>
    match c.serving with
    | .reading => c.read
    | _ => none
  | .happens h =>
    match c.serving with
    | .asking (.execute t) hs =>
      (s.run t (hs ++ [h])).map fun _ => { c with serving := .asking (.execute t) (hs ++ [h]) }
    | _ => none
  | .answers =>
    match c.serving with
    | .asking r hs => (r.response? s hs).map (c.respond r)
    | _ => none
  | .loses =>
    match c.serving with
    | .asking r _ => if c.gone then some (c.respond r .unavailable) else none
    | _ => none
  | .writes count =>
    match c.serving with
    | .answering r response left => c.write r response left count
    | _ => none
  | .fails =>
    match c.serving with
    | .answering r response left => some { c with serving := .lost r response left }
    | _ => none

/-- Where a connection stands after these events; none if one of them cannot happen. -/
def run (s : Sentinel) (es : List ConnectionEvent) : Option Connection :=
  Run.reach (after s) start es

end Connection

/-! ## What an event does -/

/-- This is why nothing more is read where these bytes are pending, with this end of the stream. -/
inductive Closing.Due (pending : List UInt8) (ending : StreamEnd) : Closing → Prop
  | faulty {fault : StreamFault} (h : Wire.Bad Wire.request pending fault) :
      Due pending ending (.faulty fault)
  | ended (hending : ending = .closed) (hshort : Wire.Short pending)
      (hlength : pending.length = 0 ∨ pending.length = Wire.headerLength) :
      Due pending ending .ended
  | cutOff (hending : ending = .closed) (hshort : Wire.Short pending)
      (hlength : pending.length ≠ 0) : Due pending ending (.faulty .cutOff)
  | broken (hending : ending = .broken) (hshort : Wire.Short pending) : Due pending ending .broken

/-- The answer of a sentinel to a request: the verdict of an execution, or what validating the
transaction gives. -/
inductive Request.Answer (s : Sentinel) : Request → Response → Prop
  | executed {t : Transaction} {hs : List Happening} {verdict : Option Verdict}
      (h : s.run t hs = some (.answered verdict)) : Answer s (.execute t) (.executed verdict)
  | validated (t : Transaction) : Answer s (.validate t) (.validated (s.validate t))

/-- All that an event can do to a connection. -/
inductive Connection.Moves (s : Sentinel) (c : Connection) : ConnectionEvent → Connection → Prop
  | arrives {piece : List UInt8} (hopen : c.ending = .silent) :
      Moves s c (.arrives piece) { c with pending := c.pending ++ piece }
  | ends (hopen : c.ending = .silent) : Moves s c .ends { c with ending := .closed }
  | breaks (hopen : c.ending = .silent) : Moves s c .breaks { c with ending := .broken }
  | goes : Moves s c .goes { c with gone := true }
  | closes {why : Closing} (h : c.serving = .reading) (hdue : why.Due c.pending c.ending) :
      Moves s c .reads { c with serving := .closed why }
  | asks {r : Request} {rest : List UInt8} (h : c.serving = .reading) (hgone : c.gone = false)
      (hnext : Wire.next Wire.request c.pending = .ok (some (r, rest))) :
      Moves s c .reads { c with pending := rest, serving := .asking r [] }
  | declines {r : Request} {rest frame : List UInt8} (h : c.serving = .reading)
      (hgone : c.gone = true)
      (hnext : Wire.next Wire.request c.pending = .ok (some (r, rest)))
      (hsend : Wire.send Wire.response .unavailable = some frame) :
      Moves s c .reads { c with pending := rest, serving := .answering r .unavailable frame }
  | happens {t : Transaction} {hs : List Happening} {h : Happening} {stage : Execution}
      (hasking : c.serving = .asking (.execute t) hs) (hrun : s.run t (hs ++ [h]) = some stage) :
      Moves s c (.happens h) { c with serving := .asking (.execute t) (hs ++ [h]) }
  | answers {r : Request} {hs : List Happening} {response : Response} {frame : List UInt8}
      (h : c.serving = .asking r hs) (hanswer : r.Answer s response)
      (hsend : Wire.send Wire.response response = some frame) :
      Moves s c .answers { c with serving := .answering r response frame }
  | loses {r : Request} {hs : List Happening} {frame : List UInt8}
      (h : c.serving = .asking r hs) (hgone : c.gone = true)
      (hsend : Wire.send Wire.response .unavailable = some frame) :
      Moves s c .loses { c with serving := .answering r .unavailable frame }
  | writesPart {r : Request} {response : Response} {left : List UInt8} {count : Nat}
      (h : c.serving = .answering r response left) (hpos : 0 < count)
      (hcount : count < left.length) :
      Moves s c (.writes count)
        { c with written := c.written ++ left.take count
                 serving := .answering r response (left.drop count) }
  | writesAll {r : Request} {response : Response} {left : List UInt8}
      (h : c.serving = .answering r response left) :
      Moves s c (.writes left.length)
        { c with written := c.written ++ left
                 answered := c.answered ++ [(r, response)]
                 serving := .reading }
  | fails {r : Request} {response : Response} {left : List UInt8}
      (h : c.serving = .answering r response left) :
      Moves s c .fails { c with serving := .lost r response left }

namespace Request

variable {s : Sentinel} {r : Request} {hs : List Happening} {response : Response}

theorem answer_of_response (h : r.response? s hs = some response) : r.Answer s response := by
  unfold response? at h
  cases r with
  | validate t =>
    cases h
    exact .validated t
  | execute t =>
    cases hrun : s.run t hs with
    | none => simp [Sentinel.response, transaction, hrun] at h
    | some stage =>
      cases stage with
      | answered verdict =>
        simp only [Sentinel.response, transaction, hrun, Option.toList_some, Option.some.injEq] at h
        subst h
        exact .executed hrun
      | gathering stage | submitting stage => simp [Sentinel.response, transaction, hrun] at h

end Request

namespace Connection

variable {s : Sentinel} {c next : Connection} {e : ConnectionEvent}

theorem respond_eq {r : Request} {response : Response} {frame : List UInt8}
    (h : Wire.send Wire.response response = some frame) :
    c.respond r response = { c with serving := .answering r response frame } := by
  simp [respond, h]

theorem due_of_closing {why : Closing} (hshort : Wire.Short c.pending)
    (h : c.closing = some why) : why.Due c.pending c.ending := by
  unfold closing Wire.Inbox.close at h
  cases hending : c.ending with
  | silent => simp [hending] at h
  | broken =>
    simp only [hending, Option.some.injEq] at h
    exact h ▸ .broken rfl hshort
  | closed =>
    by_cases hlength : c.pending.length = 0 ∨ c.pending.length = Wire.headerLength
    · simp only [hending, hlength, if_true, Option.some.injEq] at h
      exact h ▸ .ended rfl hshort hlength
    · simp only [hending, hlength, if_false, Option.some.injEq] at h
      exact h ▸ .cutOff rfl hshort fun hzero => hlength (Or.inl hzero)

theorem moves_of_read (hreading : c.serving = .reading) (h : c.read = some next) :
    Moves s c .reads next := by
  unfold read at h
  split at h
  · rename_i fault hnext
    cases h
    exact .closes hreading (.faulty (Wire.next_eq_error_iff.1 hnext))
  · rename_i hnext
    obtain ⟨why, hwhy, rfl⟩ := Option.map_eq_some_iff.1 h
    exact .closes hreading (due_of_closing (Wire.next_eq_none_iff.1 hnext) hwhy)
  · rename_i r rest hnext
    obtain ⟨frame, hframe⟩ := Wire.exists_send_response .unavailable
    dsimp only at h
    by_cases hgone : c.gone = true
    · rw [if_pos hgone, respond_eq hframe] at h
      exact Option.some.inj h ▸ .declines hreading hgone hnext hframe
    · rw [if_neg hgone] at h
      exact Option.some.inj h ▸ .asks hreading (Bool.eq_false_iff.2 hgone) hnext

theorem moves_of_write {r : Request} {response : Response} {left : List UInt8} {count : Nat}
    (hanswering : c.serving = .answering r response left)
    (h : c.write r response left count = some next) : Moves s c (.writes count) next := by
  unfold write at h
  dsimp only at h
  split at h
  · cases h
  · rename_i hcount
    split at h
    · rename_i hpart
      cases h
      exact .writesPart hanswering (by omega) hpart
    · rename_i hpart
      obtain rfl : count = left.length := by omega
      rw [List.take_length] at h
      cases h
      exact .writesAll hanswering

theorem moves_of_after (h : c.after s e = some next) : Moves s c e next := by
  cases e with
  | arrives piece =>
    obtain ⟨hopen, hnext⟩ := Option.ite_none_right_eq_some.1 h
    exact Option.some.inj hnext ▸ .arrives hopen
  | ends =>
    obtain ⟨hopen, hnext⟩ := Option.ite_none_right_eq_some.1 h
    exact Option.some.inj hnext ▸ .ends hopen
  | breaks =>
    obtain ⟨hopen, hnext⟩ := Option.ite_none_right_eq_some.1 h
    exact Option.some.inj hnext ▸ .breaks hopen
  | goes => exact Option.some.inj h ▸ .goes
  | reads =>
    simp only [after] at h
    split at h
    · exact moves_of_read ‹_› h
    · cases h
  | happens happening =>
    simp only [after] at h
    split at h
    · rename_i t hs hasking
      obtain ⟨stage, hrun, rfl⟩ := Option.map_eq_some_iff.1 h
      exact .happens hasking hrun
    · cases h
  | answers =>
    simp only [after] at h
    split at h
    · rename_i r hs hasking
      obtain ⟨response, hresponse, rfl⟩ := Option.map_eq_some_iff.1 h
      obtain ⟨frame, hframe⟩ := Wire.exists_send_response response
      rw [respond_eq hframe]
      exact .answers hasking (Request.answer_of_response hresponse) hframe
    · cases h
  | loses =>
    simp only [after] at h
    split at h
    · rename_i r hs hasking
      obtain ⟨hgone, hnext⟩ := Option.ite_none_right_eq_some.1 h
      obtain ⟨frame, hframe⟩ := Wire.exists_send_response .unavailable
      rw [respond_eq hframe] at hnext
      exact Option.some.inj hnext ▸ .loses hasking hgone hframe
    · cases h
  | writes count =>
    simp only [after] at h
    split at h
    · exact moves_of_write ‹_› h
    · cases h
  | fails =>
    simp only [after] at h
    split at h
    · rename_i r response left hanswering
      exact Option.some.inj h ▸ .fails hanswering
    · cases h

end Connection

end

end Admission
