-- The other end of a connection in time. It accepts the connection when it likes,
-- takes the request as slowly as it likes, and answers, stops or breaks off at its
-- own moments. Whatever it does, no more than a part of the request is written, and
-- nothing at all if the connection was not opened.
import Admission.Proofs.Streams

namespace Admission

/-! ## The other end in time -/

/-- Something that the other end of an open connection does. -/
inductive SocketAct where
  /-- So many bytes more of the request can be written. -/
  | takes (count : Nat)
  /-- Nothing more of it can be written. -/
  | rejects
  | gives (piece : List UInt8)
  | closes
  | breaks
deriving DecidableEq

/-- How the other end behaves: how the opening goes, and what is done on the open connection, each
time with how long it was since the act before. Behind the last act nothing more is done. -/
structure Conduct where
  opening : Opening
  acts : List (Nat × SocketAct)
deriving DecidableEq

/-- What has become of an open connection so far. -/
structure Socket where
  taken : Nat
  rejected : Bool
  given : List (List UInt8)
  ending : StreamEnd
deriving DecidableEq

/-- What was received; none if nothing was. -/
def Received.settled {α : Type} : Received α → Option (Received α)
  | nothing => none
  | received => some received

theorem Received.settled_eq_some {α : Type} {r received : Received α} :
    r.settled = some received ↔ r = received ∧ r ≠ .nothing := by
  cases r <;> simp [settled]

theorem Received.settled_eq_none {α : Type} {r : Received α} :
    r.settled = none ↔ r = .nothing := by
  cases r <;> simp [settled]

namespace Socket

variable {β : Type}

def start : Socket := ⟨0, false, [], .silent⟩

def meet (s : Socket) : SocketAct → Socket
  | .takes count => if s.rejected then s else { s with taken := s.taken + count }
  | .rejects => { s with rejected := true }
  | .gives piece => if s.ending = .silent then { s with given := s.given ++ [piece] } else s
  | .closes => if s.ending = .silent then { s with ending := .closed } else s
  | .breaks => if s.ending = .silent then { s with ending := .broken } else s

/-- An other end that answers at once with what has come back so far. -/
def answers (s : Socket) : OtherEnd := ⟨.opens 0, none, s.given, s.ending, 0⟩

/-- What a request of so many bytes has come to; none as long as it is waited for. -/
def received (g : Format β) (length : Nat) (s : Socket) : Option (Received β) :=
  if s.taken < length then
    if s.rejected then some .unwritten else none
  else (s.answers.firstReceived g).settled

/-- Writes a frame, as far as it is taken, and waits for what comes back. Nobody is looked at who
might have stopped waiting in the meantime: what is written after that counts too. -/
def follow (g : Format β) (frame : List UInt8) (s : Socket) (time : Nat) :
    List (Nat × SocketAct) → Exchange β
  | [] => ⟨frame.take s.taken, (s.received g frame.length).getD .nothing, time⟩
  | (wait, act) :: rest =>
    match s.received g frame.length with
    | some received => ⟨frame.take s.taken, received, time⟩
    | none => (s.meet act).follow g frame (time + wait) rest

end Socket

/-- Sends a request and waits for the answer. -/
def Conduct.exchange {α β : Type} (c : Conduct) (limit : Nat) (f : Format α) (g : Format β)
    (request : α) : Exchange β :=
  let (time, opened) := c.opening.within limit
  if !opened then ⟨[], .unopened, time⟩
  else
    match Wire.send f request with
    | none => ⟨[], .unwritten, time⟩
    | some frame => Socket.start.follow g frame time c.acts

/-- The connection is open before the limit. -/
def Opening.OpensWithin (limit : Nat) (o : Opening) : Prop := ∃ after < limit, o = .opens after

namespace Opening

variable {limit : Nat} {o : Opening}

theorem within_snd : (o.within limit).2 = true ↔ o.OpensWithin limit := by
  cases o <;> simp [within, OpensWithin]

/-- No more than the limit is waited for an opening. -/
theorem within_fst_le (limit : Nat) (o : Opening) : (o.within limit).1 ≤ limit := by
  cases o <;> simp [within]

end Opening

/-! ## What is written -/

namespace Socket

variable {β : Type} {g : Format β} {frame : List UInt8} {s : Socket}

theorem received_ne_unopened (g : Format β) (length : Nat) (s : Socket) :
    s.received g length ≠ some .unopened := by
  unfold received
  split
  · split <;> simp
  · intro h
    exact s.answers.firstReceived_ne_unopened g (Received.settled_eq_some.1 h).1

theorem follow_of_received {time : Nat} {acts : List (Nat × SocketAct)} {received : Received β}
    (h : s.received g frame.length = some received) :
    s.follow g frame time acts = ⟨frame.take s.taken, received, time⟩ := by
  cases acts with
  | nil => simp [follow, h]
  | cons act rest => simp [follow, h]

theorem follow_of_waiting {time wait : Nat} {act : SocketAct} {rest : List (Nat × SocketAct)}
    (h : s.received g frame.length = none) :
    s.follow g frame time ((wait, act) :: rest) =
      (s.meet act).follow g frame (time + wait) rest := by
  simp [follow, h]

/-- Whatever the other end does, and when, a part of the frame is written, and the connection
counts as open. -/
theorem follow_spec (g : Format β) (frame : List UInt8) (s : Socket) (time : Nat)
    (acts : List (Nat × SocketAct)) :
    (s.follow g frame time acts).written <+: frame ∧
      (s.follow g frame time acts).received ≠ .unopened := by
  induction acts generalizing s time with
  | nil =>
    refine ⟨List.take_prefix _ _, ?_⟩
    cases hreceived : s.received g frame.length with
    | none => simp [follow, hreceived]
    | some received =>
      rw [follow_of_received hreceived]
      rintro rfl
      exact received_ne_unopened g _ s hreceived
  | cons act rest ih =>
    cases hreceived : s.received g frame.length with
    | none =>
      rw [follow_of_waiting hreceived]
      exact ih _ _
    | some received =>
      rw [follow_of_received hreceived]
      refine ⟨List.take_prefix _ _, ?_⟩
      rintro rfl
      exact received_ne_unopened g _ s hreceived

end Socket

namespace Conduct

variable {α β : Type} {c : Conduct} {limit : Nat} {f : Format α} {g : Format β} {request : α}

theorem exchange_of_unopened (h : ¬ c.opening.OpensWithin limit) :
    c.exchange limit f g request = ⟨[], .unopened, (c.opening.within limit).1⟩ := by
  have hopened : (c.opening.within limit).2 = false := by
    rw [← Bool.not_eq_true, Opening.within_snd]
    exact h
  simp [exchange, hopened]

/-- An open connection carries a part of the one frame. -/
theorem exchange_of_opened (h : c.opening.OpensWithin limit) :
    (c.exchange limit f g request).written <+: (Wire.send f request).getD [] ∧
      (c.exchange limit f g request).received ≠ .unopened := by
  have hopened : (c.opening.within limit).2 = true := Opening.within_snd.2 h
  simp only [exchange, hopened, Bool.not_true, Bool.false_eq_true, if_false]
  cases Wire.send f request with
  | none => exact ⟨List.nil_prefix, by simp⟩
  | some frame => exact Socket.start.follow_spec g frame _ c.acts

theorem written_prefix (c : Conduct) (limit : Nat) (f : Format α) (g : Format β) (request : α) :
    (c.exchange limit f g request).written <+: (Wire.send f request).getD [] := by
  by_cases h : c.opening.OpensWithin limit
  · exact (exchange_of_opened h).1
  · rw [exchange_of_unopened h]
    exact List.nil_prefix

end Conduct

/-! ## The behaviour of an other end -/

/-- What is done at the end of an answer. -/
def StreamEnd.acts : StreamEnd → List (Nat × SocketAct)
  | closed => [(0, .closes)]
  | broken => [(0, .breaks)]
  | silent => []

namespace OtherEnd

variable {α β : Type} {o : OtherEnd}

/-- How it behaves towards a request of so many bytes. -/
def conduct (o : OtherEnd) (length : Nat) : Conduct where
  opening := o.opening
  acts :=
    let room := o.room.getD length
    if room < length then [(0, .takes room), (0, .rejects)]
    else (0, .takes room) :: (o.delay, .gives o.answer.flatten) :: o.ending.acts

theorem firstReceived_congr {other : OtherEnd} (g : Format β)
    (hanswer : o.answer.flatten = other.answer.flatten) (hending : o.ending = other.ending) :
    o.firstReceived g = other.firstReceived g := by
  unfold firstReceived
  rw [Wire.Inbox.foldl_receive, Wire.Inbox.foldl_receive, hanswer, hending]

/-- What an answer begins with comes before its end, or nothing comes before that. -/
theorem firstReceived_of_silent {other : OtherEnd} (g : Format β)
    (hanswer : o.answer.flatten = other.answer.flatten) (hending : o.ending = .silent) :
    o.firstReceived g = .nothing ∨ o.firstReceived g = other.firstReceived g := by
  unfold firstReceived
  rw [Wire.Inbox.foldl_receive, Wire.Inbox.foldl_receive, hanswer, hending]
  dsimp only
  cases (Wire.Inbox.ofBytes g other.answer.flatten).messages with
  | cons a rest => exact Or.inr rfl
  | nil =>
    cases (Wire.Inbox.ofBytes g other.answer.flatten).fault with
    | some fault => exact Or.inr rfl
    | none => exact Or.inl rfl

theorem firstReceived_ne_nothing (g : Format β) (hending : o.ending ≠ .silent) :
    o.firstReceived g ≠ .nothing := by
  unfold firstReceived
  dsimp only
  split <;> try split
  all_goals simp_all

end OtherEnd

namespace Socket

variable {β : Type} {g : Format β} {frame : List UInt8} {s : Socket} {o : OtherEnd}

theorem received_of_taken (htaken : frame.length ≤ s.taken) :
    s.received g frame.length = (s.answers.firstReceived g).settled := by
  unfold received
  rw [if_neg (Nat.not_lt.2 htaken)]

/-- What came with its end is what is first received. -/
theorem follow_of_ended {time : Nat} {acts : List (Nat × SocketAct)}
    (htaken : frame.length ≤ s.taken) (hgiven : s.given.flatten = o.answer.flatten)
    (hending : s.ending = o.ending) (hends : o.ending ≠ .silent) :
    s.follow g frame time acts = ⟨frame, o.firstReceived g, time⟩ := by
  have hsame : s.answers.firstReceived g = o.firstReceived g :=
    OtherEnd.firstReceived_congr g hgiven hending
  have hcome : s.received g frame.length = some (o.firstReceived g) := by
    rw [received_of_taken htaken, hsame]
    exact Received.settled_eq_some.2 ⟨rfl, OtherEnd.firstReceived_ne_nothing g hends⟩
  rw [follow_of_received hcome, List.take_of_length_le htaken]

/-- So is what came without its end, if the end is done at once. -/
theorem follow_ending {time : Nat} (htaken : frame.length ≤ s.taken)
    (hgiven : s.given.flatten = o.answer.flatten) (hending : s.ending = .silent) :
    s.follow g frame time o.ending.acts = ⟨frame, o.firstReceived g, time⟩ := by
  -- The end is looked at only if the answer itself does not suffice.
  cases hcome : s.received g frame.length with
  | some received =>
    rw [follow_of_received hcome, List.take_of_length_le htaken]
    rw [received_of_taken htaken] at hcome
    obtain ⟨rfl, hsome⟩ := Received.settled_eq_some.1 hcome
    have hsame : s.answers.firstReceived g = o.firstReceived g :=
      (OtherEnd.firstReceived_of_silent g hgiven hending).resolve_left hsome
    rw [hsame]
  | none =>
    cases hends : o.ending with
    | silent =>
      have hsame : s.answers.firstReceived g = o.firstReceived g :=
        OtherEnd.firstReceived_congr g hgiven (hending.trans hends.symm)
      have hnothing := Received.settled_eq_none.1 ((received_of_taken htaken).symm.trans hcome)
      rw [hsame] at hnothing
      simp [StreamEnd.acts, follow, hcome, hnothing, List.take_of_length_le htaken]
    | closed | broken =>
      rw [StreamEnd.acts, follow_of_waiting hcome, Nat.add_zero]
      refine follow_of_ended ?_ ?_ ?_ (by simp [hends])
      · simpa [meet, hending] using htaken
      · simpa [meet, hending] using hgiven
      · simp [meet, hending, hends]

/-- Once the frame is taken, all of an answer and then its end come to what is first received of
it. -/
theorem follow_answer {time : Nat} (htaken : frame.length ≤ s.taken) (hgiven : s.given = [])
    (hending : s.ending = .silent) :
    s.follow g frame time ((o.delay, .gives o.answer.flatten) :: o.ending.acts) =
      ⟨frame, o.firstReceived g, time + o.delay⟩ := by
  have hnothing : s.answers.firstReceived g = .nothing := by
    unfold answers OtherEnd.firstReceived
    rw [hgiven, hending]
    simp [Wire.Inbox.empty]
  rw [follow_of_waiting ((received_of_taken htaken).trans (Received.settled_eq_none.2 hnothing)),
    follow_ending]
  · simpa [meet, hending] using htaken
  · simp [meet, hending, hgiven]
  · simp [meet, hending]

end Socket

/-- An other end that does everything at once is one among those that do it in time. -/
theorem OtherEnd.exchange_conduct {α β : Type} (o : OtherEnd) (limit : Nat) (f : Format α)
    (g : Format β) (request : α) :
    (o.conduct ((Wire.send f request).getD []).length).exchange limit f g request =
      o.exchange limit f g request := by
  unfold Conduct.exchange exchange conduct
  dsimp only
  cases (o.opening.within limit).2 with
  | false => rfl
  | true =>
    cases hsend : Wire.send f request with
    | none => rfl
    | some frame =>
      have hlength := Wire.length_of_frame hsend
      have hheader : 0 < Wire.headerLength := by decide
      have hframe : ¬ frame.length = 0 := by omega
      have hstart : Socket.start.received g frame.length = none := by
        simp [Socket.received, Socket.start, hframe]
      simp only [Option.getD_some, Bool.not_true, Bool.false_eq_true, if_false]
      by_cases hroom : o.room.getD frame.length < frame.length
      · let full := Socket.start.meet (.takes (o.room.getD frame.length))
        have hfull : full.received g frame.length = none := by
          simp [full, Socket.received, Socket.meet, Socket.start, hroom]
        have hrejected : (full.meet .rejects).received g frame.length = some .unwritten := by
          simp [full, Socket.received, Socket.meet, Socket.start, hroom]
        rw [if_pos hroom, if_pos hroom, Socket.follow_of_waiting hstart,
          Socket.follow_of_waiting hfull, Socket.follow_of_received hrejected]
        simp [full, Socket.meet, Socket.start]
      · rw [if_neg hroom, if_neg hroom, Socket.follow_of_waiting hstart,
          Socket.follow_answer]
        · simp
        · simpa [Socket.meet, Socket.start] using hroom
        · rfl
        · rfl

end Admission
