-- The server among its callers. On each connection the requests of the longest part
-- of the stream that can be read are answered, one response for each and in their
-- order, and then the connection is closed. What is sent on one connection does not
-- change what is written on another.
import Admission.Proofs.Answers

namespace Admission

section
variable [Crypto]

/-- Something that the server does of its own accord. -/
inductive ConnectionEvent.Own : ConnectionEvent → Prop
  | reads : Own .reads
  | answers : Own .answers
  | loses : Own .loses
  | writes (count : Nat) : Own (.writes count)

/-- How much there is to do before the next request can be read. -/
def Serving.work : Serving → Nat
  | reading => 1
  | asking _ _ => Wire.responseLimit + 3
  | answering _ _ left => left.length + 2
  | closed _ | lost _ _ _ => 0

namespace Connection

variable {s : Sentinel} {stream : List UInt8} {c next : Connection} {e : ConnectionEvent}
  {es later : List ConnectionEvent}

/-! ## Rest -/

/-- There is nothing that the server could do. -/
def Rests (s : Sentinel) (c : Connection) : Prop := ∀ e : ConnectionEvent, e.Own → c.after s e = none

/-- What the server waits for when there is nothing that it could do. -/
inductive Waits (s : Sentinel) (c : Connection) : Prop
  /-- For nothing, it is done with the connection. -/
  | done (h : c.serving.Over)
  /-- For more bytes. -/
  | bytes (h : c.serving = .reading) (hopen : c.ending = .silent) (hshort : Wire.Short c.pending)
  /-- For an execution that is not through. -/
  | execution {t : Transaction} {hs : List Happening} (h : c.serving = .asking (.execute t) hs)
      (hthere : c.gone = false) (hopen : ∀ verdict, s.run t hs ≠ some (.answered verdict))

omit [Crypto] in
theorem closing_eq_none_iff : c.closing = none ↔ c.ending = .silent := by
  unfold closing
  cases c.ending with
  | silent | broken => simp
  | closed =>
    dsimp only
    split <;> simp

theorem read_eq_none_iff : c.read = none ↔ Wire.Short c.pending ∧ c.ending = .silent := by
  unfold read
  rw [← Wire.next_eq_none_iff (f := Wire.request), ← closing_eq_none_iff]
  cases Wire.next Wire.request c.pending with
  | error fault => simp
  | ok first => cases first <;> simp

theorem response?_eq_none_iff {r : Request} {hs : List Happening} :
    r.response? s hs = none ↔
      ∃ t, r = .execute t ∧ ∀ verdict, s.run t hs ≠ some (.answered verdict) := by
  unfold Request.response?
  cases r with
  | validate t => simp [Sentinel.response]
  | execute t =>
    cases hrun : s.run t hs with
    | none => simp [Sentinel.response, Request.transaction, hrun]
    | some stage => cases stage <;> simp [Sentinel.response, Request.transaction, hrun]

theorem after_writes_all {r : Request} {response : Response} {left : List UInt8}
    (h : c.serving = .answering r response left) (hleft : left ≠ []) :
    c.after s (.writes left.length) =
      some { c with written := c.written ++ left
                    answered := c.answered ++ [(r, response)]
                    serving := .reading } := by
  have hlength : left.length ≠ 0 := fun hzero => hleft (List.eq_nil_of_length_eq_zero hzero)
  simp [after, h, write, hlength]

/-- The server rests only where it waits for someone else. -/
theorem Kept.rests_iff (h : c.Kept s stream) : c.Rests s ↔ c.Waits s := by
  constructor
  · intro hrests
    cases hserving : c.serving with
    | reading =>
      have hread : c.read = none := by simpa [after, hserving] using hrests .reads .reads
      obtain ⟨hshort, hopen⟩ := read_eq_none_iff.1 hread
      exact .bytes hserving hopen hshort
    | asking r hs =>
      have hresponse : r.response? s hs = none := by
        simpa [after, hserving] using hrests .answers .answers
      have hthere : c.gone = false := by simpa [after, hserving] using hrests .loses .loses
      obtain ⟨t, rfl, hopen⟩ := response?_eq_none_iff.1 hresponse
      exact .execution hserving hthere hopen
    | answering r response left =>
      have hwrites := hrests (.writes left.length) (.writes left.length)
      rw [after_writes_all hserving (h.unfinished r response left hserving)] at hwrites
      cases hwrites
    | closed why => exact .done (hserving ▸ .closed why)
    | lost r response left => exact .done (hserving ▸ .lost r response left)
  · intro hwaits e hown
    cases hwaits with
    | done hover =>
      cases hserving : c.serving <;> rw [hserving] at hover <;> cases hover <;> cases hown <;>
        simp [after, hserving]
    | bytes hserving hopen hshort =>
      have hread := read_eq_none_iff.2 ⟨hshort, hopen⟩
      cases hown <;> simp [after, hserving, hread]
    | execution hserving hthere hopen =>
      have hresponse := response?_eq_none_iff.2 ⟨_, rfl, hopen⟩
      cases hown <;> simp [after, hserving, hthere, hresponse]

/-! ## The way to rest -/

/-- How much the server can do before more bytes arrive, at the most. Each byte that is pending
counts as a request. -/
def work (c : Connection) : Nat :=
  (Wire.responseLimit + 4) * c.pending.length + c.serving.work

/-- A request that is read takes more work away than it makes. -/
theorem work_of_next {r : Request} {rest : List UInt8} {serving : Serving}
    (hreading : c.serving = .reading)
    (hnext : Wire.next Wire.request c.pending = .ok (some (r, rest)))
    (hserving : serving.work ≤ Wire.responseLimit + 3) :
    work { c with pending := rest, serving := serving } < c.work := by
  have hlength := Nat.mul_le_mul_left (Wire.responseLimit + 4) (Wire.next_length hnext)
  rw [Nat.succ_eq_add_one, Nat.mul_add, Nat.mul_one] at hlength
  have hwork : c.work = (Wire.responseLimit + 4) * c.pending.length + 1 := by
    unfold work
    rw [hreading]
    rfl
  rw [hwork]
  unfold work
  dsimp only
  omega

omit [Crypto] in
/-- Another stage of the same request with less to do. -/
theorem work_of_stage {serving : Serving} (h : serving.work < c.serving.work) :
    work { c with serving := serving } < c.work :=
  Nat.add_lt_add_left h _

/-- All that the server does of its own accord takes work away. -/
theorem Moves.work_lt (hmoves : Moves s c e next) (hown : e.Own) : next.work < c.work := by
  cases hmoves with
  | arrives | ends | breaks | goes | happens | fails => cases hown
  | closes hreading => exact work_of_stage (by simp [hreading, Serving.work])
  | asks hreading _ hnext => exact work_of_next hreading hnext (Nat.le_refl _)
  | declines hreading _ hnext hsend =>
    exact work_of_next hreading hnext
      (Nat.le_succ_of_le (Nat.add_le_add_right (Wire.length_le_responseLimit hsend) 2))
  | answers hasking _ hsend | loses hasking _ hsend =>
    refine work_of_stage ?_
    rw [hasking]
    exact Nat.lt_succ_of_le (Nat.add_le_add_right (Wire.length_le_responseLimit hsend) 2)
  | writesPart hanswering hpos hcount =>
    refine Nat.add_lt_add_left ?_ _
    rw [hanswering]
    simp only [Serving.work, List.length_drop]
    omega
  | writesAll hanswering =>
    refine Nat.add_lt_add_left ?_ _
    rw [hanswering]
    simp only [Serving.work]
    omega

theorem length_le_work {own : List ConnectionEvent} (hown : ∀ e ∈ own, ConnectionEvent.Own e)
    (h : Run.reach (after s) c own = some next) : own.length ≤ c.work := by
  induction own generalizing c with
  | nil => exact Nat.zero_le _
  | cons e rest ih =>
    obtain ⟨between, hafter, hrest⟩ := Option.bind_eq_some_iff.1 h
    have hless := (moves_of_after hafter).work_lt (hown e List.mem_cons_self)
    have hlater := ih (fun e he => hown e (List.mem_cons_of_mem _ he)) hrest
    rw [List.length_cons]
    omega

/-- What the server does of its own accord comes to an end. -/
structure Settles (s : Sentinel) (c : Connection) : Prop where
  /-- However it goes on, it is done after so many events. -/
  bounded : ∃ bound, ∀ own next, (∀ e ∈ own, ConnectionEvent.Own e) →
    Run.reach (after s) c own = some next → own.length ≤ bound
  rests : ∃ own next, (∀ e ∈ own, ConnectionEvent.Own e) ∧
    Run.reach (after s) c own = some next ∧ next.Rests s

theorem exists_rests (s : Sentinel) (c : Connection) :
    ∃ own next, (∀ e ∈ own, ConnectionEvent.Own e) ∧
      Run.reach (after s) c own = some next ∧ next.Rests s := by
  induction hwork : c.work using Nat.strong_induction_on generalizing c with
  | _ n ih =>
    subst hwork
    by_cases hrests : c.Rests s
    · exact ⟨[], c, by simp, rfl, hrests⟩
    · unfold Rests at hrests
      push Not at hrests
      obtain ⟨e, hown, hafter⟩ := hrests
      obtain ⟨next, hnext⟩ := Option.ne_none_iff_exists'.1 hafter
      obtain ⟨own, last, hall, hreach, hlast⟩ :=
        ih _ ((moves_of_after hnext).work_lt hown) next rfl
      refine ⟨e :: own, last, ?_, Run.reach_cons hnext hreach, hlast⟩
      rintro other (_ | ⟨_, hother⟩)
      · exact hown
      · exact hall other hother

theorem settles (s : Sentinel) (c : Connection) : c.Settles s where
  bounded := ⟨c.work, fun _ _ hown hreach => length_le_work hown hreach⟩
  rests := exists_rests s c

/-! ## All connections -/

end Connection

/-- Something that happens at a server: to one of its connections, or to the sentinel behind it,
and then all of them notice. -/
inductive ServerEvent where
  | on (connection : Nat) (e : ConnectionEvent) (own : e ≠ .goes)
  | goes

/-- What a connection notices. -/
def ServerEvent.seenOn (i : Nat) : ServerEvent → Option ConnectionEvent
  | on j e _ => if j = i then some e else none
  | goes => some .goes

namespace Server

def after (s : Sentinel) (connections : Nat → Connection) : ServerEvent → Option (Nat → Connection)
  | .on i e _ => ((connections i).after s e).map (Function.update connections i)
  | .goes => some fun i => { connections i with gone := true }

/-- Where all connections stand after these events; none if one of them cannot happen. -/
def run (s : Sentinel) (es : List ServerEvent) : Option (Nat → Connection) :=
  Run.reach (after s) (fun _ => .start) es

variable {s : Sentinel}

/-- A connection stands where the events that it notices lead to. -/
theorem reach_iff (es : List ServerEvent) (first last : Nat → Connection) :
    Run.reach (after s) first es = some last ↔
      ∀ i, Run.reach (Connection.after s) (first i) (es.filterMap (ServerEvent.seenOn i)) =
        some (last i) := by
  induction es generalizing first with
  | nil => simp [Run.reach, funext_iff]
  | cons e rest ih =>
    cases e with
    | goes =>
      have hfirst : Run.reach (after s) first (.goes :: rest) =
          Run.reach (after s) (fun i => { first i with gone := true }) rest := rfl
      rw [hfirst, ih]
      rfl
    | on j e own =>
      have hother : ∀ i, i ≠ j → (ServerEvent.on j e own :: rest).filterMap (ServerEvent.seenOn i) =
          rest.filterMap (ServerEvent.seenOn i) := by
        intro i hi
        simp [ServerEvent.seenOn, hi.symm]
      have hown : (ServerEvent.on j e own :: rest).filterMap (ServerEvent.seenOn j) =
          e :: rest.filterMap (ServerEvent.seenOn j) := by
        simp [ServerEvent.seenOn]
      cases hafter : (first j).after s e with
      | none =>
        constructor
        · intro h
          simp [Run.reach, after, hafter] at h
        · intro h
          have hj := h j
          rw [hown] at hj
          simp [Run.reach, hafter] at hj
      | some next =>
        have hfirst : Run.reach (after s) first (.on j e own :: rest) =
            Run.reach (after s) (Function.update first j next) rest := by
          simp [Run.reach, after, hafter]
        rw [hfirst, ih]
        apply forall_congr'
        intro i
        by_cases hi : i = j
        · subst hi
          rw [hown, Function.update_self]
          simp [Run.reach, hafter]
        · rw [hother i hi, Function.update_of_ne hi]

/-! ## The bytes that go back -/

/-- The answers are handed to the server, one after the other. -/
def handed (_ : Request) : StateM (List Response) Response :=
  modifyGet fun answers => (answers.headD .unavailable, answers.tail)

omit [Crypto] in
theorem mapM_handed (rs : List Request) (answers : List Response)
    (h : rs.length = answers.length) : (rs.mapM handed).run answers = (answers, []) := by
  induction rs generalizing answers with
  | nil =>
    obtain rfl := List.eq_nil_of_length_eq_zero h.symm
    rfl
  | cons r rest ih =>
    cases answers with
    | nil => cases h
    | cons answer later =>
      have hlater := ih later (Nat.succ.inj h)
      rw [List.mapM_cons]
      simp only [handed, StateT.run_bind, StateT.run_modifyGet, pure_bind, List.headD_cons,
        List.tail_cons]
      rw [hlater]
      rfl

theorem serve_handed {pieces : List (List UInt8)} {answers : List Response}
    (h : (requests pieces).length = answers.length) :
    (serve handed pieces).run answers = (Wire.sendAll Wire.response answers, []) := by
  unfold serve responses
  rw [StateT.run_bind, mapM_handed _ _ h]
  rfl

/-- The requests that are answered are those of the longest part of the stream that can be read. -/
theorem longestPrefix_requests (pieces : List (List UInt8)) :
    Wire.LongestPrefix Wire.request pieces.flatten (requests pieces) := by
  unfold requests
  rw [Wire.Inbox.ofStream_eq, Wire.Inbox.messages_close]
  exact Wire.longestPrefix_messages _ _

end Server

/-! ## Request by request -/

namespace Connection

variable {s : Sentinel} {c next : Connection} {e : ConnectionEvent} {es : List ConnectionEvent}

theorem Moves.goes_of_gone (hmoves : Moves s c e next) (hgone : next.gone = true) :
    c.gone = true ∨ e = .goes := by
  cases hmoves with
  | goes => exact Or.inr rfl
  | arrives | ends | breaks | closes | asks | declines | happens | answers | loses | writesPart
  | writesAll | fails => exact Or.inl hgone

theorem goes_of_gone (h : run s es = some c) (hgone : c.gone = true) : .goes ∈ es := by
  refine Run.reach_induction (P := fun es (c : Connection) => c.gone = true → .goes ∈ es)
    (by simp [start]) ?_ h hgone
  intro es between e next _ hbefore hafter hgone
  rcases (moves_of_after hafter).goes_of_gone hgone with hgone | rfl
  · exact List.mem_append_left _ (hbefore hgone)
  · simp

/-- No request is next on the stream. -/
inductive Stopped (c : Connection) : Prop
  | closed {why : Closing} (h : c.serving = .closed why)
  | waiting (h : c.serving = .reading) (hshort : Wire.Short c.pending)

/-- How a connection is served on which these events happened. -/
structure Served (s : Sentinel) (es : List ConnectionEvent) (c : Connection) : Prop where
  /-- The requests that are answered are the first ones. -/
  inOrder : c.answered.map (·.1) <+: Server.requests (pieces es)
  /-- Each has the answer of the sentinel, if it is not gone. -/
  answers : ∀ x ∈ c.answered, x.1.Answer s x.2 ∨ x.2 = .unavailable ∧ .goes ∈ es
  /-- The responses are written one after the other, the last one perhaps in part. -/
  writes : ∃ part, c.written = Wire.sendAll Wire.response (c.answered.map (·.2)) ++ part ∧
    part ++ c.serving.left = Wire.sendAll Wire.response (c.serving.answer?.toList.map (·.2))
  /-- Where the stream stops, all requests are answered, and nothing else is written. -/
  all : c.Stopped → c.answered.map (·.1) = Server.requests (pieces es) ∧
    (Server.serve Server.handed (pieces es)).run (c.answered.map (·.2)) = (c.written, [])
  /-- A connection is closed for a bad frame, or because the stream ended or broke. -/
  due : ∀ why, c.serving = .closed why → why.Due c.pending c.ending
  /-- The server does what it can, and that comes to an end. -/
  settles : c.Settles s
  /-- Then it waits for more bytes or for an execution, if it is not done with the connection. -/
  rests : c.Rests s → c.Waits s
  /-- When it is, nothing more is written. -/
  ends : c.serving.Over → ∀ later next, run s (es ++ later) = some next →
    next.serving = c.serving ∧ next.written = c.written ∧ next.answered = c.answered
  /-- Without the sentinel all further requests are refused. -/
  refuses : c.gone = true → ∀ later next, run s (es ++ later) = some next →
    ∀ x ∈ next.answered.drop c.begun, x.2 = .unavailable

/-- Nothing is in hand where the stream stops. -/
theorem Stopped.stage {stream : List UInt8} (hstopped : c.Stopped) (h : c.Kept s stream) :
    c.serving.request? = none ∧ c.serving.answer? = none ∧ c.serving.left = [] ∧
      ∀ r more, Wire.next Wire.request c.pending ≠ .ok (some (r, more)) := by
  cases hstopped with
  | closed hclosed =>
    have hdue := h.closed _ hclosed
    rw [hclosed]
    exact ⟨rfl, rfl, rfl, hdue.not_some⟩
  | waiting hreading hshort =>
    rw [hreading, Wire.next_eq_none_iff.2 hshort]
    exact ⟨rfl, rfl, rfl, by simp⟩

theorem Kept.messages_of_stopped {stream : List UInt8} (h : c.Kept s stream) (hstopped : c.Stopped) :
    (Wire.Inbox.ofBytes Wire.request stream).messages = c.answered.map (·.1) ∧
      c.written = Wire.sendAll Wire.response (c.answered.map (·.2)) := by
  obtain ⟨hrequest, hanswer, hleft, hnext⟩ := hstopped.stage h
  obtain ⟨part, hwritten, hpart⟩ := h.writes
  have hreads := h.reads
  rw [hrequest, Option.toList_none, List.append_nil] at hreads
  rw [hanswer, hleft, List.append_nil] at hpart
  obtain rfl : part = [] := hpart
  exact ⟨hreads.messages_of_stop hnext, by rw [hwritten, List.append_nil]⟩

theorem served_of_run (h : run s es = some c) : c.Served s es := by
  have hkept := run_kept h
  have hrequests : Server.requests (pieces es) =
      (Wire.Inbox.ofBytes Wire.request (pieces es).flatten).messages := by
    unfold Server.requests
    rw [Wire.Inbox.ofStream_eq, Wire.Inbox.messages_close]
  have hlater : ∀ {later next}, run s (es ++ later) = some next →
      Run.reach (after s) c later = some next := by
    intro later next hrun
    obtain ⟨between, hbetween, hlater⟩ := Run.reach_append_eq_some.1 hrun
    obtain rfl : c = between := Option.some.inj (h.symm.trans hbetween)
    exact hlater
  refine ⟨?_, ?_, hkept.writes, ?_, hkept.closed, settles s c, hkept.rests_iff.1, ?_, ?_⟩
  · rw [hrequests, hkept.reads.messages_eq, List.append_assoc]
    exact List.prefix_append _ _
  · intro x hx
    refine (hkept.answers x (List.mem_append_left _ hx)).imp id ?_
    rintro ⟨hunavailable, hgone⟩
    exact ⟨hunavailable, goes_of_gone h hgone⟩
  · intro hstopped
    obtain ⟨hmessages, hwritten⟩ := hkept.messages_of_stopped hstopped
    rw [hrequests, hmessages]
    refine ⟨rfl, ?_⟩
    rw [hwritten]
    apply Server.serve_handed
    rw [hrequests, hmessages, List.length_map, List.length_map]
  · intro hover later next hrun
    exact reach_of_over (hlater hrun) hover
  · intro hgone later next hrun
    exact (reach_refuses (hlater hrun) (refuses_begun hgone)).refused

end Connection

/-- A connection is served request by request, in order, up to the first bad frame. Of the longest
part of its stream that is made up of whole frames of requests each request gets one response, in
whatever pieces the bytes arrive. The response is the answer of the sentinel, or says that there is
none. Then nothing more is written, and the connection is closed unless more may arrive. What
happens on one connection is told by the events on it alone. -/
theorem a_connection_is_served_request_by_request (s : Sentinel) :
    (∀ pieces, Wire.LongestPrefix Wire.request pieces.flatten (Server.requests pieces)) ∧
      (∀ es c, Connection.run s es = some c → c.Served s es) ∧
      ∀ es connections, Server.run s es = some connections ↔
        ∀ i, Connection.run s (es.filterMap (ServerEvent.seenOn i)) = some (connections i) :=
  ⟨Server.longestPrefix_requests, fun _ _ h => Connection.served_of_run h,
    fun es connections => Server.reach_iff es _ connections⟩

end

namespace Sample

attribute [local instance] standardCrypto

def requestBytes : List UInt8 := Wire.sendAll Wire.request [.validate transaction]

/-- A frame of four bytes that begin no request. -/
def garbage : List UInt8 := [0, 0, 0, 4, 255, 255, 255, 255]

/-- Two requests with garbage between them arrive in two pieces. -/
def course : List ConnectionEvent :=
  [.arrives (requestBytes.take 3), .arrives (requestBytes.drop 3 ++ garbage ++ requestBytes),
    .reads, .answers, .writes 50, .writes 53, .reads]

def response : Response := .validated (some attestation)

/-- The first request is read, and all that comes behind it is pending. -/
def hasRead : Connection :=
  { Connection.start with
    pending := garbage ++ requestBytes
    serving := .asking (.validate transaction) [] }

theorem reach_hasRead :
    Run.reach (Connection.after keyedPeer.sentinel) .start (course.take 3) = some hasRead := by
  decide +kernel

theorem after_hasRead : hasRead.after keyedPeer.sentinel .answers =
    some (hasRead.respond (.validate transaction) response) := by
  have hresponse : Request.response? keyedPeer.sentinel (.validate transaction) [] =
      some (.validated (keyedPeer.sentinel.validate transaction)) := rfl
  rw [validate_keyedPeer] at hresponse
  simp [Connection.after, hasRead, hresponse, response]

theorem run_course : (Connection.run keyedPeer.sentinel course).map
    (fun c => (c.answered, c.serving)) =
      some ([(.validate transaction, response)], .closed (.faulty (.payload .reserved))) := by
  have hlater : (Run.reach (Connection.after keyedPeer.sentinel)
      (hasRead.respond (.validate transaction) response) (course.drop 4)).map
        (fun c => (c.answered, c.serving)) =
          some ([(.validate transaction, response)], .closed (.faulty (.payload .reserved))) := by
    decide +kernel
  have hcourse : course = course.take 3 ++ .answers :: course.drop 4 := rfl
  unfold Connection.run
  rw [hcourse, Run.reach_append, reach_hasRead, Option.bind_some, Run.reach, after_hasRead,
    Option.bind_some]
  exact hlater

/-- The first request is answered, and the second one, which comes behind the garbage, is not. -/
theorem a_request_behind_garbage_is_not_read :
    ∃ c, Connection.run keyedPeer.sentinel course = some c ∧
      c.answered = [(.validate transaction, response)] ∧
      c.serving = .closed (.faulty (.payload .reserved)) ∧
      Server.requests (Connection.pieces course) = [.validate transaction] ∧
      c.written = Wire.sendAll Wire.response [response] ∧
      ∀ later next, Connection.run keyedPeer.sentinel (course ++ later) = some next →
        next.written = c.written := by
  obtain ⟨_, hserved, _⟩ := a_connection_is_served_request_by_request keyedPeer.sentinel
  obtain ⟨c, hrun, hstage⟩ := Option.map_eq_some_iff.1 run_course
  obtain ⟨hanswered, hclosed⟩ := Prod.mk.inj hstage
  have hc := hserved course c hrun
  obtain ⟨hrequests, _⟩ := hc.all (.closed hclosed)
  obtain ⟨part, hwritten, hpart⟩ := hc.writes
  rw [hclosed] at hpart
  obtain rfl : part = [] := by
    simpa [Serving.left, Serving.answer?, Wire.sendAll] using hpart
  rw [hanswered] at hrequests hwritten
  refine ⟨c, hrun, hanswered, hclosed, hrequests.symm, by simpa using hwritten, ?_⟩
  intro later next hlater
  exact (hc.ends (hclosed ▸ .closed _) later next hlater).2.1

end Sample

end Admission
