-- What is true of a connection whatever happens on it. The requests that were read
-- are the first ones of the stream, each answer is the one of the sentinel, and what
-- was written are the responses and perhaps a part of one more.
import Admission.Proofs.Connections

namespace Admission

section
variable [Crypto]

/-! ## What holds of every run -/

namespace Serving

/-- The request that is read and not answered yet. -/
def request? : Serving → Option Request
  | asking r _ | answering r _ _ | lost r _ _ => some r
  | reading | closed _ => none

/-- The response that is not written as a whole, with its request. -/
def answer? : Serving → Option (Request × Response)
  | answering r response _ | lost r response _ => some (r, response)
  | reading | asking _ _ | closed _ => none

/-- What of this response is not written. -/
def left : Serving → List UInt8
  | answering _ _ left | lost _ _ left => left
  | reading | asking _ _ | closed _ => []

end Serving

/-- The server is done with the connection. -/
inductive Serving.Over : Serving → Prop
  | closed (why : Closing) : Over (.closed why)
  | lost (r : Request) (response : Response) (left : List UInt8) : Over (.lost r response left)

/-- The bytes of one event. -/
def ConnectionEvent.piece? : ConnectionEvent → Option (List UInt8)
  | arrives piece => some piece
  | _ => none

/-- What is true of a connection that these bytes have arrived on. -/
structure Connection.Kept (s : Sentinel) (stream : List UInt8) (c : Connection) : Prop where
  reads : Wire.BeginsWith Wire.request stream
    (c.answered.map (·.1) ++ c.serving.request?.toList) c.pending
  answers : ∀ x ∈ c.answered ++ c.serving.answer?.toList,
    x.1.Answer s x.2 ∨ x.2 = .unavailable ∧ c.gone = true
  writes : ∃ part, c.written = Wire.sendAll Wire.response (c.answered.map (·.2)) ++ part ∧
    part ++ c.serving.left = Wire.sendAll Wire.response (c.serving.answer?.toList.map (·.2))
  closed : ∀ why, c.serving = .closed why → why.Due c.pending c.ending
  unfinished : ∀ r response left, c.serving = .answering r response left → left ≠ []

namespace Closing

variable {pending : List UInt8} {ending : StreamEnd} {why : Closing}

/-- Only a bad frame is a reason before the end of the stream, and it stays one. -/
theorem Due.of_open (h : why.Due pending .silent) (more : List UInt8) (ending : StreamEnd) :
    why.Due (pending ++ more) ending := by
  cases h with
  | faulty h => exact .faulty (h.append more)
  | ended hending | cutOff hending | broken hending => cases hending

/-- No request is next. -/
theorem Due.not_some (h : why.Due pending ending) (r : Request) (rest : List UInt8) :
    Wire.next Wire.request pending ≠ .ok (some (r, rest)) := by
  cases h with
  | faulty h =>
    rw [Wire.next_eq_error_iff.2 h]
    simp
  | ended _ hshort | cutOff _ hshort | broken _ hshort =>
    rw [Wire.next_eq_none_iff.2 hshort]
    simp

end Closing

namespace Connection

variable {s : Sentinel} {stream : List UInt8} {c next : Connection} {e : ConnectionEvent}

theorem kept_start (s : Sentinel) : start.Kept s [] where
  reads := .nothing []
  answers := by simp [start, Serving.answer?]
  writes := ⟨[], rfl, rfl⟩
  closed := by simp [start]
  unfinished := by simp [start]

theorem Kept.arrives (h : c.Kept s stream) (hopen : c.ending = .silent) (piece : List UInt8) :
    Kept s (stream ++ piece) { c with pending := c.pending ++ piece } where
  reads := h.reads.append _
  answers := h.answers
  writes := h.writes
  closed why hclosed := by
    have hdue := h.closed why hclosed
    rw [hopen] at hdue
    exact hdue.of_open _ _
  unfinished := h.unfinished

theorem Kept.ends (h : c.Kept s stream) (hopen : c.ending = .silent) (how : StreamEnd) :
    Kept s stream { c with ending := how } where
  reads := h.reads
  answers := h.answers
  writes := h.writes
  closed why hclosed := by
    have hdue := h.closed why hclosed
    rw [hopen] at hdue
    simpa using hdue.of_open [] how
  unfinished := h.unfinished

/-- Another stage in which the same request and the same response are not finished. -/
theorem Kept.stage {serving : Serving} (h : c.Kept s stream)
    (hrequest : c.serving.request? = serving.request?) (hanswer : c.serving.answer? = serving.answer?)
    (hleft : c.serving.left = serving.left)
    (hclosed : ∀ why, serving = .closed why → why.Due c.pending c.ending)
    (hunfinished : ∀ r response left, serving ≠ .answering r response left) :
    Kept s stream { c with serving := serving } where
  reads := hrequest ▸ h.reads
  answers := hanswer ▸ h.answers
  writes := hanswer ▸ hleft ▸ h.writes
  closed := hclosed
  unfinished r response left heq := absurd heq (hunfinished r response left)

/-- The next request is read, and the sentinel is asked. -/
theorem Kept.asks {r : Request} {rest : List UInt8} (h : c.Kept s stream)
    (hreading : c.serving = .reading)
    (hnext : Wire.next Wire.request c.pending = .ok (some (r, rest))) :
    Kept s stream { c with pending := rest, serving := .asking r [] } := by
  obtain ⟨part, hwritten, hpart⟩ := h.writes
  have hreads := h.reads
  have hanswers := h.answers
  simp only [hreading, Serving.request?, Serving.answer?, Serving.left, Option.toList_none,
    List.append_nil, List.map_nil] at hreads hanswers hpart
  refine ⟨?_, ?_, ⟨part, hwritten, ?_⟩, by simp, by simp⟩
  · exact hreads.snoc hnext
  · simpa [Serving.answer?] using hanswers
  · simpa [Serving.left, Serving.answer?] using hpart

/-- A response is there, and is written next. -/
theorem Kept.turns {r : Request} {hs : List Happening} {response : Response} {frame : List UInt8}
    (h : c.Kept s stream) (hasking : c.serving = .asking r hs)
    (hanswer : r.Answer s response ∨ response = .unavailable ∧ c.gone = true)
    (hsend : Wire.send Wire.response response = some frame) :
    Kept s stream { c with serving := .answering r response frame } := by
  obtain ⟨part, hwritten, hpart⟩ := h.writes
  have hreads := h.reads
  have hanswers := h.answers
  simp only [hasking, Serving.request?, Serving.answer?, Serving.left, Option.toList_none,
    List.append_nil, List.map_nil] at hreads hanswers hpart
  have hnothing : part = [] := hpart
  subst hnothing
  refine ⟨hreads, ?_, ⟨[], hwritten, ?_⟩, by simp, ?_⟩
  · intro x hx
    rcases List.mem_append.1 hx with hx | hx
    · exact hanswers x hx
    · rw [Serving.answer?, Option.toList_some, List.mem_singleton] at hx
      exact hx ▸ hanswer
  · simp [Serving.left, Serving.answer?, Wire.sendAll, hsend]
  · intro _ _ left heq
    cases heq
    have hlength := Wire.length_of_frame hsend
    have hheader : 0 < Wire.headerLength := by decide
    intro hnil
    rw [hnil, List.length_nil] at hlength
    omega

/-- Bytes of the response are written, but not the last one. -/
theorem Kept.writesPart {r : Request} {response : Response} {left : List UInt8} {count : Nat}
    (h : c.Kept s stream) (hanswering : c.serving = .answering r response left)
    (hcount : count < left.length) :
    Kept s stream
      { c with written := c.written ++ left.take count
               serving := .answering r response (left.drop count) } := by
  obtain ⟨part, hwritten, hpart⟩ := h.writes
  have hreads := h.reads
  have hanswers := h.answers
  rw [hanswering] at hreads hanswers hpart
  refine ⟨hreads, hanswers, ⟨part ++ left.take count, ?_, ?_⟩, by simp, ?_⟩
  · rw [hwritten, List.append_assoc]
  · have hwhole : part ++ left.take count ++ left.drop count = part ++ left := by
      rw [List.append_assoc, List.take_append_drop]
    exact hwhole.trans hpart
  · intro _ _ later heq hnil
    cases heq
    rw [List.drop_eq_nil_iff] at hnil
    omega

/-- The response is written as a whole, and so the request is answered. -/
theorem Kept.writesAll {r : Request} {response : Response} {left : List UInt8}
    (h : c.Kept s stream) (hanswering : c.serving = .answering r response left) :
    Kept s stream
      { c with written := c.written ++ left
               answered := c.answered ++ [(r, response)]
               serving := .reading } := by
  obtain ⟨part, hwritten, hpart⟩ := h.writes
  have hreads := h.reads
  have hanswers := h.answers
  rw [hanswering] at hreads hanswers hpart
  refine ⟨?_, ?_, ⟨[], ?_, rfl⟩, by simp, by simp⟩
  · simpa [Serving.request?] using hreads
  · simpa [Serving.answer?] using hanswers
  · have hall : part ++ left = Wire.sendAll Wire.response [response] := hpart
    rw [hwritten, List.append_assoc, hall, List.map_append, List.append_nil]
    exact (Wire.sendAll_append (fun a _ => Wire.fits_response a) [response]).symm

/-- Whatever happens, it stays true of the connection. -/
theorem Kept.moves (h : c.Kept s stream) (hmoves : Moves s c e next) :
    next.Kept s (stream ++ e.piece?.getD []) := by
  cases hmoves with
  | arrives hopen => exact h.arrives hopen _
  | ends hopen => simpa [ConnectionEvent.piece?] using h.ends hopen .closed
  | breaks hopen => simpa [ConnectionEvent.piece?] using h.ends hopen .broken
  | goes =>
    simp only [ConnectionEvent.piece?, Option.getD_none, List.append_nil]
    exact ⟨h.reads, fun x hx => (h.answers x hx).imp id fun hgone => ⟨hgone.1, rfl⟩, h.writes,
      h.closed, h.unfinished⟩
  | closes hreading hdue =>
    simp only [ConnectionEvent.piece?, Option.getD_none, List.append_nil]
    refine h.stage ?_ ?_ ?_ (fun why heq => Serving.closed.inj heq ▸ hdue) (by simp) <;>
      rw [hreading] <;> rfl
  | asks hreading hgone hnext => simpa [ConnectionEvent.piece?] using h.asks hreading hnext
  | declines hreading hgone hnext hsend =>
    simpa [ConnectionEvent.piece?] using
      (h.asks hreading hnext).turns rfl (Or.inr ⟨rfl, hgone⟩) hsend
  | happens hasking hrun =>
    simp only [ConnectionEvent.piece?, Option.getD_none, List.append_nil]
    refine h.stage ?_ ?_ ?_ (by simp) (by simp) <;> rw [hasking] <;> rfl
  | answers hasking hanswer hsend =>
    simpa [ConnectionEvent.piece?] using h.turns hasking (Or.inl hanswer) hsend
  | loses hasking hgone hsend =>
    simpa [ConnectionEvent.piece?] using h.turns hasking (Or.inr ⟨rfl, hgone⟩) hsend
  | writesPart hanswering _ hcount =>
    simpa [ConnectionEvent.piece?] using h.writesPart hanswering hcount
  | writesAll hanswering => simpa [ConnectionEvent.piece?] using h.writesAll hanswering
  | fails hanswering =>
    simp only [ConnectionEvent.piece?, Option.getD_none, List.append_nil]
    refine h.stage ?_ ?_ ?_ (by simp) (by simp) <;> rw [hanswering] <;> rfl

/-- The pieces that arrive in these events. -/
def pieces (es : List ConnectionEvent) : List (List UInt8) :=
  es.filterMap ConnectionEvent.piece?

omit [Crypto] in
theorem flatten_pieces_append_singleton (es : List ConnectionEvent) (e : ConnectionEvent) :
    (pieces (es ++ [e])).flatten = (pieces es).flatten ++ e.piece?.getD [] := by
  unfold pieces
  rw [List.filterMap_append, List.flatten_append]
  cases hpiece : e.piece? <;> simp [hpiece]

variable {es later : List ConnectionEvent}

/-- In every run it is true of the connection. -/
theorem run_kept (h : run s es = some c) : c.Kept s (pieces es).flatten := by
  refine Run.reach_induction (P := fun es c => c.Kept s (pieces es).flatten) (kept_start s) ?_ h
  intro es between e next _ hkept hafter
  rw [flatten_pieces_append_singleton]
  exact hkept.moves (moves_of_after hafter)

/-! ## The end of a connection -/

/-- Nothing more is read or written once the server is done with a connection. -/
theorem Moves.of_over (hmoves : Moves s c e next) (hover : c.serving.Over) :
    next.serving = c.serving ∧ next.written = c.written ∧ next.answered = c.answered := by
  cases hmoves with
  | arrives | ends | breaks | goes => exact ⟨rfl, rfl, rfl⟩
  | closes hstage | asks hstage | declines hstage | happens hstage | answers hstage
  | loses hstage | writesPart hstage | writesAll hstage | fails hstage =>
    rw [hstage] at hover
    cases hover

theorem reach_of_over (h : Run.reach (after s) c later = some next) (hover : c.serving.Over) :
    next.serving = c.serving ∧ next.written = c.written ∧ next.answered = c.answered := by
  refine Run.reach_induction (P := fun _ next => next.serving = c.serving ∧
    next.written = c.written ∧ next.answered = c.answered) ⟨rfl, rfl, rfl⟩ ?_ h
  rintro _ between e last _ ⟨hserving, hwritten, hanswered⟩ hafter
  obtain ⟨hserving', hwritten', hanswered'⟩ :=
    (moves_of_after hafter).of_over (hserving ▸ hover)
  exact ⟨hserving'.trans hserving, hwritten'.trans hwritten, hanswered'.trans hanswered⟩

/-! ## Without the sentinel -/

/-- How many requests were read. -/
def begun (c : Connection) : Nat := c.answered.length + c.serving.request?.toList.length

/-- The sentinel is gone, and what was read after the first `n` requests is refused. -/
structure Refuses (n : Nat) (c : Connection) : Prop where
  gone : c.gone = true
  refused : ∀ x ∈ c.answered.drop n, x.2 = .unavailable
  asking : ∀ r hs, c.serving = .asking r hs → c.answered.length < n
  answering : ∀ r response left, c.serving = .answering r response left →
    n ≤ c.answered.length → response = .unavailable

omit [Crypto] in
theorem refuses_begun (hgone : c.gone = true) : c.Refuses c.begun where
  gone := hgone
  refused := by
    have hdrop : c.answered.drop c.begun = [] :=
      List.drop_eq_nil_of_le (Nat.le_add_right _ _)
    simp [hdrop]
  asking r hs hasking := by simp [begun, hasking, Serving.request?]
  answering r response left hanswering hle := by
    simp [begun, hanswering, Serving.request?] at hle

theorem Refuses.moves {n : Nat} (h : c.Refuses n) (hmoves : Moves s c e next) :
    next.Refuses n := by
  cases hmoves with
  | arrives | ends | breaks => exact ⟨h.gone, h.refused, h.asking, h.answering⟩
  | goes => exact ⟨rfl, h.refused, h.asking, h.answering⟩
  | closes | fails => exact ⟨h.gone, h.refused, by simp, by simp⟩
  | asks _ hgone => simp [h.gone] at hgone
  | declines =>
    refine ⟨h.gone, h.refused, by simp, ?_⟩
    rintro _ _ _ heq _
    cases heq
    rfl
  | happens hasking =>
    refine ⟨h.gone, h.refused, ?_, by simp⟩
    intro _ _ _
    exact h.asking _ _ hasking
  | answers hasking =>
    refine ⟨h.gone, h.refused, by simp, ?_⟩
    intro _ _ _ _ hle
    exact absurd (h.asking _ _ hasking) (Nat.not_lt.2 hle)
  | loses =>
    refine ⟨h.gone, h.refused, by simp, ?_⟩
    rintro _ _ _ heq _
    cases heq
    rfl
  | writesPart hanswering =>
    refine ⟨h.gone, h.refused, by simp, ?_⟩
    rintro _ _ _ heq hle
    cases heq
    exact h.answering _ _ _ hanswering hle
  | writesAll hanswering =>
    refine ⟨h.gone, ?_, by simp, by simp⟩
    intro x hx
    by_cases hle : n ≤ c.answered.length
    · rw [List.drop_append_of_le_length hle] at hx
      rcases List.mem_append.1 hx with hx | hx
      · exact h.refused x hx
      · rw [List.mem_singleton.1 hx]
        exact h.answering _ _ _ hanswering hle
    · rw [List.drop_eq_nil_of_le] at hx
      · cases hx
      · rw [List.length_append, List.length_singleton]
        omega

theorem reach_refuses {n : Nat} (h : Run.reach (after s) c later = some next)
    (hrefuses : c.Refuses n) : next.Refuses n := by
  refine Run.reach_induction (P := fun _ next => next.Refuses n) hrefuses ?_ h
  intro _ between e last _ hbefore hafter
  exact hbefore.moves (moves_of_after hafter)

end Connection

end

end Admission
