-- Attempts to hand a summary to the coordinator, one connection each. An attempt
-- is accepted just if the whole request was written, and what comes back decides
-- the outcome.
import Admission.Proofs.Streams

namespace Admission

/-- What an attempt meets. -/
inductive Attempt where
  /-- Nobody is there who could make it. -/
  | undelivered
  | connection (o : OtherEnd)
  /-- A connection too, but whoever was to read the outcome is gone by then. -/
  | abandoned (o : OtherEnd)

/-- The outcome that bytes begin with. There is none if they begin with anything else. -/
def outcomeIn (bytes : List UInt8) : Option Bool :=
  match (Wire.Inbox.ofBytes Wire.coordinatorResponse bytes).messages with
  | .outcome committed :: _ => committed
  | [] => none

/-- What comes back does not leave a reader waiting: the stream ends, or it breaks, or what was read
of it is no message. -/
def OtherEnd.Stops (o : OtherEnd) : Prop :=
  o.ending ≠ .silent ∨
    (Wire.Inbox.ofBytes Wire.coordinatorResponse o.answer.flatten).fault ≠ none

/-! ## What comes back -/

section
variable {o : OtherEnd}

theorem OtherEnd.Stops.not_nothing (h : o.Stops) :
    o.firstReceived Wire.coordinatorResponse ≠ .nothing := by
  unfold Stops at h
  rw [← Wire.Inbox.foldl_receive] at h
  unfold firstReceived
  dsimp only
  split
  · simp
  · simp
  · split <;> simp
  · simp
  · rename_i hfault hending
    rcases h with h | h
    · exact absurd hending h
    · exact absurd hfault h

theorem OtherEnd.accepted_firstReceived (o : OtherEnd) :
    (o.firstReceived Wire.coordinatorResponse).accepted = true := by
  unfold firstReceived
  dsimp only
  split
  · rfl
  · rfl
  · split <;> rfl
  · rfl
  · rfl

/-- Unless nothing ever comes, the outcome is the one that the answer begins with. -/
theorem OtherEnd.outcome_firstReceived
    (h : o.firstReceived Wire.coordinatorResponse ≠ .nothing) :
    (o.firstReceived Wire.coordinatorResponse).outcome = some (outcomeIn o.answer.flatten) := by
  revert h
  unfold outcomeIn firstReceived
  rw [← Wire.Inbox.foldl_receive]
  generalize o.answer.foldl (Wire.Inbox.receive Wire.coordinatorResponse) Wire.Inbox.empty = inbox
  dsimp only
  intro h
  cases hmessages : inbox.messages with
  | cons response rest =>
    cases response
    rfl
  | nil =>
    cases hfault : inbox.fault with
    | some fault => rfl
    | none =>
      cases hending : o.ending with
      | closed => cases inbox.close.fault <;> rfl
      | broken => rfl
      | silent =>
        rw [hmessages, hfault, hending] at h
        exact absurd rfl h

/-- Of an answer that begins with the frame of an outcome, this outcome is received. -/
theorem OtherEnd.firstReceived_of_outcome {committed : Option Bool} {bytes rest : List UInt8}
    (hsend : Wire.send Wire.coordinatorResponse (.outcome committed) = some bytes)
    (hanswer : o.answer.flatten = bytes ++ rest) :
    o.firstReceived Wire.coordinatorResponse = .message (.outcome committed) ∧
      outcomeIn o.answer.flatten = committed := by
  have hfits : Wire.Fits Wire.coordinatorResponse (.outcome committed) :=
    Wire.exists_send_iff_fits.1 ⟨bytes, hsend⟩
  have hall : Wire.sendAll Wire.coordinatorResponse [.outcome committed] = bytes := by
    rw [Wire.sendAll_cons hsend]
    exact List.append_nil bytes
  have hmessages : (Wire.Inbox.ofBytes Wire.coordinatorResponse o.answer.flatten).messages =
      .outcome committed :: (Wire.Inbox.ofBytes Wire.coordinatorResponse rest).messages := by
    rw [hanswer, ← hall, Wire.Inbox.ofBytes_sendAll Wire.coordinatorResponse_readsBack _ rest]
    · rfl
    · intro a ha
      rw [List.mem_singleton.1 ha]
      exact ⟨trivial, hfits⟩
  unfold firstReceived outcomeIn
  rw [Wire.Inbox.foldl_receive]
  dsimp only
  rw [hmessages]
  exact ⟨rfl, rfl⟩

end

/-! ## Exchanges -/

/-- Whatever an exchange comes to: the whole request was written and something is received in its
place, or not even the whole request was written. -/
theorem OtherEnd.exchange_cases {α β : Type} (o : OtherEnd) (limit : Nat) (f : Format α)
    (g : Format β) (request : α) :
    (∃ bytes, Wire.send f request = some bytes ∧
      (o.exchange limit f g request).written = bytes ∧
      (o.exchange limit f g request).received = o.firstReceived g) ∨
    (((o.exchange limit f g request).received = .unopened ∨
        (o.exchange limit f g request).received = .unwritten) ∧
      ∀ bytes, Wire.send f request = some bytes →
        (o.exchange limit f g request).written <+: bytes ∧
          (o.exchange limit f g request).written.length < bytes.length) := by
  unfold exchange
  dsimp only
  by_cases hopen : (o.opening.within limit).2 = true
  · rw [hopen]
    cases hsend : Wire.send f request with
    | none => exact Or.inr ⟨Or.inr rfl, fun _ h => by cases h⟩
    | some bytes =>
      dsimp only
      by_cases hroom : o.room.getD bytes.length < bytes.length
      · refine Or.inr ?_
        rw [if_neg (by simp), if_pos hroom]
        refine ⟨Or.inr rfl, fun whole hwhole => ?_⟩
        obtain rfl := Option.some.inj hwhole
        refine ⟨List.take_prefix _ _, ?_⟩
        rw [List.length_take]
        omega
      · refine Or.inl ⟨bytes, rfl, ?_⟩
        simp [hroom]
  · simp only [Bool.not_eq_true] at hopen
    rw [hopen]
    refine Or.inr ⟨Or.inl rfl, fun bytes hsend => ⟨List.nil_prefix, ?_⟩⟩
    have hlength := Wire.length_of_frame hsend
    simp only [Bool.not_false, if_true, List.length_nil]
    rw [hlength]
    exact Nat.lt_of_lt_of_le (by decide : 0 < Wire.headerLength) (Nat.le_add_right _ _)

section
variable [Crypto]

theorem OtherEnd.received_of_accepted (o : OtherEnd) {limit : Nat} {s : Summary}
    (h : (o.submit limit s).received.accepted = true) :
    (o.submit limit s).received = o.firstReceived Wire.coordinatorResponse := by
  rcases o.exchange_cases limit Wire.coordinatorRequest Wire.coordinatorResponse (.execute s) with
    ⟨_, _, _, hreceived⟩ | ⟨hreceived, _⟩
  · exact hreceived
  · unfold OtherEnd.submit at h
    rcases hreceived with hreceived | hreceived <;> rw [hreceived] at h <;> cases h

namespace Attempt

/-- What becomes of the request that carries a summary. -/
def exchange (a : Attempt) (limit : Nat) (s : Summary) : Exchange CoordinatorResponse :=
  match a with
  | undelivered => ⟨[], .unopened, 0⟩
  | connection o | abandoned o => o.submit limit s

/-- Whether the attempt is reported as accepted. -/
def isAccepted (a : Attempt) (limit : Nat) (s : Summary) : Bool :=
  (a.exchange limit s).received.accepted

/-- What the attempt does to the submission. -/
def happenings (a : Attempt) (limit : Nat) (s : Summary) : List Happening :=
  match a with
  | abandoned _ => if a.isAccepted limit s then [.accepted, .dropped] else [.refused]
  | undelivered | connection _ => (a.exchange limit s).received.happenings

/-- What a submission gets of an accepted attempt: the outcome that the answer begins with, or that
there is none. As long as nothing comes it gets nothing. -/
def result : Attempt → Option (Option Bool)
  | undelivered => none
  | connection o =>
    if o.firstReceived Wire.coordinatorResponse = .nothing then none
    else some (outcomeIn o.answer.flatten)
  | abandoned _ => some none

variable {a : Attempt} {limit : Nat} {s : Summary} {frame : List UInt8}

/-- An accepted attempt has written the whole request, any other one a part of it at most. -/
theorem written_cases (a : Attempt) (limit : Nat) (s : Summary) :
    (a.isAccepted limit s = true ∧
      Wire.send Wire.coordinatorRequest (.execute s) = some (a.exchange limit s).written) ∨
    (a.isAccepted limit s = false ∧
      ∀ frame, Wire.send Wire.coordinatorRequest (.execute s) = some frame →
        (a.exchange limit s).written <+: frame ∧
          (a.exchange limit s).written.length < frame.length) := by
  have hconnected : ∀ o : OtherEnd,
      ((o.submit limit s).received.accepted = true ∧
        Wire.send Wire.coordinatorRequest (.execute s) = some (o.submit limit s).written) ∨
      ((o.submit limit s).received.accepted = false ∧
        ∀ frame, Wire.send Wire.coordinatorRequest (.execute s) = some frame →
          (o.submit limit s).written <+: frame ∧
            (o.submit limit s).written.length < frame.length) := by
    intro o
    rcases o.exchange_cases limit Wire.coordinatorRequest Wire.coordinatorResponse (.execute s) with
      ⟨bytes, hsend, hwritten, hreceived⟩ | ⟨hreceived, hpart⟩
    · refine Or.inl ⟨?_, ?_⟩
      · unfold OtherEnd.submit
        rw [hreceived]
        exact o.accepted_firstReceived
      · unfold OtherEnd.submit
        rw [hwritten]
        exact hsend
    · refine Or.inr ⟨?_, hpart⟩
      unfold OtherEnd.submit
      rcases hreceived with hreceived | hreceived <;> rw [hreceived] <;> rfl
  cases a with
  | undelivered =>
    refine Or.inr ⟨rfl, fun frame hsend => ⟨List.nil_prefix, ?_⟩⟩
    have hlength := Wire.length_of_frame hsend
    have hheader : 0 < Wire.headerLength := by decide
    unfold exchange
    simp only [List.length_nil]
    omega
  | connection o | abandoned o => exact hconnected o

/-- Accepted is what was written as a whole. -/
theorem isAccepted_iff (hsend : Wire.send Wire.coordinatorRequest (.execute s) = some frame) :
    a.isAccepted limit s = true ↔ (a.exchange limit s).written = frame := by
  rcases a.written_cases limit s with ⟨haccepted, hwritten⟩ | ⟨hrefused, hpart⟩
  · rw [hwritten] at hsend
    exact iff_of_true haccepted (Option.some.inj hsend)
  · refine iff_of_false (by simp [hrefused]) ?_
    intro hwhole
    have hlength := (hpart frame hsend).2
    rw [hwhole] at hlength
    exact Nat.lt_irrefl _ hlength

/-- An attempt that is not accepted leaves no message with the coordinator. -/
theorem messages_of_refused (hsend : Wire.send Wire.coordinatorRequest (.execute s) = some frame)
    (hrefused : a.isAccepted limit s = false) :
    (Wire.Inbox.ofBytes Wire.coordinatorRequest (a.exchange limit s).written).messages = [] := by
  rcases a.written_cases limit s with ⟨haccepted, _⟩ | ⟨_, hpart⟩
  · rw [hrefused] at haccepted
    cases haccepted
  · obtain ⟨hbegins, hshort⟩ := hpart frame hsend
    rw [Wire.Inbox.ofBytes_of_part (Wire.firstFrame_of_part hsend hbegins hshort)]

/-- An accepted attempt leaves the summary with it, and nothing else. -/
theorem messages_of_accepted (hgenuine : (CoordinatorRequest.execute s).Genuine)
    (haccepted : a.isAccepted limit s = true) :
    (Wire.Inbox.ofBytes Wire.coordinatorRequest (a.exchange limit s).written).messages =
      [.execute s] := by
  rcases a.written_cases limit s with ⟨_, hsend⟩ | ⟨hrefused, _⟩
  · have hfits : Wire.Fits Wire.coordinatorRequest (.execute s) :=
      Wire.exists_send_iff_fits.1 ⟨_, hsend⟩
    have hsendable : s.Sendable := Summary.sendable_of_fits hgenuine hfits
    rw [Wire.Inbox.messages_of_frame hsend,
      Format.readAll_write Wire.coordinatorRequest_readsBack (.execute s) hsendable]
  · rw [hrefused] at haccepted
    cases haccepted

omit [Crypto] in
/-- The value of the frame that comes back is the result. -/
theorem result_of_outcome {o : OtherEnd} {committed : Option Bool} {bytes rest : List UInt8}
    (hsend : Wire.send Wire.coordinatorResponse (.outcome committed) = some bytes)
    (hanswer : o.answer.flatten = bytes ++ rest) : result (.connection o) = some committed := by
  obtain ⟨hfirst, houtcome⟩ := OtherEnd.firstReceived_of_outcome hsend hanswer
  unfold result
  dsimp only
  rw [hfirst, if_neg (by simp), houtcome]

omit [Crypto] in
/-- There is no outcome in every other case that ends. -/
theorem result_of_stops {o : OtherEnd} (hstops : o.Stops)
    (hnone : (Wire.Inbox.ofBytes Wire.coordinatorResponse o.answer.flatten).messages = []) :
    result (.connection o) = some none := by
  have houtcome : outcomeIn o.answer.flatten = none := by
    unfold outcomeIn
    rw [hnone]
  unfold result
  dsimp only
  rw [if_neg hstops.not_nothing, houtcome]

theorem happenings_of_refused (hrefused : a.isAccepted limit s = false) :
    a.happenings limit s = [.refused] := by
  unfold isAccepted at hrefused
  cases a with
  | undelivered | connection o => simp [happenings, Received.happenings, hrefused]
  | abandoned o => simp [happenings, isAccepted, hrefused]

/-- An attempt is first accepted, and then its result is there unless nothing ever comes. -/
theorem happenings_of_accepted (haccepted : a.isAccepted limit s = true) :
    (a.result = none ∧ a.happenings limit s = [.accepted]) ∨
      ∃ outcome last, a.result = some outcome ∧ a.happenings limit s = [.accepted, last] ∧
        (last = .concluded outcome ∨ (last = .dropped ∧ outcome = none)) := by
  cases a with
  | undelivered => cases haccepted
  | abandoned o =>
    refine Or.inr ⟨none, .dropped, rfl, ?_, Or.inr ⟨rfl, rfl⟩⟩
    unfold happenings
    rw [if_pos haccepted]
  | connection o =>
    have hreceived : (o.submit limit s).received = o.firstReceived Wire.coordinatorResponse :=
      o.received_of_accepted haccepted
    have hhappenings : happenings (.connection o) limit s =
        .accepted :: ((o.firstReceived Wire.coordinatorResponse).outcome.map
          Happening.concluded).toList := by
      unfold happenings exchange Received.happenings
      dsimp only
      rw [hreceived, if_pos o.accepted_firstReceived]
    by_cases hnothing : o.firstReceived Wire.coordinatorResponse = .nothing
    · refine Or.inl ⟨if_pos hnothing, ?_⟩
      rw [hhappenings, hnothing]
      rfl
    · refine Or.inr ⟨_, _, if_neg hnothing, ?_, Or.inl rfl⟩
      rw [hhappenings, o.outcome_firstReceived hnothing]
      rfl

end Attempt

end

end Admission
