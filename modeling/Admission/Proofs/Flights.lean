-- Handlings in flight together. They share the selector and nothing else: each of
-- them goes as it goes alone with the numbers that it takes and what it meets.
import Admission.Proofs.Endings
import Admission.Proofs.Rehearsals
import Admission.Proofs.Submitted

namespace Admission

/-! ## Logs with places -/

section
variable {α : Type} {index other : Nat}

theorem entriesAt_append (index : Nat) (log more : List (Nat × α)) :
    entriesAt index (log ++ more) = entriesAt index log ++ entriesAt index more := by
  simp [entriesAt]

theorem entriesAt_map_self (index : Nat) (entries : List α) :
    entriesAt index (entries.map fun entry => (index, entry)) = entries := by
  unfold entriesAt
  rw [List.filter_eq_self.2 (by simp), List.map_map]
  exact List.map_id entries

theorem entriesAt_map_of_ne (hne : other ≠ index) (entries : List α) :
    entriesAt other (entries.map fun entry => (index, entry)) = [] := by
  unfold entriesAt
  rw [List.filter_eq_nil_iff.2 (by simp [hne.symm])]
  rfl

end

section
variable [Crypto]

/-! ## One event -/

namespace Flight

/-- The handling at a place took these numbers, sent these messages and stands so now. Nothing else
became of the flight. -/
structure Steps (f next : Flight) (index : Nat) (e : Handling) (numbers : List Nat)
    (messages : List Message) : Prop where
  handlings : next.handlings = f.handlings.set index e
  given : f.randoms = numbers ++ next.randoms
  drawn : next.drawn = f.drawn ++ numbers.map fun random => (index, random)
  sent : next.sent = f.sent ++ messages.map fun m => (index, m)

/-- All that an event can do to a flight. -/
inductive Moves (s : Sentinel) (f : Flight) : FlightEvent → Flight → Prop
  | begins {t : Transaction} : Moves s f (.begins t) (f.add s t)
  | takes {index : Nat} {e : Handling} {p : Progress} {random : Nat} {next : Flight}
      (he : f.handlings[index]? = some e) (deciding : e.stage = .gathering (.deciding p))
      (steps : f.Steps next index { e with taken := e.taken ++ [random] } [random] []) :
      Moves s f (.decides index) next
  | decides {index : Nat} {e : Handling} {stage : Execution} {next : Flight}
      (he : f.handlings[index]? = some e)
      (decided : e.stage.after s.gatherer (.drew e.taken) = some stage)
      (steps : f.Steps next index ⟨e.transaction, stage, []⟩ [] stage.message.toList) :
      Moves s f (.decides index) next
  | meets {index : Nat} {e : Handling} {h : Happening} {stage : Execution} {next : Flight}
      (he : f.handlings[index]? = some e) (hdraw : h.isDraw = false)
      (goes : e.stage.after s.gatherer h = some stage)
      (steps : f.Steps next index ⟨e.transaction, stage, []⟩ [] stage.message.toList) :
      Moves s f (.meets index h) next

variable {s : Sentinel} {f next : Flight} {index : Nat} {e : Handling}

omit [Crypto] in
theorem steps_moveTo (f : Flight) (index : Nat) (e : Handling) (stage : Execution) :
    f.Steps (f.moveTo index e stage) index ⟨e.transaction, stage, []⟩ [] stage.message.toList :=
  ⟨rfl, rfl, (List.append_nil _).symm, rfl⟩

omit [Crypto] in
theorem steps_of_take (h : f.take index e = some next) :
    ∃ random, f.Steps next index { e with taken := e.taken ++ [random] } [random] [] := by
  unfold take at h
  split at h
  · cases h
  · rename_i random rest hrandoms
    cases h
    exact ⟨random, rfl, hrandoms, rfl, (List.append_nil _).symm⟩

theorem moves_of_decide (he : f.handlings[index]? = some e)
    (h : f.decide s index e = some next) : Moves s f (.decides index) next := by
  unfold decide at h
  split at h
  · rename_i p hstage
    split at h
    · rename_i stage hdecide
      cases h
      refine .decides he ?_ (steps_moveTo f index e _)
      rw [hstage]
      exact Option.map_eq_some_iff.2 ⟨stage, hdecide, rfl⟩
    · obtain ⟨random, hsteps⟩ := steps_of_take h
      exact .takes he hstage hsteps
  · cases h

theorem moves_of_after {event : FlightEvent} (h : f.after s event = some next) :
    Moves s f event next := by
  cases event with
  | begins t =>
    cases h
    exact .begins
  | decides index =>
    obtain ⟨e, he, hdecide⟩ := Option.bind_eq_some_iff.1 h
    exact moves_of_decide he hdecide
  | meets index happening =>
    obtain ⟨e, he, hmeets⟩ := Option.bind_eq_some_iff.1 h
    split at hmeets
    · cases hmeets
    · rename_i hdraw
      obtain ⟨stage, hgoes, rfl⟩ := Option.map_eq_some_iff.1 hmeets
      exact .meets he (Bool.eq_false_of_not_eq_true hdraw) hgoes (steps_moveTo f index e stage)

/-! ## A handling on its own -/

/-- The handling at a place goes as this run of its transaction alone: the run draws the numbers
that the handling took, and what else happens in it is what the handling met. -/
structure Alone (f : Flight) (s : Sentinel) (es : List FlightEvent) (index : Nat) (e : Handling)
    (hs : List Happening) : Prop where
  run : s.run e.transaction hs = some e.stage
  met : hs.filter (fun h => !h.isDraw) = happeningsAt index es
  drew : hs.flatMap Happening.drawn ++ e.taken = entriesAt index f.drawn
  sent : s.sent e.transaction hs = entriesAt index f.sent

/-- What is known of a flight after these events. -/
structure Fits (f : Flight) (s : Sentinel) (randoms : List Nat) (es : List FlightEvent) :
    Prop where
  begun : es.filterMap FlightEvent.begun = f.handlings.map (·.transaction)
  drawn : randoms = f.drawn.map (·.2) ++ f.randoms
  alone : ∀ (index : Nat) (e : Handling), f.handlings[index]? = some e → ∃ hs, f.Alone s es index e hs
  /-- Numbers are taken for a decision only. -/
  taken : ∀ (index : Nat) (e : Handling), f.handlings[index]? = some e →
    e.taken = [] ∨ ∃ p, e.stage = .gathering (.deciding p)
  /-- Nothing is known yet of the places that come next. -/
  next : ∀ index, f.handlings.length ≤ index →
    happeningsAt index es = [] ∧ entriesAt index f.drawn = [] ∧ entriesAt index f.sent = []

end Flight

theorem Sentinel.sent_append_singleton {s : Sentinel} {t : Transaction} {hs : List Happening}
    {e next : Execution} (happening : Happening) (hrun : s.run t hs = some e)
    (hafter : e.after s.gatherer happening = some next) :
    s.sent t (hs ++ [happening]) = s.sent t hs ++ next.message.toList := by
  unfold Sentinel.sent
  rw [Run.stages_append_singleton happening next hrun hafter, List.filterMap_append]
  cases hmessage : next.message <;> simp [hmessage]

theorem Sentinel.sent_nil (s : Sentinel) (t : Transaction) :
    s.sent t [] = (s.execute t).message.toList := by
  unfold Sentinel.sent
  cases hmessage : (s.execute t).message <;> simp [Run.stages, hmessage]

namespace Flight

variable {s : Sentinel} {f next : Flight} {randoms numbers : List Nat} {es : List FlightEvent}
  {event : FlightEvent} {index other : Nat} {e e' : Handling} {hs : List Happening}
  {messages : List Message}

omit [Crypto] in
theorem happeningsAt_append_singleton (es : List FlightEvent) (event : FlightEvent) (index : Nat) :
    happeningsAt index (es ++ [event]) =
      happeningsAt index es ++ (event.metBy index).toList := by
  unfold happeningsAt
  rw [List.filterMap_append]
  cases hmet : event.metBy index <;> simp [hmet]

section
omit [Crypto]

theorem Steps.drawn_elsewhere (h : f.Steps next index e numbers messages) (hne : other ≠ index) :
    entriesAt other next.drawn = entriesAt other f.drawn := by
  rw [h.drawn, entriesAt_append, entriesAt_map_of_ne hne, List.append_nil]

theorem Steps.sent_elsewhere (h : f.Steps next index e numbers messages) (hne : other ≠ index) :
    entriesAt other next.sent = entriesAt other f.sent := by
  rw [h.sent, entriesAt_append, entriesAt_map_of_ne hne, List.append_nil]

/-- A handling after the step is the one that made it, or was there before. -/
theorem Steps.handling_cases (h : f.Steps next index e numbers messages) (hindex : index < f.handlings.length)
    (he : next.handlings[other]? = some e') :
    (other = index ∧ e' = e) ∨ (other ≠ index ∧ f.handlings[other]? = some e') := by
  rw [h.handlings] at he
  by_cases hother : other = index
  · subst hother
    rw [List.getElem?_set_self hindex] at he
    exact Or.inl ⟨rfl, (Option.some.inj he).symm⟩
  · rw [List.getElem?_set_ne (Ne.symm hother)] at he
    exact Or.inr ⟨hother, he⟩

end

/-- What another handling does is nothing to this one. -/
theorem Alone.elsewhere (h : f.Alone s es other e hs)
    (hsteps : f.Steps next index e' numbers messages) (hne : other ≠ index)
    (hmet : event.metBy other = none) : next.Alone s (es ++ [event]) other e hs where
  run := h.run
  met := by rw [h.met, happeningsAt_append_singleton, hmet, Option.toList_none, List.append_nil]
  drew := by rw [h.drew, hsteps.drawn_elsewhere hne]
  sent := by rw [h.sent, hsteps.sent_elsewhere hne]

/-- A handling that takes a number is about to draw it. -/
theorem Alone.takes (h : f.Alone s es index e hs) {random : Nat}
    (hsteps : f.Steps next index { e with taken := e.taken ++ [random] } [random] [])
    (hmet : event.metBy index = none) :
    next.Alone s (es ++ [event]) index { e with taken := e.taken ++ [random] } hs where
  run := h.run
  met := by rw [h.met, happeningsAt_append_singleton, hmet, Option.toList_none, List.append_nil]
  drew := by
    rw [hsteps.drawn, entriesAt_append, entriesAt_map_self, ← h.drew, List.append_assoc]
  sent := by rw [h.sent, hsteps.sent, List.map_nil, List.append_nil]

/-- A handling that goes on does what it does alone. -/
theorem Alone.goes (h : f.Alone s es index e hs) {happening : Happening} {stage : Execution}
    (hafter : e.stage.after s.gatherer happening = some stage)
    (hsteps : f.Steps next index ⟨e.transaction, stage, []⟩ [] stage.message.toList)
    (hdrawn : happening.drawn = e.taken)
    (hmet : [happening].filter (fun h => !h.isDraw) = (event.metBy index).toList) :
    next.Alone s (es ++ [event]) index ⟨e.transaction, stage, []⟩ (hs ++ [happening]) where
  run := (Run.reach_append_singleton happening).2 ⟨e.stage, h.run, hafter⟩
  met := by rw [List.filter_append, h.met, hmet, happeningsAt_append_singleton]
  drew := by
    rw [List.append_nil, List.flatMap_append, List.flatMap_singleton, hdrawn, h.drew,
      hsteps.drawn, List.map_nil, List.append_nil]
  sent := by
    rw [Sentinel.sent_append_singleton happening h.run hafter, h.sent, hsteps.sent,
      entriesAt_append, entriesAt_map_self]

/-! ## All of them together -/

/-- A step of one handling leaves everything else as it fits. -/
theorem Fits.steps (h : f.Fits s randoms es) (he : f.handlings[index]? = some e)
    (hsteps : f.Steps next index e' numbers messages) (hsame : e'.transaction = e.transaction)
    (hbegun : event.begun = none) (hmet : ∀ other, other ≠ index → event.metBy other = none)
    (halone : ∃ hs, next.Alone s (es ++ [event]) index e' hs)
    (htaken : e'.taken = [] ∨ ∃ p, e'.stage = .gathering (.deciding p)) :
    next.Fits s randoms (es ++ [event]) := by
  have hindex := (List.getElem?_eq_some_iff.1 he).1
  refine ⟨?_, ?_, ?_, ?_, ?_⟩
  · rw [List.filterMap_append, List.filterMap_cons_none hbegun, List.filterMap_nil,
      List.append_nil, h.begun, hsteps.handlings, map_set_of_same _ he hsame]
  · rw [h.drawn, hsteps.given, hsteps.drawn, List.map_append, List.append_assoc, List.map_map]
    simp [Function.comp_def]
  · intro other o ho
    rcases hsteps.handling_cases hindex ho with ⟨rfl, rfl⟩ | ⟨hne, ho⟩
    · exact halone
    · obtain ⟨hs, hother⟩ := h.alone other o ho
      exact ⟨hs, hother.elsewhere hsteps hne (hmet other hne)⟩
  · intro other o ho
    rcases hsteps.handling_cases hindex ho with ⟨rfl, rfl⟩ | ⟨_, ho⟩
    · exact htaken
    · exact h.taken other o ho
  · intro other hother
    rw [hsteps.handlings, List.length_set] at hother
    have hne : other ≠ index := by omega
    obtain ⟨hmets, hdrawn, hsent⟩ := h.next other hother
    refine ⟨?_, (hsteps.drawn_elsewhere hne).trans hdrawn, (hsteps.sent_elsewhere hne).trans hsent⟩
    rw [happeningsAt_append_singleton, hmets, hmet other hne]
    rfl

/-- A handling was there before the last one began, or is the last one. -/
theorem handling_cases_of_add {t : Transaction} (he : (f.add s t).handlings[index]? = some e) :
    (index < f.handlings.length ∧ f.handlings[index]? = some e) ∨
      (index = f.handlings.length ∧ e = ⟨t, s.execute t, []⟩) := by
  rcases Nat.lt_trichotomy index f.handlings.length with hlt | rfl | hlt
  · exact Or.inl ⟨hlt, by rw [← he, add, List.getElem?_append_left hlt]⟩
  · rw [add, List.getElem?_concat_length] at he
    exact Or.inr ⟨rfl, (Option.some.inj he).symm⟩
  · rw [add, List.getElem?_eq_none (by simpa using Nat.succ_le_of_lt hlt)] at he
    cases he

theorem entriesAt_sent_add (f : Flight) (t : Transaction) (index : Nat) :
    entriesAt index (f.add s t).sent = entriesAt index f.sent ++
      if index = f.handlings.length then (s.execute t).message.toList else [] := by
  unfold add
  rw [entriesAt_append]
  by_cases hindex : index = f.handlings.length
  · rw [if_pos hindex, hindex, entriesAt_map_self]
  · rw [if_neg hindex, entriesAt_map_of_ne hindex]

/-- A handling that begins is the only one at its place. -/
theorem Fits.begins (h : f.Fits s randoms es) (t : Transaction) :
    (f.add s t).Fits s randoms (es ++ [.begins t]) := by
  have hmet : ∀ index, happeningsAt index (es ++ [.begins t]) = happeningsAt index es := by
    intro index
    rw [happeningsAt_append_singleton]
    exact List.append_nil _
  refine ⟨?_, h.drawn, ?_, ?_, ?_⟩
  · rw [List.filterMap_append, h.begun, add, List.map_append]
    rfl
  · intro index e he
    rcases handling_cases_of_add he with ⟨hlt, he⟩ | ⟨rfl, rfl⟩
    · obtain ⟨hs, halone⟩ := h.alone index e he
      refine ⟨hs, halone.run, by rw [halone.met, hmet], halone.drew, ?_⟩
      rw [halone.sent, entriesAt_sent_add, if_neg (Nat.ne_of_lt hlt), List.append_nil]
    · obtain ⟨hmets, hdrawn, hnothing⟩ := h.next f.handlings.length (Nat.le_refl _)
      refine ⟨[], rfl, by rw [hmet, hmets]; rfl, hdrawn.symm, ?_⟩
      rw [entriesAt_sent_add, if_pos rfl, hnothing, Sentinel.sent_nil]
      rfl
  · intro index e he
    rcases handling_cases_of_add he with ⟨_, he⟩ | ⟨rfl, rfl⟩
    · exact h.taken index e he
    · exact Or.inl rfl
  · intro index hindex
    rw [add, List.length_append, List.length_singleton] at hindex
    obtain ⟨hmets, hdrawn, hnothing⟩ := h.next index (by omega)
    refine ⟨by rw [hmet, hmets], hdrawn, ?_⟩
    rw [entriesAt_sent_add, if_neg (by omega), List.append_nil, hnothing]

theorem Fits.moves (h : f.Fits s randoms es) (hmoves : Moves s f event next) :
    next.Fits s randoms (es ++ [event]) := by
  cases hmoves with
  | begins => exact h.begins _
  | takes he deciding hsteps =>
    obtain ⟨hs, halone⟩ := h.alone _ _ he
    exact h.steps he hsteps rfl rfl (fun _ _ => rfl) ⟨hs, halone.takes hsteps rfl⟩
      (Or.inr ⟨_, deciding⟩)
  | decides he decided hsteps =>
    obtain ⟨hs, halone⟩ := h.alone _ _ he
    exact h.steps he hsteps rfl rfl (fun _ _ => rfl) ⟨_, halone.goes decided hsteps rfl rfl⟩
      (Or.inl rfl)
  | @meets index e happening stage _ he hdraw hgoes hsteps =>
    obtain ⟨hs, halone⟩ := h.alone _ _ he
    have hidle : happening.drawn = e.taken := by
      rcases h.taken _ _ he with hidle | ⟨p, hdeciding⟩
      · rw [hidle]
        cases happening <;> first | rfl | cases hdraw
      · -- Nothing but a draw happens to a decision.
        rw [hdeciding] at hgoes
        cases happening <;> first | cases hgoes | cases hdraw
    have hmet : (FlightEvent.meets index happening).metBy index = some happening := if_pos rfl
    refine h.steps he hsteps rfl rfl (fun other hne => if_neg (Ne.symm hne))
      ⟨_, halone.goes hgoes hsteps hidle ?_⟩ (Or.inl rfl)
    rw [hmet]
    simp [hdraw]

/-- Whatever the handlings do and meet, in whatever order, each goes as it goes alone. -/
theorem run_fits (h : Flight.run s randoms es = some f) : f.Fits s randoms es := by
  refine Run.reach_induction (P := fun es f => f.Fits s randoms es) ?_ ?_ h
  · exact ⟨rfl, rfl, by simp [start], by simp [start], fun _ _ => ⟨rfl, rfl, rfl⟩⟩
  · intro es between event next _ hfits hafter
    exact hfits.moves (moves_of_after hafter)

end Flight

/-! ## What one handling knows of its peers -/

namespace Gatherer

variable {g : Gatherer} {start : Summary} {hs : List Happening} {stage : Gathering} {p : Progress}

/-- A peer that failed was asked. -/
theorem exists_reply_of_failed (h : g.run start hs = some stage) (hp : stage.progress? = some p) :
    ∀ peer ∈ p.failed, ∃ d, (peer, d) ∈ g.replies start hs := by
  refine Run.reach_induction (P := fun hs stage => ∀ p, stage.progress? = some p →
    ∀ peer ∈ p.failed, ∃ d, (peer, d) ∈ g.replies start hs) ?_ ?_ h p hp
  · intro p hp peer hpeer
    cases hp
    cases hpeer
  · intro hs between happening next hrun hbefore hafter p hp peer hpeer
    rw [replies_append_singleton happening hrun hafter]
    have hkept : ∀ q, between.progress? = some q → peer ∈ q.failed →
        ∃ d, (peer, d) ∈ g.replies start hs ++ (Gathering.reply? (between, happening)).toList := by
      intro q hq hmem
      obtain ⟨d, hd⟩ := hbefore q hq peer hmem
      exact ⟨d, List.mem_append_left _ hd⟩
    cases Gathering.moves_of_after hafter with
    | asks may =>
      cases hp
      exact hkept _ rfl hpeer
    | pauses few left tried =>
      cases hp
      exact hkept _ rfl hpeer
    | reaches _ | runsOut _ _ | invalidated => cases hp
    | attested _ | rests =>
      cases hp
      cases hpeer
    | @missed q asked d hreply =>
      cases hp
      rcases List.mem_cons.1 hpeer with rfl | hpeer
      · exact ⟨d, by simp [Gathering.reply?]⟩
      · exact hkept q rfl hpeer
    | unanswered _ =>
      cases hp
      exact hkept _ rfl hpeer

end Gatherer

namespace Sentinel

variable {s : Sentinel} {t : Transaction} {hs : List Happening} {peer : Nat} {d : Delivery}

theorem execute_of_valid (valid : t.violation = none) :
    s.execute t = .gathering (.start (s.firstSummary t)) := by
  simp only [execute, valid]

/-- A handling that gathers is a gathering so far. -/
theorem gathering_of_run {stage : Gathering} (h : s.run t hs = some (.gathering stage)) :
    t.violation = none ∧ s.gatherer.run (s.firstSummary t) hs = some stage := by
  generalize he : Execution.gathering stage = e at h
  cases run_course h with
  | refused invalid => cases he
  | @gathering _ other valid hgathering short =>
    cases other with
    | deciding p | asking p asked | pausing p milliseconds =>
      cases he
      exact ⟨valid, hgathering⟩
    | ended result =>
      cases result with
      | reached summary => exact absurd rfl (short summary)
      | invalidated asked | unreachable => cases he
  | @submitting _ _ _ other valid gathered hsubmission => cases other <;> cases he

/-- A reply is one to a request that went out. -/
theorem request_of_reply (valid : t.violation = none) (h : (peer, d) ∈ s.replies t hs) :
    .requestAttestation peer ∈ s.sent t hs := by
  obtain ⟨⟨stage, happening⟩, hmem, hreply⟩ := List.mem_filterMap.1 h
  obtain ⟨before, later, rfl, hbefore⟩ := Run.reach_of_mem_history hmem
  unfold Gathering.reply? at hreply
  split at hreply
  · rename_i p asked delivery heq
    cases heq
    cases hreply
    exact mem_sent.2 ⟨before, _, _, rfl, run_of_gathering valid hbefore, rfl⟩
  · cases hreply

/-- What a submission carries was there at first, or a peer returned it. -/
theorem returned_of_submit {x : Summary} (h : .submit x ∈ s.sent t hs) :
    ∀ entry ∈ x.attestations.entries, entry ∈ (s.firstSummary t).attestations.entries ∨
      ∃ peer, (peer, .answered (.attestation entry.2)) ∈ s.replies t hs := by
  intro entry hentry
  obtain ⟨_, early, later, rfl, hreached⟩ := gathered_of_submit h
  obtain ⟨hcollect, _⟩ := (Gatherer.run_tells hreached).of_reached
  rw [hcollect] at hentry
  rcases Summary.mem_collect _ _ entry hentry with hfirst | ⟨peer, hpeer, _⟩
  · exact Or.inl hfirst
  · have hreply := (mem_attestedBy.1 hpeer).1
    exact Or.inr ⟨peer, (Gatherer.replies_grow _ _ early later).subset hreply⟩

/-- A gathering asks no more the peers that its own requests got through to, and those only. -/
theorem excludes_iff_of_run {stage : Gathering} {p : Progress}
    (h : s.run t hs = some (.gathering stage)) (hp : stage.progress? = some p) :
    p.quorum.excludes peer = true ↔ peer ∈ dispatchedTo t.id (s.replies t hs) := by
  have htells := (Gatherer.run_tells (gathering_of_run h).2).progress hp
  rw [htells.excludes_iff, (fields_firstSummary s t).1]
  rfl

/-- A peer that it never asked it may ask, as long as attestations are missing. -/
theorem mayAsk_of_not_asked {p : Progress} (h : s.run t hs = some (.gathering (.deciding p)))
    (few : p.quorum.summary.attestations.size < s.gatherer.threshold)
    (known : peer < s.gatherer.peers) (hnever : .requestAttestation peer ∉ s.sent t hs) :
    p.MayAsk s.gatherer peer := by
  obtain ⟨hvalid, hgathering⟩ := gathering_of_run h
  refine ⟨few, known, ?_, ?_⟩
  · rw [← Bool.not_eq_true, excludes_iff_of_run h rfl, mem_dispatchedTo]
    rintro ⟨d, hd, _⟩
    exact hnever (request_of_reply hvalid hd)
  · intro hfailed
    obtain ⟨d, hd⟩ := Gatherer.exists_reply_of_failed hgathering rfl peer hfailed
    exact hnever (request_of_reply hvalid hd)

end Sentinel

/-! ## Nothing is shared -/

/-- A handling in flight is not disturbed by the others. It goes as a run of its transaction alone:
what it sends, submits and answers is what that run does, with the numbers that it took and with
what it met itself. Each attestation that it submits was there before its first request, as the
sentinel's own, or was returned for a request of its own. It excludes the peers that its own
requests got through to, and any other peer it may ask. -/
structure Flight.Undisturbed (f : Flight) (s : Sentinel) (es : List FlightEvent) (index : Nat)
    (e : Handling) (hs : List Happening) : Prop where
  alone : f.Alone s es index e hs
  accepted : (happeningsAt index es).count .accepted ≤ 1
  returned : ∀ x, .submit x ∈ entriesAt index f.sent → ∀ entry ∈ x.attestations.entries,
    entry ∈ (s.firstSummary e.transaction).attestations.entries ∨
      ∃ peer, .requestAttestation peer ∈ entriesAt index f.sent ∧
        (peer, .answered (.attestation entry.2)) ∈ s.replies e.transaction hs ∧
        .replied (.answered (.attestation entry.2)) ∈ happeningsAt index es
  excluded : ∀ stage p, e.stage = .gathering stage → stage.progress? = some p → ∀ peer,
    p.quorum.excludes peer = true ↔
      peer ∈ dispatchedTo e.transaction.id (s.replies e.transaction hs)
  askable : ∀ p, e.stage = .gathering (.deciding p) →
    p.quorum.summary.attestations.size < s.gatherer.threshold →
    ∀ peer < s.gatherer.peers, .requestAttestation peer ∉ entriesAt index f.sent →
      e.stage.after s.gatherer (.drew [peer]) = some (.gathering (.asking p peer))

theorem Flight.Alone.undisturbed {f : Flight} {s : Sentinel} {es : List FlightEvent} {index : Nat}
    {e : Handling} {hs : List Happening} (h : f.Alone s es index e hs) :
    f.Undisturbed s es index e hs where
  alone := h
  accepted := by
    rw [← h.met, List.count_filter rfl]
    exact (Sentinel.run_course h.run).count_accepted_le
  returned := by
    intro x hx entry hentry
    rw [← h.sent] at hx ⊢
    rcases Sentinel.returned_of_submit hx entry hentry with hfirst | ⟨peer, hreply⟩
    · exact Or.inl hfirst
    · refine Or.inr ⟨peer, Sentinel.request_of_reply (Sentinel.gathered_of_submit hx).1 hreply,
        hreply, ?_⟩
      rw [← h.met]
      exact List.mem_filter.2 ⟨Gatherer.replied_mem_of_mem_replies hreply, rfl⟩
  excluded := by
    intro stage p hstage hp peer
    have hrun := h.run
    rw [hstage] at hrun
    exact Sentinel.excludes_iff_of_run hrun hp
  askable := by
    intro p hstage few peer known hnever
    have hrun := h.run
    rw [hstage] at hrun ⊢
    rw [← h.sent] at hnever
    have may := Sentinel.mayAsk_of_not_asked hrun few known hnever
    exact Option.map_eq_some_iff.2 ⟨_, Gathering.after_drew_of_mayAsk may, rfl⟩

/-- Transactions in flight do not disturb each other, however their events interleave, and be they
different or the same: each handling goes as its transaction goes alone, and of the selector's
numbers each goes to one of them. What a sentinel does in a rehearsal is what it does in such a
flight. -/
theorem handlings_do_not_disturb_each_other (s : Sentinel) :
    (∀ randoms es f, Flight.run s randoms es = some f →
      es.filterMap FlightEvent.begun = f.handlings.map (·.transaction) ∧
        randoms = f.drawn.map (·.2) ++ f.randoms ∧
        ∀ index e, f.handlings[index]? = some e → ∃ hs, f.Undisturbed s es index e hs) ∧
    ∀ r, s.Rehearsed r →
      ∃ randoms es f, Flight.run s randoms es = some f ∧ f.Shows r.machines := by
  refine ⟨?_, ?_⟩
  · intro randoms es f h
    have hfits := Flight.run_fits h
    refine ⟨hfits.begun, hfits.drawn, ?_⟩
    intro index e he
    obtain ⟨hs, halone⟩ := hfits.alone index e he
    exact ⟨hs, halone.undisturbed⟩
  · intro r h
    obtain ⟨randoms, es, f, hrun, _, hshows⟩ := h.shown
    exact ⟨randoms, es, f, hrun, hshows⟩

end

namespace Sample

attribute [local instance] standardCrypto

/-- The sample transaction is executed twice, and both handlings draw the second peer. It attests
for the first one, whose submission is accepted while the second one still waits. -/
def together : List FlightEvent :=
  [.begins transaction, .begins transaction, .decides 0, .decides 0, .decides 1,
    .meets 0 (.replied (.answered (.attestation peerAttestation))), .decides 1, .decides 0,
    .meets 0 .accepted]

def inFlight : Flight where
  randoms := [0]
  handlings :=
    [⟨transaction, .submitting (.accepted (attested.attest peerAttestation)), []⟩,
      ⟨transaction, .gathering (.asking (.start attested) 1), []⟩]
  drawn := [(0, 1), (1, 1)]
  sent :=
    [(0, .requestAttestation 1), (1, .requestAttestation 1),
      (0, .submit (attested.attest peerAttestation)),
      (0, .record (attested.attest peerAttestation))]

theorem execute_transaction :
    (sentinel 2).execute transaction = .gathering (.deciding (.start attested)) := by
  rw [Sentinel.execute_of_valid violation_transaction, firstSummary_sentinel (by decide)]
  rfl

theorem decide_attested_of_none :
    Gathering.decide (sentinel 2).gatherer (.start attested) [] = none := by decide +kernel

theorem decide_attested :
    Gathering.decide (sentinel 2).gatherer (.start attested) [1] =
      some (.asking (.start attested) 1) := by
  have hstep : (Progress.start attested).quorum.step 2 2 [] [1] = some (.ask 1) := by
    decide +kernel
  exact Option.map_eq_some_iff.2 ⟨_, hstep, rfl⟩

theorem add_transaction (f : Flight) :
    f.add (sentinel 2) transaction =
      { f with
        handlings :=
          f.handlings ++ [⟨transaction, .gathering (.deciding (.start attested)), []⟩] } := by
  unfold Flight.add
  rw [execute_transaction]
  simp [Execution.message]

/-- The first handling, once the peer has attested. -/
def enough : Progress := ⟨(Progress.start attested).quorum.attested 1 peerAttestation, [], 0⟩

theorem reply_start : (Delivery.answered (.attestation peerAttestation)).reply
    (Progress.start attested).quorum.summary.id = .attested peerAttestation := by
  simp only [Progress.start, QuorumState.start]
  exact reply_attested

theorem after_peerAttestation :
    (Execution.gathering (.asking (.start attested) 1)).after (sentinel 2).gatherer
      (.replied (.answered (.attestation peerAttestation))) =
        some (.gathering (.deciding enough)) := by
  have hafter : (Gathering.asking (.start attested) 1).after (sentinel 2).gatherer
      (.replied (.answered (.attestation peerAttestation))) = some (.deciding enough) :=
    Gathering.after_replied reply_start
  exact Option.map_eq_some_iff.2 ⟨_, hafter, rfl⟩

theorem decide_enough :
    Gathering.decide (sentinel 2).gatherer enough [] =
      some (.ended (.reached (attested.attest peerAttestation))) := by
  have henough : 2 ≤ enough.quorum.summary.attestations.size := by decide +kernel
  exact Option.map_eq_some_iff.2 ⟨_, if_pos henough, rfl⟩

theorem run_together : Flight.run (sentinel 2) [1, 1, 0] together = some inFlight := by
  refine Run.reach_cons (congrArg some (add_transaction _)) ?_
  refine Run.reach_cons (congrArg some (add_transaction _)) ?_
  refine Run.reach_cons (Flight.after_decides_of_few rfl rfl decide_attested_of_none) ?_
  refine Run.reach_cons (Flight.after_decides_of_enough rfl rfl decide_attested) ?_
  refine Run.reach_cons (Flight.after_decides_of_few rfl rfl decide_attested_of_none) ?_
  refine Run.reach_cons (Flight.after_meets rfl rfl after_peerAttestation) ?_
  refine Run.reach_cons (Flight.after_decides_of_enough rfl rfl decide_attested) ?_
  refine Run.reach_cons (Flight.after_decides_of_enough rfl rfl decide_enough) ?_
  exact Run.reach_cons (Flight.after_meets rfl rfl rfl) rfl

/-- Two peers, one of which never answers. -/
def quietScene : Scene :=
  ⟨[⟨pair, [.attest], false⟩, ⟨pair, [.silent], false⟩], [.conclude (some true)]⟩

/-- The peer that the first handling is done with is asked by the second one, and each goes as the
sample transaction goes alone. So do two executions that a sentinel rehearses. -/
theorem two_handlings_ask_the_same_peer :
    Flight.run (sentinel 2) [1, 1, 0] together = some inFlight ∧
    (∃ hs, inFlight.Undisturbed (sentinel 2) together 0
      ⟨transaction, .submitting (.accepted (attested.attest peerAttestation)), []⟩ hs) ∧
    (∃ hs, inFlight.Undisturbed (sentinel 2) together 1
      ⟨transaction, .gathering (.asking (.start attested) 1), []⟩ hs) ∧
    ∃ randoms es f, Flight.run (sentinel 2) randoms es = some f ∧
      f.Shows ((sentinel 2).work quietScene 100 [.execute transaction, .execute transaction]
        (.start quietScene)).2.machines := by
  obtain ⟨hflights, hrehearsals⟩ := handlings_do_not_disturb_each_other (sentinel 2)
  obtain ⟨_, _, hhandlings⟩ := hflights _ _ _ run_together
  exact ⟨run_together, hhandlings 0 _ rfl, hhandlings 1 _ rfl,
    hrehearsals _ (.works quietScene 100 _ (.start quietScene))⟩

end Sample

end Admission
