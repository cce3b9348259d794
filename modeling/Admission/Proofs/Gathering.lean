-- The gathering as a whole. Where it stands is told by the replies that came so
-- far, whatever the draws and the peers do. So no peer is asked again that has
-- answered, and none is counted twice.
import Admission.Proofs.Quorum
import Admission.Proofs.Replies

namespace Admission

variable [Crypto]

/-! ## One happening -/

/-- A request may go to this peer: attestations are missing, and the peer has neither answered nor
failed since the last change. -/
structure Progress.MayAsk (p : Progress) (g : Gatherer) (peer : Nat) : Prop where
  few : p.quorum.summary.attestations.size < g.threshold
  known : peer < g.peers
  fresh : p.quorum.excludes peer = false
  untried : peer ∉ p.failed

/-- All that a happening can do to a gathering. -/
inductive Gathering.Moves (g : Gatherer) : Gathering → Happening → Gathering → Prop
  | asks {p : Progress} {randoms : List Nat} {peer : Nat} (h : p.MayAsk g peer) :
      Moves g (.deciding p) (.drew randoms) (.asking p peer)
  | pauses {p : Progress} {randoms : List Nat}
      (few : p.quorum.summary.attestations.size < g.threshold)
      (left : ∃ peer < g.peers, p.quorum.excludes peer = false)
      (tried : ∀ peer < g.peers, p.quorum.excludes peer = false → peer ∈ p.failed) :
      Moves g (.deciding p) (.drew randoms) (.pausing p (g.pauseLength p.pauses))
  | reaches {p : Progress} {randoms : List Nat}
      (enough : g.threshold ≤ p.quorum.summary.attestations.size) :
      Moves g (.deciding p) (.drew randoms) (.ended (.reached p.quorum.summary))
  | runsOut {p : Progress} {randoms : List Nat}
      (few : p.quorum.summary.attestations.size < g.threshold)
      (asked : ∀ peer < g.peers, p.quorum.excludes peer = true) :
      Moves g (.deciding p) (.drew randoms) (.ended .unreachable)
  | attested {p : Progress} {peer : Nat} {d : Delivery} {a : Attestation}
      (h : d.reply p.quorum.summary.id = .attested a) :
      Moves g (.asking p peer) (.replied d) (.deciding ⟨p.quorum.attested peer a, [], 0⟩)
  | invalidated {p : Progress} {peer : Nat} :
      Moves g (.asking p peer) (.replied (.answered .invalid)) (.ended (.invalidated peer))
  | missed {p : Progress} {peer : Nat} {d : Delivery}
      (h : d.reply p.quorum.summary.id = .notDispatched) :
      Moves g (.asking p peer) (.replied d) (.deciding { p with failed := peer :: p.failed })
  | unanswered {p : Progress} {peer : Nat} {d : Delivery}
      (h : d.reply p.quorum.summary.id = .noAnswer) :
      Moves g (.asking p peer) (.replied d)
        (.deciding { p with quorum := p.quorum.unanswered peer })
  | rests {p : Progress} {milliseconds : Nat} :
      Moves g (.pausing p milliseconds) .rested (.deciding p.rested)

namespace Gathering

theorem moves_of_decide {g : Gatherer} {p : Progress} {randoms : List Nat} {next : Gathering}
    (h : Gathering.decide g p randoms = some next) :
    Moves g (.deciding p) (.drew randoms) next := by
  obtain ⟨step, hstep, rfl⟩ := Option.map_eq_some_iff.1 h
  rcases QuorumState.step_cases hstep with
    ⟨enough, rfl⟩ | ⟨few, asked, rfl⟩ | ⟨few, left, tried, rfl⟩ |
      ⟨few, peer, known, fresh, untried, rfl⟩
  · exact .reaches enough
  · exact .runsOut few asked
  · exact .pauses few left tried
  · exact .asks ⟨few, known, fresh, untried⟩

theorem moves_of_reply {g : Gatherer} {p : Progress} {peer : Nat} {d : Delivery} :
    Moves g (.asking p peer) (.replied d) (.receive p peer (d.reply p.quorum.summary.id)) := by
  cases hreply : d.reply p.quorum.summary.id with
  | attested a => exact .attested hreply
  | invalid =>
    obtain rfl := Delivery.reply_eq_invalid.1 hreply
    exact .invalidated
  | notDispatched => exact .missed hreply
  | noAnswer => exact .unanswered hreply

theorem moves_of_after {g : Gatherer} {stage next : Gathering} {h : Happening}
    (hafter : stage.after g h = some next) : Moves g stage h next := by
  cases stage <;> cases h <;> simp only [Gathering.after, Option.some.injEq, reduceCtorEq] at hafter
  · exact moves_of_decide hafter
  · exact hafter ▸ moves_of_reply
  · exact hafter ▸ .rests

omit [Crypto] in
/-- A decision needs no more numbers than it was made with. -/
theorem decide_append {g : Gatherer} {p : Progress} {randoms : List Nat} {next : Gathering}
    (h : Gathering.decide g p randoms = some next) (more : List Nat) :
    Gathering.decide g p (randoms ++ more) = some next := by
  obtain ⟨step, hstep, rfl⟩ := Option.map_eq_some_iff.1 h
  exact Option.map_eq_some_iff.2 ⟨step, QuorumState.step_append hstep more, rfl⟩

theorem after_drew_ask {g : Gatherer} {p : Progress} {randoms : List Nat} (peer : Nat)
    (h : p.quorum.step g.threshold g.peers p.failed randoms = some (.ask peer)) :
    (Gathering.deciding p).after g (.drew randoms) = some (.asking p peer) := by
  simp [Gathering.after, Gathering.decide, h]

theorem after_drew_backoff {g : Gatherer} {p : Progress} {randoms : List Nat}
    (h : p.quorum.step g.threshold g.peers p.failed randoms = some .backoff) :
    (Gathering.deciding p).after g (.drew randoms) =
      some (.pausing p (g.pauseLength p.pauses)) := by
  simp [Gathering.after, Gathering.decide, h]

theorem after_drew_exhausted {g : Gatherer} {p : Progress} {randoms : List Nat}
    (h : p.quorum.step g.threshold g.peers p.failed randoms = some .exhausted) :
    (Gathering.deciding p).after g (.drew randoms) = some (.ended .unreachable) := by
  simp [Gathering.after, Gathering.decide, h]

theorem after_drew_reached {g : Gatherer} {p : Progress} {randoms : List Nat}
    (h : g.threshold ≤ p.quorum.summary.attestations.size) :
    (Gathering.deciding p).after g (.drew randoms) = some (.ended (.reached p.quorum.summary)) := by
  simp [Gathering.after, Gathering.decide, QuorumState.step, h]

theorem after_replied {g : Gatherer} {p : Progress} {peer : Nat} {d : Delivery} {r : Reply}
    (h : d.reply p.quorum.summary.id = r) :
    (Gathering.asking p peer).after g (.replied d) = some (.receive p peer r) := by
  rw [← h]
  rfl

@[simp] theorem after_ended (g : Gatherer) (result : Gathered) (h : Happening) :
    (Gathering.ended result).after g h = none := by
  cases h <;> rfl

end Gathering

/-! ## What the replies tell -/

/-- The state of a gathering is told by the replies. Each peer has answered at most once. -/
structure Progress.Tells (p : Progress) (g : Gatherer) (start : Summary)
    (rs : List (Nat × Delivery)) : Prop where
  summary : p.quorum.summary = start.collect rs
  requested : p.quorum.requested = (attestedBy start.id rs).map (·.1)
  unresponsive : p.quorum.unresponsive = silentOf start.id rs
  failed : ∀ peer ∈ p.failed, peer < g.peers ∧ p.quorum.excludes peer = false
  once : (dispatchedTo start.id rs).Nodup
  known : ∀ peer ∈ dispatchedTo start.id rs, peer < g.peers
  valid : ∀ peer, (peer, .answered .invalid) ∉ rs
  size : p.quorum.summary.attestations.size ≤ max g.threshold start.attestations.size

/-- The same of each stage, with what led to it. -/
inductive Gathering.Tells (g : Gatherer) (start : Summary) :
    List (Nat × Delivery) → Gathering → Prop
  | deciding {rs : List (Nat × Delivery)} {p : Progress} (h : p.Tells g start rs) :
      Tells g start rs (.deciding p)
  | asking {rs : List (Nat × Delivery)} {p : Progress} {peer : Nat} (h : p.Tells g start rs)
      (may : p.MayAsk g peer) : Tells g start rs (.asking p peer)
  | pausing {rs : List (Nat × Delivery)} {p : Progress} {milliseconds : Nat}
      (h : p.Tells g start rs) : Tells g start rs (.pausing p milliseconds)
  | reached {rs : List (Nat × Delivery)} {p : Progress} (h : p.Tells g start rs)
      (enough : g.threshold ≤ p.quorum.summary.attestations.size) :
      Tells g start rs (.ended (.reached p.quorum.summary))
  | invalidated {rs : List (Nat × Delivery)} {p : Progress} {peer : Nat} (h : p.Tells g start rs)
      (may : p.MayAsk g peer) :
      Tells g start (rs ++ [(peer, .answered .invalid)]) (.ended (.invalidated peer))
  | unreachable {rs : List (Nat × Delivery)} {p : Progress} (h : p.Tells g start rs)
      (few : p.quorum.summary.attestations.size < g.threshold)
      (asked : ∀ peer < g.peers, p.quorum.excludes peer = true) :
      Tells g start rs (.ended .unreachable)

namespace Progress

variable {p : Progress} {g : Gatherer} {start : Summary} {rs : List (Nat × Delivery)} {peer : Nat}
  {d : Delivery}

theorem tells_start (g : Gatherer) (start : Summary) :
    (Progress.start start).Tells g start [] where
  summary := rfl
  requested := rfl
  unresponsive := rfl
  failed := by simp [Progress.start]
  once := List.nodup_nil
  known := by simp [dispatchedTo]
  valid := by simp
  size := Nat.le_max_right _ _

theorem Tells.id (h : p.Tells g start rs) : p.quorum.summary.id = start.id := by
  rw [h.summary]
  exact (Summary.fields_attestAll _ _).1

/-- The peers that are not asked again are those that a request was dispatched to. -/
theorem Tells.excludes_iff (h : p.Tells g start rs) :
    p.quorum.excludes peer = true ↔ peer ∈ dispatchedTo start.id rs := by
  rw [QuorumState.excludes_iff, h.requested, h.unresponsive, mem_dispatchedTo, mem_silentOf]
  constructor
  · rintro (hmem | ⟨d, hd, hreply⟩)
    · obtain ⟨⟨asked, a⟩, ha, rfl⟩ := List.mem_map.1 hmem
      obtain ⟨hd, hverify⟩ := mem_attestedBy.1 ha
      exact ⟨_, hd, by simp [Delivery.reply, hverify]⟩
    · exact ⟨d, hd, by simp [hreply]⟩
  · rintro ⟨d, hd, hreply⟩
    cases hcase : d.reply start.id with
    | attested a =>
      obtain ⟨rfl, hverify⟩ := Delivery.reply_eq_attested.1 hcase
      exact Or.inl (List.mem_map.2 ⟨(peer, a), mem_attestedBy.2 ⟨hd, hverify⟩, rfl⟩)
    | invalid =>
      obtain rfl := Delivery.reply_eq_invalid.1 hcase
      exact absurd hd (h.valid peer)
    | notDispatched => exact absurd hcase hreply
    | noAnswer => exact Or.inr ⟨d, hd, hcase⟩

/-- A peer that may be asked has not answered yet, so its answer is the first. -/
theorem Tells.once_append (h : p.Tells g start rs) (may : p.MayAsk g peer)
    (hd : d.reply start.id ≠ .notDispatched) :
    (dispatchedTo start.id (rs ++ [(peer, d)])).Nodup ∧
      ∀ other ∈ dispatchedTo start.id (rs ++ [(peer, d)]), other < g.peers := by
  have hfresh : peer ∉ dispatchedTo start.id rs := by
    rw [← h.excludes_iff, may.fresh]
    simp
  rw [dispatchedTo_append_of_dispatched hd]
  refine ⟨?_, ?_⟩
  · rw [List.nodup_append]
    refine ⟨h.once, by simp, ?_⟩
    intro other hother asked hasked heq
    rw [List.mem_singleton] at hasked
    subst hasked heq
    exact hfresh hother
  · intro other hother
    rcases List.mem_append.1 hother with hother | hother
    · exact h.known other hother
    · rw [List.mem_singleton.1 hother]
      exact may.known

theorem Tells.valid_append (h : p.Tells g start rs) (hd : d.reply start.id ≠ .invalid) :
    ∀ other, (other, .answered .invalid) ∉ rs ++ [(peer, d)] := by
  intro other hmem
  rcases List.mem_append.1 hmem with hmem | hmem
  · exact h.valid other hmem
  · rw [List.mem_singleton] at hmem
    cases hmem
    exact hd rfl

/-! ## One reply more -/

theorem Tells.attested {a : Attestation} (h : p.Tells g start rs) (may : p.MayAsk g peer)
    (hd : d.reply start.id = .attested a) :
    Tells ⟨p.quorum.attested peer a, [], 0⟩ g start (rs ++ [(peer, d)]) where
  summary := by
    simp only [QuorumState.attested, h.summary, Summary.collect,
      attestedBy_append_of_attested hd, List.map_append, List.map_cons, List.map_nil,
      Summary.attestAll_append]
  requested := by
    simp [QuorumState.attested, h.requested, attestedBy_append_of_attested hd]
  unresponsive := by
    simp only [QuorumState.attested, h.unresponsive]
    rw [silentOf_append_of_not (by simp [hd])]
  failed := by simp
  once := (h.once_append may (by simp [hd])).1
  known := (h.once_append may (by simp [hd])).2
  valid := h.valid_append (by simp [hd])
  size := by
    have hsize := AttestationSet.size_insert p.quorum.summary.attestations a
    have hfew := may.few
    simp only [QuorumState.attested, Summary.attestations_attest]
    split at hsize <;> omega

theorem Tells.missed (h : p.Tells g start rs) (may : p.MayAsk g peer)
    (hd : d.reply start.id = .notDispatched) :
    Tells { p with failed := peer :: p.failed } g start (rs ++ [(peer, d)]) where
  summary := by
    simp only [h.summary, Summary.collect]
    rw [attestedBy_append_of_not (by simp [hd])]
  requested := by
    rw [attestedBy_append_of_not (by simp [hd])]
    exact h.requested
  unresponsive := by
    rw [silentOf_append_of_not (by simp [hd])]
    exact h.unresponsive
  failed := by
    intro other hother
    rcases List.mem_cons.1 hother with rfl | hother
    · exact ⟨may.known, may.fresh⟩
    · exact h.failed other hother
  once := by
    rw [dispatchedTo_append_of_not hd]
    exact h.once
  known := by
    rw [dispatchedTo_append_of_not hd]
    exact h.known
  valid := h.valid_append (by simp [hd])
  size := h.size

theorem Tells.unanswered (h : p.Tells g start rs) (may : p.MayAsk g peer)
    (hd : d.reply start.id = .noAnswer) :
    Tells { p with quorum := p.quorum.unanswered peer } g start (rs ++ [(peer, d)]) where
  summary := by
    simp only [QuorumState.unanswered, h.summary, Summary.collect]
    rw [attestedBy_append_of_not (by simp [hd])]
  requested := by
    rw [attestedBy_append_of_not (by simp [hd])]
    exact h.requested
  unresponsive := by
    rw [silentOf_append_of_noAnswer hd]
    simp [QuorumState.unanswered, h.unresponsive]
  failed := by
    intro other hother
    obtain ⟨hknown, hfresh⟩ := h.failed other hother
    -- The silent peer was drawn, so it is none of those that failed.
    have hne : other ≠ peer := fun heq => may.untried (heq ▸ hother)
    exact ⟨hknown, by simp [hfresh, hne]⟩
  once := (h.once_append may (by simp [hd])).1
  known := (h.once_append may (by simp [hd])).2
  valid := h.valid_append (by simp [hd])
  size := h.size

theorem Tells.rested (h : p.Tells g start rs) : p.rested.Tells g start rs :=
  ⟨h.summary, h.requested, h.unresponsive, by simp [Progress.rested], h.once, h.known, h.valid,
    h.size⟩

end Progress

/-! ## Runs -/

/-- Whether a happening is the acceptance of an attempt, or what becomes of an accepted one. -/
def Happening.isFinal : Happening → Bool
  | .accepted | .concluded _ | .dropped => true
  | .drew _ | .replied _ | .rested | .refused => false

namespace Gathering

variable {g : Gatherer} {start : Summary} {rs : List (Nat × Delivery)} {stage next : Gathering}
  {happening : Happening} {hs : List Happening}

/-- Whatever happens, the replies tell the next stage too. -/
theorem Tells.moves (h : stage.Tells g start rs) (hmoves : Moves g stage happening next) :
    next.Tells g start (rs ++ (reply? (stage, happening)).toList) := by
  cases hmoves with
  | asks may =>
    cases h with
    | deciding h => simpa [reply?] using Tells.asking h may
  | pauses few left tried =>
    cases h with
    | deciding h => simpa [reply?] using Tells.pausing h
  | reaches enough =>
    cases h with
    | deciding h => simpa [reply?] using Tells.reached h enough
  | runsOut few asked =>
    cases h with
    | deciding h => simpa [reply?] using Tells.unreachable h few asked
  | attested hd =>
    cases h with
    | asking h may =>
      rw [h.id] at hd
      exact .deciding (h.attested may hd)
  | invalidated =>
    cases h with
    | asking h may => exact .invalidated h may
  | missed hd =>
    cases h with
    | asking h may =>
      rw [h.id] at hd
      exact .deciding (h.missed may hd)
  | unanswered hd =>
    cases h with
    | asking h may =>
      rw [h.id] at hd
      exact .deciding (h.unanswered may hd)
  | rests =>
    cases h with
    | pausing h => simpa [reply?] using Tells.deciding h.rested

theorem Tells.once (h : stage.Tells g start rs) : (dispatchedTo start.id rs).Nodup := by
  cases h with
  | deciding h => exact h.once
  | asking h _ => exact h.once
  | pausing h => exact h.once
  | reached h _ => exact h.once
  | invalidated h may => exact (h.once_append may (by simp [Delivery.reply])).1
  | unreachable h _ _ => exact h.once

theorem Tells.mayAsk {p : Progress} {peer : Nat} (h : Tells g start rs (.asking p peer)) :
    p.MayAsk g peer := by
  cases h with
  | asking h may => exact may

/-- A quorum that is reached was collected from the replies, with nothing beyond it. -/
theorem Tells.of_reached {x : Summary} (h : Tells g start rs (.ended (.reached x))) :
    x = start.collect rs ∧ g.threshold ≤ x.attestations.size ∧
      x.attestations.size ≤ max g.threshold start.attestations.size ∧
      ∀ peer, (peer, .answered .invalid) ∉ rs := by
  cases h with
  | reached h enough => exact ⟨h.summary, enough, h.size, h.valid⟩

theorem Tells.enough_of_reached {x : Summary} (h : Tells g start rs (.ended (.reached x))) :
    g.threshold ≤ (start.collect rs).attestations.size := by
  obtain ⟨hcollect, henough, _, _⟩ := h.of_reached
  rw [← hcollect]
  exact henough

theorem Tells.valid_of_reached {x : Summary} (h : Tells g start rs (.ended (.reached x))) :
    ∀ peer, (peer, .answered .invalid) ∉ rs := h.of_reached.2.2.2

end Gathering

namespace Gatherer

variable {g : Gatherer} {start : Summary} {stage next : Gathering} {hs more : List Happening}

theorem run_append_singleton (happening : Happening) :
    g.run start (hs ++ [happening]) = some next ↔
      ∃ stage, g.run start hs = some stage ∧ stage.after g happening = some next :=
  Run.reach_append_singleton happening

theorem replies_append_singleton (happening : Happening) (hrun : g.run start hs = some stage)
    (hafter : stage.after g happening = some next) :
    g.replies start (hs ++ [happening]) =
      g.replies start hs ++ (Gathering.reply? (stage, happening)).toList := by
  unfold replies
  rw [Run.history_append_singleton happening next hrun hafter, List.filterMap_append]
  cases hreply : Gathering.reply? (stage, happening) <;> simp [hreply]

theorem replied_mem_of_mem_replies {peer : Nat} {d : Delivery}
    (h : (peer, d) ∈ g.replies start hs) : .replied d ∈ hs := by
  obtain ⟨⟨stage, happening⟩, hmem, hreply⟩ := List.mem_filterMap.1 h
  have hhappened := Run.mem_of_mem_history hmem
  unfold Gathering.reply? at hreply
  split at hreply
  · rename_i heq
    cases hreply
    cases heq
    exact hhappened
  · cases hreply

theorem replies_grow (g : Gatherer) (start : Summary) (hs more : List Happening) :
    g.replies start hs <+: g.replies start (hs ++ more) :=
  (Run.history_grows _ hs more).filterMap _

/-- An end is the end: nothing happens after it, and it stays what it is. -/
theorem run_append_of_ended {result : Gathered} (h : g.run start hs = some (.ended result))
    (hmore : g.run start (hs ++ more) = some stage) : more = [] ∧ stage = .ended result := by
  obtain ⟨between, hbetween, hrest⟩ := Run.reach_append_eq_some.1 hmore
  have hsame : between = .ended result := Option.some.inj (hbetween.symm.trans h)
  subst hsame
  exact Run.reach_of_final (Gathering.after_ended g result) hrest

theorem ended_unique {early early' : List Happening} {result result' : Gathered}
    (h : g.run start early = some (.ended result)) (h' : g.run start early' = some (.ended result'))
    (hpast : early <+: hs) (hpast' : early' <+: hs) : result = result' := by
  rcases List.prefix_or_prefix_of_prefix hpast hpast' with ⟨more, rfl⟩ | ⟨more, rfl⟩
  · cases (run_append_of_ended h h').2
    rfl
  · cases (run_append_of_ended h' h).2
    rfl

theorem replies_append_of_ended {result : Gathered} (h : g.run start hs = some (.ended result)) :
    g.replies start (hs ++ more) = g.replies start hs := by
  unfold replies
  rw [Run.history_append_of_final h (Gathering.after_ended g result)]

/-- Nothing that happens in a gathering has to do with a submission. -/
theorem not_final_of_run (h : g.run start hs = some stage) :
    ∀ happening ∈ hs, happening.isFinal = false := by
  refine Run.reach_induction
    (P := fun hs _ => ∀ happening ∈ hs, happening.isFinal = false) ?_ ?_ h
  · simp
  · intro hs between happening next _ hbefore hafter other hother
    rcases List.mem_append.1 hother with hother | hother
    · exact hbefore other hother
    · rw [List.mem_singleton.1 hother]
      cases Gathering.moves_of_after hafter <;> rfl

/-- A gathering that a peer ended was asking that peer just before. -/
theorem run_invalidated {peer : Nat} (h : g.run start hs = some (.ended (.invalidated peer))) :
    ∃ before p, hs = before ++ [.replied (.answered .invalid)] ∧
      g.run start before = some (.asking p peer) := by
  rcases List.eq_nil_or_concat' hs with rfl | ⟨before, last, rfl⟩
  · simp [run, Run.reach, Gathering.start] at h
  · obtain ⟨stage, hstage, hlast⟩ := (run_append_singleton last).1 h
    cases Gathering.moves_of_after hlast with
    | invalidated => exact ⟨before, _, rfl, hstage⟩

/-- In every run the replies tell the stage. -/
theorem run_tells (h : g.run start hs = some stage) :
    stage.Tells g start (g.replies start hs) := by
  refine Run.reach_induction (P := fun hs stage => stage.Tells g start (g.replies start hs))
    ?_ ?_ h
  · exact .deciding (Progress.tells_start g start)
  · intro hs between happening next hrun htells hafter
    rw [replies_append_singleton happening hrun hafter]
    exact htells.moves (Gathering.moves_of_after hafter)

end Gatherer

end Admission
