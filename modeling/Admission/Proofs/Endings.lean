-- How a gathering ends. The replies that came decide it, whatever was drawn: a
-- request that was not dispatched counts for nothing, and a peer that no request
-- got through to may always be asked again.
import Admission.Proofs.Habits

namespace Admission

section
variable [Crypto]

/-! ## What the replies say -/

/-- The keys that count after these replies: those at the start, and those of the attestations
that were accepted. -/
def Summary.keysAfter (start : Summary) (rs : List (Nat × Delivery)) : Finset PublicKey :=
  start.keySet ∪ ((attestedBy start.id rs).map fun r => r.2.publicKey).toFinset

/-- No peer found the transaction invalid. -/
def NobodyRejects (rs : List (Nat × Delivery)) : Prop :=
  ∀ peer, (peer, .answered .invalid) ∉ rs

/-- What the replies have to be for a gathering to have this result. -/
def Gathered.Told (g : Gatherer) (start : Summary) (rs : List (Nat × Delivery)) : Gathered → Prop
  | invalidated peer => ∃ before, rs = before ++ [(peer, .answered .invalid)] ∧ NobodyRejects before
  | unreachable => NobodyRejects rs ∧ (∀ peer < g.peers, peer ∈ dispatchedTo start.id rs) ∧
      (start.keysAfter rs).card < g.threshold
  | reached x => NobodyRejects rs ∧ g.threshold ≤ (start.keysAfter rs).card ∧ x = start.collect rs

/-- The replies leave it open how the gathering ends: some peer is left that no request got
through to, and its attestation may still be needed. -/
structure LeftOpen (g : Gatherer) (start : Summary) (rs : List (Nat × Delivery)) : Prop where
  valid : NobodyRejects rs
  few : (start.keysAfter rs).card < g.threshold
  left : ∃ peer < g.peers, peer ∉ dispatchedTo start.id rs

/-- The gathering has this result, or it is about to decide and every draw ends it so. -/
inductive Gathering.ComesTo (g : Gatherer) (result : Gathered) : Gathering → Prop
  | ended : ComesTo g result (.ended result)
  | decides {p : Progress} (h : ∀ randoms, decide g p randoms = some (.ended result)) :
      ComesTo g result (.deciding p)

/-- No request got through to a peer that was only ever missed. -/
theorem not_mem_dispatchedTo {id : Hash} {rs : List (Nat × Delivery)} {peer : Nat} :
    peer ∉ dispatchedTo id rs ↔ ∀ d, (peer, d) ∈ rs → d.reply id = .notDispatched := by
  rw [mem_dispatchedTo]
  push Not
  rfl

theorem Summary.keySet_collect (start : Summary) (rs : List (Nat × Delivery)) :
    (start.collect rs).keySet = start.keysAfter rs := by
  ext key
  rw [mem_keySet_collect, keysAfter, Finset.mem_union, List.mem_toFinset, List.mem_map]
  simp only [Prod.exists]

theorem Summary.card_keysAfter (start : Summary) (rs : List (Nat × Delivery)) :
    (start.keysAfter rs).card = (start.collect rs).attestations.size := by
  rw [← keySet_collect, card_keySet]

section
variable {g : Gatherer} {start : Summary} {rs before : List (Nat × Delivery)} {peer : Nat}

omit [Crypto] in
theorem not_nobodyRejects_append (before : List (Nat × Delivery)) (peer : Nat) :
    ¬ NobodyRejects (before ++ [(peer, .answered .invalid)]) :=
  fun h => h peer (by simp)

/-- The replies have one result at most. -/
theorem Gathered.Told.unique {result result' : Gathered} (h : result.Told g start rs)
    (h' : result'.Told g start rs) : result = result' := by
  cases result with
  | invalidated peer =>
    obtain ⟨before, rfl, _⟩ := h
    cases result' with
    | invalidated other =>
      obtain ⟨before', hsame, _⟩ := h'
      have hlast := List.append_inj_right' hsame rfl
      cases hlast
      rfl
    | unreachable | reached x => exact absurd h'.1 (not_nobodyRejects_append _ _)
  | unreachable =>
    cases result' with
    | invalidated other =>
      obtain ⟨before, rfl, _⟩ := h'
      exact absurd h.1 (not_nobodyRejects_append _ _)
    | unreachable => rfl
    | reached x => exact absurd h'.2.1 (Nat.not_le.2 h.2.2)
  | reached x =>
    cases result' with
    | invalidated other =>
      obtain ⟨before, rfl, _⟩ := h'
      exact absurd h.1 (not_nobodyRejects_append _ _)
    | unreachable => exact absurd h.2.1 (Nat.not_le.2 h'.2.2)
    | reached y => rw [h.2.2, h'.2.2]

theorem LeftOpen.not_told (h : LeftOpen g start rs) (result : Gathered) :
    ¬ result.Told g start rs := by
  intro htold
  cases result with
  | invalidated peer =>
    obtain ⟨before, rfl, _⟩ := htold
    exact not_nobodyRejects_append _ _ h.valid
  | unreachable =>
    obtain ⟨peer, hknown, hleft⟩ := h.left
    exact hleft (htold.2.1 peer hknown)
  | reached x => exact absurd htold.2.1 (Nat.not_le.2 h.few)

end

/-! ## Where a gathering stands -/

namespace Progress

variable {p : Progress} {g : Gatherer} {start : Summary} {rs : List (Nat × Delivery)}

theorem Tells.size_eq (h : p.Tells g start rs) :
    p.quorum.summary.attestations.size = (start.keysAfter rs).card := by
  rw [h.summary, Summary.card_keysAfter]

theorem Tells.leftOpen (h : p.Tells g start rs)
    (few : p.quorum.summary.attestations.size < g.threshold)
    (left : ∃ peer < g.peers, p.quorum.excludes peer = false) : LeftOpen g start rs := by
  obtain ⟨peer, hknown, hfree⟩ := left
  refine ⟨h.valid, h.size_eq ▸ few, peer, hknown, ?_⟩
  rw [← h.excludes_iff, hfree]
  simp

/-- Where enough attested or nobody is left, a decision ends the gathering whatever is drawn. -/
theorem Tells.comesTo_or_leftOpen (h : p.Tells g start rs) :
    (∃ result, (Gathering.deciding p).ComesTo g result) ∨ LeftOpen g start rs := by
  by_cases henough : g.threshold ≤ p.quorum.summary.attestations.size
  · exact Or.inl ⟨_, .decides fun _ => Gathering.after_drew_reached henough⟩
  · by_cases hleft : ∃ peer < g.peers, p.quorum.excludes peer = false
    · exact Or.inr (h.leftOpen (Nat.lt_of_not_le henough) hleft)
    · have hempty : p.quorum.remaining g.peers = [] := by
        refine List.eq_nil_iff_forall_not_mem.2 fun peer hmem => hleft ⟨peer, ?_⟩
        exact QuorumState.mem_remaining.1 hmem
      refine Or.inl ⟨.unreachable, .decides fun randoms => ?_⟩
      simp [Gathering.decide, QuorumState.step, henough, hempty]

end Progress

namespace Gathering

variable {g : Gatherer} {start : Summary} {rs : List (Nat × Delivery)} {stage : Gathering}
  {result : Gathered}

/-- An end is told by the replies. -/
theorem Tells.told (h : Tells g start rs (.ended result)) : result.Told g start rs := by
  cases h with
  | reached h enough => exact ⟨h.valid, h.size_eq ▸ enough, h.summary⟩
  | invalidated h may => exact ⟨_, rfl, h.valid⟩
  | unreachable h few asked =>
    exact ⟨h.valid, fun peer hpeer => h.excludes_iff.1 (asked peer hpeer), h.size_eq ▸ few⟩

/-- So is an end that the next decision brings. -/
theorem ComesTo.told (h : stage.ComesTo g result) (htells : stage.Tells g start rs) :
    result.Told g start rs := by
  cases h with
  | ended => exact htells.told
  | decides hdecides =>
    -- A decision adds no reply, whatever it is made by.
    have hend := htells.moves (moves_of_decide (hdecides []))
    simpa [reply?] using hend.told

end Gathering

namespace Gatherer

variable {g : Gatherer} {start : Summary} {hs : List Happening} {stage : Gathering} {p : Progress}
  {result : Gathered}

/-- There is a pause only if attestations are missing and all that are left have failed. -/
theorem run_pausing {milliseconds : Nat} (h : g.run start hs = some (.pausing p milliseconds)) :
    p.quorum.summary.attestations.size < g.threshold ∧
      ∃ peer < g.peers, p.quorum.excludes peer = false := by
  rcases List.eq_nil_or_concat' hs with rfl | ⟨before, last, rfl⟩
  · simp [run, Run.reach, Gathering.start] at h
  · obtain ⟨between, _, hlast⟩ := (run_append_singleton last).1 h
    cases Gathering.moves_of_after hlast with
    | pauses few left tried => exact ⟨few, left⟩

/-- Either the end is there or decided, or the replies leave it open. -/
theorem comesTo_or_leftOpen (h : g.run start hs = some stage) :
    (∃ result, stage.ComesTo g result) ∨ LeftOpen g start (g.replies start hs) := by
  have htells := run_tells h
  cases stage with
  | ended result => exact Or.inl ⟨result, .ended⟩
  | deciding p => exact (htells.progress rfl).comesTo_or_leftOpen
  | asking p peer =>
    have may := htells.mayAsk
    exact Or.inr ((htells.progress rfl).leftOpen may.few ⟨peer, may.known, may.fresh⟩)
  | pausing p milliseconds =>
    obtain ⟨few, left⟩ := run_pausing h
    exact Or.inr ((htells.progress rfl).leftOpen few left)

theorem comesTo_iff_told (h : g.run start hs = some stage) :
    stage.ComesTo g result ↔ result.Told g start (g.replies start hs) := by
  have htells := run_tells h
  refine ⟨fun hcomes => hcomes.told htells, fun htold => ?_⟩
  rcases comesTo_or_leftOpen h with ⟨other, hcomes⟩ | hopen
  · exact htold.unique (hcomes.told htells) ▸ hcomes
  · exact absurd htold (hopen.not_told result)

/-- As long as replies come there are too few attestations, so the one that completes the quorum
is the last. -/
theorem few_before_reply (h : g.run start hs = some stage) :
    ∀ before, before <+: g.replies start hs → before ≠ g.replies start hs →
      (start.keysAfter before).card < g.threshold := by
  refine Run.reach_induction (P := fun hs _ => ∀ before, before <+: g.replies start hs →
    before ≠ g.replies start hs → (start.keysAfter before).card < g.threshold) ?_ ?_ h
  · intro before hprefix hne
    exact absurd (List.prefix_nil.1 hprefix) hne
  · intro hs between happening next hrun hbefore hafter before hprefix hne
    rw [replies_append_singleton happening hrun hafter] at hprefix hne
    cases hreply : Gathering.reply? (between, happening) with
    | none =>
      rw [hreply, Option.toList_none, List.append_nil] at hprefix hne
      exact hbefore before hprefix hne
    | some r =>
      rw [hreply, Option.toList_some] at hprefix hne
      have hprefix := (List.prefix_concat_iff.1 hprefix).resolve_left hne
      by_cases hall : before = g.replies start hs
      · -- A reply came next, so a peer was being asked.
        cases between with
        | asking p peer =>
          have htells := run_tells hrun
          rw [hall, ← (htells.progress rfl).size_eq]
          exact htells.mayAsk.few
        | deciding p | pausing p milliseconds | ended result => cases hreply
      · exact hbefore before hprefix hall

theorem requests_of_comesTo (h : g.run start hs = some stage) (hcomes : stage.ComesTo g result) :
    g.requests start hs = (g.replies start hs).map (·.1) := by
  rw [requests_eq h]
  cases hcomes <;> exact List.append_nil _

end Gatherer

/-! ## Another request -/

namespace Gathering

variable {g : Gatherer} {p : Progress} {peer : Nat}

/-- A peer that may be asked is asked when it is drawn. -/
theorem after_drew_of_mayAsk (may : p.MayAsk g peer) :
    (Gathering.deciding p).after g (.drew [peer]) = some (.asking p peer) := by
  obtain ⟨few, known, fresh, untried⟩ := may
  have hleft : peer ∈ p.quorum.remaining g.peers := QuorumState.mem_remaining.2 ⟨known, fresh⟩
  have hempty : (p.quorum.remaining g.peers).isEmpty = false :=
    List.isEmpty_eq_false_iff.2 (List.ne_nil_of_mem hleft)
  have hall : (p.quorum.remaining g.peers).all p.failed.contains = false := by
    apply List.all_eq_false.2
    exact ⟨peer, hleft, by simpa using untried⟩
  have hpeers : g.peers ≠ 0 := by omega
  apply after_drew_ask peer
  unfold QuorumState.step
  rw [if_neg (Nat.not_le.2 few), hempty, hall]
  simp [QuorumState.draw, drawPeer, hpeers, Nat.mod_eq_of_lt known, fresh, untried]

/-- There is a pause where attestations are missing and everyone who is left has failed. -/
theorem after_drew_of_failed (few : p.quorum.summary.attestations.size < g.threshold)
    (known : peer < g.peers) (fresh : p.quorum.excludes peer = false)
    (tried : ∀ other, ¬ p.MayAsk g other) (randoms : List Nat) :
    (Gathering.deciding p).after g (.drew randoms) =
      some (.pausing p (g.pauseLength p.pauses)) := by
  have hempty : (p.quorum.remaining g.peers).isEmpty = false :=
    List.isEmpty_eq_false_iff.2 (List.ne_nil_of_mem (QuorumState.mem_remaining.2 ⟨known, fresh⟩))
  have hall : (p.quorum.remaining g.peers).all p.failed.contains = true := by
    apply List.all_eq_true.2
    intro other hother
    obtain ⟨hknown, hfresh⟩ := QuorumState.mem_remaining.1 hother
    by_contra huntried
    exact tried other ⟨few, hknown, hfresh, by simpa using huntried⟩
  apply after_drew_backoff
  unfold QuorumState.step
  rw [if_neg (Nat.not_le.2 few), hempty, hall]
  rfl

/-- A peer that has not answered may be asked again, if need be after all others have failed and
there was a pause. -/
theorem exists_asking_of_deciding (few : p.quorum.summary.attestations.size < g.threshold)
    (known : peer < g.peers) (fresh : p.quorum.excludes peer = false) :
    ∃ more q, Run.reach (Gathering.after g) (.deciding p) more = some (.asking q peer) := by
  -- Whoever else may be asked fails, and is one candidate less.
  induction hlength : (p.quorum.candidates g.peers p.failed).length using Nat.strong_induction_on
    generalizing p with
  | _ length ih =>
    subst hlength
    by_cases hother : ∃ other, p.MayAsk g other
    · obtain ⟨other, may⟩ := hother
      have hless := QuorumState.length_candidates_cons
        (QuorumState.mem_candidates.2 ⟨may.known, may.fresh, may.untried⟩)
      obtain ⟨more, q, hmore⟩ := ih _ (Nat.lt_of_succ_le (Nat.le_of_eq hless))
        (p := p.replied other .notDispatched) few fresh rfl
      refine ⟨.drew [other] :: .replied .undelivered :: more, q, ?_⟩
      apply Run.reach_cons (after_drew_of_mayAsk may)
      exact Run.reach_cons (after_replied rfl) hmore
    · have may : p.rested.MayAsk g peer := ⟨few, known, fresh, by simp [Progress.rested]⟩
      refine ⟨[.drew [], .rested, .drew [peer]], p.rested, ?_⟩
      apply Run.reach_cons (after_drew_of_failed few known fresh (by simpa using hother) [])
      apply Run.reach_cons rfl
      exact Run.reach_cons (after_drew_of_mayAsk may) rfl

end Gathering

/-- As long as the replies leave it open, each peer that no request got through to may still be
asked. -/
theorem LeftOpen.exists_asking {g : Gatherer} {start : Summary} {hs : List Happening}
    {stage : Gathering} {peer : Nat} (hopen : LeftOpen g start (g.replies start hs))
    (h : g.run start hs = some stage) (known : peer < g.peers)
    (hleft : peer ∉ dispatchedTo start.id (g.replies start hs)) :
    ∃ more p, g.run start (hs ++ more) = some (.asking p peer) := by
  have htells := Gatherer.run_tells h
  have hfree : ∀ p : Progress, stage.progress? = some p →
      p.quorum.summary.attestations.size < g.threshold ∧ p.quorum.excludes peer = false := by
    intro p hp
    have hp := htells.progress hp
    refine ⟨hp.size_eq ▸ hopen.few, ?_⟩
    rw [← Bool.not_eq_true, hp.excludes_iff]
    exact hleft
  suffices hreach : ∃ more q, Run.reach (Gathering.after g) stage more = some (.asking q peer) by
    obtain ⟨more, q, hmore⟩ := hreach
    exact ⟨more, q, Run.reach_append_eq_some.2 ⟨stage, h, hmore⟩⟩
  cases stage with
  | ended result => exact absurd htells.told (hopen.not_told result)
  | deciding p =>
    obtain ⟨few, fresh⟩ := hfree p rfl
    exact Gathering.exists_asking_of_deciding few known fresh
  | pausing p milliseconds =>
    obtain ⟨few, fresh⟩ := hfree p rfl
    obtain ⟨more, q, hmore⟩ :=
      Gathering.exists_asking_of_deciding (p := p.rested) few known fresh
    exact ⟨.rested :: more, q, Run.reach_cons rfl hmore⟩
  | asking p other =>
    obtain ⟨few, fresh⟩ := hfree p rfl
    obtain ⟨more, q, hmore⟩ := Gathering.exists_asking_of_deciding
      (p := p.replied other .notDispatched) few known fresh
    exact ⟨.replied .undelivered :: more, q, Run.reach_cons (Gathering.after_replied rfl) hmore⟩

/-! ## The ends -/

/-- How the replies decide the end of a gathering. -/
structure Gatherer.DecidedBy (g : Gatherer) (start : Summary) (rs : List (Nat × Delivery))
    (stage : Gathering) : Prop where
  /-- A peer ends it by the last reply, the only one of its kind. -/
  invalidated : ∀ peer, stage.ComesTo g (.invalidated peer) ↔
    ∃ before, rs = before ++ [(peer, .answered .invalid)] ∧ NobodyRejects before
  /-- It runs out once every peer has answered and the keys are too few. -/
  unreachable : stage.ComesTo g .unreachable ↔
    NobodyRejects rs ∧ (∀ peer < g.peers, ∃ d, (peer, d) ∈ rs ∧ d.reply start.id ≠ .notDispatched) ∧
      (start.keysAfter rs).card < g.threshold
  /-- It reaches the quorum once the keys are enough. -/
  reached : (∃ x, stage.ComesTo g (.reached x)) ↔
    NobodyRejects rs ∧ g.threshold ≤ (start.keysAfter rs).card
  /-- Then it has these keys, no more than were needed, and each reply came while there were
  fewer. -/
  exactly : ∀ x, stage.ComesTo g (.reached x) →
    x.keySet = start.keysAfter rs ∧
      (start.keysAfter rs).card = max g.threshold start.keySet.card ∧
      ∀ before, before <+: rs → before ≠ rs → (start.keysAfter before).card < g.threshold
  /-- It has no end as long as a peer is left that was only ever missed. -/
  goesOn : NobodyRejects rs → (start.keysAfter rs).card < g.threshold →
    ∀ peer < g.peers, (∀ d, (peer, d) ∈ rs → d.reply start.id = .notDispatched) →
      ∀ result, ¬ stage.ComesTo g result

namespace Gatherer

variable {g : Gatherer} {start : Summary} {hs : List Happening} {stage : Gathering}

theorem card_keysAfter_of_reached {x : Summary} (h : g.run start hs = some stage)
    (hcomes : stage.ComesTo g (.reached x)) :
    (start.keysAfter (g.replies start hs)).card = max g.threshold start.keySet.card := by
  obtain ⟨_, henough, _⟩ := hcomes.told (run_tells h)
  have hkept : start.keySet.card ≤ (start.keysAfter (g.replies start hs)).card :=
    Finset.card_le_card Finset.subset_union_left
  have hmost : (start.keysAfter (g.replies start hs)).card ≤ max g.threshold start.keySet.card := by
    rw [Summary.card_keysAfter, Summary.card_keySet]
    cases hcomes with
    | ended =>
      obtain ⟨rfl, _, hsize, _⟩ := (run_tells h).of_reached
      exact hsize
    | decides _ =>
      have hp := (run_tells h).progress rfl
      rw [← hp.summary]
      exact hp.size
  omega

theorem decidedBy (h : g.run start hs = some stage) :
    g.DecidedBy start (g.replies start hs) stage where
  invalidated peer := comesTo_iff_told h
  unreachable := by
    rw [comesTo_iff_told h]
    simp only [Gathered.Told, mem_dispatchedTo]
  reached := by
    simp only [comesTo_iff_told h, Gathered.Told]
    simp
  exactly x hcomes := by
    obtain ⟨_, _, hcollect⟩ := hcomes.told (run_tells h)
    refine ⟨?_, card_keysAfter_of_reached h hcomes, few_before_reply h⟩
    rw [hcollect, Summary.keySet_collect]
  goesOn hvalid hfew peer hknown hmissed result hcomes :=
    LeftOpen.not_told ⟨hvalid, hfew, peer, hknown, not_mem_dispatchedTo.2 hmissed⟩ result
      (hcomes.told (run_tells h))

end Gatherer

/-- The replies decide how a gathering ends. It is rejected by the peer that gave the last reply,
it runs out if a request got through to every peer and the keys are too few all the same, and it
reaches its quorum with exactly as many keys as are required, unless there were more at the start.
No request follows the reply that completed the quorum. Requests that are not dispatched end
nothing: a peer that was only ever missed may be asked again. -/
theorem the_replies_decide_how_a_gathering_ends (g : Gatherer) (start : Summary)
    (hs : List Happening) (stage : Gathering) (h : g.run start hs = some stage) :
    g.DecidedBy start (g.replies start hs) stage ∧
      (∀ result, stage.ComesTo g result →
        g.requests start hs = (g.replies start hs).map (·.1)) ∧
      (NobodyRejects (g.replies start hs) →
        (start.keysAfter (g.replies start hs)).card < g.threshold →
        ∀ peer < g.peers, (∀ d, (peer, d) ∈ g.replies start hs → d.reply start.id = .notDispatched) →
          ∃ more p, g.run start (hs ++ more) = some (.asking p peer)) := by
  refine ⟨Gatherer.decidedBy h, fun result hcomes => Gatherer.requests_of_comesTo h hcomes, ?_⟩
  intro hvalid hfew peer hknown hmissed
  have hleft := not_mem_dispatchedTo.2 hmissed
  have hopen : LeftOpen g start (g.replies start hs) := ⟨hvalid, hfew, peer, hknown, hleft⟩
  exact hopen.exists_asking h hknown hleft

end

namespace Sample

attribute [local instance] standardCrypto

/-- The sample goes on: the last of the four peers cannot be reached. -/
def lastMissed : List Happening := happenings ++ [.replied .undelivered]

/-- After a pause it can, and attests. -/
def outage : List Happening :=
  lastMissed ++ [.drew [], .rested, .drew [2], .replied (.answered (.attestation peerAttestation))]

def progressMissed : Progress := { progress with failed := [2] }

def progressAnswered : Progress :=
  ⟨⟨(start.attest attestation).attest peerAttestation, [1, 0, 2], [3]⟩, [], 0⟩

theorem run_lastMissed :
    (Gatherer.mk 4 3 100 20).run start lastMissed = some (.deciding progressMissed) :=
  (Gatherer.run_append_singleton _).2 ⟨_, run_happenings, rfl⟩

theorem run_outage :
    (Gatherer.mk 4 3 100 20).run start outage = some (.deciding progressAnswered) := by
  refine Run.reach_append_eq_some.2 ⟨_, run_lastMissed, ?_⟩
  apply Run.reach_cons (Gathering.after_drew_backoff (by decide +kernel))
  apply Run.reach_cons rfl
  apply Run.reach_cons (Gathering.after_drew_ask 2 (by decide +kernel))
  exact Run.reach_cons (Gathering.after_replied reply_peerAttestation) rfl

/-- A peer that is missed keeps the gathering from its end, which comes once it has answered: there
are two keys then, one of which two peers share, and three are required. -/
theorem an_outage_delays_the_end :
    (Gatherer.mk 4 3 100 20).run start lastMissed = some (.deciding progressMissed) ∧
    (∀ result, ¬ (Gathering.deciding progressMissed).ComesTo ⟨4, 3, 100, 20⟩ result) ∧
    (∃ more p, (Gatherer.mk 4 3 100 20).run start (lastMissed ++ more) = some (.asking p 2)) ∧
    (Gatherer.mk 4 3 100 20).run start outage = some (.deciding progressAnswered) ∧
    (Gathering.deciding progressAnswered).ComesTo ⟨4, 3, 100, 20⟩ .unreachable := by
  obtain ⟨hmissed, _, hasks⟩ :=
    the_replies_decide_how_a_gathering_ends ⟨4, 3, 100, 20⟩ start lastMissed _ run_lastMissed
  obtain ⟨houtage, _⟩ :=
    the_replies_decide_how_a_gathering_ends ⟨4, 3, 100, 20⟩ start outage _ run_outage
  have hbefore := (Gatherer.run_tells run_lastMissed).progress rfl
  have hafter := (Gatherer.run_tells run_outage).progress rfl
  have hleft := not_mem_dispatchedTo.1
    (mt hbefore.excludes_iff.2 (by decide : ¬ progressMissed.quorum.excludes 2 = true))
  have hfew : progressMissed.quorum.summary.attestations.size < 3 := by decide +kernel
  have hfew' : progressAnswered.quorum.summary.attestations.size < 3 := by decide +kernel
  rw [hbefore.size_eq] at hfew
  rw [hafter.size_eq] at hfew'
  refine ⟨run_lastMissed, hmissed.goesOn hbefore.valid hfew 2 (by decide) hleft,
    hasks hbefore.valid hfew 2 (by decide) hleft, run_outage, ?_⟩
  apply houtage.unreachable.2
  refine ⟨hafter.valid, fun peer hpeer => ?_, hfew'⟩
  have hexcluded : ∀ peer < 4, progressAnswered.quorum.excludes peer = true := by decide
  exact mem_dispatchedTo.1 (hafter.excludes_iff.1 (hexcluded peer hpeer))

end Sample

end Admission
