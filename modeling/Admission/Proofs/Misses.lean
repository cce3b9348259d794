-- Which peers are passed over because they were missed. They are remembered until the
-- next attestation or pause; a peer that is silent in between changes nothing of that.
import Admission.Proofs.PauseLengths

namespace Admission

section
variable [Crypto]

/-! ## What happened since -/

namespace Happening

/-- Whether this changes the state of a quorum: a peer attests, or is given up. -/
def changesQuorum (id : Hash) : Happening → Bool
  | replied d =>
    match d.reply id with
    | .attested _ | .noAnswer => true
    | .invalid | .notDispatched => false
  | _ => false

/-- Whether the peers that were missed may be asked again after this. -/
def forgetsMisses (id : Hash) (happening : Happening) : Bool :=
  happening.attests id || decide (happening = rested)

variable {id : Hash} {d : Delivery}

theorem forgetsMisses_of_attested {a : Attestation} (h : d.reply id = .attested a) :
    (replied d).forgetsMisses id = true := by
  rw [forgetsMisses, attests_of_attested h, Bool.true_or]

theorem forgetsMisses_of_not (h : ∀ a, d.reply id ≠ .attested a) :
    (replied d).forgetsMisses id = false := by
  simp [forgetsMisses, attests_of_not h]

end Happening

/-- The peer of a reply that says that the request was not dispatched. -/
def missedPeer? (id : Hash) (r : Nat × Delivery) : Option Nat :=
  match r.2.reply id with
  | .notDispatched => some r.1
  | _ => none

/-- The peer that was missed in what happened, if one was. -/
def Gathering.missed? (id : Hash) (told : Gathering × Happening) : Option Nat :=
  (Gathering.reply? told).bind (missedPeer? id)

namespace Gathering

variable {g : Gatherer} {start : Summary} {rs : List (Nat × Delivery)} {stage next : Gathering}
  {happening : Happening} {p : Progress}

theorem missed?_of_notDispatched {id : Hash} {peer : Nat} {d : Delivery}
    (h : d.reply id = .notDispatched) : missed? id (.asking p peer, .replied d) = some peer := by
  simp [missed?, reply?, missedPeer?, h]

theorem missed?_of_dispatched {id : Hash} {peer : Nat} {d : Delivery}
    (h : d.reply id ≠ .notDispatched) : missed? id (.asking p peer, .replied d) = none := by
  cases hreply : d.reply id with
  | notDispatched => exact absurd hreply h
  | attested _ | invalid | noAnswer => simp [missed?, reply?, missedPeer?, hreply]

/-- An attestation or a pause forgets who failed. Anything else adds the peer that was missed, if
one was. -/
theorem Tells.failed_moves (h : stage.Tells g start rs) (hmoves : Moves g stage happening next)
    (hp : next.progress? = some p) :
    (happening.forgetsMisses start.id = true ∧ p.failed = []) ∨
    (happening.forgetsMisses start.id = false ∧ ∃ before, stage.progress? = some before ∧
      p.failed = (missed? start.id (stage, happening)).toList ++ before.failed) := by
  cases hmoves with
  | asks _ | pauses _ _ _ =>
    cases hp
    exact Or.inr ⟨rfl, _, rfl, rfl⟩
  | reaches _ | runsOut _ _ | invalidated => cases hp
  | attested hd =>
    cases h with
    | asking h may =>
      rw [h.id] at hd
      cases hp
      exact Or.inl ⟨Happening.forgetsMisses_of_attested hd, rfl⟩
  | missed hd =>
    cases h with
    | asking h may =>
      rw [h.id] at hd
      cases hp
      refine Or.inr ⟨Happening.forgetsMisses_of_not (by simp [hd]), _, rfl, ?_⟩
      rw [missed?_of_notDispatched hd]
      rfl
  | unanswered hd =>
    cases h with
    | asking h may =>
      rw [h.id] at hd
      cases hp
      refine Or.inr ⟨Happening.forgetsMisses_of_not (by simp [hd]), _, rfl, ?_⟩
      rw [missed?_of_dispatched (by simp [hd])]
      rfl
  | rests =>
    cases hp
    exact Or.inl ⟨rfl, rfl⟩

end Gathering

namespace Gatherer

/-- What happened since the last happening of a kind, or since the start. -/
def since (g : Gatherer) (start : Summary) (hs : List Happening) (kind : Happening → Bool) :
    List (Gathering × Happening) :=
  (Run.history (Gathering.after g) (.start start) hs).rtakeWhile fun told => !kind told.2

/-- The peers that were missed since then, in order. -/
def missedSince (g : Gatherer) (start : Summary) (hs : List Happening)
    (kind : Happening → Bool) : List Nat :=
  (g.since start hs kind).filterMap (Gathering.missed? start.id)

section
variable {g : Gatherer} {start : Summary} {hs : List Happening} {kind other : Happening → Bool}
  {stage next : Gathering} {happening : Happening} {p : Progress}

theorem missedSince_append_of_kind (hrun : g.run start hs = some stage)
    (hafter : stage.after g happening = some next) (hkind : kind happening = true) :
    g.missedSince start (hs ++ [happening]) kind = [] := by
  unfold missedSince since
  rw [Run.history_append_singleton happening next hrun hafter,
    List.rtakeWhile_concat_neg _ _ _ (by simp [hkind])]
  rfl

theorem missedSince_append_of_not_kind (hrun : g.run start hs = some stage)
    (hafter : stage.after g happening = some next) (hkind : kind happening = false) :
    g.missedSince start (hs ++ [happening]) kind =
      g.missedSince start hs kind ++ (Gathering.missed? start.id (stage, happening)).toList := by
  unfold missedSince since
  rw [Run.history_append_singleton happening next hrun hafter,
    List.rtakeWhile_concat_pos _ _ _ (by simp [hkind]), List.filterMap_append]
  cases hmissed : Gathering.missed? start.id (stage, happening) <;> simp [hmissed]

/-- What happened since a happening of one kind, with none of another kind in it, also happened
since the last one of that. -/
theorem since_subset (h : ∀ told ∈ g.since start hs kind, other told.2 = false) :
    g.since start hs kind ⊆ g.since start hs other := by
  have hall : ∀ told ∈ (g.since start hs kind).reverse, (!other told.2) = true := by
    intro told htold
    rw [h told (List.mem_reverse.1 htold), Bool.not_false]
  unfold since at hall ⊢
  generalize Run.history (Gathering.after g) (.start start) hs = history at hall ⊢
  intro told htold
  rw [← List.rdropWhile_append_rtakeWhile (p := fun told => !kind told.2) (l := history),
    List.rtakeWhile, List.reverse_append, List.takeWhile_append_of_pos hall]
  simp [htold]

theorem of_mem_since {told : Gathering × Happening} (h : told ∈ g.since start hs kind) :
    kind told.2 = false := by
  simpa using List.mem_rtakeWhile_imp h

theorem missedSince_subset (h : ∀ told ∈ g.since start hs kind, other told.2 = false) :
    g.missedSince start hs kind ⊆ g.missedSince start hs other :=
  List.filterMap_subset _ (since_subset h)

/-- The peers that failed are those that were missed since the last attestation or pause, the last
one first. -/
theorem failed_eq_missedSince (h : g.run start hs = some stage) (hp : stage.progress? = some p) :
    p.failed = (g.missedSince start hs (Happening.forgetsMisses start.id)).reverse := by
  refine Run.reach_induction (P := fun hs stage => ∀ p, stage.progress? = some p →
    p.failed = (g.missedSince start hs (Happening.forgetsMisses start.id)).reverse) ?_ ?_ h p hp
  · intro p hp
    cases hp
    rfl
  · intro hs between happening next hrun hbefore hafter p hp
    rcases (run_tells hrun).failed_moves (Gathering.moves_of_after hafter) hp with
      ⟨hforgets, hnone⟩ | ⟨hkeeps, q, hq, hmore⟩
    · rw [hnone, missedSince_append_of_kind hrun hafter hforgets]
      rfl
    · rw [hmore, hbefore q hq, missedSince_append_of_not_kind hrun hafter hkeeps,
        List.reverse_append]
      cases Gathering.missed? start.id (between, happening) <;> rfl

theorem failed_eq_nil_of_forgetsMisses (h : g.run start (hs ++ [happening]) = some stage)
    (hp : stage.progress? = some p) (hforgets : happening.forgetsMisses start.id = true) :
    p.failed = [] := by
  obtain ⟨between, hrun, hafter⟩ := (run_append_singleton happening).1 h
  rw [failed_eq_missedSince h hp, missedSince_append_of_kind hrun hafter hforgets]
  rfl

/-- A peer that is given up leaves those that failed as they are. -/
theorem failed_eq_of_noAnswer {q : Progress} {peer : Nat} {d : Delivery}
    (h : g.run start (hs ++ [.replied d]) = some stage) (hp : stage.progress? = some p)
    (hbefore : g.run start hs = some (.asking q peer)) (hd : d.reply start.id = .noAnswer) :
    p.failed = q.failed ∧ p.quorum = q.quorum.unanswered peer := by
  obtain ⟨between, hrun, hafter⟩ := (run_append_singleton _).1 h
  cases hbefore.symm.trans hrun
  have hid : q.quorum.summary.id = start.id := ((run_tells hbefore).progress rfl).id
  rw [Gathering.after_replied (hid ▸ hd)] at hafter
  cases hafter
  cases hp
  exact ⟨rfl, rfl⟩

end

end Gatherer

/-- The peers that are passed over are those that were missed since the last attestation that
verified, or the last pause, or the start. None of them has answered, and right after an attestation
or a pause there are none. A peer that is given up in between changes the state of the quorum, but
not this: only where none was given up were they all missed since the last change of the state. -/
theorem misses_last_until_an_attestation_or_a_pause (g : Gatherer) (start : Summary)
    (hs : List Happening) (stage : Gathering) (p : Progress) (h : g.run start hs = some stage)
    (hp : stage.progress? = some p) :
    p.failed = (g.missedSince start hs (Happening.forgetsMisses start.id)).reverse ∧
    (∀ peer ∈ p.failed, peer < g.peers ∧ p.quorum.excludes peer = false) ∧
    (∀ peer ∈ p.failed, peer ∈ g.missedSince start hs (Happening.attests start.id)) ∧
    ((∀ told ∈ g.since start hs (Happening.forgetsMisses start.id),
        told.2.changesQuorum start.id = false) →
      ∀ peer ∈ p.failed, peer ∈ g.missedSince start hs (Happening.changesQuorum start.id)) ∧
    (∀ before happening, hs = before ++ [happening] →
      happening.forgetsMisses start.id = true → p.failed = []) ∧
    ∀ before q peer d, hs = before ++ [.replied d] → g.run start before = some (.asking q peer) →
      d.reply start.id = .noAnswer → p.failed = q.failed ∧ p.quorum = q.quorum.unanswered peer := by
  have hfailed := Gatherer.failed_eq_missedSince h hp
  have hmissed : ∀ peer ∈ p.failed,
      peer ∈ g.missedSince start hs (Happening.forgetsMisses start.id) := by
    intro peer hpeer
    rw [hfailed] at hpeer
    exact List.mem_reverse.1 hpeer
  refine ⟨hfailed, ((Gatherer.run_tells h).progress hp).failed, ?_, ?_, ?_, ?_⟩
  · intro peer hpeer
    refine Gatherer.missedSince_subset (fun told htold => ?_) (hmissed peer hpeer)
    exact (Bool.or_eq_false_iff.1 (Gatherer.of_mem_since htold)).1
  · intro hunchanged peer hpeer
    exact Gatherer.missedSince_subset hunchanged (hmissed peer hpeer)
  · rintro before happening rfl hforgets
    exact Gatherer.failed_eq_nil_of_forgetsMisses h hp hforgets
  · rintro before q peer d rfl hbefore hd
    exact Gatherer.failed_eq_of_noAnswer h hp hbefore hd

end

namespace Sample

attribute [local instance] standardCrypto

/-- Of three peers nobody is reached. -/
def isolation : List Happening :=
  [.drew [0], .replied .undelivered, .drew [1], .replied .undelivered, .drew [2],
    .replied .undelivered]

def afterIsolation : Progress := ⟨⟨start, [], []⟩, [2, 1, 0], 0⟩

theorem run_isolation : trio.run start isolation = some (.deciding afterIsolation) := by
  apply Run.reach_cons (Gathering.after_drew_ask 0 rfl)
  apply Run.reach_cons (Gathering.after_replied rfl)
  apply Run.reach_cons (Gathering.after_drew_ask 1 rfl)
  apply Run.reach_cons (Gathering.after_replied rfl)
  apply Run.reach_cons (Gathering.after_drew_ask 2 rfl)
  exact Run.reach_cons (Gathering.after_replied rfl) rfl

def duo : Gatherer := ⟨2, 1, 100, 20⟩

/-- One of two peers is missed, and then the other one is given up. -/
def silence : List Happening := [.drew [0], .replied .undelivered, .drew [1], .replied .timedOut]

def afterSilence : Progress := ⟨⟨start, [], [1]⟩, [0], 0⟩

theorem run_silence : duo.run start silence = some (.deciding afterSilence) := by
  apply Run.reach_cons (Gathering.after_drew_ask 0 rfl)
  apply Run.reach_cons (Gathering.after_replied rfl)
  apply Run.reach_cons (Gathering.after_drew_ask 1 rfl)
  exact Run.reach_cons (Gathering.after_replied rfl) rfl

/-- Where nobody was given up, all were missed since the last change of the state. A peer that is
given up after a pause is none of those that failed, and they stay. -/
theorem three_peers_are_missed_since_the_start :
    trio.run start isolation = some (.deciding afterIsolation) ∧
    (∀ peer ∈ afterIsolation.failed,
      peer ∈ trio.missedSince start isolation (Happening.changesQuorum start.id)) ∧
    trio.run start deafness = some (.pausing afterDeafness 40) ∧
    afterDeafness.failed =
      (trio.missedSince start deafness (Happening.forgetsMisses start.id)).reverse ∧
    duo.run start silence = some (.deciding afterSilence) ∧
    afterSilence.quorum = (QuorumState.start start).unanswered 1 := by
  obtain ⟨-, -, -, hunchanged, -⟩ :=
    misses_last_until_an_attestation_or_a_pause trio start isolation _ _ run_isolation rfl
  obtain ⟨hdeaf, -⟩ :=
    misses_last_until_an_attestation_or_a_pause trio start deafness _ _ run_deafness rfl
  obtain ⟨-, -, -, -, -, hgivenUp⟩ :=
    misses_last_until_an_attestation_or_a_pause duo start silence _ _ run_silence rfl
  have hasking : duo.run start [.drew [0], .replied .undelivered, .drew [1]] =
      some (.asking ⟨.start start, [0], 0⟩ 1) := by
    apply Run.reach_cons (Gathering.after_drew_ask 0 rfl)
    apply Run.reach_cons (Gathering.after_replied rfl)
    exact Run.reach_cons (Gathering.after_drew_ask 1 rfl) rfl
  obtain ⟨-, hquorum⟩ := hgivenUp [.drew [0], .replied .undelivered, .drew [1]] _ 1 .timedOut rfl
    hasking rfl
  exact ⟨run_isolation, hunchanged (by decide), run_deafness, hdeaf, run_silence, hquorum⟩

/-- The peer that was missed before is still passed over after the change of the state, so there is
a pause where it would be asked again. -/
theorem a_miss_outlasts_a_change_of_the_quorum :
    duo.run start silence = some (.deciding afterSilence) ∧
    (Happening.replied .timedOut).changesQuorum start.id = true ∧
    0 ∈ afterSilence.failed ∧
    0 ∉ duo.missedSince start silence (Happening.changesQuorum start.id) ∧
    duo.run start (silence ++ [.drew [0]]) = some (.pausing afterSilence 20) ∧
    afterSilence.quorum.step duo.threshold duo.peers [] [0] = some (.ask 0) := by
  have hsince : duo.missedSince start silence (Happening.changesQuorum start.id) = [] := rfl
  refine ⟨run_silence, rfl, List.mem_singleton.2 rfl, ?_, ?_, rfl⟩
  · rw [hsince]
    exact List.not_mem_nil
  · refine Run.reach_append_eq_some.2 ⟨_, run_silence, ?_⟩
    exact Run.reach_cons (Gathering.after_drew_backoff rfl) rfl

end Sample

end Admission
