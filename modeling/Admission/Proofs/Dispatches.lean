-- Requests to peers that behave as they like, in their own time. A request is waited for from
-- when it is sent, and its connection is given time from when the client of the peer takes it
-- up. So a connection that is not opened counts as such where the client is quick enough, and
-- else as an answer that is missing. Either way only a peer that was sent nothing is asked again.
import Admission.Proofs.Conducts
import Admission.Proofs.Demands
import Admission.Proofs.Submitted

namespace Admission

/-! ## What a request comes to -/

section
variable [Crypto]

omit [Crypto] in
theorem PeerAnswer.ofAcknowledgement_eq_unreachable
    {answer : Except CallError (Option Attestation)} :
    ofAcknowledgement answer = .unreachable ↔ answer = .error .unreachable := by
  rcases answer with cause | _ | a
  · cases cause <;> simp [ofAcknowledgement]
  · simp [ofAcknowledgement]
  · simp [ofAcknowledgement]

omit [Crypto] in
theorem Received.acknowledgement_eq_unreachable {r : Received Response} :
    r.acknowledgement = some (.error .unreachable) ↔ r = .unopened := by
  cases r with
  | message response => cases response <;> simp [acknowledgement, Received.response]
  | unopened | unwritten | faulty | ended | broken | nothing =>
    simp [acknowledgement, Received.response]

section
variable {e : Exchange Response} {handover peerTimeout : Nat} {id : Hash}

omit [Crypto] in
/-- What takes longer than it is waited for is not told. -/
theorem Exchange.delivery_of_late (h : peerTimeout ≤ handover + e.lasts) :
    e.delivery handover peerTimeout = .timedOut := by
  unfold delivery
  cases e.received.acknowledgement with
  | none => rfl
  | some answer => exact if_neg (Nat.not_lt.2 h)

/-- A request counts as not dispatched just if no connection was opened and this was known while it
was waited for. -/
theorem Exchange.reply_eq_notDispatched :
    (e.delivery handover peerTimeout).reply id = .notDispatched ↔
      e.received = .unopened ∧ handover + e.lasts < peerTimeout := by
  rw [Delivery.reply_eq_notDispatched, ← Received.acknowledgement_eq_unreachable]
  unfold delivery
  cases e.received.acknowledgement with
  | none => simp
  | some answer =>
    by_cases htime : handover + e.lasts < peerTimeout
    · simp [htime, PeerAnswer.ofAcknowledgement_eq_unreachable]
    · simp [htime]

end

namespace Conduct

variable {c : Conduct} {handover connectTimeout peerTimeout : Nat} {t : Transaction} {id : Hash}

def call (c : Conduct) (limit : Nat) (request : Request) : Exchange Response :=
  c.exchange limit Wire.request Wire.response request

def delivery (c : Conduct) (handover connectTimeout peerTimeout : Nat) (t : Transaction) :
    Delivery :=
  (c.call connectTimeout (.validate t)).delivery handover peerTimeout

/-- The two clocks start at different times, and it is the wait for the answer that decides. -/
theorem reply_eq_notDispatched_iff :
    (c.delivery handover connectTimeout peerTimeout t).reply id = .notDispatched ↔
      ¬ c.opening.OpensWithin connectTimeout ∧
        handover + (c.opening.within connectTimeout).1 < peerTimeout := by
  unfold delivery call
  rw [Exchange.reply_eq_notDispatched]
  by_cases hopens : c.opening.OpensWithin connectTimeout
  · have hopened : (c.exchange connectTimeout Wire.request Wire.response (.validate t)).received ≠
        .unopened := (exchange_of_opened hopens).2
    simp [hopens, hopened]
  · simp [hopens, exchange_of_unopened hopens]

theorem delivery_of_late (hcloses : ¬ c.opening.OpensWithin connectTimeout)
    (hlate : peerTimeout ≤ handover + (c.opening.within connectTimeout).1) :
    c.delivery handover connectTimeout peerTimeout t = .timedOut := by
  unfold delivery call
  rw [exchange_of_unopened hcloses]
  exact Exchange.delivery_of_late hlate

/-- Whether a connection was opened is told of all peers just if the wait for the answer leaves
time for connecting when the request is taken up. -/
theorem forall_reply_eq_notDispatched_iff :
    (∀ c : Conduct, (c.delivery handover connectTimeout peerTimeout t).reply id = .notDispatched ↔
        ¬ c.opening.OpensWithin connectTimeout) ↔
      handover + connectTimeout < peerTimeout := by
  constructor
  · intro h
    have hpending := (h ⟨.pending, []⟩).2 (by simp [Opening.OpensWithin])
    exact (reply_eq_notDispatched_iff.1 hpending).2
  · intro hroom c
    have hwithin := Opening.within_fst_le connectTimeout c.opening
    rw [reply_eq_notDispatched_iff]
    exact and_iff_left (by omega)

end Conduct

/-- What a request to another end comes to, and what of it is written, is so in time. -/
theorem OtherEnd.exists_conduct (o : OtherEnd) (connectTimeout : Nat) (t : Transaction) :
    ∃ c : Conduct, c.opening = o.opening ∧
      c.call connectTimeout (.validate t) = o.call connectTimeout (.validate t) ∧
      ∀ handover peerTimeout, c.delivery handover connectTimeout peerTimeout t =
        o.delivery handover connectTimeout peerTimeout t := by
  have hsame := o.exchange_conduct connectTimeout Wire.request Wire.response (.validate t)
  refine ⟨_, rfl, hsame, fun handover peerTimeout => ?_⟩
  unfold Conduct.delivery Conduct.call
  rw [hsame]
  rfl

/-! ## Accepted settings -/

/-- A peer is given longer to answer than to accept a connection. -/
theorem Settings.connectTimeout_lt_of_validate {s : Settings} {c : Configuration}
    (h : s.validate = .ok c) : c.connectTimeout.toNat < c.sentinel.gatherer.peerTimeout := by
  obtain ⟨_, hresolves⟩ := validate_eq_ok_iff_resolvesTo.1 h
  exact UInt64.lt_iff_toNat_lt.1 hresolves.prompt

/-- Accepted settings stay so with any time for connecting that is shorter than the one for
answering. -/
theorem Settings.validate_of_connectTimeout_lt {s : Settings} {c : Configuration}
    (h : s.validate = .ok c) {limit : UInt64} (hlimit : limit < s.peerTimeout) :
    { s with connectTimeout := limit }.validate = .ok { c with connectTimeout := limit } := by
  obtain ⟨hnumber, endpoints, coordinator, keypair, hendpoints, hcoordinator, hkeypair, hfault,
    rfl⟩ := validate_eq_ok_iff.1 h
  refine validate_eq_ok_iff.2 ⟨?_, endpoints, coordinator, keypair, hendpoints, hcoordinator,
    hkeypair, hfault, rfl⟩
  have hlonger : ¬ s.peerTimeout ≤ limit := UInt64.not_le.2 hlimit
  unfold numberFault at hnumber ⊢
  dsimp only at hnumber ⊢
  split_ifs at hnumber ⊢
  rfl

/-! ## Requests of a gathering -/

/-- A request to a peer: after how long its client takes it up, and how the other end of its
connection behaves then. There is none if nobody is there who would open one. -/
structure PeerRequest where
  peer : Nat
  handover : Nat
  conduct : Option Conduct

namespace PeerRequest

/-- A connection was opened for the request. -/
def Opened (connectTimeout : Nat) (r : PeerRequest) : Prop :=
  ∃ c, r.conduct = some c ∧ c.opening.OpensWithin connectTimeout

/-- How long after the request was sent it is known whether a connection was opened for it. -/
def knownAfter (connectTimeout : Nat) (r : PeerRequest) : Nat :=
  match r.conduct with
  | none => r.handover
  | some c => r.handover + (c.opening.within connectTimeout).1

def delivery (connectTimeout peerTimeout : Nat) (t : Transaction) (r : PeerRequest) : Delivery :=
  match r.conduct with
  | none => if r.handover < peerTimeout then .undelivered else .timedOut
  | some c => c.delivery r.handover connectTimeout peerTimeout t

/-- The bytes that are written for the request. Its client may still write when nobody waits for
the answer any more. -/
def written (connectTimeout : Nat) (t : Transaction) (r : PeerRequest) : List UInt8 :=
  match r.conduct with
  | none => []
  | some c => (c.call connectTimeout (.validate t)).written

/-- The peer, and what the request comes to. -/
def reply (connectTimeout peerTimeout : Nat) (t : Transaction) (r : PeerRequest) :
    Nat × Delivery := (r.peer, r.delivery connectTimeout peerTimeout t)

variable {r : PeerRequest} {connectTimeout peerTimeout : Nat} {t : Transaction} {id : Hash}

theorem delivery_reply_iff :
    (r.delivery connectTimeout peerTimeout t).reply id = .notDispatched ↔
      ¬ r.Opened connectTimeout ∧ r.knownAfter connectTimeout < peerTimeout := by
  unfold delivery Opened knownAfter
  cases r.conduct with
  | none => by_cases htime : r.handover < peerTimeout <;> simp [htime, Delivery.reply]
  | some c => simpa using Conduct.reply_eq_notDispatched_iff

omit [Crypto] in
/-- It is known in time if the request is taken up in time. -/
theorem knownAfter_lt (h : r.handover + connectTimeout < peerTimeout) :
    r.knownAfter connectTimeout < peerTimeout := by
  unfold knownAfter
  cases r.conduct with
  | none => exact Nat.lt_of_le_of_lt (Nat.le_add_right _ _) h
  | some c =>
    have hwithin := Opening.within_fst_le connectTimeout c.opening
    dsimp only
    omega

theorem written_of_not_opened (h : ¬ r.Opened connectTimeout) :
    r.written connectTimeout t = [] := by
  unfold written
  unfold Opened at h
  cases hconduct : r.conduct with
  | none => rfl
  | some c =>
    have hcloses : ¬ c.opening.OpensWithin connectTimeout := fun hopens => h ⟨c, hconduct, hopens⟩
    simp only [Conduct.call, Conduct.exchange_of_unopened hcloses]

theorem written_prefix (r : PeerRequest) (connectTimeout : Nat) (t : Transaction) :
    r.written connectTimeout t <+: (Wire.send Wire.request (.validate t)).getD [] := by
  unfold written
  cases r.conduct with
  | none => exact List.nil_prefix
  | some c => exact c.written_prefix _ _ _ _

end PeerRequest

/-- The bytes that are written to a peer, over all connections to it. -/
def writtenTo (connectTimeout : Nat) (t : Transaction) (peer : Nat) (rs : List PeerRequest) :
    List UInt8 :=
  (rs.filter fun r => r.peer = peer).flatMap (·.written connectTimeout t)

/-- Of the requests to one peer none but the last opened a connection. -/
def OnlyLastOpened (connectTimeout : Nat) (rs : List PeerRequest) : Prop :=
  rs.Pairwise fun r later => r.peer = later.peer → ¬ r.Opened connectTimeout

section
variable {connectTimeout peer : Nat} {t : Transaction} {rs : List PeerRequest}

theorem writtenTo_eq_nil (h : ∀ r ∈ rs, r.peer = peer → ¬ r.Opened connectTimeout) :
    writtenTo connectTimeout t peer rs = [] := by
  unfold writtenTo
  rw [List.flatMap_eq_nil_iff]
  intro r hr
  obtain ⟨hmem, hpeer⟩ := List.mem_filter.1 hr
  exact PeerRequest.written_of_not_opened (h r hmem (of_decide_eq_true hpeer))

/-- So no more than one request is written to a peer. -/
theorem OnlyLastOpened.writtenTo_prefix (h : OnlyLastOpened connectTimeout rs) (t : Transaction)
    (peer : Nat) :
    writtenTo connectTimeout t peer rs <+: (Wire.send Wire.request (.validate t)).getD [] := by
  induction rs with
  | nil => exact List.nil_prefix
  | cons r rest ih =>
    obtain ⟨hfirst, hrest⟩ := List.pairwise_cons.1 h
    by_cases hpeer : r.peer = peer
    · have hcons : writtenTo connectTimeout t peer (r :: rest) =
          r.written connectTimeout t ++ writtenTo connectTimeout t peer rest := by
        simp [writtenTo, hpeer]
      rw [hcons]
      by_cases hopened : r.Opened connectTimeout
      · -- The peer is not asked again.
        have hnone : writtenTo connectTimeout t peer rest = [] := by
          apply writtenTo_eq_nil
          intro later hlater hsame
          exact absurd hopened (hfirst later hlater (hpeer.trans hsame.symm))
        rw [hnone, List.append_nil]
        exact r.written_prefix connectTimeout t
      · rw [PeerRequest.written_of_not_opened hopened, List.nil_append]
        exact ih hrest
    · have hskip : writtenTo connectTimeout t peer (r :: rest) =
          writtenTo connectTimeout t peer rest := by
        simp [writtenTo, hpeer]
      rw [hskip]
      exact ih hrest

end

/-! ## Runs -/

/-- A peer that a request was dispatched to gives no reply after that one. -/
theorem Gatherer.replies_pairwise {g : Gatherer} {start : Summary} {hs : List Happening}
    {stage : Gathering} (h : g.run start hs = some stage) :
    (g.replies start hs).Pairwise fun r later =>
      r.1 = later.1 → r.2.reply start.id = .notDispatched := by
  refine Run.reach_induction
    (P := fun hs _ => (g.replies start hs).Pairwise fun r later =>
      r.1 = later.1 → r.2.reply start.id = .notDispatched) List.Pairwise.nil ?_ h
  intro hs between happening next hrun hbefore hafter
  rw [replies_append_singleton happening hrun hafter]
  cases hreply : Gathering.reply? (between, happening) with
  | none => simpa using hbefore
  | some last =>
    refine List.pairwise_append.2 ⟨hbefore, List.pairwise_singleton _ _, ?_⟩
    rintro ⟨other, reply⟩ hr later hlater hsame
    rw [Option.toList_some, List.mem_singleton] at hlater
    subst hlater
    unfold Gathering.reply? at hreply
    split at hreply
    · rename_i p peer d heq
      cases hreply
      cases heq
      obtain rfl : other = peer := hsame
      by_contra hdispatched
      have hfresh := (run_tells hrun).not_answered
      rw [mem_dispatchedTo] at hfresh
      exact hfresh ⟨reply, hr, hdispatched⟩
    · cases hreply

/-- What is told of a request that is waited for so long, if its client takes it up so much later
and gives a connection no more than the limit. At most the one request is written. -/
structure ToldByOpening (handover limit wait : Nat) (t : Transaction) (opening : Opening)
    (reply : Reply) (written : List UInt8) : Prop where
  notDispatched : reply = .notDispatched ↔
    ¬ opening.OpensWithin limit ∧ handover + (opening.within limit).1 < wait
  noAnswer : ¬ opening.OpensWithin limit → wait ≤ handover + (opening.within limit).1 →
    reply = .noAnswer
  nothing : ¬ opening.OpensWithin limit → written = []
  once : written <+: (Wire.send Wire.request (.validate t)).getD []

theorem Conduct.toldByOpening (c : Conduct) (handover connectTimeout peerTimeout : Nat)
    (t : Transaction) :
    ToldByOpening handover connectTimeout peerTimeout t c.opening
      ((c.delivery handover connectTimeout peerTimeout t).reply t.id)
      (c.call connectTimeout (.validate t)).written where
  notDispatched := reply_eq_notDispatched_iff
  noAnswer hcloses hlate := by
    rw [delivery_of_late hcloses hlate]
    rfl
  nothing hcloses := by rw [call, exchange_of_unopened hcloses]
  once := c.written_prefix _ _ _ _

/-- So it is for an other end that does everything at once. -/
theorem OtherEnd.toldByOpening (o : OtherEnd) (handover connectTimeout peerTimeout : Nat)
    (t : Transaction) :
    ToldByOpening handover connectTimeout peerTimeout t o.opening
      ((o.delivery handover connectTimeout peerTimeout t).reply t.id)
      (o.call connectTimeout (.validate t)).written := by
  obtain ⟨conduct, hopening, hcall, hdelivery⟩ := o.exists_conduct connectTimeout t
  rw [← hopening, ← hcall, ← hdelivery]
  exact conduct.toldByOpening handover connectTimeout peerTimeout t

/-- What a gathering that has come to this stage has sent, where these are its requests. -/
structure AskedOnce (connectTimeout peerTimeout : Nat) (t : Transaction)
    (asked : List PeerRequest) (stage : Gathering) : Prop where
  onlyLast : OnlyLastOpened connectTimeout asked
  /-- All that is written to a peer is a part of one request. -/
  once : ∀ peer, writtenTo connectTimeout t peer asked <+:
    (Wire.send Wire.request (.validate t)).getD []
  /-- Nothing was written to a peer that is asked now. -/
  fresh : ∀ p peer, stage = .asking p peer → writtenTo connectTimeout t peer asked = []
  /-- To a peer that gave no usable answer a connection was opened, or it was known too late that
  none was. -/
  reached : ∀ p, stage.progress? = some p → ∀ peer ∈ p.quorum.unresponsive,
    ∃ r ∈ asked, r.peer = peer ∧
      (r.Opened connectTimeout ∨ peerTimeout ≤ r.knownAfter connectTimeout)
  reachedInTime : (∀ r ∈ asked, r.handover + connectTimeout < peerTimeout) →
    ∀ p, stage.progress? = some p → ∀ peer ∈ p.quorum.unresponsive,
      ∃ r ∈ asked, r.peer = peer ∧ r.Opened connectTimeout

section
variable {connectTimeout peerTimeout peer : Nat} {t : Transaction} {asked : List PeerRequest}

/-- A peer that no request was dispatched to was sent nothing. -/
theorem writtenTo_of_not_dispatched
    (h : peer ∉ dispatchedTo t.id (asked.map (·.reply connectTimeout peerTimeout t))) :
    writtenTo connectTimeout t peer asked = [] := by
  refine writtenTo_eq_nil fun r hr hpeer hopened => ?_
  rw [mem_dispatchedTo] at h
  refine h ⟨_, List.mem_map.2 ⟨r, hr, congrArg (Prod.mk · _) hpeer⟩, ?_⟩
  intro hreply
  exact (PeerRequest.delivery_reply_iff.1 hreply).1 hopened

/-- A silent peer is one that a connection was opened to, or too late none. -/
theorem exists_opened_of_silent
    (h : peer ∈ silentOf t.id (asked.map (·.reply connectTimeout peerTimeout t))) :
    ∃ r ∈ asked, r.peer = peer ∧
      (r.Opened connectTimeout ∨ peerTimeout ≤ r.knownAfter connectTimeout) := by
  rw [mem_silentOf] at h
  obtain ⟨d, hd, hsilent⟩ := h
  obtain ⟨r, hr, heq⟩ := List.mem_map.1 hd
  cases heq
  refine ⟨r, hr, rfl, ?_⟩
  by_contra hneither
  obtain ⟨hclosed, hknown⟩ := not_or.1 hneither
  rw [PeerRequest.delivery_reply_iff.2 ⟨hclosed, Nat.not_le.1 hknown⟩] at hsilent
  cases hsilent

/-- In every run a peer is sent one request at most. -/
theorem Gatherer.askedOnce {g : Gatherer} {start : Summary} {hs : List Happening}
    {stage : Gathering} (hid : start.id = t.id) (hrun : g.run start hs = some stage)
    (hreplies : g.replies start hs = asked.map (·.reply connectTimeout peerTimeout t)) :
    AskedOnce connectTimeout peerTimeout t asked stage := by
  have htells := run_tells hrun
  have hpairs := replies_pairwise hrun
  rw [hreplies] at htells hpairs
  have honly : OnlyLastOpened connectTimeout asked := by
    refine (List.pairwise_map.1 hpairs).imp ?_
    intro r later hreply hsame
    exact (PeerRequest.delivery_reply_iff.1 (hreply hsame)).1
  have hreached : ∀ p, stage.progress? = some p → ∀ peer ∈ p.quorum.unresponsive,
      ∃ r ∈ asked, r.peer = peer ∧
        (r.Opened connectTimeout ∨ peerTimeout ≤ r.knownAfter connectTimeout) := by
    intro p hp peer hpeer
    rw [(htells.progress hp).unresponsive, hid] at hpeer
    exact exists_opened_of_silent hpeer
  refine ⟨honly, honly.writtenTo_prefix t, ?_, hreached, ?_⟩
  · rintro p peer rfl
    exact writtenTo_of_not_dispatched (hid ▸ htells.not_answered)
  · intro hroom p hp peer hpeer
    obtain ⟨r, hr, hsame, hopened⟩ := hreached p hp peer hpeer
    refine ⟨r, hr, hsame, hopened.resolve_right fun hlate => ?_⟩
    exact Nat.not_le.2 (PeerRequest.knownAfter_lt (hroom r hr)) hlate

end

/-- Accepted settings give a peer longer to answer than to accept a connection. But the first time
counts from when the request is sent, and the second from when the client of the peer takes it up.
A request counts as not dispatched just if its connection was not opened in time and this is known
while its answer is waited for; if it is known too late, the answer counts as missing. So the two
are told apart of all peers just if there is still time for connecting when the request is taken
up. Whatever the peers do and when, and whenever their clients take up what they are sent, nothing
was written to a peer that is asked again, and in every run of a gathering no peer is sent more
than one request. A peer that gave no usable answer is one that was reached, unless its client was
late. -/
theorem an_unopened_connection_is_told_where_time_is_left {settings : Settings}
    {c : Configuration} (h : settings.validate = .ok c) (t : Transaction) :
    c.connectTimeout.toNat < c.sentinel.gatherer.peerTimeout ∧
    (∀ (handover : Nat) (conduct : Conduct),
      ToldByOpening handover c.connectTimeout.toNat c.sentinel.gatherer.peerTimeout t
        conduct.opening
        ((conduct.delivery handover c.connectTimeout.toNat c.sentinel.gatherer.peerTimeout t).reply
          t.id)
        (conduct.call c.connectTimeout.toNat (.validate t)).written) ∧
    (∀ (handover : Nat) (o : OtherEnd),
      ToldByOpening handover c.connectTimeout.toNat c.sentinel.gatherer.peerTimeout t o.opening
        ((o.delivery handover c.connectTimeout.toNat c.sentinel.gatherer.peerTimeout t).reply t.id)
        (o.call c.connectTimeout.toNat (.validate t)).written) ∧
    (∀ handover : Nat, (∀ conduct : Conduct,
        (conduct.delivery handover c.connectTimeout.toNat c.sentinel.gatherer.peerTimeout t).reply
            t.id = .notDispatched ↔
          ¬ conduct.opening.OpensWithin c.connectTimeout.toNat) ↔
      handover + c.connectTimeout.toNat < c.sentinel.gatherer.peerTimeout) ∧
    ∀ (hs : List Happening) (stage : Gathering) (asked : List PeerRequest),
      c.sentinel.gatherer.run (c.sentinel.firstSummary t) hs = some stage →
      c.sentinel.gatherer.replies (c.sentinel.firstSummary t) hs =
        asked.map (·.reply c.connectTimeout.toNat c.sentinel.gatherer.peerTimeout t) →
      AskedOnce c.connectTimeout.toNat c.sentinel.gatherer.peerTimeout t asked stage := by
  have hid := (Sentinel.fields_firstSummary c.sentinel t).1
  refine ⟨Settings.connectTimeout_lt_of_validate h,
    fun handover conduct => conduct.toldByOpening handover _ _ t,
    fun handover o => o.toldByOpening handover _ _ t,
    fun _ => Conduct.forall_reply_eq_notDispatched_iff, ?_⟩
  intro hs stage asked hrun hreplies
  exact Gatherer.askedOnce hid hrun hreplies

end

namespace Sample

attribute [local instance] standardCrypto

/-- The connection is never opened. Then one is that three bytes of the request go over, when nobody
waits for the answer any more. -/
def asked : List PeerRequest :=
  [⟨0, 1, some ⟨.pending, []⟩⟩, ⟨0, 6000, some ⟨.opens 10, [(5, .takes 3)]⟩⟩]

def tries : List Happening :=
  [.drew [0], .replied (.answered .unreachable), .drew [], .rested, .drew [0], .replied .timedOut]

def tried : Progress :=
  ⟨(QuorumState.start (keyedPeer.sentinel.firstSummary transaction)).unanswered 0, [], 1⟩

theorem replies_asked : asked.map (·.reply 1000 5000 transaction) =
    [(0, .answered .unreachable), (0, .timedOut)] := by decide +kernel

/-- The gathering before any reply. -/
def fresh : Progress := .start (keyedPeer.sentinel.firstSummary transaction)

/-- No connection to the peer could be opened. -/
def missed : Progress := { fresh with failed := [0] }

theorem firstSummary_keyedPeer : keyedPeer.sentinel.firstSummary transaction = attested := by
  rw [Sentinel.firstSummary_of_keypair (by decide) rfl, id_transaction, ofKeypair_pair]
  rfl

theorem after_tries :
    (Gathering.deciding fresh).after keyedPeer.sentinel.gatherer (.drew [0]) =
        some (.asking fresh 0) ∧
      (Gathering.deciding missed).after keyedPeer.sentinel.gatherer (.drew []) =
        some (.pausing missed 100) ∧
      (Gathering.deciding missed.rested).after keyedPeer.sentinel.gatherer (.drew [0]) =
        some (.asking missed.rested 0) := by
  have hask : fresh.quorum.step 2 1 fresh.failed [0] = some (.ask 0) := by
    unfold fresh
    rw [firstSummary_keyedPeer]
    decide +kernel
  have hpause : missed.quorum.step 2 1 missed.failed [] = some .backoff := by
    unfold missed fresh
    rw [firstSummary_keyedPeer]
    decide +kernel
  exact ⟨Gathering.after_drew_ask 0 hask, Gathering.after_drew_backoff hpause,
    Gathering.after_drew_ask 0 hask⟩

theorem after_missed :
    (Gathering.asking fresh 0).after keyedPeer.sentinel.gatherer
      (.replied (.answered .unreachable)) = some (.deciding missed) := rfl

theorem run_tries :
    keyedPeer.sentinel.gatherer.run (keyedPeer.sentinel.firstSummary transaction) tries =
      some (.deciding tried) := by
  obtain ⟨hask, hpause, hagain⟩ := after_tries
  refine Run.reach_cons hask (Run.reach_cons after_missed ?_)
  refine Run.reach_cons hpause (Run.reach_cons rfl ?_)
  exact Run.reach_cons hagain rfl

theorem replies_tries :
    keyedPeer.sentinel.gatherer.replies (keyedPeer.sentinel.firstSummary transaction) tries =
      asked.map (·.reply keyedPeer.connectTimeout.toNat keyedPeer.sentinel.gatherer.peerTimeout
        transaction) := by
  obtain ⟨hask, hpause, hagain⟩ := after_tries
  have hrested : (Gathering.pausing missed 100).after keyedPeer.sentinel.gatherer .rested =
      some (.deciding missed.rested) := rfl
  have hsilent : (Gathering.asking missed.rested 0).after keyedPeer.sentinel.gatherer
      (.replied .timedOut) = some (.deciding tried) := rfl
  have hstart : Gathering.start (keyedPeer.sentinel.firstSummary transaction) =
      .deciding fresh := rfl
  have hgatherer : keyedPeer.sentinel.gatherer.peerTimeout = 5000 := rfl
  have hconnect : keyedPeer.connectTimeout.toNat = 1000 := rfl
  rw [hgatherer, hconnect, replies_asked]
  simp only [Gatherer.replies, tries, Run.history, hstart, hask, after_missed, hpause, hrested,
    hagain, hsilent]
  rfl

/-- The peer is asked again when its connection was not opened. Of the second request three bytes
are written, and then the peer is not asked any more. -/
theorem three_bytes_are_written_to_the_peer :
    keyed.validate = .ok keyedPeer ∧
      keyedPeer.sentinel.gatherer.run (keyedPeer.sentinel.firstSummary transaction) tries =
        some (.deciding tried) ∧
      OnlyLastOpened 1000 asked ∧
      (∃ r ∈ asked, r.peer = 0 ∧ (r.Opened 1000 ∨ 5000 ≤ r.knownAfter 1000)) ∧
      (writtenTo 1000 transaction 0 asked).length = 3 := by
  obtain ⟨_, _, _, _, hruns⟩ :=
    an_unopened_connection_is_told_where_time_is_left validate_keyed transaction
  have honce := hruns tries _ asked run_tries replies_tries
  refine ⟨validate_keyed, run_tries, honce.onlyLast, honce.reached tried rfl 0 ?_, ?_⟩
  · decide +kernel
  · decide +kernel

/-- Settings that give a peer a millisecond more to answer than to accept a connection. -/
def tight : Settings := { keyed with connectTimeout := 4999 }

def tightPeer : Configuration := { keyedPeer with connectTimeout := 4999 }

/-- The client of the peer takes two milliseconds to take the request up, and then its connection is
never opened. -/
def late : PeerRequest := ⟨0, 2, some ⟨.pending, []⟩⟩

/-- The peer counts as silent. -/
def silenced : Progress := { fresh with quorum := fresh.quorum.unanswered 0 }

theorem run_late :
    tightPeer.sentinel.gatherer.run (tightPeer.sentinel.firstSummary transaction)
        [.drew [0], .replied (late.delivery 4999 5000 transaction)] =
      some (.deciding silenced) :=
  Run.reach_cons after_tries.1 (Run.reach_cons rfl rfl)

theorem after_silenced :
    (Gathering.deciding silenced).after tightPeer.sentinel.gatherer (.drew []) =
      some (.ended .unreachable) := by
  have hstep : silenced.quorum.step 2 1 silenced.failed [] = some .exhausted := by
    unfold silenced fresh
    rw [firstSummary_keyedPeer]
    decide +kernel
  exact Gathering.after_drew_exhausted hstep

/-- The settings are accepted. The connection is never opened and nothing is written, and still the
answer counts as missing: that the connection was not opened would be known a millisecond too late.
So the peer is not asked again, and the gathering ends. -/
theorem an_unopened_connection_counts_as_no_answer :
    tight.validate = .ok tightPeer ∧ ¬ late.Opened 4999 ∧ late.written 4999 transaction = [] ∧
    (late.delivery 4999 5000 transaction).reply transaction.id = .noAnswer ∧
    silenced.quorum.unresponsive = [0] ∧
    tightPeer.sentinel.gatherer.run (tightPeer.sentinel.firstSummary transaction)
        [.drew [0], .replied (late.delivery 4999 5000 transaction), .drew []] =
      some (.ended .unreachable) ∧
    ¬∀ (s : Settings) (c : Configuration) (t : Transaction) (handover : Nat) (conduct : Conduct),
      s.validate = .ok c → ¬ conduct.opening.OpensWithin c.connectTimeout.toNat →
      (conduct.delivery handover c.connectTimeout.toNat c.sentinel.gatherer.peerTimeout t).reply
        t.id = .notDispatched := by
  have hvalid : tight.validate = .ok tightPeer :=
    Settings.validate_of_connectTimeout_lt validate_keyed (by decide)
  have hcloses : ¬ Opening.pending.OpensWithin 4999 := by simp [Opening.OpensWithin]
  refine ⟨hvalid, ?_, rfl, rfl, rfl, (Gatherer.run_append_singleton _).2 ⟨_, run_late,
    after_silenced⟩, fun hall => ?_⟩
  · rintro ⟨c, hc, hopens⟩
    cases hc
    exact hcloses hopens
  · have hreply := hall tight tightPeer transaction 2 ⟨.pending, []⟩ hvalid hcloses
    cases hreply

end Sample

end Admission
