-- What a sentinel that goes by these rules answers when another one asks it to
-- attest, and what the other one makes of it. Having no key is told like finding
-- the transaction invalid, so what follows holds of peers that have one.
import Admission.Client
import Admission.Proofs.Configuration
import Admission.Proofs.Verdicts
import Admission.Server
import Admission.Wire.ReadBack

namespace Admission

/-! ## Exchanges -/

/-- The message that a reader gets first is one of those that the bytes hold. -/
theorem OtherEnd.mem_of_firstReceived {o : OtherEnd} {α : Type} {f : Format α} {a : α}
    (h : o.firstReceived f = .message a) :
    a ∈ (Wire.Inbox.ofBytes f o.answer.flatten).messages := by
  rw [← Wire.Inbox.foldl_receive]
  simp only [OtherEnd.firstReceived] at h
  split at h
  · rename_i b rest _ _ hmessages
    cases h
    rw [hmessages]
    exact List.mem_cons_self
  · cases h
  · split at h <;> cases h
  · cases h
  · cases h

/-- The message that was sent alone is the one that is read first. -/
theorem OtherEnd.firstReceived_of_send {o : OtherEnd} {α : Type} {f : Format α} {P : α → Prop}
    (hf : f.ReadsBack P) {a : α} (ha : P a) (hsend : Wire.send f a = some o.answer.flatten) :
    o.firstReceived f = .message a := by
  have hmessages := Wire.Inbox.messages_of_frame (f := f) hsend
  rw [Format.readAll_write hf a ha] at hmessages
  simp only [firstReceived, Wire.Inbox.foldl_receive, hmessages]

theorem OtherEnd.firstReceived_of_exchange {o : OtherEnd} {α β : Type} {limit : Nat} {f : Format α}
    {g : Format β} {request : α} {a : β}
    (h : (o.exchange limit f g request).received = .message a) :
    o.firstReceived g = .message a := by
  simp only [OtherEnd.exchange] at h
  split at h
  · cases h
  · split at h
    · cases h
    · split at h
      · cases h
      · exact h

theorem Received.eq_of_acknowledgement {r : Received Response}
    (h : r.acknowledgement = some (.ok none)) : r = .message (.validated none) := by
  cases r with
  | message response =>
    cases response with
    | validated attestation =>
      cases attestation with
      | none => rfl
      | some a => cases h
    | executed verdict | unavailable => cases h
  | unopened | unwritten | faulty _ | ended | broken | nothing => cases h

theorem PeerAnswer.eq_of_ofAcknowledgement {a : Except CallError (Option Attestation)}
    (h : PeerAnswer.ofAcknowledgement a = .invalid) : a = .ok none := by
  rcases a with e | _ | a
  · cases e <;> cases h
  · rfl
  · cases h

section
variable [Crypto]

/-! ## Answers on the wire -/

namespace Wire

/-- An attestation that is given is never read as none. -/
theorem response_read_given (bytes : List UInt8) :
    response.read (1 :: 1 :: bytes) =
      (attestation.read bytes).map fun p => (.validated (some p.1), p.2) := by
  show ((attestation.read bytes).map fun (a, rest) => (some a, rest)).map _ = _
  cases attestation.read bytes <;> rfl

theorem response_readAll_given (a : Attestation) :
    response.readAll (response.write (.validated (some a))) ≠ .ok (.validated none) := by
  have hwrite : response.write (.validated (some a)) = 1 :: 1 :: attestation.write a := rfl
  rw [hwrite, Format.readAll, response_read_given]
  cases attestation.read (attestation.write a) with
  | error cause => simp [Except.map]
  | ok p =>
    simp only [Except.map]
    split <;> simp

theorem response_readAll_unavailable :
    response.readAll (response.write .unavailable) = .ok .unavailable := rfl

end Wire

/-- A request that was sent is the one that a server gets. -/
theorem Server.requests_of_send {r : Request} {bytes : List UInt8} (hr : r.transaction.Sendable)
    (h : Wire.send Wire.request r = some bytes) : Server.requests [bytes] = [r] := by
  have hmessages := Wire.Inbox.messages_of_frame (f := Wire.request) h
  rw [Format.readAll_write Wire.request_readsBack r hr] at hmessages
  rw [Server.requests, Wire.Inbox.ofStream_eq, List.flatten_singleton, Wire.Inbox.messages_close,
    hmessages]

/-- Behind a connection is this sentinel: it was asked to attest the transaction, and what came
back is a beginning of what its server writes then. -/
def OtherEnd.IsSentinel (o : OtherEnd) (s : Sentinel) (t : Transaction) : Prop :=
  ∃ (pieces : List (List UInt8)) (answer : Request → Response),
    ((∃ verdict, answer = Request.answer s verdict) ∨ answer = Server.idle) ∧
      Server.requests pieces = [.validate t] ∧
      o.answer.flatten <+: Server.serve (m := Id) answer pieces

namespace OtherEnd

variable {o : OtherEnd} {s : Sentinel} {t : Transaction}

theorem serve_of_requests {answer : Request → Response} {pieces : List (List UInt8)} {r : Request}
    (h : Server.requests pieces = [r]) :
    Server.serve (m := Id) answer pieces = Wire.sendAll Wire.response [answer r] := by
  simp [Server.serve, Server.responses, h, List.mapM_cons, pure, Bind.bind]

/-- A sentinel that has an attestation to give is not understood to have none. -/
theorem IsSentinel.not_refused (h : o.IsSentinel s t) (hgives : s.validate t ≠ none) :
    o.firstReceived Wire.response ≠ .message (.validated none) := by
  intro hfirst
  obtain ⟨pieces, answer, hanswer, hrequests, more, hmore⟩ := h
  have hmem := (Wire.Inbox.messages_grow Wire.response _ more).subset (mem_of_firstReceived hfirst)
  rw [hmore, serve_of_requests hrequests] at hmem
  simp only [Wire.sendAll] at hmem
  split at hmem
  · rw [Wire.Inbox.ofBytes_nil] at hmem
    cases hmem
  · rename_i bytes hsend
    rw [List.append_nil, Wire.Inbox.messages_of_frame hsend] at hmem
    have hread : Wire.response.readAll (Wire.response.write (answer (.validate t))) =
        .ok (.validated none) := by
      split at hmem
      · rename_i r hread
        rw [hread, List.mem_singleton.1 hmem]
      · cases hmem
    rcases hanswer with ⟨verdict, rfl⟩ | rfl
    · simp only [Request.answer] at hread
      cases hvalidate : s.validate t with
      | none => exact hgives hvalidate
      | some a =>
        rw [hvalidate] at hread
        exact Wire.response_readAll_given a hread
    · rw [Server.idle, Wire.response_readAll_unavailable] at hread
      cases hread

/-- A sentinel that is reached in time brings its attestation. -/
theorem exists_isSentinel {a : Attestation} (handover connectTimeout peerTimeout : Nat)
    (ht : t.Sendable)
    (ha : a.Sendable) (hgives : s.validate t = some a)
    (hrequest : (Wire.send Wire.request (.validate t)).isSome = true)
    (hresponse : (Wire.send Wire.response (.validated (some a))).isSome = true)
    (hconnect : 0 < connectTimeout) (hpeer : handover < peerTimeout) :
    ∃ o : OtherEnd, o.IsSentinel s t ∧
      o.delivery handover connectTimeout peerTimeout t = .answered (.attestation a) := by
  obtain ⟨request, hrequest⟩ := Option.isSome_iff_exists.1 hrequest
  obtain ⟨response, hresponse⟩ := Option.isSome_iff_exists.1 hresponse
  refine ⟨⟨.opens 0, none, [response], .closed, 0⟩, ?_, ?_⟩
  · refine ⟨[request], Request.answer s fun _ => none, Or.inl ⟨_, rfl⟩,
      Server.requests_of_send (r := .validate t) ht hrequest, ?_⟩
    rw [serve_of_requests (Server.requests_of_send (r := .validate t) ht hrequest)]
    simp [Wire.sendAll, Request.answer, hgives, hresponse]
  · have hfirst : firstReceived ⟨.opens 0, none, [response], .closed, 0⟩ Wire.response =
        .message (.validated (some a)) := by
      refine firstReceived_of_send Wire.response_readsBack ?_ ?_
      · exact fun b hb => Option.some.inj hb ▸ ha
      · rw [hresponse, List.flatten_singleton]
    simp [delivery, call, exchange, Exchange.delivery, Opening.within, hconnect, hrequest, hfirst,
      hpeer, Received.acknowledgement, Received.response, PeerAnswer.ofAcknowledgement]

theorem IsSentinel.not_invalid (h : o.IsSentinel s t) (hgives : s.validate t ≠ none)
    (handover connectTimeout peerTimeout : Nat) :
    o.delivery handover connectTimeout peerTimeout t ≠ .answered .invalid := by
  intro hinvalid
  simp only [delivery, Exchange.delivery] at hinvalid
  split at hinvalid
  · cases hinvalid
  · rename_i answer hanswer
    split at hinvalid
    · have hnone := PeerAnswer.eq_of_ofAcknowledgement (Delivery.answered.inj hinvalid)
      rw [hnone] at hanswer
      have hreceived := Received.eq_of_acknowledgement hanswer
      exact h.not_refused hgives (firstReceived_of_exchange hreceived)
    · cases hinvalid

end OtherEnd

/-! ## Sentinels with a key -/

namespace Sentinel

variable {s : Sentinel} {t : Transaction}

theorem validate_of_keypair {pair : Keypair} (hvalid : t.violation = none)
    (hpair : s.keypair = some pair) : s.validate t = some (.ofKeypair pair t.id) := by
  simp only [validate, hvalid, hpair]
  rfl

theorem validate_of_no_keypair (hpair : s.keypair = none) : s.validate t = none := by
  simp only [validate, hpair]
  split <;> rfl

end Sentinel

/-- What a request to attest comes to among sentinels with a key: it is not delivered at all, or a
sentinel with accepted settings and a key is at the other end. -/
def Delivery.AmongKeyed (d : Delivery) (t : Transaction) : Prop :=
  d = .undelivered ∨
    ∃ (settings : Settings) (c : Configuration) (o : OtherEnd)
      (handover connectTimeout peerTimeout : Nat),
      settings.validate = .ok c ∧ c.keypair ≠ none ∧ o.IsSentinel c.sentinel t ∧
        d = o.delivery handover connectTimeout peerTimeout t

theorem Delivery.AmongKeyed.not_invalid {d : Delivery} {t : Transaction} (h : d.AmongKeyed t)
    (hvalid : t.violation = none) : d ≠ .answered .invalid := by
  rcases h with rfl |
    ⟨settings, c, o, handover, connectTimeout, peerTimeout, _, hkey, hsentinel, rfl⟩
  · simp
  · obtain ⟨pair, hpair⟩ := Option.ne_none_iff_exists'.1 hkey
    refine hsentinel.not_invalid ?_ handover connectTimeout peerTimeout
    rw [Sentinel.validate_of_keypair hvalid hpair]
    simp

/-! ## Honest peers -/

/-- A sentinel with accepted settings attests every valid transaction if it has a key, and is never
taken to find it invalid. Without a key, which it can only lack where it requires no attestations
itself, it is. So among sentinels with a key a valid transaction is rejected by the coordinator
alone. -/
theorem only_the_coordinator_rejects_among_sentinels_with_a_key (t : Transaction)
    (hvalid : t.violation = none) :
    (∀ (settings : Settings) (c : Configuration), settings.validate = .ok c →
      (∀ pair, c.keypair = some pair → c.sentinel.validate t = some (.ofKeypair pair t.id) ∧
        ∀ (o : OtherEnd) (handover connectTimeout peerTimeout : Nat),
          o.IsSentinel c.sentinel t →
            o.delivery handover connectTimeout peerTimeout t ≠ .answered .invalid) ∧
      (c.keypair = none → c.threshold = 0 ∧ c.sentinel.validate t = none ∧
        PeerAnswer.ofAcknowledgement (.ok (c.sentinel.validate t)) = .invalid)) ∧
      ∀ (s : Sentinel) (hs : List Happening), (∀ r ∈ s.replies t hs, r.2.AmongKeyed t) →
        s.run t hs = some (.answered (some .stateInvalid)) →
          .accepted ∈ hs ∧ .concluded (some false) ∈ hs := by
  constructor
  · intro settings c hc
    constructor
    · intro pair hpair
      have hattests : c.sentinel.validate t = some (.ofKeypair pair t.id) :=
        Sentinel.validate_of_keypair hvalid hpair
      refine ⟨hattests, fun o handover connectTimeout peerTimeout hsentinel => ?_⟩
      exact hsentinel.not_invalid (by simp [hattests]) handover connectTimeout peerTimeout
    · intro hnone
      have hgives : c.sentinel.validate t = none := Sentinel.validate_of_no_keypair hnone
      refine ⟨Settings.threshold_eq_zero_of_no_key hc hnone, hgives, ?_⟩
      rw [hgives]
      rfl
  · intro s hs hhonest hrun
    rcases (Sentinel.ends_of_run hrun).stateInvalid_iff.1 rfl with ⟨peer, hpeer⟩ | hrejected
    · exact absurd rfl ((hhonest _ hpeer).not_invalid hvalid)
    · exact hrejected

end

namespace Sample

local instance : Crypto := standardCrypto

def keyless : Settings := .basic 0 ["127.0.0.1:20000"] ["127.0.0.1:30000"]

/-- Having no key is told like finding the transaction invalid, so a single peer without one gets
a valid transaction rejected. -/
theorem a_peer_without_a_key_rejects_a_valid_transaction :
    transaction.violation = none ∧ ∃ c, keyless.validate = .ok c ∧
      PeerAnswer.ofAcknowledgement (.ok (c.sentinel.validate transaction)) = .invalid ∧
      (sentinel 2).run transaction
        [.drew [0],
          .replied (.answered (.ofAcknowledgement (.ok (c.sentinel.validate transaction))))] =
        some (.answered (some .stateInvalid)) := by
  refine ⟨violation_transaction, _, rfl, ?_⟩
  rw [Sentinel.validate_of_no_keypair rfl]
  refine ⟨rfl, ?_⟩
  have hgathering : (sentinel 2).gatherer.run ((sentinel 2).firstSummary transaction)
      [.drew [0], .replied (.answered .invalid)] = some (.ended (.invalidated 0)) := by
    rw [firstSummary_sentinel (by decide)]
    refine Run.reach_cons (Gathering.after_drew_ask 0 (by decide +kernel)) ?_
    exact Run.reach_cons (Gathering.after_replied rfl) rfl
  exact Sentinel.run_of_gathering violation_transaction hgathering

/-- Settings of the second of two sentinels, with the key of the sample. -/
def keyed : Settings :=
  { Settings.basic 1 ["127.0.0.1:20000", "127.0.0.1:20001"] ["127.0.0.1:30000"] with
    privateKeys := [("1", "9d61b19deffd5a60ba844af492ec2cc44449c5697b326919703bac031cae7f60")]
    threshold := 2 }

def localhost (port : UInt16) : Endpoint := .v4 #v[127, 0, 0, 1] port

def keyedPeer : Configuration :=
  keyed.configure [localhost 20000, localhost 20001] (localhost 30000) (some pair)

theorem validate_keyed : keyed.validate = .ok keyedPeer := by
  have hsecret : Secret.ofText "9d61b19deffd5a60ba844af492ec2cc44449c5697b326919703bac031cae7f60" =
      .ok secret := by decide +kernel
  have hpair : Keypair.ofSecret secret = pair := by
    simp [pair, Keypair.ofSecret, publicKey_secret]
  have hlookup : keyed.privateKeys.lookup (toString keyed.sentinelId.toNat) =
      some "9d61b19deffd5a60ba844af492ec2cc44449c5697b326919703bac031cae7f60" := by decide +kernel
  have hown : keyed.ownKeypair = .ok (some pair) := by
    simp only [Settings.ownKeypair, hlookup, Keypair.ofText, hsecret, Except.map, hpair]
  exact Settings.validate_eq_ok_iff.2 ⟨by decide +kernel, _, _, _, by decide +kernel,
    by decide +kernel, hown, by decide +kernel, rfl⟩

theorem validate_keyedPeer : keyedPeer.sentinel.validate transaction = some attestation := by
  rw [Sentinel.validate_of_keypair violation_transaction rfl, id_transaction, ofKeypair_pair]

theorem sendable_transaction : transaction.Sendable := by
  refine ⟨by decide, by decide, by decide, ?_⟩
  intro w hw
  obtain rfl := List.mem_singleton.1 hw
  exact ⟨by decide +kernel, by decide +kernel⟩

theorem amongKeyed_attestation :
    (Delivery.answered (.attestation attestation)).AmongKeyed transaction := by
  have hsendable : attestation.Sendable :=
    sendable_transaction.2.2.2 ⟨key, signature⟩ (List.mem_singleton.2 rfl)
  obtain ⟨o, hsentinel, hdelivery⟩ := OtherEnd.exists_isSentinel 1 50 100 sendable_transaction
    hsendable validate_keyedPeer (by decide +kernel) (by decide +kernel) (by decide) (by decide)
  have hkey : keyedPeer.keypair ≠ none := by simp [keyedPeer, Settings.configure]
  exact Or.inr ⟨keyed, keyedPeer, o, 1, 50, 100, validate_keyed, hkey, hsentinel, hdelivery.symm⟩

def peerSecret : Secret :=
  string 32 0x4ccd089b28ff96da9db6c346ec114e0f5b8a319f35aba624da8cf6ed4fb8a6fb

theorem publicKey_peerSecret : peerKey = Crypto.publicKey peerSecret := by decide +kernel

/-- A sentinel with a key of its own that asks the one with the owner's key. -/
def asker : Sentinel := ⟨some ⟨peerSecret, peerKey, publicKey_peerSecret⟩, ⟨1, 2, 100, 20⟩, 20⟩

/-- The quorum is reached, and the coordinator does not commit. -/
def overruled : List Happening :=
  [.drew [0], .replied (.answered (.attestation attestation)), .drew []] ++
    [.accepted, .concluded (some false)]

theorem run_overruled :
    asker.run transaction overruled = some (.answered (some .stateInvalid)) := by
  have hfirst : asker.firstSummary transaction = (Summary.ofTransaction transaction).attest
      (.ofKeypair ⟨peerSecret, peerKey, publicKey_peerSecret⟩ transaction.id) :=
    Sentinel.firstSummary_of_keypair (by decide) rfl
  have hreply : (Delivery.answered (.attestation attestation)).reply
      (asker.firstSummary transaction).id = .attested attestation := by
    rw [(Sentinel.fields_firstSummary asker transaction).1, id_transaction]
    exact reply_attestation
  have hgathering : asker.gatherer.run (asker.firstSummary transaction)
      [.drew [0], .replied (.answered (.attestation attestation)), .drew []] =
        some (.ended (.reached ((asker.firstSummary transaction).attest attestation))) := by
    refine Run.reach_cons (Gathering.after_drew_ask 0 ?_) ?_
    · rw [hfirst]
      decide +kernel
    refine Run.reach_cons (Gathering.after_replied hreply) ?_
    refine Run.reach_cons (Gathering.after_drew_reached ?_) rfl
    rw [hfirst]
    decide +kernel
  have hsubmission : Submission.run ((asker.firstSummary transaction).attest attestation)
      [.accepted, .concluded (some false)] = some (.ended (some false)) := rfl
  exact Sentinel.run_of_submission violation_transaction hgathering hsubmission

theorem the_coordinator_overrules_two_sentinels :
    transaction.violation = none ∧ keyed.validate = .ok keyedPeer ∧
      keyedPeer.sentinel.validate transaction = some (.ofKeypair pair transaction.id) ∧
      (∀ r ∈ asker.replies transaction overruled, r.2.AmongKeyed transaction) ∧
      asker.run transaction overruled = some (.answered (some .stateInvalid)) ∧
      .accepted ∈ overruled ∧ .concluded (some false) ∈ overruled := by
  obtain ⟨hattests, hrejects⟩ :=
    only_the_coordinator_rejects_among_sentinels_with_a_key transaction violation_transaction
  have hhonest : ∀ r ∈ asker.replies transaction overruled, r.2.AmongKeyed transaction := by
    intro r hr
    have hreplied := Gatherer.replied_mem_of_mem_replies hr
    have hsame : r.2 = .answered (.attestation attestation) := by
      simpa [overruled] using hreplied
    rw [hsame]
    exact amongKeyed_attestation
  obtain ⟨hattested, _⟩ := (hattests keyed keyedPeer validate_keyed).1 pair rfl
  exact ⟨violation_transaction, validate_keyed, hattested, hhonest, run_overruled,
    hrejects asker overruled hhonest run_overruled⟩

end Sample

end Admission
