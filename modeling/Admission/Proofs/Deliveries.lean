-- What a request to attest comes to if nothing goes wrong on the way. A valid
-- transaction that fits a frame is read by the peer as it was written, and so
-- is the attestation that comes back.
import Admission.Proofs.HonestPeers
import Admission.Proofs.Lengths
import Admission.Proofs.Rules

namespace Admission

/-! ## Attestations fit -/

namespace Wire

variable [Crypto]

/-- An attestation always fits a frame. -/
theorem exists_send_given (a : Attestation) :
    ∃ bytes, send response (.validated (some a)) = some bytes := by
  have hwrite : response.write (.validated (some a)) = 1 :: 1 :: attestation.write a := rfl
  have hlength : (response.write (.validated (some a))).length ≤ frameLimit := by
    rw [hwrite, List.length_cons, List.length_cons, length_write_attestation]
    decide
  exact ⟨_, if_neg (Nat.not_lt.2 hlength)⟩

end Wire

/-! ## What can be sent -/

section
variable [Crypto]

/-- The lists of a transaction are no longer than the request that carries it. -/
theorem Transaction.lengths_le (t : Transaction) :
    t.inputs.length ≤ (Wire.request.write (.validate t)).length ∧
      t.outputs.length ≤ (Wire.request.write (.validate t)).length ∧
      t.witnesses.length ≤ (Wire.request.write (.validate t)).length := by
  have hlength := Wire.le_length_write_request (.validate t)
  simp only [Request.transaction] at hlength
  omega

variable [StrictCrypto] {t : Transaction}

/-- The witnesses of a valid transaction verify, so they can be sent. -/
theorem Transaction.sendable_witnesses (hvalid : t.violation = none) :
    ∀ w ∈ t.witnesses, w.Sendable := by
  intro w hw
  have hkept := Transaction.violation_eq_none_iff.1 hvalid
  have hcount : t.witnesses.length = t.inputs.length := hkept .witnessForEach
  obtain ⟨index, hindex, rfl⟩ := List.mem_iff_getElem.1 hw
  have hunlocks := hkept .unlocked index (t.inputs[index]) (t.witnesses[index])
    (List.getElem?_eq_getElem (hcount ▸ hindex)) (List.getElem?_eq_getElem hindex)
  rw [Witness.unlocks, Bool.and_eq_true] at hunlocks
  exact StrictCrypto.of_verify hunlocks.2

/-- A valid transaction that fits a frame can be sent. -/
theorem Transaction.sendable_of_valid (hvalid : t.violation = none)
    (hfits : (Wire.send Wire.request (.validate t)).isSome = true) : t.Sendable := by
  have hlength : (Wire.request.write (.validate t)).length ≤ Wire.frameLimit := by
    rw [Wire.send, Wire.frame] at hfits
    split at hfits
    · cases hfits
    · rename_i hlimit
      exact Nat.not_lt.1 hlimit
  have hlimit : Wire.frameLimit < wireLimit := by decide
  obtain ⟨hinputs, houtputs, hwitnesses⟩ := t.lengths_le
  exact ⟨by omega, by omega, by omega, sendable_witnesses hvalid⟩

end

/-! ## A peer that is reached -/

theorem OtherEnd.exchange_of_opens {o : OtherEnd} {α β : Type} {f : Format α} {g : Format β}
    {request : α} {after limit : Nat} {bytes : List UInt8} (hopens : o.opening = .opens after)
    (hafter : after < limit) (hroom : o.room = none) (hsend : Wire.send f request = some bytes) :
    o.exchange limit f g request = ⟨bytes, o.firstReceived g, after + o.delay⟩ := by
  have hmin : min after limit = after := Nat.min_eq_left (Nat.le_of_lt hafter)
  simp [exchange, Opening.within, hopens, hafter, hroom, hsend, hmin]

section
variable [Crypto]

/-- Behind a connection is this sentinel, and it is reached in time: the request arrives as it was
written, in pieces of any size, and what the server of the sentinel writes then comes back. -/
structure OtherEnd.Reaches (o : OtherEnd) (s : Sentinel)
    (handover connectTimeout peerTimeout : Nat) (t : Transaction) : Prop where
  opens : ∃ after < connectTimeout, o.opening = .opens after ∧
    handover + (after + o.delay) < peerTimeout
  takesAll : o.room = none
  answers : ∃ (verdict : Transaction → Option Verdict) (pieces : List (List UInt8)),
    pieces.flatten = (o.call connectTimeout (.validate t)).written ∧
      o.answer.flatten = Server.serve (m := Id) (Request.answer s verdict) pieces

/-- Where the bytes of requests are cut does not matter to a server. -/
theorem Server.requests_flatten (pieces : List (List UInt8)) :
    Server.requests pieces = Server.requests [pieces.flatten] := by
  simp only [Server.requests, Wire.Inbox.ofStream_eq, List.flatten_singleton]

namespace OtherEnd

variable {o : OtherEnd} {s : Sentinel} {t : Transaction} {pair : Keypair}

/-- A valid transaction is attested by a peer that is reached, if its attestation can be sent. -/
theorem Reaches.delivery {handover connectTimeout peerTimeout : Nat}
    (h : o.Reaches s handover connectTimeout peerTimeout t) (hpair : s.keypair = some pair)
    (hvalid : t.violation = none) (ht : t.Sendable)
    (hfits : (Wire.send Wire.request (.validate t)).isSome = true)
    (ha : (Attestation.ofKeypair pair t.id).Sendable) :
    o.delivery handover connectTimeout peerTimeout t =
      .answered (.attestation (.ofKeypair pair t.id)) := by
  obtain ⟨after, hafter, hopens, hdelay⟩ := h.opens
  obtain ⟨verdict, pieces, hpieces, hanswer⟩ := h.answers
  obtain ⟨request, hrequest⟩ := Option.isSome_iff_exists.1 hfits
  obtain ⟨response, hresponse⟩ := Wire.exists_send_given (Attestation.ofKeypair pair t.id)
  have hcall : o.call connectTimeout (.validate t) =
      ⟨request, o.firstReceived Wire.response, after + o.delay⟩ :=
    exchange_of_opens hopens hafter h.takesAll hrequest
  have hrequests : Server.requests pieces = [.validate t] := by
    rw [Server.requests_flatten, hpieces, hcall]
    exact Server.requests_of_send (r := .validate t) ht hrequest
  have hgives : Request.answer s verdict (.validate t) =
      .validated (some (.ofKeypair pair t.id)) := by
    rw [Request.answer, Sentinel.validate_of_keypair hvalid hpair]
  have hflatten : o.answer.flatten = response := by
    rw [hanswer, serve_of_requests hrequests, hgives]
    simp [Wire.sendAll, hresponse]
  have hfirst : o.firstReceived Wire.response =
      .message (.validated (some (.ofKeypair pair t.id))) := by
    refine firstReceived_of_send Wire.response_readsBack ?_ (hflatten ▸ hresponse)
    intro a hgiven
    cases hgiven
    exact ha
  rw [OtherEnd.delivery, hcall, hfirst]
  simp [Exchange.delivery, Received.acknowledgement, Received.response, hdelay,
    PeerAnswer.ofAcknowledgement]

end OtherEnd

end

end Admission
