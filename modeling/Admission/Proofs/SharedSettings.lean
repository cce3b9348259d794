-- One list of settings for a whole fleet, in which each sentinel goes by a number
-- of its own. Whoever starts with it sees the same sentinels as the others, and
-- the coordinators get their equal share of them.
import Admission.Proofs.Demands
import Admission.Proofs.HonestPeers
import Mathlib.Algebra.Order.Floor.Div
import Mathlib.Data.Int.CardIntervalMod
import Mathlib.GroupTheory.GroupAction.Ring

namespace Admission

namespace Settings

/-- The same settings for the sentinel with this number. -/
def numbered (s : Settings) (id : UInt32) : Settings := { s with sentinelId := id }

/-! ## Addresses -/

variable {s : Settings} {addresses : List Endpoint}

/-- Where no address is repeated, all but the own one are left. -/
theorem length_filter_ne {own : Endpoint} (hnodup : addresses.Nodup) (hown : own ∈ addresses) :
    (addresses.filter (· ≠ own)).length = addresses.length - 1 := by
  have herase : addresses.erase own = addresses.filter (· ≠ own) := by
    rw [hnodup.erase_eq_filter]
    simp only [bne, beq_eq_decide, ne_eq, decide_not]
  rw [← herase, List.length_erase_of_mem hown]

theorem length_otherAddresses
    (haddresses : s.sentinelEndpoints.map Endpoint.ofText? = addresses.map some)
    (hnodup : addresses.Nodup) (hplace : s.sentinelId.toNat < s.sentinelEndpoints.length) :
    s.otherAddresses.length + 1 = addresses.length := by
  have hlength := congrArg List.length haddresses
  rw [List.length_map, List.length_map] at hlength
  have hplace' : s.sentinelId.toNat < addresses.length := by rwa [← hlength]
  have hown : s.ownAddress? = some addresses[s.sentinelId.toNat] := by
    rw [ownAddress?, bind_ofText?_eq_getElem? haddresses, List.getElem?_eq_getElem hplace']
  have hothers := length_filter_ne hnodup (List.getElem_mem hplace')
  rw [otherAddresses, addresses_eq haddresses, hown]
  simp only [ne_eq, Option.some.injEq] at hothers ⊢
  rw [hothers]
  omega

end Settings

/-! ## Shares -/

/-- Whoever is dealt to in turn gets a fair share, rounded down or up. -/
theorem countP_mod_range (n : Nat) {count k : Nat} (hk : k < count) :
    (List.range n).countP (· % count = k) = n / count ∨
      (List.range n).countP (· % count = k) = n ⌈/⌉ count := by
  have hpositive := Nat.zero_lt_of_lt hk
  have hshare : (List.range n).countP (· % count = k) =
      n / count + if k < n % count then 1 else 0 := by
    have hcount := Nat.count_modEq_card n hpositive k
    simp only [Nat.ModEq, Nat.mod_eq_of_lt hk, Nat.count_eq_card_filter_range] at hcount
    rw [← hcount, List.countP_eq_length_filter]
    rfl
  rw [hshare]
  split
  · -- What is left after the full rounds goes to the first ones.
    rename_i hrest
    right
    have hdiv := Nat.div_add_mod n count
    have hmod := Nat.mod_lt n hpositive
    rw [Nat.ceilDiv_eq_add_pred_div]
    symm
    apply Nat.div_eq_of_lt_le
    · rw [Nat.succ_mul, Nat.mul_comm]
      omega
    · rw [Nat.succ_mul, Nat.succ_mul, Nat.mul_comm]
      omega
  · exact Or.inl rfl

/-- The sentinels of a whole fleet are dealt out to the coordinators in turn. -/
theorem Settings.countP_coordinatorPosition {s : Settings} {ids : List UInt32} {n k : Nat}
    (hids : ids.map UInt32.toNat = List.range n) (hk : k < s.coordinatorEndpoints.length) :
    (ids.countP fun id => (s.numbered id).coordinatorPosition = k) =
        n / s.coordinatorEndpoints.length ∨
      (ids.countP fun id => (s.numbered id).coordinatorPosition = k) =
        n ⌈/⌉ s.coordinatorEndpoints.length := by
  have hshare : (ids.countP fun id => (s.numbered id).coordinatorPosition = k) =
      (List.range n).countP (· % s.coordinatorEndpoints.length = k) := by
    rw [← hids, List.countP_map]
    rfl
  rw [hshare]
  exact countP_mod_range n hk

section
variable [Crypto]

/-! ## The fleet that a sentinel sees -/

namespace Settings

variable {s t : Settings} {addresses : List Endpoint} {c other : Configuration}

/-- A sentinel is a peer of another one if it listens elsewhere. -/
theorem ResolvesTo.listener_mem_peers_iff (h : s.ResolvesTo c) (hother : t.ResolvesTo other)
    (haddresses : s.sentinelEndpoints.map Endpoint.ofText? = addresses.map some)
    (haddresses' : t.sentinelEndpoints.map Endpoint.ofText? = addresses.map some) :
    other.listener ∈ c.peers ↔ c.listener ≠ other.listener := by
  have hmem : other.listener ∈ addresses :=
    List.mem_of_getElem? (hother.getElem?_eq_listener haddresses')
  rw [h.peers_eq haddresses, List.mem_filter, decide_eq_true_iff, ne_comm]
  exact and_iff_right hmem

theorem length_peers_of_validate (h : s.validate = .ok c)
    (haddresses : s.sentinelEndpoints.map Endpoint.ofText? = addresses.map some)
    (hnodup : addresses.Nodup) : c.peers.length + 1 = addresses.length := by
  obtain ⟨hmet, hresolves⟩ := validate_eq_ok_iff_resolvesTo.1 h
  rw [hresolves.peers_eq_otherAddresses]
  exact length_otherAddresses haddresses hnodup (hmet .ownPlace)

/-- Where no address is repeated, there are enough sentinels for each of them, or for none. -/
theorem exists_validate_eq_ok_of_enough
    (haddresses : s.sentinelEndpoints.map Endpoint.ofText? = addresses.map some)
    (hnodup : addresses.Nodup) (henough : s.threshold.toNat ≤ addresses.length)
    (hmet : ∀ d : Demand, d ≠ .enoughSentinels → d.MetBy s) : ∃ c, s.validate = .ok c := by
  have hothers := length_otherAddresses haddresses hnodup (hmet .ownPlace (by decide))
  refine exists_validate_eq_ok_iff.2 fun d => ?_
  by_cases hd : d = .enoughSentinels
  · rw [hd]
    exact Or.inr (hothers ▸ henough)
  · exact hmet d hd

theorem validate_eq_error_of_few
    (haddresses : s.sentinelEndpoints.map Endpoint.ofText? = addresses.map some)
    (hnodup : addresses.Nodup) (hfew : addresses.length < s.threshold.toNat)
    (hmet : ∀ d : Demand, d ≠ .enoughSentinels → d.MetBy s) :
    s.validate = .error (.insufficientPeers s.threshold.toNat addresses.length) := by
  have hothers := length_otherAddresses haddresses hnodup (hmet .ownPlace (by decide))
  refine validate_eq_error_iff.2 ⟨.enoughSentinels, ⟨?_, ?_⟩, by rw [Demand.fault, hothers]⟩
  · rintro (hzero | henough)
    · rw [hzero] at hfew
      exact Nat.not_lt_zero _ hfew
    · exact Nat.not_le.2 hfew (hothers ▸ henough)
  · intro earlier hearlier
    refine hmet earlier fun heq => ?_
    rw [heq] at hearlier
    exact Nat.lt_irrefl _ hearlier

end Settings

/-- Sentinels that are started from one list see one fleet. Each of them is at the address that the
list has for it, and two of them are peers of each other or neither is, depending on whether they
are at different addresses. If no address is repeated, all of them have the same number of peers, so
the threshold is too high for all of them or for none. The coordinators get equal shares of the
sentinels, as far as the numbers allow. -/
theorem sentinels_of_one_list_see_one_fleet {s : Settings} {addresses coordinators : List Endpoint}
    (haddresses : s.sentinelEndpoints.map Endpoint.ofText? = addresses.map some)
    (hcoordinators : s.coordinatorEndpoints.map Endpoint.ofText? = coordinators.map some) :
    (∀ i j a b, (s.numbered i).validate = .ok a → (s.numbered j).validate = .ok b →
      addresses[i.toNat]? = some a.listener ∧ addresses[j.toNat]? = some b.listener ∧
        (b.listener ∈ a.peers ↔ a.listener ≠ b.listener) ∧
        (a.listener ≠ b.listener ↔ a.listener ∈ b.peers)) ∧
      (addresses.Nodup →
        (∀ i a, (s.numbered i).validate = .ok a → a.peers.length + 1 = addresses.length) ∧
        let Passing := fun i => ∀ d : Demand, d ≠ .enoughSentinels → d.MetBy (s.numbered i)
        (s.threshold.toNat ≤ addresses.length ∧
            ∀ i, Passing i → ∃ a, (s.numbered i).validate = .ok a) ∨
          (addresses.length < s.threshold.toNat ∧ ∀ i, Passing i →
            (s.numbered i).validate =
              .error (.insufficientPeers s.threshold.toNat addresses.length))) ∧
      (∀ i a, (s.numbered i).validate = .ok a →
        coordinators[(s.numbered i).coordinatorPosition]? = some a.coordinator) ∧
      ∀ ids : List UInt32, ids.map UInt32.toNat = List.range addresses.length →
        ∀ k < coordinators.length,
          let share := ids.countP fun id => (s.numbered id).coordinatorPosition = k
          share = addresses.length / coordinators.length ∨
            share = addresses.length ⌈/⌉ coordinators.length := by
  refine ⟨?_, ?_, ?_, ?_⟩
  · intro i j a b ha hb
    have ha := (Settings.validate_eq_ok_iff_resolvesTo.1 ha).2
    have hb := (Settings.validate_eq_ok_iff_resolvesTo.1 hb).2
    exact ⟨ha.getElem?_eq_listener haddresses, hb.getElem?_eq_listener haddresses,
      ha.listener_mem_peers_iff hb haddresses haddresses,
      ne_comm.trans (hb.listener_mem_peers_iff ha haddresses haddresses).symm⟩
  · intro hnodup
    refine ⟨?_, ?_⟩
    · intro i a ha
      exact Settings.length_peers_of_validate ha haddresses hnodup
    · rcases Nat.lt_or_ge addresses.length s.threshold.toNat with hfew | henough
      · exact Or.inr ⟨hfew, fun _ => Settings.validate_eq_error_of_few haddresses hnodup hfew⟩
      · exact Or.inl ⟨henough, fun _ =>
          Settings.exists_validate_eq_ok_of_enough haddresses hnodup henough⟩
  · intro i a ha
    rw [← Settings.bind_ofText?_eq_getElem? hcoordinators]
    exact (Settings.validate_eq_ok_iff_resolvesTo.1 ha).2.coordinator
  · intro ids hids k hk
    have hlength : s.coordinatorEndpoints.length = coordinators.length := by
      have hlength := congrArg List.length hcoordinators
      rwa [List.length_map, List.length_map] at hlength
    rw [← hlength] at hk ⊢
    exact Settings.countP_coordinatorPosition hids hk

end

namespace Sample

attribute [local instance] standardCrypto

/-- Three sentinels share two coordinators. -/
def three : Settings :=
  Settings.basic 0 ["127.0.0.1:20000", "127.0.0.1:20001", "127.0.0.1:20002"]
    ["127.0.0.1:30000", "127.0.0.1:30001"]

def places : List Endpoint := [20000, 20001, 20002].map localhost

def coordinatorPlaces : List Endpoint := [30000, 30001].map localhost

theorem exists_validate_three (id : UInt32) (hid : id.toNat < 3) :
    ∃ c, (three.numbered id).validate = .ok c := by
  have hsentinels : ∀ text ∈ three.sentinelEndpoints, (Endpoint.ofText? text).isSome := by
    decide +kernel
  have hcoordinators : ∀ position < 2,
      (three.coordinatorEndpoints[position]?.bind Endpoint.ofText?).isSome := by
    decide +kernel
  have hposition : (three.numbered id).coordinatorPosition < 2 :=
    Nat.mod_lt _ (by decide : 0 < 2)
  refine Settings.exists_validate_eq_ok_iff.2 fun d => ?_
  cases d
  case someSentinels => exact List.cons_ne_nil _ _
  case ownPlace => exact hid
  case someCoordinators => exact List.cons_ne_nil _ _
  case promptOpening => exact (by decide : (1000 : UInt64) < 5000)
  case readableSentinels => exact fun text htext => Option.isSome_iff_exists.1 (hsentinels text htext)
  case readableCoordinator => exact Option.isSome_iff_exists.1 (hcoordinators _ hposition)
  case readableSecret => exact fun text htext => by cases htext
  case secretForThreshold => exact Or.inl rfl
  case enoughSentinels => exact Or.inl rfl

/-- The third sentinel knows the other two and goes to the coordinator of the first, which has as
many sentinels as three halves rounded up or down. -/
theorem three_sentinels_see_one_fleet :
    three.sentinelEndpoints.map Endpoint.ofText? = places.map some ∧
      three.coordinatorEndpoints.map Endpoint.ofText? = coordinatorPlaces.map some ∧
      places.Nodup ∧ [0, 1, 2].map UInt32.toNat = List.range places.length ∧
      ∃ a b, (three.numbered 0).validate = .ok a ∧ (three.numbered 2).validate = .ok b ∧
        b.listener ∈ a.peers ∧ a.listener ∈ b.peers ∧ a.peers.length = 2 ∧
        b.coordinator = localhost 30000 ∧
        let share := [0, 1, 2].countP fun id => (three.numbered id).coordinatorPosition = 0
        share = 3 / 2 ∨ share = 3 ⌈/⌉ 2 := by
  have haddresses : three.sentinelEndpoints.map Endpoint.ofText? = places.map some := by
    decide +kernel
  have hcoordinators :
      three.coordinatorEndpoints.map Endpoint.ofText? = coordinatorPlaces.map some := by
    decide +kernel
  have hnodup : places.Nodup := by decide +kernel
  have hids : [0, 1, 2].map UInt32.toNat = List.range places.length := by decide
  obtain ⟨a, ha⟩ := exists_validate_three 0 (by decide)
  obtain ⟨b, hb⟩ := exists_validate_three 2 (by decide)
  obtain ⟨hsee, hcount, hcoordinator, hshare⟩ :=
    sentinels_of_one_list_see_one_fleet haddresses hcoordinators
  obtain ⟨hfirst, hthird, hpeer, hpeer'⟩ := hsee 0 2 a b ha hb
  have hplaces : places[0]? ≠ places[2]? := by decide +kernel
  have hdiffer : a.listener ≠ b.listener := by
    intro h
    exact hplaces (hfirst.trans (h ▸ hthird.symm))
  refine ⟨haddresses, hcoordinators, hnodup, hids, a, b, ha, hb, hpeer.2 hdiffer, hpeer'.1 hdiffer,
    Nat.succ.inj ((hcount hnodup).1 0 a ha), ?_, hshare [0, 1, 2] hids 0 (by decide)⟩
  exact (Option.some.inj (hcoordinator 2 b hb)).symm

end Sample

end Admission
