-- What is demanded of settings, in the order in which it is looked at. Settings
-- that meet all demands are resolved into one configuration, and of all others
-- the first demand that is not met is told.
import Admission.Crypto.Standard
import Admission.Proofs.InOrder
import Admission.Proofs.Secrets
import Mathlib.Data.List.GetD
import Mathlib.Tactic.Common

namespace Admission

/-! ## The demands -/

/-- What is demanded of settings. -/
inductive Demand where
  | someSentinels
  | ownPlace
  | someCoordinators
  /-- A peer is given longer to answer than to accept a connection. -/
  | promptOpening
  | readableSentinels
  | readableCoordinator
  | readableSecret
  /-- Whoever needs attestations can attest. -/
  | secretForThreshold
  | enoughSentinels
deriving DecidableEq

/-- The place of a demand in the order in which they are looked at. -/
def Demand.position : Demand → Nat
  | someSentinels => 0
  | ownPlace => 1
  | someCoordinators => 2
  | promptOpening => 3
  | readableSentinels => 4
  | readableCoordinator => 5
  | readableSecret => 6
  | secretForThreshold => 7
  | enoughSentinels => 8

theorem Demand.position_injective : Demand.position.Injective := by
  intro a b h
  cases a <;> cases b <;> first | rfl | cases h

namespace Settings

/-- The secret that the settings have for this sentinel. -/
def secretText? (s : Settings) : Option String := s.privateKeys.lookup (toString s.sentinelId.toNat)

/-- The position of the coordinator that this sentinel submits to. -/
def coordinatorPosition (s : Settings) : Nat :=
  s.sentinelId.toNat % s.coordinatorEndpoints.length

def coordinatorText? (s : Settings) : Option String :=
  s.coordinatorEndpoints[s.coordinatorPosition]?

/-- The addresses of all sentinels in the order of the list, as far as they can be read. -/
def addresses (s : Settings) : List Endpoint := s.sentinelEndpoints.filterMap Endpoint.ofText?

/-- The address that the list has for this sentinel. -/
def ownAddress? (s : Settings) : Option Endpoint :=
  s.sentinelEndpoints[s.sentinelId.toNat]?.bind Endpoint.ofText?

/-- The addresses that are not the one of this sentinel. One that is repeated stays so. -/
def otherAddresses (s : Settings) : List Endpoint := s.addresses.filter (some · ≠ s.ownAddress?)

/-- The leftmost address of a sentinel that cannot be read, as it is written. -/
def unreadable? (s : Settings) : Option String :=
  s.sentinelEndpoints.find? fun text => (Endpoint.ofText? text).isNone

end Settings

/-- What is told of settings that do not meet the demand. -/
def Demand.fault (s : Settings) : Demand → SettingsError
  | someSentinels => .noSentinelEndpoints
  | ownPlace => .sentinelIdOutOfRange s.sentinelId.toNat s.sentinelEndpoints.length
  | someCoordinators => .noCoordinatorEndpoints
  | promptOpening => .connectTimeoutTooLong s.connectTimeout.toNat s.peerTimeout.toNat
  | readableSentinels => .invalidEndpoint (s.unreadable?.getD "")
  | readableCoordinator => .invalidEndpoint (s.coordinatorText?.getD "")
  | readableSecret => .invalidPrivateKey s.sentinelId.toNat
  | secretForThreshold => .missingPrivateKey s.sentinelId.toNat
  | enoughSentinels => .insufficientPeers s.threshold.toNat (s.otherAddresses.length + 1)

/-! ## Addresses -/

namespace Settings

variable {s : Settings}

/-- If all addresses can be read, as many are read as are written. -/
theorem map_addresses (h : ∀ text ∈ s.sentinelEndpoints, ∃ e, Endpoint.ofText? text = some e) :
    s.sentinelEndpoints.map Endpoint.ofText? = s.addresses.map some := by
  unfold addresses
  generalize s.sentinelEndpoints = texts at h
  induction texts with
  | nil => rfl
  | cons text rest ih =>
    obtain ⟨e, he⟩ := h text List.mem_cons_self
    rw [List.map_cons, List.filterMap_cons_some he, List.map_cons, he,
      ih fun later hlater => h later (List.mem_cons_of_mem _ hlater)]

theorem addresses_eq {addresses : List Endpoint}
    (h : s.sentinelEndpoints.map Endpoint.ofText? = addresses.map some) : s.addresses = addresses := by
  have hreadable : ∀ text ∈ s.sentinelEndpoints, ∃ e, Endpoint.ofText? text = some e := by
    intro text hmem
    have hread := List.mem_map_of_mem (f := Endpoint.ofText?) hmem
    rw [h] at hread
    obtain ⟨e, _, he⟩ := List.mem_map.1 hread
    exact ⟨e, he.symm⟩
  exact (List.map_inj_right fun _ _ => Option.some.inj).1 ((map_addresses hreadable).symm.trans h)

theorem mapM_endpoint_of_readable
    (h : ∀ text ∈ s.sentinelEndpoints, ∃ e, Endpoint.ofText? text = some e) :
    s.sentinelEndpoints.mapM endpoint = .ok s.addresses := by
  unfold addresses
  generalize s.sentinelEndpoints = texts at h
  induction texts with
  | nil => rfl
  | cons text rest ih =>
    obtain ⟨e, he⟩ := h text List.mem_cons_self
    rw [List.mapM_cons, ih fun later hlater => h later (List.mem_cons_of_mem _ hlater),
      List.filterMap_cons_some he, endpoint, he]
    rfl

/-- Reading stops at the leftmost address that cannot be read. -/
theorem mapM_endpoint_of_unreadable {text : String} (h : s.unreadable? = some text) :
    s.sentinelEndpoints.mapM endpoint = .error (.invalidEndpoint text) := by
  unfold unreadable? at h
  generalize s.sentinelEndpoints = texts at h
  induction texts with
  | nil => cases h
  | cons first rest ih =>
    rw [List.mapM_cons, endpoint]
    cases hfirst : Endpoint.ofText? first with
    | none =>
      simp only [List.find?_cons, hfirst, Option.isNone_none, Option.some.injEq] at h
      rw [h]
      rfl
    | some e =>
      simp only [List.find?_cons, hfirst, Option.isNone_some] at h
      rw [ih h]
      rfl

/-- Looking up and then reading is reading and then looking up. -/
theorem bind_ofText?_eq_getElem? {texts : List String} {endpoints : List Endpoint}
    (h : texts.map Endpoint.ofText? = endpoints.map some) (position : Nat) :
    texts[position]?.bind Endpoint.ofText? = endpoints[position]? := by
  have hread := congrArg (·[position]?) h
  simp only [List.getElem?_map] at hread
  cases htext : texts[position]? with
  | none =>
    rw [htext] at hread
    rw [Option.bind_none, Option.map_eq_none_iff.1 hread.symm]
  | some text =>
    rw [htext, Option.map_some] at hread
    obtain ⟨e, he, hsome⟩ := Option.map_eq_some_iff.1 hread.symm
    rw [Option.bind_some, he, hsome]

theorem ownAddress?_eq (h : ∀ text ∈ s.sentinelEndpoints, ∃ e, Endpoint.ofText? text = some e)
    (hplace : s.sentinelId.toNat < s.sentinelEndpoints.length) :
    s.ownAddress? = some (s.addresses.getD s.sentinelId.toNat default) := by
  have hmap := map_addresses h
  have hplace' : s.sentinelId.toNat < s.addresses.length := by
    have hlength := congrArg List.length hmap
    rw [List.length_map, List.length_map] at hlength
    rwa [← hlength]
  rw [ownAddress?, bind_ofText?_eq_getElem? hmap, List.getElem?_eq_getElem hplace',
    List.getD_eq_getElem _ _ hplace']

theorem filter_addresses (h : ∀ text ∈ s.sentinelEndpoints, ∃ e, Endpoint.ofText? text = some e)
    (hplace : s.sentinelId.toNat < s.sentinelEndpoints.length) :
    s.addresses.filter (· ≠ s.addresses.getD s.sentinelId.toNat default) = s.otherAddresses := by
  unfold otherAddresses
  rw [ownAddress?_eq h hplace]
  simp only [ne_eq, Option.some.injEq]

end Settings

/-! ## Met and unmet demands -/

def Demand.MetBy (s : Settings) : Demand → Prop
  | someSentinels => s.sentinelEndpoints ≠ []
  | ownPlace => s.sentinelId.toNat < s.sentinelEndpoints.length
  | someCoordinators => s.coordinatorEndpoints ≠ []
  | promptOpening => s.connectTimeout < s.peerTimeout
  | readableSentinels => ∀ text ∈ s.sentinelEndpoints, ∃ e, Endpoint.ofText? text = some e
  | readableCoordinator => ∃ e, s.coordinatorText?.bind Endpoint.ofText? = some e
  | readableSecret => ∀ text, s.secretText? = some text → IsSecretText text
  | secretForThreshold => s.threshold = 0 ∨ ∃ text, s.secretText? = some text
  | enoughSentinels => s.threshold = 0 ∨ s.threshold.toNat ≤ s.otherAddresses.length + 1

namespace Settings

variable {s : Settings} {d following : Demand}

/-- All demands in front of this one are met. -/
def MeetsBefore (s : Settings) (d : Demand) : Prop :=
  KeptBefore Demand.position (Demand.MetBy s) d

/-- The demand is the first that is not met. -/
def FirstUnmet (s : Settings) (d : Demand) : Prop :=
  FirstBroken Demand.position (Demand.MetBy s) d

theorem MeetsBefore.next (h : s.MeetsBefore d) (hmet : d.MetBy s)
    (hnext : following.position = d.position + 1) : s.MeetsBefore following :=
  KeptBefore.next h Demand.position_injective hmet hnext

theorem MeetsBefore.all (h : s.MeetsBefore .enoughSentinels) (hmet : Demand.enoughSentinels.MetBy s)
    (d : Demand) : d.MetBy s := by
  refine KeptBefore.all h Demand.position_injective hmet ?_ d
  intro d
  cases d <;> decide

/-! ## One check after the other -/

theorem checked_numbers (s : Settings) :
    (∃ d : Demand, s.numberFault = some (d.fault s) ∧ s.FirstUnmet d) ∨
      (s.numberFault = none ∧ s.MeetsBefore .readableSentinels) := by
  have hstart : s.MeetsBefore .someSentinels := KeptBefore.of_first rfl
  unfold numberFault
  dsimp only
  split
  · rename_i hempty
    exact Or.inl ⟨.someSentinels, rfl, not_not.2 (List.isEmpty_iff.1 hempty), hstart⟩
  rename_i hsome
  have hsome : s.MeetsBefore .ownPlace :=
    hstart.next (fun he => hsome (List.isEmpty_iff.2 he)) rfl
  split
  · rename_i hlarge
    exact Or.inl ⟨.ownPlace, rfl, Nat.not_lt.2 hlarge, hsome⟩
  rename_i hplace
  have hplace : s.MeetsBefore .someCoordinators := hsome.next (Nat.not_le.1 hplace) rfl
  split
  · rename_i hempty
    exact Or.inl ⟨.someCoordinators, rfl, not_not.2 (List.isEmpty_iff.1 hempty), hplace⟩
  rename_i hcoordinators
  have hcoordinators : s.MeetsBefore .promptOpening :=
    hplace.next (fun he => hcoordinators (List.isEmpty_iff.2 he)) rfl
  split
  · rename_i hlong
    exact Or.inl ⟨.promptOpening, rfl, UInt64.not_lt.2 hlong, hcoordinators⟩
  · rename_i hprompt
    exact Or.inr ⟨rfl, hcoordinators.next (UInt64.not_le.1 hprompt) rfl⟩

theorem checked_sentinels (h : s.MeetsBefore .readableSentinels) :
    (s.sentinelEndpoints.mapM endpoint = .error (Demand.readableSentinels.fault s) ∧
        s.FirstUnmet .readableSentinels) ∨
      (s.sentinelEndpoints.mapM endpoint = .ok s.addresses ∧
        s.MeetsBefore .readableCoordinator) := by
  cases hfound : s.unreadable? with
  | some text =>
    refine Or.inl ⟨?_, ?_, h⟩
    · rw [mapM_endpoint_of_unreadable hfound, Demand.fault, hfound]
      rfl
    · intro hread
      obtain ⟨e, he⟩ := hread text (List.mem_of_find?_eq_some hfound)
      have hnone := List.find?_some hfound
      rw [he] at hnone
      cases hnone
  | none =>
    have hread : Demand.readableSentinels.MetBy s := by
      intro text hmem
      have hsome := List.find?_eq_none.1 hfound text hmem
      exact Option.ne_none_iff_exists'.1 (by simpa using hsome)
    exact Or.inr ⟨mapM_endpoint_of_readable hread, h.next hread rfl⟩

theorem checked_coordinator (h : s.MeetsBefore .readableCoordinator) :
    (endpoint (s.coordinatorEndpoints.getD s.coordinatorPosition "") =
        .error (Demand.readableCoordinator.fault s) ∧ s.FirstUnmet .readableCoordinator) ∨
      ∃ e, endpoint (s.coordinatorEndpoints.getD s.coordinatorPosition "") = .ok e ∧
        s.coordinatorText?.bind Endpoint.ofText? = some e ∧ s.MeetsBefore .readableSecret := by
  have hsome : s.coordinatorEndpoints ≠ [] := h .someCoordinators (by decide)
  have hposition : s.coordinatorPosition < s.coordinatorEndpoints.length :=
    Nat.mod_lt _ (List.length_pos_iff.2 hsome)
  have htext := List.getElem?_eq_getElem hposition
  rw [List.getD_eq_getElem _ _ hposition, endpoint]
  cases hread : Endpoint.ofText? s.coordinatorEndpoints[s.coordinatorPosition] with
  | none =>
    refine Or.inl ⟨?_, ?_, h⟩
    · rw [Demand.fault, coordinatorText?, htext]
      rfl
    · rintro ⟨e, he⟩
      rw [coordinatorText?, htext, Option.bind_some, hread] at he
      cases he
  | some e =>
    have hbind : s.coordinatorText?.bind Endpoint.ofText? = some e := by
      rw [coordinatorText?, htext, Option.bind_some, hread]
    exact Or.inr ⟨e, rfl, hbind, h.next ⟨e, hbind⟩ rfl⟩

end Settings

section
variable [Crypto]

namespace Settings

variable {s : Settings}

theorem checked_secret (h : s.MeetsBefore .readableSecret) :
    (s.ownKeypair = .error (Demand.readableSecret.fault s) ∧ s.FirstUnmet .readableSecret) ∨
      ∃ keypair, s.ownKeypair = .ok keypair ∧
        s.secretText?.map Keypair.ofText = keypair.map .ok ∧
        s.MeetsBefore .secretForThreshold := by
  unfold ownKeypair
  cases htext : s.secretText? with
  | none =>
    have hnone : s.privateKeys.lookup (toString s.sentinelId.toNat) = none := htext
    rw [hnone]
    refine Or.inr ⟨none, rfl, rfl, h.next ?_ rfl⟩
    intro text h
    rw [htext] at h
    cases h
  | some text =>
    have hsome : s.privateKeys.lookup (toString s.sentinelId.toNat) = some text := htext
    rw [hsome]
    dsimp only
    cases hpair : Keypair.ofText text with
    | error cause =>
      refine Or.inl ⟨rfl, ?_, h⟩
      intro hread
      obtain ⟨pair, hok⟩ := Keypair.exists_ofText_iff.2 (hread text htext)
      rw [hpair] at hok
      cases hok
    | ok pair =>
      refine Or.inr ⟨some pair, rfl, by rw [Option.map_some, hpair, Option.map_some], h.next ?_ rfl⟩
      intro other hother
      rw [htext] at hother
      cases hother
      exact Keypair.exists_ofText_iff.1 ⟨pair, hpair⟩

theorem checked_threshold {keypair : Option Keypair} (h : s.MeetsBefore .secretForThreshold)
    (hkeypair : s.secretText?.map Keypair.ofText = keypair.map .ok) :
    (∃ d : Demand, s.thresholdFault keypair s.otherAddresses = some (d.fault s) ∧ s.FirstUnmet d) ∨
      (s.thresholdFault keypair s.otherAddresses = none ∧ ∀ d : Demand, d.MetBy s) := by
  unfold thresholdFault
  split
  · rename_i hzero
    have hsecret : s.MeetsBefore .enoughSentinels := h.next (Or.inl hzero) rfl
    exact Or.inr ⟨rfl, hsecret.all (Or.inl hzero)⟩
  rename_i hpositive
  cases keypair with
  | none =>
    have hnone : s.secretText? = none := Option.map_eq_none_iff.1 hkeypair
    refine Or.inl ⟨.secretForThreshold, rfl, ?_, h⟩
    rintro (hzero | ⟨text, htext⟩)
    · exact hpositive hzero
    · rw [hnone] at htext
      cases htext
  | some pair =>
    obtain ⟨text, htext, _⟩ := Option.map_eq_some_iff.1 hkeypair
    have hsecret : s.MeetsBefore .enoughSentinels := h.next (Or.inr ⟨text, htext⟩) rfl
    rw [if_neg (by simp)]
    split
    · rename_i hfew
      refine Or.inl ⟨.enoughSentinels, rfl, ?_, hsecret⟩
      rintro (hzero | henough)
      · exact hpositive hzero
      · exact Nat.not_lt.2 henough hfew
    · rename_i henough
      exact Or.inr ⟨rfl, hsecret.all (Or.inr (Nat.not_lt.1 henough))⟩

end Settings

/-! ## The configuration -/

/-- The configuration is what the settings say. -/
structure Settings.ResolvesTo (s : Settings) (c : Configuration) : Prop where
  sentinelId : c.sentinelId = s.sentinelId
  listener : s.ownAddress? = some c.listener
  /-- The peers are the other addresses, in the order of the list. -/
  peers : ∃ addresses : List Endpoint,
    s.sentinelEndpoints.map Endpoint.ofText? = addresses.map some ∧
      c.peers = addresses.filter (· ≠ c.listener)
  apart : c.listener ∉ c.peers
  coordinator : s.coordinatorText?.bind Endpoint.ofText? = some c.coordinator
  /-- The keys are those of the secret, if there is one. -/
  keypair : s.secretText?.map Keypair.ofText = c.keypair.map .ok
  /-- Whoever needs attestations can attest. -/
  attests : c.threshold ≠ 0 → ∃ pair, c.keypair = some pair
  threshold : c.threshold = s.threshold
  peerTimeout : c.peerTimeout = s.peerTimeout
  connectTimeout : c.connectTimeout = s.connectTimeout
  prompt : c.connectTimeout < c.peerTimeout
  peerRetry : c.peerRetry = s.peerRetry
  coordinatorRetry : c.coordinatorRetry = s.coordinatorRetry
  initAttempts : c.initAttempts = s.initAttempts
  initDelay : c.initDelay = s.initDelay
  auditPath : c.auditPath = s.auditPath

namespace Settings

variable {s : Settings}

theorem resolvesTo_configure {coordinator : Endpoint} {keypair : Option Keypair}
    (h : ∀ d : Demand, d.MetBy s)
    (hcoordinator : s.coordinatorText?.bind Endpoint.ofText? = some coordinator)
    (hkeypair : s.secretText?.map Keypair.ofText = keypair.map .ok) :
    s.ResolvesTo (s.configure s.addresses coordinator keypair) where
  sentinelId := rfl
  listener := ownAddress?_eq (h .readableSentinels) (h .ownPlace)
  peers := ⟨s.addresses, map_addresses (h .readableSentinels), rfl⟩
  apart := by simp [configure]
  coordinator := hcoordinator
  keypair := hkeypair
  attests hthreshold := by
    obtain ⟨text, htext⟩ := (h .secretForThreshold).resolve_left hthreshold
    rw [htext, Option.map_some] at hkeypair
    obtain ⟨pair, hpair, _⟩ := Option.map_eq_some_iff.1 hkeypair.symm
    exact ⟨pair, hpair⟩
  threshold := rfl
  peerTimeout := rfl
  connectTimeout := rfl
  prompt := h .promptOpening
  peerRetry := rfl
  coordinatorRetry := rfl
  initAttempts := rfl
  initDelay := rfl
  auditPath := rfl

theorem ResolvesTo.peers_eq {c : Configuration} {addresses : List Endpoint} (h : s.ResolvesTo c)
    (hread : s.sentinelEndpoints.map Endpoint.ofText? = addresses.map some) :
    c.peers = addresses.filter (· ≠ c.listener) := by
  obtain ⟨found, hfound, hpeers⟩ := h.peers
  have hsame : found = addresses :=
    (List.map_inj_right fun _ _ => Option.some.inj).1 (hfound.symm.trans hread)
  rw [hpeers, hsame]

theorem ResolvesTo.getElem?_eq_listener {c : Configuration} {addresses : List Endpoint}
    (h : s.ResolvesTo c)
    (haddresses : s.sentinelEndpoints.map Endpoint.ofText? = addresses.map some) :
    addresses[s.sentinelId.toNat]? = some c.listener := by
  rw [← bind_ofText?_eq_getElem? haddresses]
  exact h.listener

theorem ResolvesTo.peers_eq_otherAddresses {c : Configuration} (h : s.ResolvesTo c) :
    c.peers = s.otherAddresses := by
  obtain ⟨found, hfound, hpeers⟩ := h.peers
  rw [hpeers, otherAddresses, addresses_eq hfound, h.listener]
  simp only [ne_eq, Option.some.injEq]

/-- There is one configuration only that is what the settings say. -/
theorem ResolvesTo.unique {c other : Configuration} (h : s.ResolvesTo c) (h' : s.ResolvesTo other) :
    c = other := by
  have hlistener : c.listener = other.listener := Option.some.inj (h.listener.symm.trans h'.listener)
  have hpeers : c.peers = other.peers :=
    h.peers_eq_otherAddresses.trans h'.peers_eq_otherAddresses.symm
  have hcoordinator : c.coordinator = other.coordinator :=
    Option.some.inj (h.coordinator.symm.trans h'.coordinator)
  have hkeypair : c.keypair = other.keypair :=
    Option.map_injective (fun _ _ => Except.ok.inj) (h.keypair.symm.trans h'.keypair)
  cases c
  cases other
  obtain ⟨rfl, _, _, _, _, _, _, rfl, rfl, rfl, _, rfl, rfl, rfl, rfl, rfl⟩ := h
  obtain ⟨rfl, _, _, _, _, _, _, rfl, rfl, rfl, _, rfl, rfl, rfl, rfl, rfl⟩ := h'
  simp_all

/-- The first demand that is not met ends the checks, and otherwise the settings are resolved. -/
theorem checked (s : Settings) :
    (∃ d : Demand, s.validate = .error (d.fault s) ∧ s.FirstUnmet d) ∨
      ∃ c, s.validate = .ok c ∧ s.ResolvesTo c ∧ ∀ d : Demand, d.MetBy s := by
  unfold validate
  rcases checked_numbers s with ⟨d, hfault, hfirst⟩ | ⟨hnumber, hmet⟩
  · exact Or.inl ⟨d, by rw [hfault], hfirst⟩
  rw [hnumber]
  rcases checked_sentinels hmet with ⟨hfault, hfirst⟩ | ⟨hread, hmet⟩
  · exact Or.inl ⟨_, by rw [hfault]; rfl, hfirst⟩
  rw [hread]
  rcases checked_coordinator hmet with ⟨hfault, hfirst⟩ | ⟨coordinator, hread, hcoordinator, hmet⟩
  · exact Or.inl ⟨_, by rw [coordinatorPosition] at hfault; rw [hfault]; rfl, hfirst⟩
  rw [coordinatorPosition] at hread
  rw [hread]
  rcases checked_secret hmet with ⟨hfault, hfirst⟩ | ⟨keypair, hown, hkeypair, hmet⟩
  · exact Or.inl ⟨_, by rw [hfault]; rfl, hfirst⟩
  rw [hown]
  have hpeers : (s.configure s.addresses coordinator keypair).peers = s.otherAddresses :=
    filter_addresses (hmet .readableSentinels (by decide)) (hmet .ownPlace (by decide))
  rcases checked_threshold hmet hkeypair with ⟨d, hfault, hfirst⟩ | ⟨hnone, hmet⟩
  · rw [← hpeers] at hfault
    exact Or.inl ⟨d, by simp only [bind, Except.bind, hfault], hfirst⟩
  · rw [← hpeers] at hnone
    exact Or.inr ⟨_, by simp only [bind, Except.bind, hnone],
      resolvesTo_configure hmet hcoordinator hkeypair, hmet⟩

theorem validate_eq_error_iff {e : SettingsError} :
    s.validate = .error e ↔ ∃ d : Demand, s.FirstUnmet d ∧ e = d.fault s := by
  rcases checked s with ⟨first, hfault, hfirst⟩ | ⟨c, hok, _, hmet⟩
  · rw [hfault, Except.error.injEq]
    constructor
    · rintro rfl
      exact ⟨first, hfirst, rfl⟩
    · rintro ⟨d, hd, rfl⟩
      rw [FirstBroken.unique Demand.position_injective hfirst hd]
  · rw [hok]
    simp only [reduceCtorEq, false_iff]
    rintro ⟨d, hd, _⟩
    exact hd.1 (hmet d)

theorem validate_eq_ok_iff_resolvesTo {c : Configuration} :
    s.validate = .ok c ↔ (∀ d : Demand, d.MetBy s) ∧ s.ResolvesTo c := by
  rcases checked s with ⟨first, hfault, hfirst⟩ | ⟨found, hok, hfound, hmet⟩
  · rw [hfault]
    simp only [reduceCtorEq, false_iff]
    exact fun h => hfirst.1 (h.1 first)
  · rw [hok, Except.ok.injEq]
    constructor
    · rintro rfl
      exact ⟨hmet, hfound⟩
    · rintro ⟨_, hc⟩
      exact hfound.unique hc

theorem exists_validate_eq_ok_iff : (∃ c, s.validate = .ok c) ↔ ∀ d : Demand, d.MetBy s := by
  rcases checked s with ⟨first, hfault, hfirst⟩ | ⟨c, hok, _, hmet⟩
  · rw [hfault]
    simp only [reduceCtorEq, exists_false, false_iff]
    exact fun h => hfirst.1 (h first)
  · exact iff_of_true ⟨c, hok⟩ hmet

end Settings

/-- Settings are accepted if they meet all demands, and only then. They are resolved into the one
configuration that is what they say. Otherwise the fault is told of the first demand that they do
not meet. -/
theorem settings_are_resolved_or_the_first_fault_is_told (s : Settings) :
    ((∃ c, s.validate = .ok c) ↔ ∀ d : Demand, d.MetBy s) ∧
      (∀ c, s.validate = .ok c ↔ (∀ d : Demand, d.MetBy s) ∧ s.ResolvesTo c) ∧
      ∀ e, s.validate = .error e ↔ ∃ d : Demand, ¬ d.MetBy s ∧
        (∀ earlier : Demand, earlier.position < d.position → earlier.MetBy s) ∧ e = d.fault s := by
  refine ⟨Settings.exists_validate_eq_ok_iff, fun _ => Settings.validate_eq_ok_iff_resolvesTo, ?_⟩
  intro e
  rw [Settings.validate_eq_error_iff]
  simp only [Settings.FirstUnmet, FirstBroken, KeptBefore, and_assoc]

end

namespace Sample

attribute [local instance] standardCrypto

/-- Two of the addresses cannot be read, the secret has too few digits, and the threshold is above
the number of sentinels. -/
def faulty : Settings :=
  { Settings.basic 1 ["127.0.0.1:20000", " 127.0.0.1:20001 ", "127.0.0.1", "nowhere:20003"]
      ["127.0.0.1:30000"] with
    privateKeys := [("1", "9d61b1")]
    threshold := 9 }

theorem the_leftmost_unreadable_address_is_told :
    faulty.validate = .error (.invalidEndpoint "127.0.0.1") := by
  refine ((settings_are_resolved_or_the_first_fault_is_told faulty).2.2 _).2
    ⟨.readableSentinels, ?_, ?_, ?_⟩
  · intro hread
    obtain ⟨e, he⟩ := hread "127.0.0.1" (by decide)
    rw [show Endpoint.ofText? "127.0.0.1" = none by decide +kernel] at he
    cases he
  · intro earlier hearlier
    cases earlier
    case someSentinels => exact List.cons_ne_nil _ _
    case ownPlace => exact (by decide : 1 < 4)
    case someCoordinators => exact List.cons_ne_nil _ _
    case promptOpening => exact (by decide : (1000 : UInt64) < 5000)
    all_goals exact absurd hearlier (by decide)
  · have hfound : faulty.unreadable? = some "127.0.0.1" := by decide +kernel
    rw [Demand.fault, hfound]
    rfl

end Sample

end Admission
