-- What accepted settings are like. Every part of the configuration is one that
-- the settings name, and no fault was found on the way.
import Admission.Settings

namespace Admission

/-- What comes after a step happens only if the step succeeds. -/
theorem exists_ok_of_bind {ε α β : Type} {x : Except ε α} {f : α → Except ε β} {b : β}
    (h : (x >>= f) = .ok b) : ∃ a, x = .ok a ∧ f a = .ok b := by
  cases x with
  | error cause => cases h
  | ok a => exact ⟨a, rfl, h⟩

/-- What is made of the outcome of a step is made only if the step succeeds. -/
theorem exists_ok_of_map {ε α β : Type} {x : Except ε α} {f : α → β} {b : β}
    (h : x.map f = .ok b) : ∃ a, x = .ok a ∧ f a = b := by
  cases x with
  | error cause => cases h
  | ok a => exact ⟨a, rfl, Except.ok.inj h⟩

namespace Settings

variable [Crypto]

theorem validate_eq_ok_iff {s : Settings} {c : Configuration} :
    s.validate = .ok c ↔
      s.numberFault = none ∧ ∃ endpoints coordinator keypair,
        s.sentinelEndpoints.mapM endpoint = .ok endpoints ∧
        endpoint (s.coordinatorEndpoints.getD
          (s.sentinelId.toNat % s.coordinatorEndpoints.length) "") = .ok coordinator ∧
        s.ownKeypair = .ok keypair ∧
        s.thresholdFault keypair (s.configure endpoints coordinator keypair).peers = none ∧
        c = s.configure endpoints coordinator keypair := by
  constructor
  · intro h
    unfold validate at h
    split at h
    · cases h
    · rename_i hnumber
      obtain ⟨endpoints, hendpoints, h⟩ := exists_ok_of_bind h
      obtain ⟨coordinator, hcoordinator, h⟩ := exists_ok_of_bind h
      obtain ⟨keypair, hkeypair, h⟩ := exists_ok_of_bind h
      dsimp only at h
      split at h
      · cases h
      · rename_i hthreshold
        exact ⟨hnumber, endpoints, coordinator, keypair, hendpoints, hcoordinator, hkeypair,
          hthreshold, (Except.ok.inj h).symm⟩
  · rintro ⟨hnumber, endpoints, coordinator, keypair, hendpoints, hcoordinator, hkeypair,
      hthreshold, rfl⟩
    simp only [validate, hnumber, hendpoints, hcoordinator, hkeypair, bind, Except.bind,
      hthreshold]

/-- A sentinel does without a key only where no attestation is required. -/
theorem threshold_eq_zero_of_no_key {s : Settings} {c : Configuration} (h : s.validate = .ok c)
    (hkey : c.keypair = none) : c.threshold = 0 := by
  obtain ⟨_, endpoints, coordinator, keypair, _, _, _, hfault, rfl⟩ := validate_eq_ok_iff.1 h
  obtain rfl : keypair = none := hkey
  unfold thresholdFault at hfault
  split at hfault
  · assumption
  · cases hfault

end Settings

end Admission
