-- How long a gathering pauses. The pauses double as long as nobody attests, up to a
-- limit, and the words in which they are counted and computed are never too short.
import Admission.Proofs.Pauses
import Admission.Span
import Mathlib.Data.List.DropRight

namespace Admission

/-! ## Powers of two -/

theorem min_two_pow_of_le {n : Nat} (h : 5 ≤ n) : min (2 ^ n) 32 = 32 := by
  have hfive : 2 ^ 5 ≤ 2 ^ n := Nat.pow_le_pow_right (by decide) h
  omega

/-- A pause lasts two to the power of those before it, up to the limit. -/
theorem pauseFactor_eq (pauses : Nat) : pauseFactor pauses = min (2 ^ pauses) 32 := by
  unfold pauseFactor longestPauseFactor
  by_cases hfew : pauses < 32
  · rw [if_pos hfew, Nat.one_shiftLeft]
  · rw [if_neg hfew, min_two_pow_of_le (by omega)]

/-- Where the count of the pauses stops, one more has long made no difference. -/
theorem pauseFactor_min_pauseCountLimit (pauses : Nat) :
    pauseFactor (min pauses pauseCountLimit) = pauseFactor pauses := by
  unfold pauseFactor pauseCountLimit
  by_cases hfew : pauses < 32
  · rw [Nat.min_eq_left (by omega)]
  · rw [if_neg hfew, if_neg (by omega)]

/-- Two to this power in 32 bits, if they hold it. -/
def powerOfTwo? (n : UInt32) : Option UInt32 := if n < 32 then some (1 <<< n) else none

theorem powerOfTwo?_eq_none_iff {n : UInt32} : powerOfTwo? n = none ↔ 32 ≤ n.toNat := by
  unfold powerOfTwo?
  simp [UInt32.lt_iff_toNat_lt]

theorem toNat_of_powerOfTwo? {n power : UInt32} (h : powerOfTwo? n = some power) :
    power.toNat = 2 ^ n.toNat := by
  unfold powerOfTwo? at h
  split at h
  · rename_i hsmall
    cases h
    have hlt : n.toNat < 32 := UInt32.lt_iff_toNat_lt.1 hsmall
    have hpower : 2 ^ n.toNat < 2 ^ 32 := Nat.pow_lt_pow_right (by decide) hlt
    rw [UInt32.toNat_shiftLeft, Nat.mod_eq_of_lt hlt, UInt32.toNat_one, Nat.one_shiftLeft,
      Nat.mod_eq_of_lt hpower]
  · cases h

/-! ## A pause in words -/

/-- How many times the shortest pause a pause lasts, in 32 bits. -/
def pauseFactorWord (count : UInt32) : UInt32 :=
  let factor := (powerOfTwo? count).getD 32
  if factor ≤ 32 then factor else 32

theorem toNat_pauseFactorWord (count : UInt32) :
    (pauseFactorWord count).toNat = pauseFactor count.toNat := by
  unfold pauseFactorWord
  rw [pauseFactor_eq]
  cases hpower : powerOfTwo? count with
  | none =>
    have hmany := powerOfTwo?_eq_none_iff.1 hpower
    rw [min_two_pow_of_le (by omega)]
    rfl
  | some power =>
    rw [← toNat_of_powerOfTwo? hpower]
    by_cases hle : power ≤ 32
    · have hsmall : power.toNat ≤ 32 := UInt32.le_iff_toNat_le.1 hle
      simp [hle, hsmall]
    · have hlarge : 32 < power.toNat := UInt32.lt_iff_toNat_lt.1 (UInt32.not_le.1 hle)
      simp [hle, Nat.le_of_lt hlarge]

/-- The length of a pause after so many in a row; none if it is no span. -/
def pauseSpan (delay : UInt64) (count : UInt32) : Option Span :=
  (Span.ofMilliseconds delay).times (pauseFactorWord count)

/-- Every pause is a span, as the longest is only so many times as long as a word of
milliseconds. -/
theorem exists_pauseSpan (delay : UInt64) (count : UInt32) :
    ∃ length, pauseSpan delay count = some length ∧
      length.inNanoseconds = delay.toNat * pauseFactor count.toNat * 1000000 := by
  have hfactor : pauseFactor count.toNat ≤ 32 := by
    rw [pauseFactor_eq]
    exact Nat.min_le_right _ _
  have hproduct : delay.toNat * pauseFactor count.toNat ≤ delay.toNat * 32 :=
    Nat.mul_le_mul_left _ hfactor
  have hdelay := delay.toNat_lt
  have hspan : (Span.ofMilliseconds delay).inNanoseconds * (pauseFactorWord count).toNat =
      delay.toNat * pauseFactor count.toNat * 1000000 := by
    rw [Span.inNanoseconds_ofMilliseconds, toNat_pauseFactorWord, Nat.mul_right_comm]
  obtain ⟨length, hlength⟩ := Span.exists_times_iff.2
    (by rw [hspan, Span.limit]; omega :
      (Span.ofMilliseconds delay).inNanoseconds * (pauseFactorWord count).toNat < Span.limit)
  exact ⟨length, hlength, (Span.inNanoseconds_of_times hlength).trans hspan⟩

/-! ## The count of the pauses -/

/-- One pause more in 32 bits, as far as they go. -/
def countPause (count : UInt32) : UInt32 := if count = 0xffffffff then count else count + 1

theorem toNat_countPause (count : UInt32) :
    (countPause count).toNat = min (count.toNat + 1) pauseCountLimit := by
  unfold countPause pauseCountLimit
  have hword := count.toNat_lt
  by_cases hfull : count = 0xffffffff
  · rw [if_pos hfull, hfull]
    rfl
  · have hroom : count.toNat ≠ 0xffffffff := fun h => hfull (UInt32.toNat_inj.1 h)
    rw [if_neg hfull, UInt32.toNat_add, UInt32.toNat_one]
    omega

section
variable [Crypto]

namespace Happening

/-- Whether this is a reply with an attestation that verifies. -/
def attests (id : Hash) : Happening → Bool
  | replied d =>
    match d.reply id with
    | .attested _ => true
    | _ => false
  | _ => false

/-- The count of the pauses after a happening: an attestation starts it anew. -/
def recount (id : Hash) (count : UInt32) (happening : Happening) : UInt32 :=
  if happening.attests id then 0
  else if happening = rested then countPause count
  else count

end Happening

/-- The count of the pauses after these happenings. -/
def pauseCount (id : Hash) (hs : List Happening) : UInt32 := hs.foldl (Happening.recount id) 0

/-- How many pauses there were since the last attestation that verifies, or since the start. -/
def pausesSince (id : Hash) (hs : List Happening) : Nat :=
  (hs.rtakeWhile fun happening => !happening.attests id).count .rested

section
variable {id : Hash} {hs : List Happening} {happening : Happening}

theorem pauseCount_append_singleton (id : Hash) (hs : List Happening) (happening : Happening) :
    pauseCount id (hs ++ [happening]) = happening.recount id (pauseCount id hs) := by
  simp [pauseCount, List.foldl_append]

theorem pausesSince_append_of_attests (h : happening.attests id = true) :
    pausesSince id (hs ++ [happening]) = 0 := by
  unfold pausesSince
  rw [List.rtakeWhile_concat_neg _ _ _ (by simp [h])]
  rfl

theorem pausesSince_append_of_not_attests (h : happening.attests id = false) :
    pausesSince id (hs ++ [happening]) =
      pausesSince id hs + if happening = .rested then 1 else 0 := by
  unfold pausesSince
  rw [List.rtakeWhile_concat_pos _ _ _ (by simp [h]), List.count_append, List.count_singleton]
  simp

/-- The count is right as far as it goes. -/
theorem toNat_pauseCount (id : Hash) (hs : List Happening) :
    (pauseCount id hs).toNat = min (pausesSince id hs) pauseCountLimit := by
  induction hs using List.reverseRecOn with
  | nil => rfl
  | append_singleton hs happening ih =>
    rw [pauseCount_append_singleton, Happening.recount]
    cases hattests : happening.attests id with
    | true =>
      rw [pausesSince_append_of_attests hattests]
      rfl
    | false =>
      rw [pausesSince_append_of_not_attests hattests]
      by_cases hrested : happening = .rested
      · rw [if_neg (by decide), if_pos hrested, if_pos hrested, toNat_countPause, ih]
        omega
      · rw [if_neg (by decide), if_neg hrested, if_neg hrested, ih, Nat.add_zero]

end

/-! ## The count of a gathering -/

/-- A gathering that goes on has counted its pauses so far, and a pause is as long as the count
says. -/
inductive Gathering.Counts (g : Gatherer) (count : UInt32) : Gathering → Prop
  | deciding {p : Progress} (h : p.pauses = count.toNat) : Counts g count (.deciding p)
  | asking {p : Progress} {peer : Nat} (h : p.pauses = count.toNat) :
      Counts g count (.asking p peer)
  | pausing {p : Progress} (h : p.pauses = count.toNat) :
      Counts g count (.pausing p (g.pauseLength p.pauses))
  | ended {result : Gathered} : Counts g count (.ended result)

namespace Happening

variable {id : Hash} {d : Delivery}

theorem attests_of_attested {a : Attestation} (h : d.reply id = .attested a) :
    (replied d).attests id = true := by
  simp [attests, h]

theorem attests_of_not (h : ∀ a, d.reply id ≠ .attested a) : (replied d).attests id = false := by
  cases hreply : d.reply id with
  | attested a => exact absurd hreply (h a)
  | invalid | notDispatched | noAnswer => simp [attests, hreply]

theorem recount_of_attests {happening : Happening} (h : happening.attests id = true)
    (count : UInt32) : happening.recount id count = 0 := by
  simp [recount, h]

theorem recount_replied (h : (replied d).attests id = false) (count : UInt32) :
    (replied d).recount id count = count := by
  simp [recount, h]

end Happening

namespace Gathering

variable {g : Gatherer} {start : Summary} {rs : List (Nat × Delivery)} {count : UInt32}
  {stage next : Gathering} {happening : Happening} {p : Progress}

/-- Whatever happens, what is counted is what the gathering counts. -/
theorem Tells.counts_moves (h : stage.Tells g start rs) (hcounts : stage.Counts g count)
    (hmoves : Moves g stage happening next) :
    next.Counts g (happening.recount start.id count) := by
  cases hmoves with
  | asks may =>
    cases hcounts with
    | deciding hpauses => exact .asking hpauses
  | pauses few left tried =>
    cases hcounts with
    | deciding hpauses => exact .pausing hpauses
  | reaches enough => exact .ended
  | runsOut few asked => exact .ended
  | attested hd =>
    cases h with
    | asking h may =>
      rw [h.id] at hd
      rw [Happening.recount_of_attests (Happening.attests_of_attested hd)]
      exact .deciding rfl
  | invalidated => exact .ended
  | missed hd =>
    cases h with
    | asking h may =>
      rw [h.id] at hd
      rw [Happening.recount_replied (Happening.attests_of_not (by simp [hd]))]
      cases hcounts with
      | asking hpauses => exact .deciding hpauses
  | unanswered hd =>
    cases h with
    | asking h may =>
      rw [h.id] at hd
      rw [Happening.recount_replied (Happening.attests_of_not (by simp [hd]))]
      cases hcounts with
      | asking hpauses => exact .deciding hpauses
  | rests =>
    cases hcounts with
    | pausing hpauses =>
      apply Counts.deciding
      unfold Progress.rested
      rw [hpauses]
      exact (toNat_countPause count).symm

omit [Crypto] in
theorem Counts.pauses_eq (h : stage.Counts g count) (hp : stage.progress? = some p) :
    p.pauses = count.toNat := by
  cases h with
  | deciding hpauses | asking hpauses | pausing hpauses =>
    cases hp
    exact hpauses
  | ended => cases hp

omit [Crypto] in
theorem Counts.length_eq {milliseconds : Nat} (h : Counts g count (.pausing p milliseconds)) :
    milliseconds = g.pauseLength count.toNat := by
  cases h with
  | pausing hpauses => rw [hpauses]

end Gathering

namespace Gatherer

variable {g : Gatherer} {start : Summary} {hs : List Happening} {stage : Gathering}

/-- Each pause that began is over, except for the one that the gathering is in. -/
theorem pauses_eq (h : g.run start hs = some stage) :
    g.pauses start hs = hs.count .rested + if stage.isPause then 1 else 0 := by
  refine Run.reach_induction
    (P := fun hs stage => g.pauses start hs = hs.count .rested + if stage.isPause then 1 else 0)
    ?_ ?_ h
  · rfl
  · intro hs between happening next hrun hsofar hafter
    rw [pauses_append_singleton happening hrun hafter, hsofar, List.count_append]
    cases Gathering.moves_of_after hafter <;> simp [Gathering.isPause]

/-- In every run the happenings are counted as the gathering counts them. -/
theorem run_counts (h : g.run start hs = some stage) :
    stage.Counts g (pauseCount start.id hs) := by
  refine Run.reach_induction (P := fun hs stage => stage.Counts g (pauseCount start.id hs))
    ?_ ?_ h
  · exact .deciding rfl
  · intro hs between happening next hrun hcounts hafter
    rw [pauseCount_append_singleton]
    exact (run_tells hrun).counts_moves hcounts (Gathering.moves_of_after hafter)

end Gatherer

/-- Pauses double up to a limit. A pause lasts two to the power of the pauses since the last
attestation that verified, or since the start, times the shortest one, but at the most 32 times
that. Every pause that began is over, except for the present one, so those that are over are all
there were before it. Peers that are missed or silent change nothing of that. A word of 32 bits
counts the pauses: it stops at its highest number, long after it could make a difference. For no
such count is a power of two cut off, and no pause is too long to be a span, however long the
shortest one is. -/
theorem pauses_double_up_to_a_limit (g : Gatherer) (delay : UInt64)
    (hdelay : g.retryDelay = delay.toNat) (start : Summary) (hs : List Happening)
    (stage : Gathering) (h : g.run start hs = some stage) :
    (∀ p milliseconds, stage = .pausing p milliseconds →
      milliseconds = delay.toNat * min (2 ^ pausesSince start.id hs) 32 ∧
        ∃ length, pauseSpan delay (pauseCount start.id hs) = some length ∧
          length.inNanoseconds = milliseconds * 1000000) ∧
    g.pauses start hs = hs.count .rested + (if stage.isPause then 1 else 0) ∧
    (∀ p, stage.progress? = some p → p.pauses = (pauseCount start.id hs).toNat) ∧
    (pauseCount start.id hs).toNat = min (pausesSince start.id hs) 0xffffffff ∧
    (∀ d, d.reply start.id = .notDispatched ∨ d.reply start.id = .noAnswer →
      pausesSince start.id (hs ++ [.replied d]) = pausesSince start.id hs) ∧
    ∀ count power, powerOfTwo? count = some power → power.toNat = 2 ^ count.toNat := by
  have hcounts := Gatherer.run_counts h
  have hcount := toNat_pauseCount start.id hs
  refine ⟨?_, Gatherer.pauses_eq h, fun p hp => hcounts.pauses_eq hp, hcount, ?_,
    fun count power hpower => toNat_of_powerOfTwo? hpower⟩
  · rintro p milliseconds rfl
    have hlength : milliseconds = delay.toNat * min (2 ^ pausesSince start.id hs) 32 := by
      rw [hcounts.length_eq, Gatherer.pauseLength, hdelay, hcount, pauseFactor_min_pauseCountLimit,
        pauseFactor_eq]
    obtain ⟨length, hspan, hnanoseconds⟩ := exists_pauseSpan delay (pauseCount start.id hs)
    refine ⟨hlength, length, hspan, ?_⟩
    rw [hnanoseconds, hcount, pauseFactor_min_pauseCountLimit, pauseFactor_eq, hlength]
  · intro d hd
    have hattests : (Happening.replied d).attests start.id = false := by
      apply Happening.attests_of_not
      rcases hd with hmissed | hsilent
      · simp [hmissed]
      · simp [hsilent]
    rw [pausesSince_append_of_not_attests hattests]
    rfl

end

namespace Sample

attribute [local instance] standardCrypto

def trio : Gatherer := ⟨3, 3, 100, 20⟩

/-- Nobody is reached, and after a pause one of three peers is silent. -/
def deafness : List Happening :=
  [.drew [0], .replied .undelivered, .drew [1], .replied .undelivered, .drew [2],
    .replied .undelivered, .drew [], .rested, .drew [2], .replied .timedOut, .drew [0],
    .replied .undelivered, .drew [1], .replied .undelivered, .drew []]

/-- After the next pause another peer attests, and the last one is missed again. -/
def recovery : List Happening :=
  [.rested, .drew [1], .replied (.answered (.attestation attestation)), .drew [0],
    .replied .undelivered, .drew []]

def afterDeafness : Progress := ⟨⟨start, [], [2]⟩, [1, 0], 1⟩

def afterRecovery : Progress := ⟨⟨start.attest attestation, [1], [2]⟩, [0], 0⟩

theorem run_deafness : trio.run start deafness = some (.pausing afterDeafness 40) := by
  apply Run.reach_cons (Gathering.after_drew_ask 0 rfl)
  apply Run.reach_cons (Gathering.after_replied rfl)
  apply Run.reach_cons (Gathering.after_drew_ask 1 rfl)
  apply Run.reach_cons (Gathering.after_replied rfl)
  apply Run.reach_cons (Gathering.after_drew_ask 2 rfl)
  apply Run.reach_cons (Gathering.after_replied rfl)
  apply Run.reach_cons (Gathering.after_drew_backoff rfl)
  apply Run.reach_cons rfl
  apply Run.reach_cons (Gathering.after_drew_ask 2 rfl)
  apply Run.reach_cons (Gathering.after_replied rfl)
  apply Run.reach_cons (Gathering.after_drew_ask 0 rfl)
  apply Run.reach_cons (Gathering.after_replied rfl)
  apply Run.reach_cons (Gathering.after_drew_ask 1 rfl)
  apply Run.reach_cons (Gathering.after_replied rfl)
  exact Run.reach_cons (Gathering.after_drew_backoff rfl) rfl

theorem reply_afterDeafness :
    (Delivery.answered (.attestation attestation)).reply afterDeafness.rested.quorum.summary.id =
      .attested attestation := by
  simp only [afterDeafness, Progress.rested, start]
  exact reply_attestation

theorem run_recovery :
    trio.run start (deafness ++ recovery) = some (.pausing afterRecovery 20) := by
  refine Run.reach_append_eq_some.2 ⟨_, run_deafness, ?_⟩
  apply Run.reach_cons rfl
  apply Run.reach_cons (Gathering.after_drew_ask 1 rfl)
  apply Run.reach_cons (Gathering.after_replied reply_afterDeafness)
  apply Run.reach_cons (Gathering.after_drew_ask 0 rfl)
  apply Run.reach_cons (Gathering.after_replied rfl)
  exact Run.reach_cons (Gathering.after_drew_backoff rfl) rfl

/-- The second pause is twice as long as the first, though one of the peers was silent in between.
The pause after an attestation is the shortest again. -/
theorem an_attestation_ends_the_doubling :
    trio.run start deafness = some (.pausing afterDeafness 40) ∧
    pausesSince start.id deafness = 1 ∧
    40 = (20 : UInt64).toNat * min (2 ^ pausesSince start.id deafness) 32 ∧
    (∃ length, pauseSpan 20 (pauseCount start.id deafness) = some length ∧
      length.inNanoseconds = 40 * 1000000) ∧
    trio.run start (deafness ++ recovery) = some (.pausing afterRecovery 20) ∧
    20 = (20 : UInt64).toNat * min (2 ^ pausesSince start.id (deafness ++ recovery)) 32 ∧
    (pauseCount start.id (deafness ++ recovery)).toNat = 0 := by
  obtain ⟨hdeaf, _⟩ := pauses_double_up_to_a_limit trio 20 rfl start deafness _ run_deafness
  obtain ⟨hrecovered, _, hcount, _⟩ :=
    pauses_double_up_to_a_limit trio 20 rfl start (deafness ++ recovery) _ run_recovery
  obtain ⟨hlonger, hspan⟩ := hdeaf afterDeafness 40 rfl
  obtain ⟨hshortest, _⟩ := hrecovered afterRecovery 20 rfl
  exact ⟨run_deafness, rfl, hlonger, hspan, run_recovery, hshortest,
    (hcount afterRecovery rfl).symm⟩

end Sample

end Admission
