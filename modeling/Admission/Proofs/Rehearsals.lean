-- What a rehearsal does to its machines. The clock, the turns and the scripts
-- decide which of them goes on and what happens to it, and nothing but that. So the
-- executions of a rehearsed sentinel are handlings in flight.
import Admission.Flight
import Admission.Service
import Admission.Proofs.Gathering

namespace Admission

/-- What is the same of both does not show that one took the place of the other. -/
theorem map_set_of_same {α β : Type} {index : Nat} {l : List α} {old new : α} (g : α → β)
    (hold : l[index]? = some old) (hsame : g new = g old) :
    (l.set index new).map g = l.map g := by
  apply List.ext_getElem?
  intro i
  rw [List.getElem?_map, List.getElem?_map, List.getElem?_set]
  by_cases hi : index = i
  · subst hi
    rw [if_pos rfl, hold, if_pos (List.getElem?_eq_some_iff.1 hold).1]
    simp [hsame]
  · rw [if_neg hi]

variable [Crypto]

/-! ## The machines of a rehearsal -/

namespace Rehearsal

variable {σ : Type}

/-- Where each machine stands, and what it is about. -/
def machines (r : Rehearsal σ) : List (σ × Hash) :=
  r.roles.map fun role => (role.stage, role.transaction)

omit [Crypto] in
theorem machines_modify (roles : List (Role σ)) (index : Nat) {change : Role σ → Role σ}
    (hstage : ∀ role, (change role).stage = role.stage)
    (htransaction : ∀ role, (change role).transaction = role.transaction) :
    (roles.modify index change).map (fun role => (role.stage, role.transaction)) =
      roles.map fun role => (role.stage, role.transaction) := by
  apply List.ext_getElem?
  intro i
  rw [List.getElem?_map, List.getElem?_map, List.getElem?_modify]
  cases roles[i]? with
  | none => rfl
  | some role => by_cases hi : index = i <;> simp [hi, hstage, htransaction]

omit [Crypto] in
@[simp] theorem machines_atOnce (r : Rehearsal σ) (index : Nat) (h : Happening) :
    (r.atOnce index h).machines = r.machines :=
  machines_modify r.roles index (fun _ => rfl) fun _ => rfl

omit [Crypto] in
@[simp] theorem machines_queue (r : Rehearsal σ) (index milliseconds : Nat) (due : Due) :
    (r.queue index milliseconds due).machines = r.machines :=
  machines_modify r.roles index (fun _ => rfl) fun _ => rfl

omit [Crypto] in
@[simp] theorem machines_send (actor : Actor σ) (r : Rehearsal σ) (index : Nat) :
    (r.send actor index).machines = r.machines := rfl

@[simp] theorem machines_attend (actor : Actor σ) (scene : Scene) (r : Rehearsal σ) (index : Nat) :
    (r.attend actor scene index).machines = r.machines := by
  unfold attend
  rw [← machines_send actor r index]
  generalize r.send actor index = r
  dsimp only
  split
  · exact machines_modify r.roles index (fun _ => rfl) fun _ => rfl
  · exact machines_atOnce ..
  · split <;> exact machines_atOnce ..
  · split
    · exact machines_atOnce ..
    · exact machines_queue ..
  · split
    · exact machines_atOnce ..
    · split
      · exact machines_atOnce ..
      · exact machines_queue ..
  · exact machines_queue ..

@[simp] theorem machines_askPeer (scene : Scene) (r : Rehearsal σ) (index peer timeout : Nat) :
    (r.askPeer scene index peer timeout).machines = r.machines := by
  unfold askPeer
  split
  · dsimp only
    split
    · exact machines_modify r.roles index (fun _ => rfl) fun _ => rfl
    · split
      · exact machines_queue ..
      · exact machines_modify r.roles index (fun _ => rfl) fun _ => rfl
  · rfl

omit [Crypto] in
@[simp] theorem machines_accept (r : Rehearsal σ) (index : Nat) (summary : Summary)
    (promised : Option (Option Bool)) :
    (r.accept index summary promised).machines = r.machines := by
  unfold accept
  rw [machines_queue]
  exact machines_modify r.roles index (fun _ => rfl) fun _ => rfl

@[simp] theorem machines_askCoordinator (scene : Scene) (r : Rehearsal σ) (index : Nat)
    (summary : Summary) : (r.askCoordinator scene index summary).machines = r.machines := by
  unfold askCoordinator
  dsimp only
  split
  · exact machines_accept ..
  · exact machines_accept ..
  · exact machines_queue ..

@[simp] theorem machines_arrive (actor : Actor σ) (scene : Scene) (r : Rehearsal σ) (index : Nat) :
    (r.arrive actor scene index).machines = r.machines := by
  unfold arrive
  split
  · exact machines_askPeer ..
  · exact machines_askCoordinator ..
  · rfl

theorem machines_foldl_arrive (actor : Actor σ) (scene : Scene) (r : Rehearsal σ)
    (senders : List Nat) : (senders.foldl (arrive actor scene) r).machines = r.machines := by
  induction senders generalizing r with
  | nil => rfl
  | cons sender rest ih => rw [List.foldl_cons, ih, machines_arrive]

omit [Crypto] in
@[simp] theorem machines_enter (r : Rehearsal σ) (stage : σ) (transaction : Hash) :
    (r.enter stage transaction).machines = r.machines ++ [(stage, transaction)] := by
  unfold enter
  rw [machines_queue, machines, List.map_append]
  rfl

/-- One of the machines went on, as it can, or all of them stand where they stood. -/
inductive Goes (actor : Actor σ) (machines : List (σ × Hash)) : List (σ × Hash) → Prop
  | stays : Goes actor machines machines
  | moves {index : Nat} {stage next : σ} {transaction : Hash} {h : Happening}
      (hmachine : machines[index]? = some (stage, transaction))
      (hafter : actor.after stage h = some next) :
      Goes actor machines (machines.set index (next, transaction))

theorem goes_advance (actor : Actor σ) (scene : Scene) (r : Rehearsal σ) (index : Nat)
    (h : Happening) : Goes actor r.machines (r.advance actor scene index h).machines := by
  unfold advance
  split
  · exact .stays
  · rename_i role hrole
    have hmachine : r.machines[index]? = some (role.stage, role.transaction) := by
      rw [machines, List.getElem?_map, hrole, Option.map_some]
    split
    · have hset : ({ r with roles := r.roles.set index { role with turn := none } }).machines =
          r.machines :=
        map_set_of_same (fun role : Role σ => (role.stage, role.transaction)) hrole rfl
      rw [hset]
      exact .stays
    · rename_i next hafter
      rw [machines_attend]
      have hset : ({ r with roles := r.roles.set index { role with stage := next } }).machines =
          r.machines.set index (next, role.transaction) := List.map_set
      rw [hset]
      exact .moves hmachine hafter

theorem goes_take (actor : Actor σ) (scene : Scene) (r : Rehearsal σ) (index : Nat) (turn : Turn) :
    Goes actor r.machines (r.take actor scene index turn).machines := by
  unfold take
  dsimp only
  split
  · rw [machines_attend]
    exact .stays
  · exact goes_advance actor scene { r with now := turn.moment } index _
  · exact goes_advance actor scene { r with now := turn.moment } index _
  · rw [machines_foldl_arrive]
    exact .stays
  · rw [machines_queue]
    exact .stays
  · rw [machines_queue]
    exact .stays

/-- What every step of a machine keeps true is true at the end if it was at the start. -/
theorem runUntil_induction {actor : Actor σ} {P : List (σ × Hash) → Prop}
    (hgoes : ∀ machines later, P machines → Goes actor machines later → P later)
    (scene : Scene) (keeper : Keeper) (first deadline turns : Nat) (r : Rehearsal σ)
    (h : P r.machines) : P (runUntil actor scene keeper first deadline turns r).machines := by
  induction turns generalizing r with
  | zero => exact h
  | succ turns ih =>
    unfold runUntil
    dsimp only
    split
    · exact h
    · split
      · exact ih _ (hgoes _ _ h (goes_take actor scene r _ _))
      · exact h

omit [Crypto] in
theorem machines_foldl_enter (stages : List (σ × Hash)) (r : Rehearsal σ) :
    (stages.foldl (fun r e => r.enter e.1 e.2) r).machines = r.machines ++ stages := by
  induction stages generalizing r with
  | nil => exact (List.append_nil _).symm
  | cons stage rest ih =>
    rw [List.foldl_cons, ih, machines_enter, List.append_assoc]
    rfl

/-- The machines of a performance went on from where they were brought on. -/
theorem perform_induction {actor : Actor σ} {P : List (σ × Hash) → Prop}
    (hgoes : ∀ machines later, P machines → Goes actor machines later → P later)
    (scene : Scene) (keeper : Keeper) (peers limit : Nat) (stages : List (σ × Hash))
    (r : Rehearsal σ) (h : P (r.machines ++ stages)) :
    P (r.perform actor scene keeper peers limit stages).machines := by
  unfold perform
  dsimp only
  apply runUntil_induction hgoes
  rw [machines_foldl_enter]
  exact h

end Rehearsal

/-! ## More numbers -/

namespace Flight

variable {s : Sentinel} {f next : Flight} {index : Nat} {e : Handling} {es : List FlightEvent}

/-- The flight when the selector is going to give more numbers. -/
def given (f : Flight) (more : List Nat) : Flight := { f with randoms := f.randoms ++ more }

omit [Crypto] in
theorem given_given (f : Flight) (more later : List Nat) :
    (f.given more).given later = f.given (more ++ later) := by
  unfold given
  rw [List.append_assoc]

omit [Crypto] in
theorem take_given (h : f.take index e = some next) (more : List Nat) :
    (f.given more).take index e = some (next.given more) := by
  unfold take given at *
  split at h
  · cases h
  · rename_i random rest hrandoms
    cases h
    simp [hrandoms]

theorem decide_given (h : f.decide s index e = some next) (more : List Nat) :
    (f.given more).decide s index e = some (next.given more) := by
  unfold decide at h ⊢
  split at h
  · split at h
    · cases h
      rfl
    · exact take_given h more
  · cases h

/-- The numbers that come later are no matter to what happens now. -/
theorem after_given {event : FlightEvent} (h : f.after s event = some next) (more : List Nat) :
    (f.given more).after s event = some (next.given more) := by
  cases event with
  | begins t =>
    cases h
    rfl
  | decides index =>
    obtain ⟨e, he, hdecide⟩ := Option.bind_eq_some_iff.1 h
    exact Option.bind_eq_some_iff.2 ⟨e, he, decide_given hdecide more⟩
  | meets index happening =>
    obtain ⟨e, he, hmeets⟩ := Option.bind_eq_some_iff.1 h
    refine Option.bind_eq_some_iff.2 ⟨e, he, ?_⟩
    split at hmeets
    · cases hmeets
    · rename_i hdraw
      obtain ⟨stage, hgoes, rfl⟩ := Option.map_eq_some_iff.1 hmeets
      rw [if_neg hdraw, hgoes]
      rfl

theorem reach_given (h : Run.reach (after s) f es = some next) (more : List Nat) :
    Run.reach (after s) (f.given more) es = some (next.given more) := by
  induction es generalizing f with
  | nil =>
    cases h
    rfl
  | cons event rest ih =>
    obtain ⟨between, hbetween, hrest⟩ := Option.bind_eq_some_iff.1 h
    exact Run.reach_cons (after_given hbetween more) (ih hrest)

/-- One event that takes no number from those to come. -/
theorem reach_one {event : FlightEvent} (h : f.after s event = some next) :
    Run.reach (after s) (f.given []) [event] = some (next.given []) :=
  Run.reach_cons (after_given h []) rfl

omit [Crypto] in
theorem randoms_given_nil (h : f.randoms = []) : (f.given []).randoms = [] :=
  (List.append_nil _).trans h

/-! ## Decisions -/

theorem after_decides_of_enough {p : Progress} {stage : Gathering}
    (he : f.handlings[index]? = some e) (hdeciding : e.stage = .gathering (.deciding p))
    (henough : Gathering.decide s.gatherer p e.taken = some stage) :
    f.after s (.decides index) = some (f.moveTo index e (.ofGathering stage)) := by
  simp [after, he, decide, hdeciding, henough]

theorem after_decides_of_few {p : Progress} (he : f.handlings[index]? = some e)
    (hdeciding : e.stage = .gathering (.deciding p))
    (hfew : Gathering.decide s.gatherer p e.taken = none) :
    f.after s (.decides index) = f.take index e := by
  simp [after, he, decide, hdeciding, hfew]

theorem after_meets {happening : Happening} {stage : Execution} (he : f.handlings[index]? = some e)
    (hdraw : happening.isDraw = false) (hgoes : e.stage.after s.gatherer happening = some stage) :
    f.after s (.meets index happening) = some (f.moveTo index e stage) := by
  simp [after, he, hdraw, hgoes]

/-- What was drawn at once is drawn one number at a time, as many of them as it takes to decide. -/
theorem exists_decides {p : Progress} {stage : Gathering} {numbers : List Nat}
    (hrandoms : f.randoms = []) (he : f.handlings[index]? = some e)
    (hdeciding : e.stage = .gathering (.deciding p))
    (h : Gathering.decide s.gatherer p (e.taken ++ numbers) = some stage) :
    ∃ used es next, Run.reach (after s) (f.given used) es = some next ∧ next.randoms = [] ∧
      next.handlings = f.handlings.set index ⟨e.transaction, .ofGathering stage, []⟩ := by
  induction numbers generalizing f e with
  | nil =>
    rw [List.append_nil] at h
    have hdecides := reach_one (after_decides_of_enough he hdeciding h)
    exact ⟨[], _, _, hdecides, randoms_given_nil (f := f.moveTo ..) hrandoms, rfl⟩
  | cons number rest ih =>
    cases hdecide : Gathering.decide s.gatherer p e.taken with
    | some other =>
      -- The numbers so far are enough, and those to come change nothing.
      have hsame := (Gathering.decide_append hdecide (number :: rest)).symm.trans h
      obtain rfl : other = stage := Option.some.inj hsame
      have hdecides := reach_one (after_decides_of_enough he hdeciding hdecide)
      exact ⟨[], _, _, hdecides, randoms_given_nil (f := f.moveTo ..) hrandoms, rfl⟩
    | none =>
      have hindex := (List.getElem?_eq_some_iff.1 he).1
      have htake : (f.given [number]).take index e =
          some ⟨[], f.handlings.set index { e with taken := e.taken ++ [number] },
            f.drawn ++ [(index, number)], f.sent⟩ := by
        simp [take, given, hrandoms]
      have hafter := (after_decides_of_few (f := f.given [number]) he hdeciding hdecide).trans htake
      obtain ⟨used, es, next, hreach, hnone, hhandlings⟩ := ih
        (f := ⟨[], f.handlings.set index { e with taken := e.taken ++ [number] },
            f.drawn ++ [(index, number)], f.sent⟩)
        rfl (List.getElem?_set_self hindex) hdeciding (by simpa using h)
      have hall := after_given hafter used
      rw [given_given] at hall
      refine ⟨[number] ++ used, _, next, Run.reach_cons hall hreach, hnone, ?_⟩
      rw [hhandlings, List.set_set]

/-! ## Rehearsals are flights -/

/-- The handlings are these machines, and none of them is in the middle of a decision. -/
structure Shows (f : Flight) (machines : List (Execution × Hash)) : Prop where
  machines : f.handlings.map (fun e => (e.stage, e.transaction.id)) = machines
  taken : ∀ e ∈ f.handlings, e.taken = []

/-- Some numbers and some events make these machines of a sentinel with nothing in flight. -/
def Shown (s : Sentinel) (machines : List (Execution × Hash)) : Prop :=
  ∃ randoms es f, run s randoms es = some f ∧ f.randoms = [] ∧ f.Shows machines

variable {machines : List (Execution × Hash)}

theorem Shown.enter (h : Shown s machines) (t : Transaction) :
    Shown s (machines ++ [(s.execute t, t.id)]) := by
  obtain ⟨randoms, es, f, hrun, hnone, hmachines, htaken⟩ := h
  refine ⟨randoms, es ++ [.begins t], f.add s t,
    (Run.reach_append_singleton _).2 ⟨f, hrun, rfl⟩, hnone, ?_, ?_⟩
  · rw [add, List.map_append, hmachines]
    rfl
  · intro e he
    rcases List.mem_append.1 he with he | he
    · exact htaken e he
    · rw [List.mem_singleton.1 he]

/-- The flight goes on with what the machines do. -/
theorem Shown.reach {later : List (Execution × Hash)} {randoms : List Nat}
    (hrun : run s randoms es = some f) {used : List Nat} {more : List FlightEvent}
    (hreach : Run.reach (after s) (f.given used) more = some next) (hrest : next.randoms = [])
    (hshows : next.Shows later) : Shown s later := by
  have hstart : (start randoms).given used = start (randoms ++ used) := rfl
  have hgiven := reach_given hrun used
  rw [hstart] at hgiven
  exact ⟨randoms ++ used, es ++ more, next,
    Run.reach_append_eq_some.2 ⟨_, hgiven, hreach⟩, hrest, hshows⟩

theorem Shows.set {stage : Execution} (h : f.Shows machines)
    (hhandlings : next.handlings = f.handlings.set index ⟨e.transaction, stage, []⟩) :
    next.Shows (machines.set index (stage, e.transaction.id)) := by
  refine ⟨?_, ?_⟩
  · rw [hhandlings, List.map_set, h.machines]
  · intro o ho
    rw [hhandlings] at ho
    rcases List.mem_or_eq_of_mem_set ho with ho | rfl
    · exact h.taken o ho
    · rfl

/-- Nothing is drawn but for a decision. -/
theorem decided_of_drew {g : Gatherer} {stage following : Execution} {numbers : List Nat}
    (h : stage.after g (.drew numbers) = some following) :
    ∃ p decided, stage = .gathering (.deciding p) ∧
      Gathering.decide g p numbers = some decided ∧ following = .ofGathering decided := by
  cases stage with
  | gathering stage =>
    obtain ⟨decided, hdecided, rfl⟩ := Option.map_eq_some_iff.1 h
    cases stage with
    | deciding p => exact ⟨p, decided, rfl, hdecided, rfl⟩
    | asking p peer | pausing p milliseconds | ended result => cases hdecided
  | submitting stage =>
    obtain ⟨later, hlater, _⟩ := Option.map_eq_some_iff.1 h
    cases stage <;> cases hlater
  | answered verdict => cases h

theorem Shown.goes {later : List (Execution × Hash)} (h : Shown s machines)
    (hgoes : Rehearsal.Goes s.actor machines later) : Shown s later := by
  cases hgoes with
  | stays => exact h
  | @moves index stage following transaction happening hmachine hafter =>
    obtain ⟨randoms, es, f, hrun, hnone, hshows⟩ := h
    rw [← hshows.machines, List.getElem?_map] at hmachine
    obtain ⟨e, he, hview⟩ := Option.map_eq_some_iff.1 hmachine
    cases hview
    replace hafter : e.stage.after s.gatherer happening = some following := hafter
    cases hdraw : happening.isDraw with
    | true =>
      cases happening with
      | drew numbers =>
        obtain ⟨p, decided, hstage, hdecided, rfl⟩ := decided_of_drew hafter
        have hidle := hshows.taken e (List.mem_of_getElem? he)
        rw [← List.nil_append numbers, ← hidle] at hdecided
        obtain ⟨used, more, next, hreach, hrest, hhandlings⟩ :=
          exists_decides hnone he hstage hdecided
        exact Shown.reach hrun hreach hrest (hshows.set hhandlings)
      | replied _ | rested | refused | accepted | concluded _ | dropped => cases hdraw
    | false =>
      have hmeets := after_meets he hdraw hafter
      exact Shown.reach hrun (reach_one hmeets) (randoms_given_nil (f := f.moveTo ..) hnone)
        (hshows.set rfl)

theorem Shown.perform {r : Rehearsal Execution} (h : Shown s r.machines) (scene : Scene)
    (keeper : Keeper) (peers limit : Nat) (ts : List Transaction) :
    Shown s (r.perform s.actor scene keeper peers limit
      (ts.map fun t => (s.execute t, t.id))).machines := by
  apply Rehearsal.perform_induction (fun _ _ h hgoes => h.goes hgoes)
  induction ts using List.reverseRecOn with
  | nil => simpa using h
  | append_singleton ts t ih =>
    rw [List.map_append, List.map_singleton, ← List.append_assoc]
    exact ih.enter t

/-- A sentinel at work keeps to what it could do in flight. -/
theorem Shown.work {r : Rehearsal Execution} (h : Shown s r.machines) (scene : Scene) (limit : Nat)
    (requests : List Request) : Shown s (s.work scene limit requests r).2.machines := by
  unfold Sentinel.work
  by_cases hlimit : limit = 0
  · rw [if_pos hlimit]
    exact h
  · rw [if_neg hlimit]
    exact h.perform scene .themselves s.gatherer.peers limit (Sentinel.executions requests)

end Flight

/-- A sentinel that worked on requests, and then on others, each time in some scene. -/
inductive Sentinel.Rehearsed (s : Sentinel) : Rehearsal Execution → Prop
  | start (scene : Scene) : Rehearsed s (.start scene)
  | works {r : Rehearsal Execution} (scene : Scene) (limit : Nat) (requests : List Request)
      (h : Rehearsed s r) : Rehearsed s (s.work scene limit requests r).2

theorem Sentinel.Rehearsed.shown {s : Sentinel} {r : Rehearsal Execution} (h : s.Rehearsed r) :
    Flight.Shown s r.machines := by
  induction h with
  | start scene => exact ⟨[], [], .start [], rfl, rfl, rfl, by simp [Flight.start]⟩
  | works scene limit requests _ ih => exact ih.work scene limit requests

end Admission
