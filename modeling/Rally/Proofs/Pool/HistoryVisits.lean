import Rally.Proofs.Pool.HookVisits
import Rally.Proofs.Threads.Fifo
/-!
# Histories as visits

As long as a rank has not failed, its history is that of visits, one after the other: first the setups
of its components, then the events that it dispatched. They lead from its components before the run to
those that it has in front of its finish hooks, they post and take what the history tells, and an event
between two components of the rank is posted before it is dispatched.
-/

namespace Rally

variable {C : Type} {n : Nat} {plan : Plan n} {links : Array Link}

/-- The setups of the components among some positions. -/
def setupsOf (seats : Seats C) (ids : List ComponentId) : List Cause :=
  (ids.filter fun id => (seats id).isSome).map .setup

/-- Whether causes are those of a thread that has come so far: the setups of its components, and then
events. -/
def Begun (seats : Seats C) (count : Nat) (phase : Phase) (causes : List Cause) : Prop :=
  ∃ (done : List ComponentId) (entries : List (Instant × Delivery)),
    causes = setupsOf seats done ++ entries.map .event ∧
    (¬ phase.isStarting → done = List.range count) ∧
    ∀ rest, phase = .starting rest → List.range count = done ++ rest ∧ entries = []

namespace Begun

variable {seats : Seats C} {count : Nat} {causes : List Cause}

/-- A thread that does not call setup hooks has called all of them. -/
theorem whole {phase : Phase} (begun : Begun seats count phase causes)
    (further : ¬ phase.isStarting) :
    ∃ entries : List (Instant × Delivery),
      causes = setupsOf seats (List.range count) ++ entries.map .event := by
  obtain ⟨done, entries, same, all, -⟩ := begun
  rw [all further] at same
  exact ⟨entries, same⟩

/-- Such causes are the setups up to some position, and events come only behind the last setup. -/
theorem exists_split {phase : Phase} (begun : Begun seats count phase causes) :
    ∃ (done rest : List ComponentId) (entries : List (Instant × Delivery)),
      causes = setupsOf seats done ++ entries.map .event ∧ List.range count = done ++ rest ∧
      (rest ≠ [] → entries = []) ∧ (¬ phase.isStarting → rest = []) := by
  obtain ⟨done, entries, same, all, part⟩ := begun
  by_cases starting : phase.isStarting
  · cases phase with
    | starting rest =>
      obtain ⟨split, none⟩ := part rest rfl
      exact ⟨done, rest, entries, same, split, fun _ => none, fun further => absurd starting further⟩
    | _ => exact starting.elim
  · exact ⟨done, [], entries, same, by rw [all starting, List.append_nil],
      fun some => absurd rfl some, fun _ => rfl⟩

/-- All setup hooks have been called where the thread calls none any more. -/
theorem of_whole {phase : Phase} {entries : List (Instant × Delivery)}
    (same : causes = setupsOf seats (List.range count) ++ entries.map .event)
    (further : ¬ phase.isStarting) : Begun seats count phase causes :=
  ⟨_, entries, same, fun _ => rfl, fun rest starting => absurd (by rw [starting]; trivial) further⟩

end Begun

/-- Whether an event between two components of a rank was posted before the visit that takes it. -/
def CausalIn (links : Array Link) (id : RankId) (visits : List Visit) : Prop :=
  ∀ former visit latter entry, visits = former ++ visit :: latter → visit.cause = .event entry →
    ∀ way : Way, (way.near links).rank = id → (way.far links).rank = id →
      (takenBy former ++ [entry]).filter way.bears <+: (postedBy links former).filter way.bears

/-- A visit behind others is causal where what it takes was posted before. -/
theorem CausalIn.behind {id : RankId} {visits : List Visit} {visit : Visit}
    (causal : CausalIn links id visits)
    (last : ∀ entry, visit.cause = .event entry →
      ∀ way : Way, (way.near links).rank = id → (way.far links).rank = id →
        (takenBy visits ++ [entry]).filter way.bears <+:
          (postedBy links visits).filter way.bears) :
    CausalIn links id (visits ++ [visit]) := by
  intro former other latter entry split same way near far
  rcases List.eq_nil_or_concat latter with rfl | ⟨rest, final, rfl⟩
  · obtain ⟨rfl, one⟩ := List.append_inj' split rfl
    obtain rfl : visit = other := List.head_eq_of_cons_eq one
    exact last entry same way near far
  · rw [List.concat_eq_append, ← List.cons_append, ← List.append_assoc] at split
    obtain ⟨whole, -⟩ := List.append_inj' split rfl
    exact causal former other rest entry whole same way near far

/-- An event that is dispatched is the next one of its way, and was handed to the link before. -/
theorem System.Flowing.posted_before {system : System C n} {index : Fin n}
    (flowing : system.Flowing plan links) (covers : plan.Covers links)
    (distinct : Function.Injective plan.ids) (steady : system.Steady plan links)
    (before : (system.threads index).unsent = (system.threads index).rank.outgoing.reverse)
    {event : Scheduled Delivery} {pending : EventSet Delivery}
    (taken : (system.threads index).rank.pending.pop? = some (event, pending)) {way : Way}
    {near : Fin n} (source : plan.ids near = (way.near links).rank)
    (goal : plan.ids index = (way.far links).rank) :
    (takenOf (system.threads index).history ++ [event.entry]).filter way.bears <+:
      (postedOf links (system.threads near).history).filter way.bears := by
  have routed := flowing.addressed.routed steady before
  have conserved := flowing.conserved way near index source goal
  have received := (flowing.flows covers distinct steady way index).received
  obtain ⟨rest, waits⟩ := routed.waiting_pop taken (List.pairwise_append.mp received).2.1
  rw [← way.sent_eq_filter, ← conserved, System.passed, List.filter_append,
    ← way.arrived_eq_filter, ← waits, ← List.append_assoc, List.append_assoc]
  exact List.prefix_append _ _

variable [Component C]

namespace Thread

variable {view : View n} {thread next : Thread C} {effect : Effect n}

/-- Whether neither the rank of a thread among others has failed nor a single one. -/
structure Sound (plan : Plan n) (thread : Thread C) : Prop where
  /-- The rank has not failed. -/
  healthy : thread.worker.failure = none
  /-- A single rank has not ended with a failure. -/
  alone : plan.alone = true → ∀ halt, thread.phase ≠ .ended (.error halt)

/-- A step from within a window of a thread that does not fail. -/
inductive Works (plan : Plan n) (thread next : Thread C) : Prop where
  /-- All setup hooks have been called. -/
  | readied (before : thread.phase = .starting []) (behind : next.phase = .opening)
      (rank : next.rank = thread.rank) (history : next.history = thread.history)
  /-- A setup hook is called. -/
  | started {id : ComponentId} {rest : List ComponentId}
      (before : thread.phase = .starting (id :: rest)) (behind : next.phase = .starting rest)
      (called : thread.rank.setup id = (next.rank, none))
      (history : next.history = thread.history ++ thread.rank.setupDeeds id)
  /-- A window is opened. -/
  | opened (before : thread.phase = .opening) (behind : next.phase = .dispatching)
      (seats : next.rank.seats = thread.rank.seats) (history : next.history = thread.history)
  /-- An event is dispatched. -/
  | dispatched {event : Scheduled Delivery} {pending : EventSet Delivery}
      (before : thread.phase = .dispatching) (behind : next.phase = .dispatching)
      (taken : thread.rank.pending.pop? = some (event, pending))
      (called : Rank.dispatch event { thread.rank with pending } = (next.rank, none))
      (history : next.history = thread.history ++ thread.rank.dispatchDeeds event pending)
  /-- A rank stops to dispatch. -/
  | stopped (before : thread.phase = .dispatching) (behind : ¬ next.phase.inWindow)
      (seats : next.rank.seats = thread.rank.seats) (history : next.history = thread.history)

/-- A thread that calls its next setup hook and does not fail. -/
theorem works_startNext {rest : List ComponentId} (phase : thread.phase = .starting rest)
    (sound : (thread.startNext plan.alone rest).Sound plan) :
    thread.worker.failure = none ∧ thread.Works plan (thread.startNext plan.alone rest) := by
  obtain ⟨healthy, alone⟩ := sound
  cases rest with
  | nil => exact ⟨healthy, .readied phase rfl rfl rfl⟩
  | cons id rest =>
    rw [startNext] at alone healthy ⊢
    cases called : thread.rank.setup id with
    | mk rank halt =>
      cases halt with
      | none =>
        simp only [called] at healthy ⊢
        exact ⟨healthy, .started phase rfl called rfl⟩
      | some halt =>
        simp only [called] at alone healthy
        cases single : plan.alone with
        | false =>
          rw [single, if_neg Bool.false_ne_true] at healthy
          cases healthy
        | true =>
          rw [single, if_pos rfl] at alone
          exact absurd rfl (alone rfl halt)

/-- A thread that opens its window and has not failed. -/
theorem works_openWindow (phase : thread.phase = .opening)
    (sound : (thread.openWindow plan).Sound plan) :
    thread.worker.failure = none ∧ thread.Works plan (thread.openWindow plan) := by
  have healthy := sound.healthy
  rw [openWindow] at healthy ⊢
  cases single : plan.alone with
  | true =>
    rw [single, if_pos rfl] at healthy
    rw [if_pos rfl]
    exact ⟨healthy, .opened phase rfl rfl rfl⟩
  | false =>
    rw [single, if_neg Bool.false_ne_true] at healthy
    rw [if_neg Bool.false_ne_true]
    cases failed : thread.worker.failure with
    | some error =>
      rw [failed, if_pos Option.isSome_some] at healthy
      exact absurd (failed.symm.trans healthy) (Option.some_ne_none error)
    | none =>
      rw [if_neg (by simp only [Option.isSome_none, Bool.false_eq_true, not_false_eq_true])]
      exact ⟨rfl, .opened phase rfl rfl rfl⟩

/-- A thread that dispatches its next event, or stops, and does not fail. -/
theorem works_dispatchNext (phase : thread.phase = .dispatching)
    (sound : (thread.dispatchNext plan).Sound plan) :
    thread.worker.failure = none ∧ thread.Works plan (thread.dispatchNext plan) := by
  obtain ⟨healthy, alone⟩ := sound
  rw [dispatchNext] at alone healthy ⊢
  cases turn : thread.rank.turn (plan.bound thread.start) (plan.byVote thread.round) with
  | error stop =>
    simp only [turn, Thread.stopped] at healthy ⊢
    cases single : plan.alone with
    | true =>
      rw [single, if_pos rfl] at healthy
      rw [if_pos rfl]
      exact ⟨healthy, .stopped phase (fun inside => inside) rfl rfl⟩
    | false =>
      rw [single, if_neg Bool.false_ne_true] at healthy
      rw [if_neg Bool.false_ne_true]
      exact ⟨healthy, .stopped phase (fun inside => inside) rfl rfl⟩
  | ok taken =>
    obtain ⟨event, pending⟩ := taken
    simp only [turn] at alone healthy ⊢
    cases called : Rank.dispatch event { thread.rank with pending } with
    | mk rank halt =>
      cases halt with
      | none =>
        simp only [called] at healthy ⊢
        exact ⟨healthy, .dispatched phase phase (Rank.turn_ok turn).1 called rfl⟩
      | some halt =>
        simp only [called, halted] at alone healthy
        cases single : plan.alone with
        | false =>
          rw [single, if_neg Bool.false_ne_true] at healthy
          cases healthy
        | true =>
          rw [single, if_pos rfl] at alone
          exact absurd rfl (alone rfl halt)

/-- What a thread does in a step from within a window, where it does not fail. -/
theorem works_of_step (before : thread.phase.inWindow)
    (stepped : thread.step plan view = some (next, effect)) (sound : next.Sound plan) :
    thread.worker.failure = none ∧ thread.Works plan next := by
  cases steps_of_step stepped with
  | starts phase => exact works_startNext phase sound
  | opens phase => exact works_openWindow phase sound
  | dispatches phase => exact works_dispatchNext phase sound
  | posts phase | postsAll phase | loses phase | arrives phase | passes phase | takes phase
  | schedules phase | publishes phase | reads phase | decides phase | finishes phase =>
    rw [phase] at before
    exact before.elim

omit [Component C] in
/-- What a thread decides does not fail its rank. -/
theorem failure_decide (read : List RankStatus) :
    (thread.decide read).worker.failure = thread.worker.failure := by
  rw [Thread.decide]
  cases decision read <;> rfl

/-- Nor does a finish hook. -/
theorem failure_finishNext (reason : Termination) (rest : List ComponentId) :
    (thread.finishNext reason rest).worker.failure = thread.worker.failure := by
  cases rest with
  | nil => rfl
  | cons id rest =>
    rw [finishNext]
    cases called : thread.rank.finishOne id with
    | mk rank halt => cases halt <;> rfl

/-- A rank fails in its windows alone, or where its thread posts parcels. -/
theorem failure_of_step (outside : ¬ thread.phase.inWindow)
    (stepped : thread.step plan view = some (next, effect)) :
    next.worker.failure = thread.worker.failure ∨
      next.worker.failure ≠ none ∧ ∃ rest, thread.phase = .posting rest := by
  cases steps_of_step stepped with
  | starts before | opens before | dispatches before =>
    rw [before] at outside
    exact absurd trivial outside
  | loses before => exact Or.inr ⟨Option.some_ne_none _, _, before⟩
  | @decides read => exact Or.inl (failure_decide read)
  | @finishes reason rest => exact Or.inl (failure_finishNext reason rest)
  | posts | postsAll | arrives | passes | takes | schedules | publishes | reads => exact Or.inl rfl

/-- A thread that has not failed behind a step had not before. -/
theorem Sound.before (sound : next.Sound plan)
    (stepped : thread.step plan view = some (next, effect)) : thread.Sound plan := by
  refine ⟨?_, fun _ halt ended => ?_⟩
  · by_cases window : thread.phase.inWindow
    · exact (works_of_step window stepped sound).1
    · rcases failure_of_step window stepped with same | ⟨failed, -⟩
      · rw [← same]
        exact sound.healthy
      · exact absurd sound.healthy failed
  · exact absurd ended (not_ended_of_step stepped _)

/-- A step of a thread that does not fail dispatches nothing, or the next event. -/
theorem takes_of_step (stepped : thread.step plan view = some (next, effect))
    (sound : next.Sound plan) (known : thread.rank.links = links)
    (began : thread.phase.isStarting → thread.rank.now = Instant.zero) :
    takenOf next.history = takenOf thread.history ∨
      thread.phase.inWindow ∧ ∃ event pending,
        thread.rank.pending.pop? = some (event, pending) ∧
          takenOf next.history = takenOf thread.history ++ [event.entry] := by
  by_cases window : thread.phase.inWindow
  · cases (works_of_step window stepped sound).2 with
    | readied _ _ _ history | opened _ _ _ history | stopped _ _ _ history =>
      exact Or.inl (by rw [history])
    | @started id rest before behind called history =>
      left
      rw [history, takenOf_append]
      cases owned : thread.rank.slot? id with
      | none =>
        rw [Rank.setupDeeds]
        simp only [owned]
        exact List.append_nil _
      | some slot =>
        obtain ⟨-, -, -, -, none⟩ := @Rank.visit_of_setup _ _ links _ _ _ _ owned
          (began (by rw [before]; trivial)) called
        rw [none, List.append_nil]
    | @dispatched event pending before behind taken called history =>
      obtain ⟨-, -, -, -, took⟩ := Rank.visit_of_dispatch known called
      exact Or.inr ⟨window, event, pending, taken, by rw [history, takenOf_append, took]⟩
  · left
    cases moves_of_step stepped with
    | worked worker phase before => exact absurd before window
    | @scheduled taken before inbox =>
      have none := (@Rank.addDeeds_posted #[] (taken.mergeSort Parcel.le)
        thread.rank.pending).2
      change takenOf (thread.history ++ thread.rank.receiveDeeds taken) = _
      rw [takenOf_append, Rank.receiveDeeds, none, List.append_nil]
    | concluded | finished => rfl
    | _ => rfl

/-- Whether the history of a thread is that of visits on a rank. -/
structure Replays (links : Array Link) (id : RankId) (first : Rank C) (visits : List Visit)
    (thread : Thread C) : Prop where
  /-- The visits lead to the components of the rank in front of its finish hooks. -/
  path : ∃ last, Path links first.seats visits last ∧
    (¬ thread.phase.isOver → thread.rank.seats = last)
  /-- They post what the history hands to links. -/
  posted : postedOf links thread.history = postedBy links visits
  /-- They take what it dispatches. -/
  taken : takenOf thread.history = takenBy visits
  /-- Setups come first. -/
  begun : Begun first.seats first.slots.size thread.phase (visits.map Visit.cause)
  /-- What is taken was posted before. -/
  causal : CausalIn links id visits

namespace Replays

variable {id : RankId} {first : Rank C} {visits : List Visit}

/-- Where neither components nor posted and taken messages change, the visits stay the same. -/
theorem of_same (replays : thread.Replays links id first visits)
    (seats : ¬ next.phase.isOver → next.rank.seats = thread.rank.seats ∧ ¬ thread.phase.isOver)
    (posted : postedOf links next.history = postedOf links thread.history)
    (taken : takenOf next.history = takenOf thread.history)
    (further : ¬ thread.phase.isStarting) (behind : ¬ next.phase.isStarting) :
    next.Replays links id first visits := by
  obtain ⟨entries, same⟩ := replays.begun.whole further
  obtain ⟨last, path, there⟩ := replays.path
  refine ⟨⟨last, path, fun going => ?_⟩, posted.trans replays.posted, taken.trans replays.taken,
    .of_whole same behind, replays.causal⟩
  obtain ⟨still, before⟩ := seats going
  exact still.trans (there before)

/-- A hook that does not fail is one more visit. -/
theorem visited (replays : thread.Replays links id first visits) (going : ¬ thread.phase.isOver)
    {visit : Visit} {deeds : List Deed}
    (leads : visit.Leads links thread.rank.seats next.rank.seats)
    (history : next.history = thread.history ++ deeds)
    (posted : postedOf links deeds = visit.posted links)
    (taken : takenOf deeds = visit.cause.taken)
    (begun : Begun first.seats first.slots.size next.phase (visits.map Visit.cause ++ [visit.cause]))
    (causal : ∀ entry, visit.cause = .event entry →
      ∀ way : Way, (way.near links).rank = id → (way.far links).rank = id →
        (takenOf thread.history ++ [entry]).filter way.bears <+:
          (postedOf links thread.history).filter way.bears) :
    next.Replays links id first (visits ++ [visit]) := by
  obtain ⟨last, path, there⟩ := replays.path
  obtain rfl := there going
  refine ⟨⟨_, path.behind leads, fun _ => rfl⟩, ?_, ?_, ?_, replays.causal.behind ?_⟩
  · rw [history, postedOf_append, replays.posted, posted, postedBy_append, postedBy_singleton]
  · rw [history, takenOf_append, replays.taken, taken, takenBy_append, takenBy_singleton]
  · rw [List.map_append]
    exact begun
  · rw [← replays.posted, ← replays.taken]
    exact causal

/-- A setup hook that does not fail is one more visit, where its component is on the rank. -/
theorem starts (replays : thread.Replays links id first visits) {component : ComponentId}
    {rest : List ComponentId} (before : thread.phase = .starting (component :: rest))
    (behind : next.phase = .starting rest)
    (called : thread.rank.setup component = (next.rank, none))
    (history : next.history = thread.history ++ thread.rank.setupDeeds component)
    (began : thread.rank.now = Instant.zero) : ∃ more, next.Replays links id first more := by
  obtain ⟨done, entries, same, -, whole⟩ := replays.begun
  obtain ⟨all, rfl⟩ := whole _ before
  have split : List.range first.slots.size = done ++ [component] ++ rest := by
    rw [all, List.append_assoc]
    rfl
  obtain ⟨last, path, there⟩ := replays.path
  have going : ¬ thread.phase.isOver := by
    rw [before]
    exact not_false
  obtain rfl := there going
  have place : (thread.rank.seats component).isSome = (first.seats component).isSome :=
    path.isSome_eq component
  have progress : ∀ causes, causes = setupsOf first.seats (done ++ [component]) →
      Begun first.seats first.slots.size next.phase causes := by
    rintro causes rfl
    refine ⟨done ++ [component], [], (List.append_nil _).symm, fun further => ?_, ?_⟩
    · rw [behind] at further
      exact absurd trivial further
    · rw [behind]
      rintro _ ⟨⟩
      exact ⟨split, rfl⟩
  rw [List.map_nil, List.append_nil] at same
  cases owned : thread.rank.slot? component with
  | none =>
    rw [Rank.setup] at called
    rw [Rank.setupDeeds] at history
    simp only [owned] at called history
    have still : next.rank = thread.rank := (Prod.mk.inj called).1.symm
    rw [Rank.seats, owned] at place
    refine ⟨visits, ⟨_, path, fun _ => by rw [still]⟩, ?_, ?_, progress _ ?_, replays.causal⟩
    · rw [history, List.append_nil]
      exact replays.posted
    · rw [history, List.append_nil]
      exact replays.taken
    · rw [same, setupsOf, setupsOf, List.filter_append, List.filter_singleton, ← place]
      simp
  | some slot =>
    obtain ⟨visit, cause, leads, posted, taken⟩ :=
      Rank.visit_of_setup owned began called
    rw [Rank.seats, owned] at place
    refine ⟨_, replays.visited going leads history posted (by rw [taken, cause]; rfl)
      (progress _ ?_) ?_⟩
    · rw [same, cause, setupsOf, setupsOf, List.filter_append, List.filter_singleton, ← place]
      simp
    · rw [cause]
      rintro entry ⟨⟩

/-- Behind a step from within a window there may be one more visit. -/
theorem works (replays : thread.Replays links id first visits) (works : thread.Works plan next)
    (known : thread.rank.links = links)
    (began : thread.phase.isStarting → thread.rank.now = Instant.zero)
    (causal : ∀ event pending, thread.rank.pending.pop? = some (event, pending) →
      ∀ way : Way, (way.near links).rank = id → (way.far links).rank = id →
        (takenOf thread.history ++ [event.entry]).filter way.bears <+:
          (postedOf links thread.history).filter way.bears) :
    ∃ more, next.Replays links id first more := by
  cases works with
  | readied before behind rank history =>
    obtain ⟨done, entries, same, -, whole⟩ := replays.begun
    obtain ⟨all, rfl⟩ := whole [] before
    rw [List.append_nil] at all
    obtain ⟨last, path, there⟩ := replays.path
    refine ⟨visits, ⟨last, path, fun _ => ?_⟩, ?_, ?_, ?_, replays.causal⟩
    · rw [rank]
      exact there (by rw [before]; exact not_false)
    · rw [history]
      exact replays.posted
    · rw [history]
      exact replays.taken
    · rw [behind]
      exact .of_whole (by rw [same, all]) not_false
  | started before behind called history =>
    exact replays.starts before behind called history (began (by rw [before]; trivial))
  | opened before behind seats history =>
    refine ⟨visits, replays.of_same (fun _ => ⟨seats, ?_⟩) (by rw [history]) (by rw [history]) ?_ ?_⟩
    · rw [before]
      exact not_false
    · rw [before]
      exact not_false
    · rw [behind]
      exact not_false
  | stopped before behind seats history =>
    refine ⟨visits, replays.of_same (fun _ => ⟨seats, ?_⟩) (by rw [history]) (by rw [history]) ?_
      fun starting => behind (Phase.inWindow_of_isStarting starting)⟩
    · rw [before]
      exact not_false
    · rw [before]
      exact not_false
  | @dispatched event pending before behind taken called history =>
    obtain ⟨visit, cause, leads, posted, took⟩ := Rank.visit_of_dispatch known called
    obtain ⟨entries, same⟩ := replays.begun.whole (by rw [before]; exact not_false)
    refine ⟨_, replays.visited (by rw [before]; exact not_false) leads history posted
      (by rw [took, cause]; rfl) ?_ ?_⟩
    · rw [behind, same, cause, List.append_assoc]
      refine @Begun.of_whole _ _ _ _ _ (entries ++ [event.entry]) ?_ not_false
      rw [List.map_append]
      rfl
    · rw [cause]
      rintro entry ⟨⟩
      exact causal event pending taken

end Replays

/-- Behind a step of a thread that has not failed, its history is still that of visits. -/
theorem Replays.step {id : RankId} {first : Rank C} {visits : List Visit}
    (replays : thread.Replays links id first visits)
    (stepped : thread.step plan view = some (next, effect)) (sound : next.Sound plan)
    (known : thread.rank.links = links)
    (began : thread.phase.isStarting → thread.rank.now = Instant.zero)
    (causal : thread.phase.inWindow →
      ∀ event pending, thread.rank.pending.pop? = some (event, pending) →
        ∀ way : Way, (way.near links).rank = id → (way.far links).rank = id →
          (takenOf thread.history ++ [event.entry]).filter way.bears <+:
            (postedOf links thread.history).filter way.bears) :
    ∃ more, next.Replays links id first more := by
  by_cases window : thread.phase.inWindow
  · exact replays.works (works_of_step window stepped sound).2 known began (causal window)
  · have further : ¬ thread.phase.isStarting := fun starting =>
      window (Phase.inWindow_of_isStarting starting)
    have latter (gone : next.phase.isOver) : ¬ next.phase.isStarting := fun starting => by
      cases phase : next.phase <;> rw [phase] at starting gone <;> first | exact starting | exact gone
    have still (seats : ¬ next.phase.isOver →
          next.rank.seats = thread.rank.seats ∧ ¬ thread.phase.isOver)
        (posted : postedOf links next.history = postedOf links thread.history)
        (taken : takenOf next.history = takenOf thread.history)
        (behind : ¬ next.phase.isStarting) : ∃ more, next.Replays links id first more :=
      ⟨visits, replays.of_same seats posted taken further behind⟩
    cases moves_of_step stepped with
    | worked worker phase before => exact absurd before window
    | stopped limitHit before =>
      rw [before] at window
      exact absurd trivial window
    | lost => cases sound.healthy
    | posted before | postedAll before | arrived before | took before | published before
    | read before | proceeded before =>
      exact still (fun _ => ⟨rfl, by rw [before]; exact not_false⟩) rfl rfl not_false
    | @passed gate stamp before opened =>
      exact still (fun _ => ⟨rfl, by rw [before]; exact not_false⟩) rfl rfl (by cases gate <;> exact not_false)
    | @scheduled taken before inbox =>
      obtain ⟨posted, none⟩ :=
        @Rank.addDeeds_posted links (taken.mergeSort Parcel.le) thread.rank.pending
      refine still (fun _ => ⟨rfl, by rw [before]; exact not_false⟩) ?_ ?_ not_false
      · change postedOf links (thread.history ++ thread.rank.receiveDeeds taken) = _
        rw [postedOf_append, Rank.receiveDeeds, posted, List.append_nil]
      · change takenOf (thread.history ++ thread.rank.receiveDeeds taken) = _
        rw [takenOf_append, Rank.receiveDeeds, none, List.append_nil]
    | concluded before all decided course gone =>
      exact still (fun going => absurd gone going) rfl rfl (latter gone)
    | finished worker before course gone =>
      exact still (fun going => absurd gone going) rfl rfl (latter gone)

end Thread

namespace System

variable {system next : System C n} {index : Fin n}

/-- Threads that have not failed behind a step had not before. -/
theorem sound_of_step (stepped : system.step plan index = some next)
    (sound : ∀ index, (next.threads index).Sound plan) :
    ∀ index, (system.threads index).Sound plan := by
  obtain ⟨⟨thread, effect⟩, moved, rfl⟩ := Option.map_eq_some_iff.mp stepped
  intro other
  have behind := sound other
  by_cases here : other = index
  · subst here
    rw [threads_withThread_self] at behind
    exact behind.before moved
  · rwa [threads_withThread_of_ne here] at behind

/-- Whether the histories of ranks that have not failed are those of visits. -/
def Replayed (plan : Plan n) (links : Array Link) (first : Fin n → Rank C) (system : System C n) :
    Prop :=
  ∀ index, (system.threads index).Sound plan →
    ∃ visits, (system.threads index).Replays links (plan.ids index) (first index) visits

/-- Behind a step the histories of ranks that have not failed are still those of visits. -/
theorem Replayed.step {first : Fin n → Rank C} (replayed : system.Replayed plan links first)
    (flowing : system.Flowing plan links) (covers : plan.Covers links)
    (distinct : Function.Injective plan.ids) (steady : system.Steady plan links)
    (stepped : system.step plan index = some next) : next.Replayed plan links first := by
  obtain ⟨⟨thread, effect⟩, moved, rfl⟩ := Option.map_eq_some_iff.mp stepped
  intro other sound
  by_cases here : other = index
  · subst here
    rw [threads_withThread_self] at sound ⊢
    obtain ⟨visits, replays⟩ := replayed other (sound.before moved)
    refine replays.step moved sound (steady.wired.links other)
      (fun starting => ((steady.threads other).began starting).1) ?_
    intro window event pending taken way near far
    exact flowing.posted_before covers distinct steady (Thread.unsent_of_inWindow window) taken
      near.symm far.symm
  · rw [threads_withThread_of_ne here] at sound ⊢
    exact replayed other sound

end System

end Rally
