import Rally.Proofs.Pool.ConsistentHistories
/-!
# Hooks that do not fail

Where a component answers to what its hook is called for, the call does not fail. So a thread does not
fail in a step that calls hooks of components that answer, or finish hooks that do not break off, or
that posts a parcel for a rank that is there.
-/

namespace Rally

variable {C : Type} {n : Nat} {plan : Plan n} {links : Array Link}

namespace Rank

variable {rank : Rank C} {slot : Slot C} {id : ComponentId}

/-- Messages on configured ports are all handed to links. -/
theorem flush_of_route {sends : List (PortId × Message)} {routed : List (Way × Message)}
    (routes : slot.route? sends = some routed) (rank : Rank C) : (flush slot sends rank).2 = none := by
  induction sends generalizing rank routed with
  | nil => rfl
  | cons first rest ih =>
    rw [Slot.route?, List.mapM_cons] at routes
    obtain ⟨way, goes, others⟩ := Option.bind_eq_some_iff.mp routes
    obtain ⟨more, behind, -⟩ := Option.bind_eq_some_iff.mp others
    obtain ⟨binding, bound, -⟩ := Option.map_eq_some_iff.mp goes
    rw [flush]
    simp only [bound]
    exact ih behind _

variable [Component C]

/-- The setup of a component that answers to it does not fail. -/
theorem setup_of_answer (now : rank.now = Instant.zero)
    (answers : ∀ seat, rank.seats id = some seat → seat.answer? links (.setup id) ≠ none) :
    (rank.setup id).2 = none := by
  rw [setup]
  cases owned : rank.slot? id with
  | none => rfl
  | some slot =>
    have there : rank.seats id = some ⟨slot, rank.id⟩ := by
      rw [seats, owned]
      rfl
    obtain ⟨⟨next, sends⟩, answer⟩ := Option.ne_none_iff_exists'.mp (answers _ there)
    obtain ⟨reaction, reacts, routes, -⟩ := Seat.answer?_keeps answer
    simp only [Seat.reaction?, Cause.now] at reacts
    simp only [context, now]
    cases outcome : (Component.setup slot.component ⟨slot.name, rank.id, Instant.zero⟩).outcome with
    | panicked panic =>
      simp only [outcome] at reacts
      cases reacts
    | completed | violated =>
      simp only [outcome, Option.some.injEq] at reacts
      subst reacts
      exact flush_of_route routes _

/-- Dispatching an event to a component that answers to it does not fail. -/
theorem dispatch_of_answer {event : Scheduled Delivery} {pending : EventSet Delivery} {seat : Seat C}
    (known : rank.links = links) (there : rank.seats (event.payload.goal links).component = some seat)
    (answers : seat.answer? links (.event event.entry) ≠ none) :
    (dispatch event { rank with pending }).2 = none := by
  have place : rank.receiver event.payload = event.payload.goal links := by
    rw [receiver, link, known]
    rfl
  obtain ⟨slot, owned, rfl⟩ := Option.map_eq_some_iff.mp there
  obtain ⟨⟨next, sends⟩, answer⟩ := Option.ne_none_iff_exists'.mp answers
  obtain ⟨reaction, reacts, routes, -⟩ := Seat.answer?_keeps answer
  have receives : slot.receives (event.payload.goal links).port = true :=
    Seat.receives_of_answer? answer
  rw [@Seat.reaction?_event _ _ links event.entry ⟨slot, rank.id⟩ (event.payload.goal links).port
    rfl receives] at reacts
  simp only [Scheduled.entry] at reacts
  have context : (rank.take event pending).context slot = ⟨slot.name, rank.id, event.time⟩ := rfl
  rw [dispatch_eq, place]
  simp only [owned]
  rw [deliver, if_pos receives, context]
  cases outcome : (Component.handle slot.component ⟨slot.name, rank.id, event.time⟩
      (event.payload.goal links).port event.payload.message).outcome with
  | completed =>
    simp only [outcome, Option.some.injEq] at reacts ⊢
    subst reacts
    exact flush_of_route routes _
  | violated | panicked =>
    simp only [outcome] at reacts
    cases reacts

/-- A finish hook that does not break off does not fail. -/
theorem finishOne_of_calm (calm : ∀ (state : C) context panic,
    (Component.finish state context).outcome ≠ .panicked panic) (rank : Rank C) (id : ComponentId) :
    (rank.finishOne id).2 = none := by
  cases called : rank.finishOne id with
  | mk last halt =>
    cases halt with
    | none => rfl
    | some halt =>
      rw [finishOne] at called
      cases owned : rank.slot? id with
      | none =>
        simp only [owned] at called
        cases called
      | some slot =>
        simp only [owned] at called
        split at called
        · next panic breaks => exact absurd breaks (calm _ _ panic)
        · split at called <;> cases called

end Rank

variable [Component C]

namespace Thread

variable {view : View n} {thread next : Thread C} {effect : Effect n}

/-- Whether a thread has not failed, and takes part in no round where it is single. -/
structure Fine (plan : Plan n) (thread : Thread C) : Prop where
  /-- It has not failed. -/
  sound : thread.Sound plan
  /-- A single thread is in its window, or has left it for good. -/
  alone : plan.alone = true → thread.phase.inWindow ∨ thread.phase.isOver

omit [Component C] in
/-- A thread that goes on without a failure is still fine. -/
theorem Fine.of_same (fine : thread.Fine plan) (healthy : next.worker.failure = thread.worker.failure)
    (phase : plan.alone = true → (next.phase.inWindow ∨ next.phase.isOver) ∧
      ∀ halt, next.phase ≠ .ended (.error halt)) : next.Fine plan :=
  ⟨⟨healthy.trans fine.sound.healthy, fun alone => (phase alone).2⟩, fun alone => (phase alone).1⟩

/-- A thread stays fine that has setup hooks to call which do not fail. -/
theorem Fine.startNext (fine : thread.Fine plan) {rest : List ComponentId}
    (setup : ∀ id ∈ rest.head?, (thread.rank.setup id).2 = none) :
    (thread.startNext plan.alone rest).Fine plan := by
  cases rest with
  | nil => exact fine.of_same rfl fun _ => ⟨Or.inl trivial, fun _ same => by cases same⟩
  | cons id rest =>
    have calls := setup id rfl
    rw [Thread.startNext]
    cases called : thread.rank.setup id with
    | mk rank halt =>
      rw [called] at calls
      cases calls
      exact fine.of_same rfl fun _ => ⟨Or.inl trivial, fun _ same => by cases same⟩

omit [Component C] in
/-- It stays fine where it opens a window. -/
theorem Fine.openWindow (fine : thread.Fine plan) : (thread.openWindow plan).Fine plan := by
  rw [Thread.openWindow]
  cases plan.alone with
  | true =>
    rw [if_pos rfl]
    exact fine.of_same rfl fun _ => ⟨Or.inl trivial, fun _ same => by cases same⟩
  | false =>
    rw [if_neg Bool.false_ne_true, fine.sound.healthy, Option.isSome_none,
      if_neg Bool.false_ne_true]
    exact fine.of_same rfl fun _ => ⟨Or.inl trivial, fun _ same => by cases same⟩

/-- It stays fine where it dispatches, and the hook that it calls does not fail. -/
theorem Fine.dispatchNext (fine : thread.Fine plan) (phase : thread.phase = .dispatching)
    (dispatch : ∀ event pending, thread.rank.pending.pop? = some (event, pending) →
      (Rank.dispatch event { thread.rank with pending }).2 = none) :
    (thread.dispatchNext plan).Fine plan := by
  rw [Thread.dispatchNext]
  cases turn : thread.rank.turn (plan.bound thread.start) (plan.byVote thread.round) with
  | error stop =>
    simp only [Thread.stopped]
    cases alone : plan.alone with
    | true =>
      rw [if_pos rfl]
      exact fine.of_same rfl fun _ => ⟨Or.inr trivial, fun _ same => by cases same⟩
    | false =>
      rw [if_neg Bool.false_ne_true]
      exact fine.of_same rfl fun single => by rw [alone] at single; cases single
  | ok taken =>
    obtain ⟨event, pending⟩ := taken
    have calls := dispatch event pending (Rank.turn_ok turn).1
    simp only
    cases called : Rank.dispatch event { thread.rank with pending } with
    | mk rank halt =>
      rw [called] at calls
      cases calls
      refine fine.of_same rfl fun _ => ⟨Or.inl ?_, fun _ same => ?_⟩
      · change thread.phase.inWindow
        rw [phase]
        trivial
      · cases phase.symm.trans same

/-- It stays fine where it has finish hooks to call, and those do not fail. -/
theorem Fine.finishNext (fine : thread.Fine plan) {reason : Termination} {rest : List ComponentId}
    (finish : ∀ id, (thread.rank.finishOne id).2 = none) :
    (thread.finishNext reason rest).Fine plan := by
  cases rest with
  | nil => exact fine.of_same rfl fun _ => ⟨Or.inr trivial, fun _ same => by cases same⟩
  | cons id rest =>
    have calls := finish id
    rw [Thread.finishNext]
    cases called : thread.rank.finishOne id with
    | mk rank halt =>
      rw [called] at calls
      cases calls
      exact fine.of_same rfl fun _ => ⟨Or.inr trivial, fun _ same => by cases same⟩

omit [Component C] in
/-- A thread that is fine takes part in a round among others alone. -/
theorem Fine.among (fine : thread.Fine plan) {phase : Phase} (here : thread.phase = phase)
    (round : ¬ phase.inWindow ∧ ¬ phase.isOver) : ¬ plan.alone = true := by
  intro alone
  rcases fine.alone alone with window | gone
  · exact round.1 (here ▸ window)
  · exact round.2 (here ▸ gone)

/-- A thread stays fine in a step in which no hook fails and each parcel is for a rank that is there. -/
theorem Fine.step (fine : thread.Fine plan)
    (stepped : thread.step plan view = some (next, effect))
    (setup : ∀ id rest, thread.phase = .starting (id :: rest) → (thread.rank.setup id).2 = none)
    (dispatch : ∀ event pending, thread.phase = .dispatching →
      thread.rank.pending.pop? = some (event, pending) →
        (Rank.dispatch event { thread.rank with pending }).2 = none)
    (known : ∀ parcel rest, thread.phase = .posting (parcel :: rest) →
      plan.index? parcel.target ≠ none)
    (finish : ∀ id, (thread.rank.finishOne id).2 = none) : next.Fine plan := by
  cases steps_of_step stepped with
  | starts phase =>
    refine fine.startNext fun id first => ?_
    obtain ⟨others, rfl⟩ := List.head?_eq_some_iff.mp first
    exact setup id others phase
  | opens => exact fine.openWindow
  | dispatches phase => exact fine.dispatchNext phase fun event pending => dispatch event pending phase
  | loses phase unknown => exact absurd unknown (known _ _ phase)
  | posts phase | postsAll phase | arrives phase | passes phase | takes phase | schedules phase
  | publishes phase | reads phase =>
    exact fine.of_same rfl fun alone => (fine.among phase ⟨id, id⟩ alone).elim
  | @decides read phase =>
    exact fine.of_same (failure_decide read) fun alone => (fine.among phase ⟨id, id⟩ alone).elim
  | finishes => exact fine.finishNext finish

end Thread

end Rally
