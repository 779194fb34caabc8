import Rally.Proofs.Pool.Routing
/-!
# Where a run fails

Behind each schedule, the failure of every rank is that of the one call of its hooks that failed, in the window
in which it did. A rank that has failed calls no hook any more, and no other one goes on to another window. A
rank gives up only where some rank has failed, and it ends with its own failure if it has one.
-/

namespace Rally

namespace Phase

/-- A thread that may call hooks before the exchange has passed no barrier of its round. -/
theorem lag_of_calls {phase : Phase} (calls : phase.calls) : phase.lag = 0 := by
  cases phase with
  | starting | dispatching => rfl
  | _ => exact calls.elim

/-- It does not wait. -/
theorem not_isWaiting_of_calls {phase : Phase} (calls : phase.calls) : ¬ phase.isWaiting := by
  cases phase with
  | waiting => exact calls.elim
  | _ => exact id

end Phase

variable {C : Type} [Component C] {n : Nat} {plan : Plan n} {links : Array Link}

namespace System

variable {first system former latter : System C n} {schedule turns : List (Fin n)}
  {index last : Fin n} {round : Nat} {halt : Halt} {panic : Panic}

/-- Whether a schedule comes to a step of a thread behind some turns, with the thread as told. -/
def Comes (plan : Plan n) (first : System C n) (schedule turns : List (Fin n)) (index : Fin n)
    (tells : Thread C → Prop) : Prop :=
  ∃ rest former, schedule = turns ++ index :: rest ∧ first.exec plan turns = some former ∧
    tells (former.threads index)

/-- Whether a call of a hook fails behind some turns of a schedule, in a window of its rank. -/
def FailsAt (plan : Plan n) (first : System C n) (schedule turns : List (Fin n)) (index : Fin n)
    (round : Nat) (halt : Halt) : Prop :=
  first.Comes plan schedule turns index fun thread => thread.round = round ∧ thread.Fails plan halt

/-- Whether a finish hook breaks off behind some turns of a schedule. -/
def BreaksAt (plan : Plan n) (first : System C n) (schedule turns : List (Fin n)) (index : Fin n)
    (panic : Panic) : Prop :=
  first.Comes plan schedule turns index fun thread => thread.Breaks panic

/-- Behind one more turn, a schedule comes to what it came to before, and to the last step. -/
theorem comes_concat {tells : Thread C → Prop} (reached : first.exec plan schedule = some system) :
    first.Comes plan (schedule ++ [last]) turns index tells ↔
      first.Comes plan schedule turns index tells ∨
        turns = schedule ∧ index = last ∧ tells (system.threads last) := by
  constructor
  · rintro ⟨rest, former, split, arrives, told⟩
    rcases List.eq_nil_or_concat rest with rfl | ⟨rest, final, rfl⟩
    · obtain ⟨rfl, same⟩ := List.append_inj' split rfl
      obtain rfl := (List.cons.inj same).1
      cases reached.symm.trans arrives
      exact Or.inr ⟨rfl, rfl, told⟩
    · rw [List.concat_eq_append, ← List.cons_append, ← List.append_assoc] at split
      exact Or.inl ⟨rest, former, (List.append_inj' split rfl).1, arrives, told⟩
  · rintro (⟨rest, former, split, arrives, told⟩ | ⟨rfl, rfl, told⟩)
    · exact ⟨rest ++ [last], former, by rw [split, List.append_assoc]; rfl, arrives, told⟩
    · exact ⟨[], system, rfl, reached, told⟩

/-- Behind one more turn of another thread, a thread has come to nothing else. -/
theorem comes_concat_of_ne {tells : Thread C → Prop} (other : index ≠ last)
    (reached : first.exec plan schedule = some system) :
    first.Comes plan (schedule ++ [last]) turns index tells ↔
      first.Comes plan schedule turns index tells :=
  (comes_concat reached).trans (or_iff_left fun same => other same.2.1)

/-- A schedule without turns comes to no step. -/
theorem not_comes_nil {tells : Thread C → Prop} : ¬ first.Comes plan [] turns index tells := by
  rintro ⟨rest, former, split, -⟩
  cases turns <;> cases split

end System

namespace Thread

variable {view : View n} {thread next : Thread C} {effect : Effect n} {halt : Halt} {id : RankId}
  {fails : List (Fin n) → Nat → Halt → Prop} {breaks : Panic → Prop}

/-- A finish hook breaks off for one reason alone. -/
theorem Breaks.unique {panic other : Panic} (breaks : thread.Breaks panic)
    (also : thread.Breaks other) : panic = other := by
  obtain ⟨reason, position, rest, before, fails⟩ := breaks
  obtain ⟨_, _, _, there, failsToo⟩ := also
  cases before.symm.trans there
  have same := (Rank.finishOne_fails_iff.mpr fails).symm.trans (Rank.finishOne_fails_iff.mpr failsToo)
  cases same
  rfl

/-- What the failure and the end of a thread tell, given the calls of its hooks that failed so far and the
finish hooks that broke off. -/
structure Told (id : RankId) (fails : List (Fin n) → Nat → Halt → Prop) (breaks : Panic → Prop)
    (thread : Thread C) : Prop where
  /-- Where its rank has not failed, no call of a hook has. -/
  fine : thread.worker.failure = none → ∀ turns round halt, ¬ fails turns round halt
  /-- Otherwise one call has, in the current window, and the rank for its reason. -/
  failed : ∀ error, thread.worker.failure = some error → ∃ turns halt,
    fails turns thread.round halt ∧ error = Worker.errorOf id halt ∧
      ∀ others round other, fails others round other → others = turns
  /-- Then the rank calls no further hook. -/
  silent : thread.worker.failure ≠ none → ¬ thread.phase.calls
  /-- A finish hook has broken off where the thread ended so. -/
  broken : ∀ panic, breaks panic ↔ thread.phase = .ended (.error (.panicked panic))
  /-- The rank of such a thread has not failed. -/
  sound : ∀ panic, thread.phase = .ended (.error (.panicked panic)) → thread.worker.failure = none

omit [Component C] in
/-- What a thread is told of a step in which none of its hooks fails. -/
theorem Told.of_calm (told : thread.Told id fails breaks)
    (moves : ∀ result, thread.phase ≠ .ended result)
    (failure : next.worker.failure = thread.worker.failure)
    (round : thread.worker.failure ≠ none → next.round = thread.round)
    (silent : thread.worker.failure ≠ none → ¬ next.phase.calls)
    (goes : ∀ panic, next.phase ≠ .ended (.error (.panicked panic))) :
    next.Told id fails breaks := by
  refine ⟨fun healthy => told.fine (failure ▸ healthy), fun error same => ?_,
    fun failed => silent (failure ▸ failed), fun panic => ?_, fun panic ended => absurd ended (goes panic)⟩
  · rw [failure] at same
    obtain ⟨turns, halt, called, reason, once⟩ := told.failed error same
    rw [round (by rw [same]; exact Option.some_ne_none _)]
    exact ⟨turns, halt, called, reason, once⟩
  · exact ⟨fun broke => absurd ((told.broken panic).mp broke) (moves _),
      fun ended => absurd ended (goes panic)⟩

/-- What a thread is told of a step in which a call of a hook fails. -/
theorem Told.of_halt (told : thread.Told id fails breaks) (turns : List (Fin n))
    (moves : ∀ result, thread.phase ≠ .ended result) (failing : thread.Fails plan halt)
    (phase : next.phase = .opening ∨ next.phase = .arriving .exchange)
    (failure : next.worker.failure = some (Worker.errorOf id halt))
    (round : next.round = thread.round) :
    next.Told id
      (fun others round halt =>
        fails others round halt ∨ others = turns ∧ thread.round = round ∧ thread.Fails plan halt)
      (fun panic => breaks panic ∨ thread.Breaks panic) := by
  -- The rank had not failed, since it calls a hook.
  have healthy : thread.worker.failure = none := by
    by_contra failed
    exact told.silent failed failing.calls
  have silent : ¬ next.phase.calls := by
    rcases phase with same | same <;> rw [same] <;> exact not_false
  have goes (panic : Panic) : next.phase ≠ .ended (.error (.panicked panic)) := by
    rcases phase with same | same <;> rw [same] <;> rintro ⟨⟩
  refine ⟨fun none => (by cases failure.symm.trans none), fun error same => ?_, fun _ => silent,
    fun panic => ⟨?_, fun ended => absurd ended (goes panic)⟩, fun panic ended => absurd ended (goes panic)⟩
  · refine ⟨turns, halt, Or.inr ⟨rfl, round.symm, failing⟩, Option.some.inj (same.symm.trans failure), ?_⟩
    rintro others window other (earlier | ⟨same, -⟩)
    · exact absurd earlier (told.fine healthy _ _ _)
    · exact same
  · rintro (broke | ⟨reason, position, rest, there, -⟩)
    · exact absurd ((told.broken panic).mp broke) (moves _)
    · have calls := failing.calls
      rw [there] at calls
      exact calls.elim

/-- What a thread is told of a step in which a finish hook breaks off. -/
theorem Told.of_break (told : thread.Told id fails breaks) (turns : List (Fin n))
    (moves : ∀ result, thread.phase ≠ .ended result) (hooks : ∀ halt, ¬ thread.Fails plan halt)
    (healthy : thread.worker.failure = none) {panic : Panic} (breaking : thread.Breaks panic)
    (ended : next.phase = .ended (.error (.panicked panic)))
    (failure : next.worker.failure = thread.worker.failure) :
    next.Told id
      (fun others round halt =>
        fails others round halt ∨ others = turns ∧ thread.round = round ∧ thread.Fails plan halt)
      (fun panic => breaks panic ∨ thread.Breaks panic) := by
  refine ⟨fun none others window halt => ?_, fun error same => ?_, fun failed => ?_, fun other => ⟨?_, ?_⟩,
    fun _ _ => failure.trans healthy⟩
  · rintro (earlier | ⟨-, -, failing⟩)
    · exact told.fine healthy _ _ _ earlier
    · exact hooks halt failing
  · cases (failure.trans healthy).symm.trans same
  · exact absurd (failure.trans healthy) failed
  · rintro (broke | broke)
    · exact absurd ((told.broken other).mp broke) (moves _)
    · rw [ended, broke.unique breaking]
  · intro same
    cases ended.symm.trans same
    exact Or.inr breaking

/-- A step keeps what the failure and the end of a thread tell. -/
theorem Fares.told (fares : thread.Fares plan next) (turns : List (Fin n)) (among : plan.alone = false)
    (own : thread.rank.id = id) (moves : ∀ result, thread.phase ≠ .ended result)
    (proceeds : ∀ read later, thread.phase = .reading read → n ≤ read.length →
      decision read = .proceed later → thread.worker.failure = none)
    (succeeds : thread.phase.succeeds → thread.worker.failure = none)
    (told : thread.Told id fails breaks) :
    next.Told id
      (fun others round halt =>
        fails others round halt ∨ others = turns ∧ thread.round = round ∧ thread.Fails plan halt)
      (fun panic => breaks panic ∨ thread.Breaks panic) := by
  have quiet (hooks : ∀ halt, ¬ thread.Fails plan halt) (finish : ∀ panic, ¬ thread.Breaks panic) :
      thread.Told id (fun others round halt =>
        fails others round halt ∨ others = turns ∧ thread.round = round ∧ thread.Fails plan halt)
        (fun panic => breaks panic ∨ thread.Breaks panic) := by
    simpa only [hooks, finish, and_false, or_false] using told
  have hooks_of {phase : Phase} (before : thread.phase = phase) (away : ¬ phase.calls) (halt : Halt) :
      ¬ thread.Fails plan halt := fun fails => away (before ▸ fails.calls)
  have finish_of {phase : Phase} (before : thread.phase = phase)
      (away : ∀ reason rest, phase ≠ .finishing reason rest) (panic : Panic) :
      ¬ thread.Breaks panic := by
    rintro ⟨reason, position, rest, there, -⟩
    exact away reason _ (before.symm.trans there)
  cases fares with
  | halts failing alone whole round =>
    obtain ⟨phase, failure⟩ := whole among
    exact told.of_halt turns moves failing phase (own ▸ failure) round
  | breaks breaking ended failure =>
    have ⟨reason, position, rest, before, _⟩ := breaking
    exact told.of_break turns moves (hooks_of before not_false) (succeeds (by rw [before]; trivial))
      breaking ended failure
  | aborts before all decided ended failure round =>
    refine (quiet (hooks_of before not_false) (finish_of before fun _ _ same => by cases same)).of_calm
      moves failure (fun _ => round) (fun _ => ?_) (fun panic same => ?_)
    · rw [ended]
      exact not_false
    · cases ended.symm.trans same
  | proceeds before all decided opens failure round =>
    have healthy := proceeds _ _ before all decided
    refine (quiet (hooks_of before not_false) (finish_of before fun _ _ same => by cases same)).of_calm
      moves failure (fun failed => absurd healthy failed) (fun failed => absurd healthy failed)
      (fun panic same => ?_)
    cases opens.symm.trans same
  | calm hooks finish calls goes failure round =>
    refine (quiet hooks finish).of_calm moves failure (fun _ => round) (fun failed calling => ?_)
      (fun panic => goes _)
    rcases calls calling among with before | healthy
    · exact told.silent failed before
    · exact failed healthy

/-- A rank that has failed stays so. -/
theorem Fares.failed (fares : thread.Fares plan next) (among : plan.alone = false)
    (failed : thread.worker.failure ≠ none) : next.worker.failure ≠ none := by
  cases fares with
  | halts _ _ whole =>
    rw [(whole among).2]
    exact Option.some_ne_none _
  | breaks _ _ failure | aborts _ _ _ _ failure | proceeds _ _ _ _ failure | calm _ _ _ _ failure =>
    rw [failure]
    exact failed

/-- A rank is failed where it was before, or by a call of one of its hooks. -/
theorem Fares.failed_before (fares : thread.Fares plan next) (failed : next.worker.failure ≠ none) :
    thread.worker.failure ≠ none ∨ thread.phase.calls := by
  cases fares with
  | halts fails => exact Or.inr fails.calls
  | breaks _ _ failure | aborts _ _ _ _ failure | proceeds _ _ _ _ failure | calm _ _ _ _ failure =>
    exact Or.inl (failure ▸ failed)

/-- The window of a thread is the next one where all ranks go on, and the same one in every other step. -/
theorem Fares.round (fares : thread.Fares plan next) : next.round = thread.round ∨
    ∃ read later, thread.phase = .reading read ∧ n ≤ read.length ∧ decision read = .proceed later ∧
      next.round = thread.round + 1 := by
  cases fares with
  | halts _ _ _ round | breaks _ _ _ round | aborts _ _ _ _ _ round | calm _ _ _ _ _ round =>
    exact Or.inl round
  | proceeds before all decided _ _ round => exact Or.inr ⟨_, _, before, all, decided, round⟩

/-- A single thread ends with the halt of a call that fails. -/
theorem Fares.ended (fares : thread.Fares plan next) (alone : plan.alone = true)
    (fails : thread.Fails plan halt) : next.phase = .ended (.error halt) := by
  have calls := fails.calls
  cases fares with
  | halts failing single =>
    rw [fails.unique failing]
    exact (single alone).1
  | breaks breaking =>
    obtain ⟨reason, position, rest, before, -⟩ := breaking
    rw [before] at calls
    exact calls.elim
  | aborts before | proceeds before =>
    rw [before] at calls
    exact calls.elim
  | calm hooks => exact absurd fails (hooks halt)

omit [Component C] in
/-- Where a thread has passed both barriers of its round, or waits at the second one, which has opened, it has
published its status, or left its rounds. -/
theorem Synchronous.showing {generation : Nat} (sync : thread.Synchronous generation)
    (passed : 2 * thread.round + 2 = generation) : thread.phase.hasPublished ∨ thread.phase.isOver := by
  rcases sync.current with now | ⟨late, gate, waits⟩
  · rw [epoch] at now
    cases phase : thread.phase with
    | finishing | ended => exact Or.inr trivial
    | reading => exact Or.inl trivial
    | arriving gate | waiting gate =>
      rw [phase] at now
      cases gate <;> simp only [Phase.lag] at now <;> omega
    | _ =>
      rw [phase] at now
      simp only [Phase.lag] at now
      omega
  · rw [epoch, waits] at late
    rw [waits]
    cases gate with
    | exchange =>
      simp only [Phase.lag] at late
      omega
    | decision => exact Or.inl trivial

end Thread

namespace System

variable {first system next : System C n} {schedule : List (Fin n)} {index : Fin n}

/-- What is told of a run on several ranks behind a schedule. -/
structure Told (plan : Plan n) (first : System C n) (schedule : List (Fin n)) (system : System C n) :
    Prop where
  /-- The failures and the ends of its threads tell of the calls that failed. -/
  threads : ∀ index, (system.threads index).Told (plan.ids index)
    (fun turns round halt => first.FailsAt plan schedule turns index round halt)
    fun panic => ∃ turns, first.BreaksAt plan schedule turns index panic
  /-- Only a rank that has failed shows so. -/
  shown : ∀ index, (system.board index).failed = true → (system.threads index).worker.failure ≠ none
  /-- A thread gives up where some rank has failed, with the failure of its own rank if there is one. -/
  gave : ∀ index error, (system.threads index).phase = .ended (.error (.failed error)) →
    error = (system.threads index).worker.failure.getD (.peerAborted (plan.ids index)) ∧
      ∃ other, (system.threads other).worker.failure ≠ none
  /-- No rank goes on behind the window in which one has failed. -/
  last : ∀ index other, (system.threads index).worker.failure ≠ none →
    (system.threads other).round ≤ (system.threads index).round

/-- Before the first steps nothing is told. -/
theorem told_nil (starting : ∀ index, (first.threads index).phase.isStarting)
    (healthy : ∀ index, (first.threads index).worker.failure = none)
    (blank : ∀ index, (first.board index).failed = false) : first.Told plan [] first := by
  have goes (index : Fin n) (result : Except Halt Termination) :
      (first.threads index).phase ≠ .ended result := fun ended => by
    have start := starting index
    rw [ended] at start
    exact start.elim
  refine ⟨fun index => ⟨fun _ turns round halt => not_comes_nil, fun error same => ?_,
    fun failed => absurd (healthy index) failed, fun panic => ⟨?_, fun ended => absurd ended (goes _ _)⟩,
    fun panic ended => absurd ended (goes _ _)⟩, fun index failed => ?_,
    fun index error ended => absurd ended (goes _ _), fun index other failed => absurd (healthy index) failed⟩
  · cases (healthy index).symm.trans same
  · rintro ⟨turns, breaks⟩
    exact absurd breaks not_comes_nil
  · rw [blank index] at failed
    cases failed

omit [Component C] in
/-- Where a thread goes on, every rank that has failed is in a window behind it. -/
theorem Regular.ahead_of_proceed (regular : system.Regular plan) {read : List RankStatus}
    {later : Instant} (reading : (system.threads index).phase = .reading read) (all : n ≤ read.length)
    (decided : decision read = .proceed later) {other : Fin n}
    (near : (system.threads index).round ≤ (system.threads other).round)
    (failed : (system.threads other).worker.failure ≠ none) :
    (system.threads index).round < (system.threads other).round := by
  obtain ⟨ledger, recorded⟩ := regular.recorded
  obtain ⟨whole, entry, -⟩ := recorded.read_eq regular.lockstep reading all
  have sync := regular.lockstep.synchronous
  refine lt_of_le_of_ne near fun same => ?_
  have epoch : 2 * (system.threads other).round + 2 = system.generation := by
    rw [← same, ← (sync index).epoch_eq (by rw [reading]; exact id), Thread.epoch, reading]
    rfl
  rcases (sync other).showing epoch with published | gone
  · -- The failure is among what was read.
    have inside : (system.threads other).worker.status ∈ read := by
      rw [whole, ← (recorded.reads other).published published]
      exact List.mem_ofFn.mpr ⟨other, rfl⟩
    have healthy := (decision_eq_proceed decided).1 _ inside
    exact failed (Option.isNone_iff_eq_none.mp (Option.isSome_eq_false_iff.mp healthy))
  · -- The other rank left its rounds behind what was read.
    obtain ⟨status, minute, heeds⟩ := (recorded.minuted other).left gone
    have there := recorded.entry minute
    rw [← same, entry] at there
    rw [← Option.some.inj there, decided] at heeds
    exact heeds

/-- A step keeps what the threads tell. -/
theorem Told.threads_step (told : first.Told plan schedule system)
    (reached : first.exec plan schedule = some system) (among : plan.alone = false)
    (timely : system.Timely plan links) (upright : ∀ index, (system.threads index).Upright plan)
    {thread : Thread C} {effect : Effect n}
    (moved : (system.threads index).step plan (system.view index) = some (thread, effect))
    (fares : (system.threads index).Fares plan thread) (other : Fin n) :
    (((system.apply index effect).withThread index thread).threads other).Told (plan.ids other)
      (fun turns round halt => first.FailsAt plan (schedule ++ [index]) turns other round halt)
      fun panic => ∃ turns, first.BreaksAt plan (schedule ++ [index]) turns other panic := by
  by_cases here : other = index
  · subst here
    have onward := fares.told schedule among (timely.wired.ids other) (Thread.not_ended_of_step moved)
      (fun read later reading all decided => by
        obtain ⟨ledger, recorded, punctual⟩ := timely.punctual
        exact (punctual.goes recorded timely.regular.lockstep reading all decided).1)
      (fun succeeds => upright other (Or.inr succeeds)) (told.threads other)
    rw [threads_withThread_self]
    simpa only [FailsAt, BreaksAt, comes_concat reached, exists_or, exists_eq_left, true_and]
      using onward
  · rw [threads_withThread_of_ne here]
    simpa only [FailsAt, BreaksAt, comes_concat_of_ne here reached] using told.threads other

/-- A rank that has failed before a step has failed behind it. -/
theorem failed_step (among : plan.alone = false) {thread : Thread C} {effect : Effect n}
    (fares : (system.threads index).Fares plan thread) {other : Fin n}
    (failed : (system.threads other).worker.failure ≠ none) :
    (((system.apply index effect).withThread index thread).threads other).worker.failure ≠ none :=
  forall_withThread (P := fun other thread => (system.threads other).worker.failure ≠ none →
    thread.worker.failure ≠ none) (fares.failed among) (fun _ => id) other failed

/-- A step shows no failure but that of its rank. -/
theorem Told.shown_step (told : first.Told plan schedule system) (among : plan.alone = false)
    {thread : Thread C} {effect : Effect n}
    (moved : (system.threads index).step plan (system.view index) = some (thread, effect))
    (fares : (system.threads index).Fares plan thread) {other : Fin n}
    (shows : (((system.apply index effect).withThread index thread).board other).failed = true) :
    (((system.apply index effect).withThread index thread).threads other).worker.failure ≠ none := by
  by_cases publishing : ∃ status, effect = .publish status
  · obtain ⟨status, rfl⟩ := publishing
    obtain rfl : status = (system.threads index).worker.status := by
      cases Thread.moves_of_step moved
      rfl
    have board : ((system.apply index (.publish (system.threads index).worker.status)).withThread
        index thread).board = Function.update system.board index (system.threads index).worker.status := rfl
    refine failed_step among fares ?_
    rw [board] at shows
    by_cases here : other = index
    · subst here
      rw [Function.update_self] at shows
      exact Option.isSome_iff_ne_none.mp shows
    · rw [Function.update_of_ne here] at shows
      exact told.shown other shows
  · rw [board_of_ne (fun status same => publishing ⟨status, same⟩)] at shows
    exact failed_step among fares (told.shown other shows)

/-- Where a thread gives up in a step, some rank has failed. -/
theorem Told.gave_step (told : first.Told plan schedule system) (among : plan.alone = false)
    (timely : system.Timely plan links) {thread : Thread C} {effect : Effect n}
    (fares : (system.threads index).Fares plan thread) {other : Fin n} {error : RunError}
    (ended : (((system.apply index effect).withThread index thread).threads other).phase =
      .ended (.error (.failed error))) :
    error = (((system.apply index effect).withThread index thread).threads
        other).worker.failure.getD (.peerAborted (plan.ids other)) ∧
      ∃ place, (((system.apply index effect).withThread index thread).threads
        place).worker.failure ≠ none := by
  by_cases here : other = index
  · subst here
    rw [threads_withThread_self] at ended ⊢
    cases fares with
    | halts _ _ whole =>
      rcases (whole among).1 with same | same <;> cases same.symm.trans ended
    | breaks _ phase => cases phase.symm.trans ended
    | proceeds _ _ _ phase => cases phase.symm.trans ended
    | calm _ _ _ goes => exact absurd ended (goes _)
    | @aborts read before all decided phase failure round =>
      have gives : Thread.Fares plan (system.threads other) thread :=
        .aborts before all decided phase failure round
      cases phase.symm.trans ended
      refine ⟨by rw [failure, ← timely.wired.ids other], ?_⟩
      obtain ⟨ledger, recorded⟩ := timely.regular.recorded
      obtain ⟨whole, -, -⟩ := recorded.read_eq timely.regular.lockstep before all
      obtain ⟨status, inside, fails⟩ := decision_eq_abort decided
      rw [whole] at inside
      obtain ⟨place, rfl⟩ := List.mem_ofFn.mp inside
      exact ⟨place, failed_step among gives (told.shown place fails)⟩
  · rw [threads_withThread_of_ne here] at ended ⊢
    obtain ⟨own, place, failed⟩ := told.gave other error ended
    exact ⟨own, place, failed_step among fares failed⟩

/-- Behind a step no rank is ahead of one that has failed. -/
theorem Told.last_step (told : first.Told plan schedule system) (timely : system.Timely plan links)
    {thread : Thread C} {effect : Effect n}
    (fares : (system.threads index).Fares plan thread) {near far : Fin n}
    (failed : (((system.apply index effect).withThread index thread).threads near).worker.failure ≠
      none) :
    (((system.apply index effect).withThread index thread).threads far).round ≤
      (((system.apply index effect).withThread index thread).threads near).round := by
  have failedToo : (system.threads near).worker.failure ≠ none ∨
      near = index ∧ (system.threads index).phase.calls := by
    by_cases here : near = index
    · rw [here, threads_withThread_self] at failed
      rw [here]
      exact (fares.failed_before failed).imp_right fun calls => ⟨rfl, calls⟩
    · rw [threads_withThread_of_ne here] at failed
      exact Or.inl failed
  have before : (system.threads far).round ≤ (system.threads near).round := by
    rcases failedToo with failed | ⟨rfl, calls⟩
    · exact told.last near far failed
    · -- No thread is a window ahead of one that calls a hook.
      have sync := timely.regular.lockstep.synchronous
      have mine := (sync near).epoch_eq (Phase.not_isWaiting_of_calls calls)
      have theirs := (sync far).current
      simp only [Thread.epoch, Phase.lag_of_calls calls] at mine theirs
      omega
  rcases fares.round with same | ⟨read, later, reading, all, decided, more⟩
  · have rounds (place : Fin n) : (((system.apply index effect).withThread index thread).threads
        place).round = (system.threads place).round := congr_withThread same place
    rw [rounds, rounds]
    exact before
  · have failed : (system.threads near).worker.failure ≠ none :=
      failedToo.resolve_right fun calling => by
        have calls := calling.2
        rw [reading] at calls
        exact calls
    have ahead := timely.regular.ahead_of_proceed reading all decided
      (told.last near index failed) failed
    have other : near ≠ index := fun same => Nat.lt_irrefl _ (same ▸ ahead)
    rw [threads_withThread_of_ne other]
    by_cases here : far = index
    · rw [here, threads_withThread_self, more]
      exact ahead
    · rw [threads_withThread_of_ne here]
      exact before

/-- A step keeps what is told of a run. -/
theorem Told.step (told : first.Told plan schedule system)
    (reached : first.exec plan schedule = some system) (among : plan.alone = false)
    (timely : system.Timely plan links) (upright : ∀ index, (system.threads index).Upright plan)
    (fares : ∀ thread effect, (system.threads index).step plan (system.view index) =
      some (thread, effect) → (system.threads index).Fares plan thread)
    (stepped : system.step plan index = some next) : first.Told plan (schedule ++ [index]) next := by
  obtain ⟨⟨thread, effect⟩, moved, rfl⟩ := Option.map_eq_some_iff.mp stepped
  have fares := fares thread effect moved
  exact ⟨told.threads_step reached among timely upright moved fares,
    fun other => told.shown_step among moved fares, fun other error => told.gave_step among timely fares,
    fun near far => told.last_step timely fares⟩

/-- What is told of a run on a single rank behind a schedule. -/
structure Lone (plan : Plan n) (first : System C n) (schedule : List (Fin n)) (system : System C n) :
    Prop where
  /-- A call that fails is the last step, and its thread ends so. -/
  last : ∀ turns index round halt, first.FailsAt plan schedule turns index round halt →
    schedule = turns ++ [index] ∧ (system.threads index).phase = .ended (.error halt)
  /-- A thread ends so for such a call alone, or for a finish hook that breaks off. -/
  only : ∀ index halt, (system.threads index).phase = .ended (.error halt) →
    (∃ turns round, first.FailsAt plan schedule turns index round halt) ∨
      ∃ turns panic, first.BreaksAt plan schedule turns index panic ∧ halt = .panicked panic

/-- A step keeps what is told of a run on a single rank. -/
theorem Lone.step (lone : first.Lone plan schedule system)
    (reached : first.exec plan schedule = some system) (alone : plan.alone = true)
    (solo : system.Solo plan links)
    (fares : ∀ thread effect, (system.threads index).step plan (system.view index) =
      some (thread, effect) → (system.threads index).Fares plan thread)
    (stepped : system.step plan index = some next) : first.Lone plan (schedule ++ [index]) next := by
  obtain ⟨⟨thread, effect⟩, moved, rfl⟩ := Option.map_eq_some_iff.mp stepped
  have fares := fares thread effect moved
  have only (place : Fin n) : place = index := by
    have single := of_decide_eq_true alone
    exact Fin.ext (by omega)
  refine ⟨fun turns place round halt fails => ?_, fun place halt ended => ?_⟩
  · obtain rfl := only place
    rw [threads_withThread_self]
    rcases (comes_concat reached).mp fails with earlier | ⟨rfl, -, -, failing⟩
    · have ended := (lone.last turns place round halt earlier).2
      exact absurd ended (Thread.not_ended_of_step moved _)
    · exact ⟨rfl, fares.ended alone failing⟩
  · obtain rfl := only place
    rw [threads_withThread_self] at ended
    cases fares with
    | @halts halt failing single =>
      cases (single alone).1.symm.trans ended
      exact Or.inl ⟨schedule, _, (comes_concat reached).mpr (Or.inr ⟨rfl, rfl, rfl, failing⟩)⟩
    | @breaks panic breaking phase =>
      cases phase.symm.trans ended
      exact Or.inr ⟨schedule, panic, (comes_concat reached).mpr (Or.inr ⟨rfl, rfl, breaking⟩), rfl⟩
    | aborts before =>
      have phases := solo.phases place
      rw [before] at phases
      exact phases.elim False.elim False.elim
    | proceeds _ _ _ phase => cases phase.symm.trans ended
    | calm _ _ _ goes => exact absurd ended (goes _)

end System

namespace Simulation

variable {registry : Registry C} {options : Options} {topology : Topology} {clock : Instant}
  {journal : Journal} {simulation : Simulation C} {filter : Filter}
  (built : (build registry options topology clock journal).2 = .ok simulation)
  {schedule : List (Fin simulation.ranks.length)} {system : System C simulation.ranks.length}
  (reached : (simulation.launch filter).exec simulation.plan schedule = some system)

include built reached

/-- What is told of every run on several ranks. -/
theorem told_of_exec (several : 2 ≤ simulation.ranks.length) :
    (simulation.launch filter).Told simulation.plan schedule system := by
  obtain ⟨assembly, realizes⟩ := realizes_of_build built
  refine System.exec_concat (P := fun schedule system =>
      (simulation.launch filter).Told simulation.plan schedule system)
    (System.told_nil (fun _ => trivial) (fun _ => rfl) fun _ => rfl)
    (fun turns former latter index arrives told stepped => ?_) reached
  exact told.step arrives (alone_plan several) (timely_of_exec built several realizes arrives)
    (kept_of_exec built realizes arrives).upright (fun _ _ moved => fares_of_exec built arrives moved)
    stepped

/-- What is told of every run on a single rank. -/
theorem lone_of_exec (alone : simulation.plan.alone = true) :
    (simulation.launch filter).Lone simulation.plan schedule system := by
  obtain ⟨assembly, realizes⟩ := realizes_of_build built
  refine System.exec_concat (P := fun schedule system =>
      (simulation.launch filter).Lone simulation.plan schedule system)
    ⟨fun _ _ _ _ fails => absurd fails System.not_comes_nil, fun _ _ ended => by cases ended⟩
    (fun turns former latter index arrives lone stepped => ?_) reached
  exact lone.step arrives alone (solo_of_exec built alone realizes arrives)
    (fun _ _ moved => fares_of_exec built arrives moved) stepped

end Simulation

end Rally
