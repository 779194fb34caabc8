import Mathlib.Data.Fintype.Card
import Rally.Proofs.Threads.StepCases
/-!
# Threads in lockstep

The rounds of all threads are numbered through by the barriers between them: a thread in its window
has passed two barriers for each round behind it, and one or two more later in a round. No thread is
ahead of the number of times the barrier has opened, and only one that still waits at an open
barrier is behind it, by one. So a fast thread never overtakes a slow one.
-/

namespace Rally

namespace Phase

/-- How many barriers of its round a thread has passed. -/
def lag : Phase → Nat
  | starting _ | opening | dispatching | posting _ | arriving .exchange | waiting .exchange _ => 0
  | draining _ | publishing | arriving .decision | waiting .decision _ => 1
  | reading _ | finishing _ _ | ended _ => 2

/-- Whether a thread waits at a barrier. -/
def isWaiting : Phase → Prop
  | waiting _ _ => True
  | _ => False

/-- A thread with hooks to call before the exchange has passed no barrier of its round. -/
theorem lag_of_inWindow {phase : Phase} (window : phase.inWindow) : phase.lag = 0 := by
  cases phase with
  | starting | opening | dispatching => rfl
  | _ => exact window.elim

/-- A thread that has left its rounds has passed both barriers of its last one. -/
theorem lag_of_isOver {phase : Phase} (gone : phase.isOver) : phase.lag = 2 := by
  cases phase with
  | finishing | ended => rfl
  | _ => exact gone.elim

/-- A thread with hooks to call before the exchange does not wait. -/
theorem not_isWaiting_of_inWindow {phase : Phase} (window : phase.inWindow) :
    ¬ phase.isWaiting := by
  cases phase with
  | waiting => exact window.elim
  | _ => exact id

/-- A thread that has left its rounds does not wait. -/
theorem not_isWaiting_of_isOver {phase : Phase} (gone : phase.isOver) : ¬ phase.isWaiting := by
  cases phase with
  | waiting => exact gone.elim
  | _ => exact id

/-- Behind a barrier a thread does not wait. -/
theorem not_isWaiting_behind (gate : Gate) : ¬ gate.behind.isWaiting := by
  cases gate <;> exact id

end Phase

namespace Thread

variable {C : Type} {n : Nat} {generation : Nat} {thread next : Thread C}

/-- How many barriers a thread has passed. -/
def epoch (thread : Thread C) : Nat := 2 * thread.round + thread.phase.lag

/-- Whether a thread waits for a barrier to open that has opened so many times before. -/
def waitsAt (generation : Nat) (thread : Thread C) : Bool :=
  match thread.phase with
  | .waiting _ stamp => stamp == generation
  | _ => false

/-- A thread waits for a barrier where it has read how many times that one has opened. -/
theorem waitsAt_iff :
    thread.waitsAt generation = true ↔ ∃ gate, thread.phase = .waiting gate generation := by
  unfold waitsAt
  cases thread.phase <;> simp

/-- A thread that does not wait waits for no barrier. -/
theorem waitsAt_of_not_isWaiting (moving : ¬ thread.phase.isWaiting) :
    thread.waitsAt generation = false := by
  rw [← Bool.not_eq_true, waitsAt_iff]
  rintro ⟨gate, waits⟩
  rw [waits] at moving
  exact moving trivial

/-- Where a thread is when a barrier has opened so many times. -/
structure Synchronous (generation : Nat) (thread : Thread C) : Prop where
  /-- It has passed as many barriers, or it waits at the last one. -/
  current : thread.epoch = generation ∨
    thread.epoch + 1 = generation ∧ ∃ gate, thread.phase = .waiting gate thread.epoch
  /-- It waits at the barrier behind those it has passed. -/
  stamped : ∀ gate stamp, thread.phase = .waiting gate stamp → stamp = thread.epoch

/-- A thread that does not wait has passed as many barriers as have opened. -/
theorem Synchronous.epoch_eq (sync : thread.Synchronous generation)
    (moving : ¬ thread.phase.isWaiting) : thread.epoch = generation := by
  rcases sync.current with same | ⟨_, gate, waits⟩
  · exact same
  · rw [waits] at moving
    exact absurd trivial moving

/-- A thread that does not wait and has passed all barriers is where it should be. -/
theorem synchronous_of_epoch_eq (moving : ¬ thread.phase.isWaiting)
    (same : thread.epoch = generation) : thread.Synchronous generation := by
  refine ⟨Or.inl same, fun gate stamp waits => ?_⟩
  rw [waits] at moving
  exact absurd trivial moving

/-- A thread that leaves a barrier has passed all that have opened. -/
theorem Synchronous.epoch_behind (sync : thread.Synchronous generation) {gate : Gate} {stamp : Nat}
    (waits : thread.phase = .waiting gate stamp) (opened : generation ≠ stamp) :
    (thread.goTo gate.behind).epoch = generation := by
  have stamped := sync.stamped gate stamp waits
  rcases sync.current with same | ⟨late, _⟩
  · exact absurd (same.symm.trans stamped.symm) opened
  · rw [← late]
    simp only [epoch, waits, goTo]
    cases gate <;> rfl

/-- A move other than through a barrier leads a thread without barriers from one place to another. -/
theorem Moves.epoch {plan : Plan n} {view : View n} {effect : Effect n}
    (move : Moves plan view thread next effect) (among : plan.alone = false)
    (moving : ¬ thread.phase.isWaiting) : next.epoch = thread.epoch := by
  cases move with
  | @worked worker phase deeds before course leads =>
    rw [Thread.epoch, Thread.epoch, Phase.lag_of_inWindow before]
    rcases leads.target with inside | ⟨_, rfl, _⟩ | ⟨alone, _⟩
    · rw [Phase.lag_of_inWindow inside]
    · rfl
    · rw [among] at alone
      cases alone
  | @arrived gate before =>
    rw [Thread.epoch, Thread.epoch, before]
    cases gate <;> rfl
  | passed before opened =>
    rw [before] at moving
    exact absurd trivial moving
  | proceeded before all decided =>
    rw [Thread.epoch, Thread.epoch, before]
    simp only [Phase.lag]
    omega
  | concluded before all decided course gone =>
    rw [Thread.epoch, Thread.epoch, before, Phase.lag_of_isOver gone]
    rfl
  | finished _ before course gone =>
    rw [Thread.epoch, Thread.epoch, Phase.lag_of_isOver before, Phase.lag_of_isOver gone]
  | stopped _ before | posted before | postedAll before | lost before | took before
  | scheduled before | published before | read before =>
    rw [Thread.epoch, Thread.epoch, before]
    rfl

/-- Only an arrival makes a thread wait. -/
theorem Moves.not_isWaiting {plan : Plan n} {view : View n} {effect : Effect n}
    (move : Moves plan view thread next effect) (among : plan.alone = false)
    (other : effect ≠ .arrive) : ¬ next.phase.isWaiting := by
  cases move with
  | worked _ _ before course leads =>
    rcases leads.target with inside | ⟨_, rfl, _⟩ | ⟨alone, _⟩
    · exact Phase.not_isWaiting_of_inWindow inside
    · exact id
    · rw [among] at alone
      cases alone
  | arrived before => exact absurd rfl other
  | passed before opened => exact Phase.not_isWaiting_behind _
  | concluded before all decided course gone => exact Phase.not_isWaiting_of_isOver gone
  | finished _ before course gone => exact Phase.not_isWaiting_of_isOver gone
  | _ => exact id

/-- A thread that arrives at a barrier waits there. -/
theorem Moves.arrives {plan : Plan n} {view : View n}
    (move : Moves plan view thread next .arrive) :
    ∃ gate, thread.phase = .arriving gate ∧ next = thread.goTo (.waiting gate view.generation) := by
  cases move with
  | @arrived gate before => exact ⟨gate, before, rfl⟩

/-- A move keeps a thread where it should be. It did not wait at a barrier that is still closed, and
it does so behind the move exactly if it has arrived there. -/
theorem Moves.synchronous {plan : Plan n} {view : View n} {effect : Effect n}
    (move : Moves plan view thread next effect) (among : plan.alone = false)
    (sync : thread.Synchronous view.generation) :
    next.Synchronous view.generation ∧ thread.waitsAt view.generation = false ∧
      (next.waitsAt view.generation = true ↔ effect = .arrive) := by
  by_cases arrives : effect = .arrive
  · subst arrives
    obtain ⟨gate, before, rfl⟩ := move.arrives
    have moving : ¬ thread.phase.isWaiting := by rw [before]; exact id
    have same := (move.epoch among moving).trans (sync.epoch_eq moving)
    refine ⟨⟨Or.inl same, fun other stamp waits => ?_⟩, waitsAt_of_not_isWaiting moving, ?_⟩
    · cases waits
      exact same.symm
    · simp [waitsAt, goTo]
  · have behind := move.not_isWaiting among arrives
    have still : next.waitsAt view.generation = true ↔ effect = .arrive := by
      simp [waitsAt_of_not_isWaiting behind, arrives]
    by_cases waiting : thread.phase.isWaiting
    · cases phase : thread.phase with
      | waiting gate stamp =>
        obtain ⟨rfl, opened⟩ : next = thread.goTo gate.behind ∧ view.generation ≠ stamp := by
          cases move <;> simp_all [Phase.inWindow, Phase.isOver]
        refine ⟨synchronous_of_epoch_eq behind (sync.epoch_behind phase opened), ?_, still⟩
        simp [waitsAt, phase, opened.symm]
      | _ =>
        rw [phase] at waiting
        exact waiting.elim
    · have same := (move.epoch among waiting).trans (sync.epoch_eq waiting)
      exact ⟨synchronous_of_epoch_eq behind same, waitsAt_of_not_isWaiting waiting, still⟩

end Thread

namespace System

variable {C : Type} {n : Nat} {plan : Plan n} {system next : System C n} {index : Fin n}

/-- The threads that wait for a barrier to open that has opened so many times before. -/
def waiting (system : System C n) (generation : Nat) : Finset (Fin n) :=
  Finset.univ.filter fun index => (system.threads index).waitsAt generation = true

/-- Where the threads of a run are. -/
structure Lockstep (system : System C n) : Prop where
  /-- Every thread is where it should be. -/
  synchronous : ∀ index, (system.threads index).Synchronous system.generation
  /-- The threads at the barrier are those that wait for it to open. -/
  arrived : system.arrived = (system.waiting system.generation).card
  /-- The barrier opens before all threads wait. -/
  room : system.arrived < n

/-- A thread that waits for a barrier belongs to those that do. -/
theorem mem_waiting {generation : Nat} :
    index ∈ system.waiting generation ↔
      (system.threads index).waitsAt generation = true := by
  simp [waiting]

/-- The threads behind a step. -/
theorem threads_withThread (thread : Thread C) (effect : Effect n) :
    ((system.apply index effect).withThread index thread).threads =
      Function.update system.threads index thread := by
  cases effect <;> simp only [apply, withThread]
  split <;> rfl

/-- The replaced thread behind a step. -/
@[simp] theorem threads_withThread_self (thread : Thread C) (effect : Effect n) :
    ((system.apply index effect).withThread index thread).threads index = thread := by
  rw [threads_withThread, Function.update_self]

/-- Another thread behind a step. -/
theorem threads_withThread_of_ne {other : Fin n} (differ : other ≠ index) (thread : Thread C)
    (effect : Effect n) :
    ((system.apply index effect).withThread index thread).threads other =
      system.threads other := by
  rw [threads_withThread, Function.update_of_ne differ]

/-- What held of all threads, and holds of the replaced one, holds of all threads behind a step. -/
theorem forall_withThread {P : Fin n → Thread C → Prop} {thread : Thread C} {effect : Effect n}
    (acted : P index thread) (before : ∀ other, P other (system.threads other)) (other : Fin n) :
    P other (((system.apply index effect).withThread index thread).threads other) := by
  by_cases here : other = index
  · rw [here, threads_withThread_self]
    exact acted
  · rw [threads_withThread_of_ne here]
    exact before other

/-- What the replaced thread has in common with the one before it, a step changes in no thread. -/
theorem congr_withThread {β : Type} {f : Thread C → β} {thread : Thread C} {effect : Effect n}
    (same : f thread = f (system.threads index)) (other : Fin n) :
    f (((system.apply index effect).withThread index thread).threads other) =
      f (system.threads other) :=
  forall_withThread (P := fun other thread => f thread = f (system.threads other)) same
    (fun _ => rfl) other

/-- Only an arrival changes what is known at the barrier. -/
theorem barrier_of_ne {effect : Effect n} (other : effect ≠ .arrive) (system : System C n)
    (index : Fin n) (thread : Thread C) :
    ((system.apply index effect).withThread index thread).generation = system.generation ∧
      ((system.apply index effect).withThread index thread).arrived = system.arrived := by
  cases effect with
  | arrive => exact absurd rfl other
  | _ => exact ⟨rfl, rfl⟩

/-- The barrier behind an arrival. -/
theorem barrier_of_arrive (system : System C n) (index : Fin n) (thread : Thread C) :
    let next := (system.apply index .arrive).withThread index thread
    (system.arrived + 1 < n ∧ next.generation = system.generation ∧
        next.arrived = system.arrived + 1) ∨
      (n ≤ system.arrived + 1 ∧ next.generation = system.generation + 1 ∧ next.arrived = 0) := by
  by_cases room : system.arrived + 1 < n
  · left
    simp [apply, withThread, room]
  · right
    simp only [apply, if_neg room, withThread, and_self, and_true]
    omega

/-- The threads that wait behind a step that is no arrival. -/
theorem waiting_of_ne {thread : Thread C} {effect : Effect n} {generation : Nat}
    (before : (system.threads index).waitsAt generation = false)
    (behind : thread.waitsAt generation = false) :
    ((system.apply index effect).withThread index thread).waiting generation =
      system.waiting generation := by
  ext other
  rw [mem_waiting, mem_waiting, congr_withThread (behind.trans before.symm)]

/-- The threads that wait behind an arrival. -/
theorem waiting_of_arrive {thread : Thread C} {effect : Effect n} {generation : Nat}
    (behind : thread.waitsAt generation = true) :
    ((system.apply index effect).withThread index thread).waiting generation =
      insert index (system.waiting generation) := by
  ext other
  rw [Finset.mem_insert, mem_waiting, mem_waiting]
  by_cases same : other = index
  · simp [same, behind]
  · simp [threads_withThread_of_ne same, same]

/-- A thread that does not wait leaves room at the barrier for its arrival. -/
theorem card_waiting_insert {generation : Nat}
    (before : (system.threads index).waitsAt generation = false) :
    (insert index (system.waiting generation)).card = (system.waiting generation).card + 1 := by
  refine Finset.card_insert_of_notMem ?_
  rw [mem_waiting, before]
  exact Bool.false_ne_true

/-- Where all threads wait for a barrier, each of them does. -/
theorem waits_of_card {generation : Nat} (full : n ≤ (system.waiting generation).card)
    (other : Fin n) : (system.threads other).waitsAt generation = true := by
  have whole : system.waiting generation = Finset.univ := by
    refine Finset.eq_univ_of_card _ (Nat.le_antisymm (Finset.card_le_univ _) ?_)
    rw [Fintype.card_fin]
    exact full
  rw [← mem_waiting, whole]
  exact Finset.mem_univ other

/-- A thread that waits for a barrier that has just opened is where it should be. -/
theorem synchronous_of_waitsAt {generation : Nat} {thread : Thread C}
    (sync : thread.Synchronous generation) (waits : thread.waitsAt generation = true) :
    thread.Synchronous (generation + 1) := by
  obtain ⟨gate, waits⟩ := Thread.waitsAt_iff.mp waits
  have stamped := sync.stamped gate generation waits
  exact ⟨Or.inr ⟨by rw [stamped], gate, by rw [← stamped]; exact waits⟩, sync.stamped⟩

/-- Before the first steps all threads are where they should be. -/
theorem lockstep_of_starting (some : 0 < n) (fresh : system.generation = 0 ∧ system.arrived = 0)
    (starting : ∀ index, (system.threads index).epoch = 0 ∧
      (system.threads index).phase.isStarting) : system.Lockstep := by
  have moving (index : Fin n) : ¬ (system.threads index).phase.isWaiting := by
    have start := (starting index).2
    cases phase : (system.threads index).phase with
    | waiting =>
      rw [phase] at start
      exact start.elim
    | _ => exact id
  refine ⟨fun index => ?_, ?_, ?_⟩
  · rw [fresh.1]
    exact Thread.synchronous_of_epoch_eq (moving index) (starting index).1
  · rw [fresh.2]
    refine (Finset.card_eq_zero.mpr ?_).symm
    refine Finset.filter_eq_empty_iff.mpr fun index _ => ?_
    rw [Thread.waitsAt_of_not_isWaiting (moving index)]
    exact Bool.false_ne_true
  · rw [fresh.2]
    exact some

/-- Behind a step every thread is where it should be before the barrier opens. -/
theorem Lockstep.synchronous_step (lockstep : system.Lockstep) (among : plan.alone = false)
    {thread : Thread C} {effect : Effect n}
    (move : Thread.Moves plan (system.view index) (system.threads index) thread effect)
    (other : Fin n) :
    (((system.apply index effect).withThread index thread).threads other).Synchronous
      system.generation :=
  forall_withThread (P := fun _ thread => thread.Synchronous system.generation)
    (move.synchronous among (lockstep.synchronous index)).1 lockstep.synchronous other

/-- A step that opens the barrier is an arrival, behind which all threads wait. -/
theorem Lockstep.opens (lockstep : system.Lockstep) (among : plan.alone = false)
    {thread : Thread C} {effect : Effect n}
    (move : Thread.Moves plan (system.view index) (system.threads index) thread effect)
    (opens : ((system.apply index effect).withThread index thread).generation ≠
      system.generation) :
    ((system.apply index effect).withThread index thread).generation = system.generation + 1 ∧
      ((system.apply index effect).withThread index thread).arrived = 0 ∧
      ∀ other, (((system.apply index effect).withThread index thread).threads other).waitsAt
        system.generation = true := by
  obtain ⟨-, before, arrives⟩ : thread.Synchronous system.generation ∧
      (system.threads index).waitsAt system.generation = false ∧
        (thread.waitsAt system.generation = true ↔ effect = .arrive) :=
    move.synchronous among (lockstep.synchronous index)
  by_cases arriving : effect = .arrive
  · subst arriving
    rcases barrier_of_arrive system index thread with ⟨_, same, _⟩ | ⟨full, opened, none⟩
    · exact absurd same opens
    · refine ⟨opened, none, waits_of_card ?_⟩
      rw [waiting_of_arrive (arrives.mpr rfl), card_waiting_insert before, ← lockstep.arrived]
      exact full
  · exact absurd (barrier_of_ne arriving system index thread).1 opens

variable [Component C]

/-- A step is a move of its thread. -/
theorem moves_of_step (stepped : system.step plan index = some next) :
    ∃ thread effect,
      Thread.Moves plan (system.view index) (system.threads index) thread effect ∧
        next = (system.apply index effect).withThread index thread := by
  obtain ⟨⟨thread, effect⟩, moved, rfl⟩ := Option.map_eq_some_iff.mp stepped
  exact ⟨thread, effect, Thread.moves_of_step moved, rfl⟩

/-- A step keeps all threads where they should be. -/
theorem Lockstep.step (lockstep : system.Lockstep) (among : plan.alone = false)
    (stepped : system.step plan index = some next) : next.Lockstep := by
  obtain ⟨thread, effect, move, rfl⟩ := moves_of_step stepped
  have sync := lockstep.synchronous_step among move
  obtain ⟨-, before, arrives⟩ : thread.Synchronous system.generation ∧
      (system.threads index).waitsAt system.generation = false ∧
        (thread.waitsAt system.generation = true ↔ effect = .arrive) :=
    move.synchronous among (lockstep.synchronous index)
  by_cases opens : ((system.apply index effect).withThread index thread).generation =
      system.generation
  · refine ⟨by rw [opens]; exact sync, ?_, ?_⟩
    · rw [opens]
      by_cases arriving : effect = .arrive
      · subst arriving
        rw [waiting_of_arrive (arrives.mpr rfl), card_waiting_insert before, ← lockstep.arrived]
        rcases barrier_of_arrive system index thread with ⟨_, _, more⟩ | ⟨_, opened, _⟩
        · exact more
        · omega
      · have behind : thread.waitsAt system.generation = false := by
          rw [← Bool.not_eq_true]
          exact fun waits => arriving (arrives.mp waits)
        rw [waiting_of_ne before behind, (barrier_of_ne arriving system index thread).2]
        exact lockstep.arrived
    · by_cases arriving : effect = .arrive
      · subst arriving
        rcases barrier_of_arrive system index thread with ⟨room, _, more⟩ | ⟨_, opened, _⟩
        · rw [more]
          exact room
        · omega
      · rw [(barrier_of_ne arriving system index thread).2]
        exact lockstep.room
  · obtain ⟨opened, none, waits⟩ := lockstep.opens among move opens
    refine ⟨fun other => ?_, ?_, by rw [none]; exact Nat.zero_lt_of_lt index.isLt⟩
    · rw [opened]
      exact synchronous_of_waitsAt (sync other) (waits other)
    · rw [none, opened]
      refine (Finset.card_eq_zero.mpr ?_).symm
      refine Finset.filter_eq_empty_iff.mpr fun other _ later => ?_
      obtain ⟨gate, first⟩ := Thread.waitsAt_iff.mp (waits other)
      obtain ⟨other, second⟩ := Thread.waitsAt_iff.mp later
      simp only [first, Phase.waiting.injEq] at second
      omega

/-- A schedule behind another one goes on from where that one leads. -/
theorem exec_append (former latter : List (Fin n)) (system : System C n) :
    system.exec plan (former ++ latter) =
      (system.exec plan former).bind fun middle => middle.exec plan latter := by
  induction former generalizing system with
  | nil => rfl
  | cons index rest ih =>
    have split (rest : List (Fin n)) :
        system.exec plan (index :: rest) = (system.step plan index).bind (exec plan rest) := rfl
    rw [List.cons_append, split, split, Option.bind_assoc]
    exact congrArg _ (funext ih)

/-- What holds before a run, and behind each of its steps, holds behind every schedule. -/
theorem exec_concat {P : List (Fin n) → System C n → Prop} {schedule : List (Fin n)} (start : P [] system)
    (step : ∀ turns former latter index, system.exec plan turns = some former → P turns former →
      former.step plan index = some latter → P (turns ++ [index]) latter)
    (reached : system.exec plan schedule = some next) : P schedule next := by
  induction schedule using List.reverseRecOn generalizing next with
  | nil =>
    cases reached
    exact start
  | append_singleton turns index ih =>
    rw [exec_append] at reached
    obtain ⟨former, arrives, onward⟩ := Option.bind_eq_some_iff.mp reached
    obtain ⟨latter, stepped, same⟩ := Option.bind_eq_some_iff.mp onward
    cases same
    exact step turns former _ index arrives (ih arrives) stepped

/-- What holds before a schedule, and behind each of its steps, holds behind the schedule. -/
theorem exec_along {P : System C n → Prop} {schedule : List (Fin n)} (first : P system)
    (step : ∀ turns index rest former latter, schedule = turns ++ index :: rest →
      system.exec plan turns = some former → P former → former.step plan index = some latter →
        P latter)
    (reached : system.exec plan schedule = some next) : P next := by
  refine exec_concat (P := fun turns former => ∀ rest, schedule = turns ++ rest → P former)
    (fun _ _ => first) (fun turns former latter index arrives before stepped rest split => ?_) reached []
    (List.append_nil _).symm
  rw [List.append_assoc] at split
  exact step turns index rest former latter split arrives (before _ split) stepped

/-- What holds before a run, and behind every step from a state of the run, holds in all its states. -/
theorem exec_induction {P : System C n → Prop} (first : P system)
    (step : ∀ turns former latter index, system.exec plan turns = some former → P former →
      former.step plan index = some latter → P latter) {schedule : List (Fin n)}
    (reached : system.exec plan schedule = some next) : P next :=
  exec_along first (fun turns index _ former latter _ => step turns former latter index) reached

/-- What every step preserves holds behind a schedule. -/
theorem exec_preserves {P : System C n → Prop}
    (step : ∀ system next index, P system → system.step plan index = some next → P next)
    {schedule : List (Fin n)} (reached : system.exec plan schedule = some next)
    (holds : P system) : P next :=
  exec_induction holds (fun _ former latter index _ => step former latter index) reached

/-- What each thread keeps in its steps holds of all threads behind a schedule. -/
theorem exec_threads {P : Fin n → Thread C → Prop}
    (step : ∀ index thread next view effect, P index thread →
      thread.step plan view = some (next, effect) → P index next)
    {schedule : List (Fin n)} (reached : system.exec plan schedule = some next)
    (holds : ∀ index, P index (system.threads index)) : ∀ index, P index (next.threads index) := by
  refine exec_preserves (P := fun state => ∀ index, P index (state.threads index)) ?_ reached holds
  intro former latter index before stepped
  obtain ⟨⟨thread, effect⟩, moved, rfl⟩ := Option.map_eq_some_iff.mp stepped
  exact forall_withThread (step _ _ _ _ _ (before index) moved) before

end System

end Rally
