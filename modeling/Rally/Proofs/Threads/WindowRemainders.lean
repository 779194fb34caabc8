import Rally.Proofs.Threads.MessageOrder
/-!
# What windows leave behind

A rank that stops in a window and does not fail stays as it is until the next decision, but for the
messages that others send it meanwhile, and these are due behind the end of the window. So where no limit
is set and the lookahead bounds the window, nothing that waits on the rank is due within the window; and
where the rank stopped at its limit, this still forbids the earliest of its events.
-/

namespace Rally

namespace Rank

variable {C : Type}

/-- A rank that stops neither by vote nor at its limit has nothing to dispatch before the bound, if there
is one, and nothing at all otherwise. -/
theorem idle_of_turn {rank : Rank C} {bound : Option Instant} {stop : Stop}
    (sound : rank.pending.Sound) (stops : rank.turn bound false = .error stop)
    (free : stop ≠ .limitReached) :
    ∀ event ∈ rank.pending.inOrder, ∃ last, bound = some last ∧ last ≤ event.time := by
  intro event inside
  have turns := rank.turns_turn bound false
  rw [stops] at turns
  cases turns with
  | voted may => cases may
  | idle _ none =>
    rw [EventSet.pop?_eq_none_iff] at none
    rw [none] at inside
    cases inside
  | late _ popped ends late => exact ⟨_, ends, late.trans ((sound.first_of_pop popped).2 event inside)⟩
  | limited => exact absurd rfl free

/-- Whether the limit of a rank forbids the earliest of the events that wait on it, which is due before a
bound. -/
def Barred (bound : Option Instant) (rank : Rank C) : Prop :=
  ∃ event ∈ rank.pending.inOrder, (∀ other ∈ rank.pending.inOrder, event.time ≤ other.time) ∧
    (∀ last, bound = some last → event.time < last) ∧
    rank.limit.applies (rank.dispatched + 1) event.time = true

/-- A rank that is barred before a bound is barred. -/
theorem Barred.unbound {bound : Option Instant} {rank : Rank C} (barred : rank.Barred bound) :
    rank.Barred none := by
  obtain ⟨event, waits, least, -, forbids⟩ := barred
  exact ⟨event, waits, least, fun _ ends => (by cases ends), forbids⟩

/-- A rank that stops at its limit is barred by it. -/
theorem barred_of_turn {rank : Rank C} {bound : Option Instant} {byVote : Bool}
    (sound : rank.pending.Sound) (stops : rank.turn bound byVote = .error .limitReached) :
    rank.Barred bound := by
  have turns := rank.turns_turn bound byVote
  rw [stops] at turns
  cases turns with
  | limited _ popped early forbids =>
    obtain ⟨inside, least⟩ := sound.first_of_pop popped
    exact ⟨_, inside, least, early, forbids⟩

/-- An act leaves the limit of a rank as it is. -/
theorem Act.keeps_limit {within : Instant → Prop} {first last : Rank C} {deeds : List Deed}
    (act : Act within first deeds last) : last.limit = first.limit := by
  cases act with
  | wrote | started | absorbed | took => rfl
  | sent id slot port binding message =>
    by_cases here : (first.receiver (delivery binding message)).rank = first.id
    · rw [send_of_eq here]
      rfl
    · rw [send_of_ne here]
      rfl

end Rank

namespace Thread

variable {C : Type} {n : Nat} {plan : Plan n} {view : View n} {thread next : Thread C}
  {effect : Effect n}

/-- A step leaves the limit of a rank as it is. -/
theorem Carries.keeps_limit (carries : Carries plan view thread next effect) :
    next.rank.limit = thread.rank.limit := by
  cases carries with
  | acted course =>
    exact course.keeps (fun rank => rank.limit = thread.rank.limit)
      (fun _ _ _ same act => act.keeps_limit.trans same) rfl
  | posted _ _ rank | lost _ _ rank | took _ _ rank | kept _ _ rank => rw [rank]
  | scheduled _ _ rank =>
    rw [rank]
    rfl

/-- Whether something holds of a rank that has left its window and did not fail, given the number and the
start of the window. -/
def Behind (P : Worker C → Nat → Instant → Prop) (thread : Thread C) : Prop :=
  thread.worker.failure = none → ¬ thread.phase.inWindow → ¬ thread.phase.isOver →
    P thread.worker thread.round thread.start

/-- Whether nothing that waits behind the window of a thread is due within it. -/
def Spent (plan : Plan n) (thread : Thread C) : Prop :=
  thread.worker.failure = none → ¬ thread.phase.inWindow → ¬ thread.phase.isOver →
    ∀ bound, plan.bound thread.start = some bound →
      ∀ event ∈ thread.rank.pending.inOrder, bound ≤ event.time

variable [Component C]

/-- A thread that dispatches and posts next has found nothing to dispatch. -/
theorem turn_of_posting (before : thread.phase = .dispatching)
    (stepped : thread.step plan view = some (next, effect)) {rest : List Parcel}
    (behind : next.phase = .posting rest) :
    ∃ stop, thread.rank.turn (plan.bound thread.start) (plan.byVote thread.round) = .error stop ∧
      next.worker.limitHit = (stop == .limitReached) := by
  simp only [step, before, Option.some.injEq, Prod.mk.injEq] at stepped
  obtain ⟨rfl, -⟩ := stepped
  rw [dispatchNext] at behind ⊢
  cases turn : thread.rank.turn (plan.bound thread.start) (plan.byVote thread.round) with
  | error stop =>
    refine ⟨stop, rfl, ?_⟩
    simp only [turn, stopped] at behind ⊢
    cases alone : plan.alone with
    | true =>
      simp only [alone] at behind
      cases behind
    | false => rfl
  | ok taken =>
    simp only [turn] at behind
    cases called : Rank.dispatch taken.1 { thread.rank with pending := taken.2 } with
    | mk rank halt =>
      cases halt with
      | none =>
        simp only [called] at behind
        cases before.symm.trans behind
      | some halt =>
        simp only [called, halted] at behind
        cases alone : plan.alone <;> simp only [alone] at behind <;> cases behind

/-- What holds of a rank where it stops, and stays so where it schedules what others sent, holds of a
thread behind its window. -/
theorem Behind.step {P : Worker C → Nat → Instant → Prop} (holds : thread.Behind P)
    (among : plan.alone = false) (stepped : thread.step plan view = some (next, effect))
    (stops : ∀ stop, thread.rank.turn (plan.bound thread.start) (plan.byVote thread.round) =
      .error stop → P { thread.worker with
        rank := { thread.rank with outgoing := [] }
        limitHit := stop == .limitReached } thread.round thread.start)
    (receives : ∀ taken, thread.phase = .draining taken →
      P thread.worker thread.round thread.start →
        P { thread.worker with rank := thread.rank.receive taken } thread.round thread.start) :
    next.Behind P := by
  have same (outside : ¬ thread.phase.inWindow) (going : ¬ thread.phase.isOver)
      (worker : next.worker = thread.worker) (round : next.round = thread.round)
      (start : next.start = thread.start) : next.Behind P := fun healthy _ _ => by
    rw [worker, round, start]
    exact holds (worker ▸ healthy) outside going
  cases moves_of_step stepped with
  | worked worker phase before course leads =>
    intro healthy outside going
    rcases leads.target with inside | ⟨-, -, failed⟩ | ⟨alone, -⟩
    · exact absurd inside outside
    · have healthy : worker.failure = none := healthy
      rw [healthy] at failed
      cases failed
    · rw [among] at alone
      cases alone
  | stopped limitHit before =>
    intro _ _ _
    obtain ⟨stop, turn, hit⟩ := turn_of_posting before stepped rfl
    obtain rfl : limitHit = (stop == .limitReached) := hit
    exact stops stop turn
  | posted before | postedAll before | arrived before | took before | published before
  | read before | @passed gate _ before =>
    exact same (by rw [before]; exact id) (by rw [before]; exact id) rfl rfl rfl
  | lost before =>
    intro healthy
    cases healthy
  | @scheduled taken before inbox =>
    exact fun healthy _ _ => receives taken before
      (holds healthy (by rw [before]; exact id) (by rw [before]; exact id))
  | proceeded => exact fun _ outside => absurd trivial outside
  | concluded before all decided course gone => exact fun _ _ going => absurd gone going
  | finished worker before course gone => exact fun _ _ going => absurd gone going

end Thread

namespace System

variable {C : Type} [Component C] {n : Nat} {plan : Plan n} {links : Array Link}
  {system next : System C n} {index : Fin n}

omit [Component C] in
/-- What a thread schedules behind its window joins the events of its rank, and is due behind the window. -/
theorem Timely.receives (timely : system.Timely plan links) {taken : List Parcel}
    (draining : (system.threads index).phase = .draining taken) :
    (∀ former ∈ (system.threads index).rank.pending.inOrder,
      ∃ event ∈ ((system.threads index).rank.receive taken).pending.inOrder,
        event.time = former.time) ∧
    ∀ event ∈ ((system.threads index).rank.receive taken).pending.inOrder,
      (∃ former ∈ (system.threads index).rank.pending.inOrder, former.time = event.time) ∨
        ∃ bound, plan.bound (system.threads index).start = some bound ∧ bound ≤ event.time := by
  have same : (system.threads index).taken = taken := by rw [Thread.taken, draining]
  have entries := timely.steady.entries index
  rw [same] at entries
  refine ⟨fun former waits => ?_, fun event inside => ?_⟩
  · have there : former.entry ∈
        ((system.threads index).rank.receive taken).pending.inOrder.map Scheduled.entry := by
      rw [entries]
      exact List.mem_append_left _ (List.mem_map_of_mem waits)
    obtain ⟨event, inside, same⟩ := List.mem_map.mp there
    exact ⟨event, inside, (Prod.mk.inj same).1⟩
  · have there := List.mem_map_of_mem (f := Scheduled.entry) inside
    rw [entries, List.mem_append] at there
    rcases there with old | new
    · obtain ⟨former, waits, same⟩ := List.mem_map.mp old
      exact Or.inl ⟨former, waits, (Prod.mk.inj same).1⟩
    · obtain ⟨parcel, came, due⟩ := List.mem_map.mp new
      obtain ⟨bound, ends, later⟩ := timely.isFor_taken (same ▸ List.mem_mergeSort.mp came)
      exact Or.inr ⟨bound, ends, (Prod.mk.inj due).1 ▸ later⟩

/-- What holds of the rank of a thread where it stops, and stays so where it schedules what others sent,
holds of all threads behind a step. -/
theorem behind_step {P : Worker C → Nat → Instant → Prop} (among : plan.alone = false)
    (holds : ∀ index, (system.threads index).Behind P)
    (stepped : system.step plan index = some next)
    (stops : ∀ stop, (system.threads index).rank.turn (plan.bound (system.threads index).start)
      (plan.byVote (system.threads index).round) = .error stop →
        P { (system.threads index).worker with
          rank := { (system.threads index).rank with outgoing := [] }
          limitHit := stop == .limitReached }
          (system.threads index).round (system.threads index).start)
    (receives : ∀ taken, (system.threads index).phase = .draining taken →
      P (system.threads index).worker (system.threads index).round (system.threads index).start →
        P { (system.threads index).worker with
          rank := (system.threads index).rank.receive taken }
          (system.threads index).round (system.threads index).start) :
    ∀ index, (next.threads index).Behind P := by
  obtain ⟨⟨thread, effect⟩, moved, rfl⟩ := Option.map_eq_some_iff.mp stepped
  exact forall_withThread (P := fun _ thread => thread.Behind P)
    ((holds index).step among moved stops receives) holds

/-- Whether no rank has a limit, and all have spent their windows. -/
structure Spent (plan : Plan n) (system : System C n) : Prop where
  /-- No rank has a limit. -/
  unlimited : ∀ index, (system.threads index).rank.limit = .unlimited
  /-- Nothing that waits behind a window is due within it. -/
  windows : ∀ index, (system.threads index).Spent plan

/-- How ranks leave their windows: nothing that waits behind a window is due within it, unless the rank
stopped by vote or at its limit; and where it stopped at its limit, it is barred. -/
structure Leaves (plan : Plan n) (system : System C n) : Prop where
  /-- Nothing that waits is due within the window. -/
  idle : ∀ index, (system.threads index).Behind fun worker round start =>
    worker.limitHit = false → plan.byVote round = false → ∀ event ∈ worker.rank.pending.inOrder,
      ∃ bound, plan.bound start = some bound ∧ bound ≤ event.time
  /-- The limit forbids the earliest event. -/
  barred : ∀ index, (system.threads index).Behind fun worker _ start =>
    worker.limitHit = true → worker.rank.Barred (plan.bound start)

/-- Behind a step all ranks have still left their windows so. -/
theorem Leaves.step (leaves : system.Leaves plan) (timely : system.Timely plan links)
    (among : plan.alone = false) (stepped : system.step plan index = some next) :
    next.Leaves plan := by
  have sound := (timely.steady.threads index).timed.sound
  refine ⟨behind_step among leaves.idle stepped (fun stop turn hit byVote => ?_)
    fun taken draining holds hit byVote event inside => ?_,
    behind_step among leaves.barred stepped (fun stop turn hit => ?_)
      fun taken draining holds hit => ?_⟩
  · rw [byVote] at turn
    exact Rank.idle_of_turn sound turn (by simpa using hit)
  · rcases (timely.receives draining).2 event inside with ⟨former, waits, same⟩ | late
    · exact same ▸ holds hit byVote former waits
    · exact late
  · obtain rfl : stop = .limitReached := by simpa using hit
    exact Rank.barred_of_turn sound turn
  · obtain ⟨event, waits, least, early, forbids⟩ := holds hit
    obtain ⟨stays, came⟩ := timely.receives draining
    obtain ⟨last, inside, same⟩ := stays event waits
    refine ⟨last, inside, fun other there => ?_, fun bound ends => ?_, ?_⟩
    · rw [same]
      rcases came other there with ⟨former, waited, due⟩ | ⟨bound, ends, later⟩
      · exact due ▸ least former waited
      · exact le_trans (le_of_lt (early bound ends)) later
    · exact same ▸ early bound ends
    · rw [same]
      exact forbids

end System

namespace Simulation

variable {C : Type} [Component C] {registry : Registry C} {options : Options}
  {topology : Topology} {clock : Instant} {journal : Journal} {simulation : Simulation C}
  {assembly : Assembly C} {filter : Filter} {schedule : List (Fin simulation.ranks.length)}
  {system : System C simulation.ranks.length}

/-- In every run all ranks keep the limit that was chosen. -/
theorem limit_of_exec
    (built : (build registry options topology clock journal).2 = .ok simulation)
    (reached : (simulation.launch filter).exec simulation.plan schedule = some system) :
    ∀ index, (system.threads index).rank.limit = options.limit := by
  refine System.exec_threads (P := fun _ thread => thread.rank.limit = options.limit)
    (fun index thread next view effect before stepped => ?_) reached
    fun index => (spreads_of_build built).limit (simulation.ranks.get index) (List.get_mem _ _)
  exact (Thread.moves_of_step stepped).carries.keeps_limit.trans before

/-- In every run on several ranks they leave their windows idle or at their limit. -/
theorem leaves_of_exec
    (built : (build registry options topology clock journal).2 = .ok simulation)
    (several : 2 ≤ simulation.ranks.length)
    (realizes : simulation.Realizes registry topology assembly)
    (reached : (simulation.launch filter).exec simulation.plan schedule = some system) :
    system.Timely simulation.plan assembly.links ∧ system.Leaves simulation.plan := by
  have among := alone_plan several
  have step : ∀ (former next : System C simulation.ranks.length) index,
      former.Timely simulation.plan assembly.links ∧ former.Leaves simulation.plan →
      former.step simulation.plan index = some next →
        next.Timely simulation.plan assembly.links ∧ next.Leaves simulation.plan := by
    rintro former next index ⟨timely, leaves⟩ stepped
    exact ⟨timely.step realizes.covers among (ids_injective built) stepped,
      leaves.step timely among stepped⟩
  exact System.exec_preserves step reached ⟨timely_launch built several filter realizes,
    fun _ _ outside => absurd trivial outside, fun _ _ outside => absurd trivial outside⟩

/-- In every run of a simulation on several ranks without a limit, all threads have spent the windows
that they have left. -/
theorem spent_of_exec
    (built : (build registry options topology clock journal).2 = .ok simulation)
    (several : 2 ≤ simulation.ranks.length) (unlimited : options.limit = .unlimited)
    (realizes : simulation.Realizes registry topology assembly)
    (reached : (simulation.launch filter).exec simulation.plan schedule = some system) :
    system.Timely simulation.plan assembly.links ∧ system.Spent simulation.plan := by
  have among := alone_plan several
  obtain ⟨timely, leaves⟩ := leaves_of_exec built several realizes reached
  have free := fun index => (limit_of_exec built reached index).trans unlimited
  refine ⟨timely, free, fun index healthy outside going bound ends event inside => ?_⟩
  have byVote : simulation.plan.byVote (system.threads index).round = false := by
    rw [Plan.bound, among, if_neg Bool.false_ne_true] at ends
    obtain ⟨lookahead, known, -⟩ := Option.map_eq_some_iff.mp ends
    rw [Plan.byVote, Plan.bound, among, if_neg Bool.false_ne_true, if_neg Bool.false_ne_true, known]
    rfl
  have unmarked : (system.threads index).worker.limitHit = false := by
    rw [← Bool.not_eq_true]
    intro hit
    obtain ⟨last, -, -, -, forbids⟩ := leaves.barred index healthy outside going hit
    have free : (system.threads index).worker.rank.limit = .unlimited := free index
    rw [free] at forbids
    cases forbids
  obtain ⟨last, known, late⟩ := leaves.idle index healthy outside going unmarked byVote event inside
  rw [ends] at known
  exact Option.some.inj known ▸ late

end Simulation

end Rally
