import Mathlib.Algebra.BigOperators.Fin
import Mathlib.Algebra.Order.BigOperators.Group.Finset
import Rally.Proofs.Pool.RunOutcomes
/-!
# Runs that come to an end

On several ranks, a window in which the ranks do not end the run is followed by one that begins later,
and behind the first one it begins when the next message is due, which is dispatched in it. Only a window
at the last instant brings nothing on. So where ranks never dispatch more than so many messages in all, and
on several ranks no message is due at the last instant, a run comes to an end with enough fuel.
-/

namespace Rally

variable {C : Type} [Component C]

namespace Rank

variable {bound : Option Instant} {byVote : Bool} {fuel : Nat}

/-- A rank in a window dispatches at least the next event, if there is one. -/
theorem dispatched_until {rank last : Rank C} {outcome : Except Halt Stop}
    (runs : rank.dispatchUntil bound byVote fuel = some (last, outcome)) :
    rank.dispatched ≤ last.dispatched ∧
      ∀ taken, rank.turn bound byVote = .ok taken → rank.dispatched < last.dispatched := by
  induction fuel generalizing rank with
  | zero => cases runs
  | succ fuel ih =>
    rw [dispatchUntil_succ] at runs
    cases turn : rank.turn bound byVote with
    | error stop =>
      simp only [turn] at runs
      cases runs
      exact ⟨le_refl _, fun taken goes => by cases goes⟩
    | ok taken =>
      obtain ⟨event, pending⟩ := taken
      simp only [turn] at runs
      have counted := dispatched_dispatch rank event pending
      cases called : dispatch event { rank with pending } with
      | mk next halt =>
        rw [called] at counted
        simp only [called] at runs
        have behind : next.dispatched ≤ last.dispatched := by
          cases halt with
          | none => exact (ih runs).1
          | some halt =>
            cases runs
            exact le_refl _
        simp only at counted
        exact ⟨by omega, fun _ _ => by omega⟩

/-- A rank that never dispatches more than so many events gets through a window. -/
theorem dispatchUntil_ne_none {P : Rank C → Prop} {most : Nat}
    (bounded : ∀ rank, P rank → rank.dispatched ≤ most)
    (goes : ∀ rank event pending next, P rank → rank.turn bound byVote = .ok (event, pending) →
      dispatch event { rank with pending } = (next, none) → P next)
    {rank : Rank C} (holds : P rank) (enough : most < rank.dispatched + fuel) :
    rank.dispatchUntil bound byVote fuel ≠ none := by
  induction fuel generalizing rank with
  | zero =>
    have few := bounded rank holds
    omega
  | succ fuel ih =>
    rw [dispatchUntil_succ]
    cases turn : rank.turn bound byVote with
    | error stop => exact Option.some_ne_none _
    | ok taken =>
      obtain ⟨event, pending⟩ := taken
      have counted := dispatched_dispatch rank event pending
      cases called : dispatch event { rank with pending } with
      | mk next halt =>
        rw [called] at counted
        simp only [called] at counted ⊢
        cases halt with
        | none => exact ih (goes _ _ _ _ holds turn called) (by omega)
        | some halt => exact Option.some_ne_none _

end Rank

namespace System

variable {n : Nat} {plan : Plan n}

/-- How many messages all ranks have dispatched. -/
def dispatched (system : System C n) : Nat :=
  ∑ index, (system.threads index).rank.dispatched

end System

namespace Windows

omit [Component C] in
/-- What neither the parcels that a rank gives away nor those that it takes change is the same behind an
exchange. -/
theorem map_exchange {α : Type} (f : Worker C → α)
    (same : ∀ known parcels worker, f ((Worker.ship known worker).1.collect parcels) = f worker)
    (workers : List (Worker C)) : (exchange workers).map f = workers.map f := by
  rw [exchange, List.map_map, List.map_map]
  exact List.map_congr_left fun worker _ => same _ _ worker

omit [Component C] in
/-- The exchange behind a window dispatches nothing. -/
theorem dispatched_exchange (workers : List (Worker C)) :
    (exchange workers).map (fun worker => worker.rank.dispatched) =
      workers.map fun worker => worker.rank.dispatched :=
  map_exchange _ (fun _ _ _ => by rw [Worker.ship]; split <;> rfl) workers

omit [Component C] in
/-- The exchange behind a window leaves the marks of limits that were reached. -/
theorem limitHit_exchange (workers : List (Worker C)) :
    (exchange workers).map Worker.limitHit = workers.map Worker.limitHit :=
  map_exchange _ (fun _ _ _ => by rw [Worker.ship]; split <;> rfl) workers

end Windows

/-- Where the ranks go on, none has reached its limit. -/
theorem limitHit_of_proceed {statuses : List RankStatus} {later : Instant}
    (decided : decision statuses = .proceed later) :
    ∀ status ∈ statuses, status.limitHit = false := by
  have decides := decides_decision statuses
  rw [decided] at decides
  cases decides with
  | proceeds _ _ free => exact free

namespace System

variable {n : Nat} {plan : Plan n} {system next : System C n}

/-- A window begins where it began. -/
theorem start_of_reaches {count : Nat} (reaches : Reaches plan system next count) (index : Fin n)
    (same : (next.threads index).round = (system.threads index).round) :
    (next.threads index).start = (system.threads index).start := by
  obtain ⟨schedule, -, reached⟩ := reaches
  have kept := exec_threads (P := fun index thread => (system.threads index).round < thread.round ∨
    thread.round = (system.threads index).round ∧ thread.start = (system.threads index).start)
    (fun index thread next view effect before stepped => ?_) reached (fun _ => Or.inr ⟨rfl, rfl⟩)
  · rcases kept index with later | ⟨-, start⟩
    · omega
    · exact start
  · cases Thread.moves_of_step stepped with
    | proceeded =>
      refine Or.inl ?_
      change _ < thread.round + 1
      rcases before with later | ⟨round, -⟩ <;> omega
    | _ => exact before

end System

namespace Simulation

variable {registry : Registry C} {options : Options} {topology : Topology}
  {clock moment : Instant} {journal : Journal} {simulation : Simulation C}
  {assembly : Assembly C} {filter : Filter} {fuel most round : Nat} {start : Instant}
  {system : System C simulation.ranks.length} {index : Fin simulation.ranks.length}

/-- Whether a state belongs to a run of a simulation. -/
def Reachable (filter : Filter) (simulation : Simulation C)
    (system : System C simulation.ranks.length) : Prop :=
  ∃ schedule, (simulation.launch filter).exec simulation.plan schedule = some system

/-- Whether all ranks never dispatch more than so many messages together. -/
def Bounded (filter : Filter) (simulation : Simulation C) (most : Nat) : Prop :=
  ∀ system, simulation.Reachable filter system → system.dispatched ≤ most

/-- Whether all messages that ever wait are due at instants of a kind. -/
def Due (filter : Filter) (simulation : Simulation C) (kind : Instant → Prop) : Prop :=
  ∀ system, simulation.Reachable filter system →
    ∀ index, ∀ event ∈ (system.threads index).rank.pending.inOrder, kind event.time

/-- Whether no message that waits is due at the last instant. -/
def Prompt (filter : Filter) (simulation : Simulation C) : Prop :=
  simulation.Due filter (· < Instant.max)

/-- A state behind one of a run belongs to the run. -/
theorem Reachable.reaches {next : System C simulation.ranks.length} {count : Nat}
    (reachable : simulation.Reachable filter system)
    (onward : System.Reaches simulation.plan system next count) :
    simulation.Reachable filter next := by
  obtain ⟨turns, reached⟩ := reachable
  obtain ⟨rest, -, arrives⟩ := onward
  exact ⟨turns ++ rest, by rw [System.exec_append, reached]; exact arrives⟩

/-- A thread that is in its window gets through it. -/
theorem Bounded.gets_through (bounded : simulation.Bounded filter most)
    (reachable : simulation.Reachable filter system)
    (phase : (system.threads index).phase = .dispatching) (enough : most < fuel) :
    (system.threads index).rank.dispatchUntil
      (simulation.plan.bound (system.threads index).start)
      (simulation.plan.byVote (system.threads index).round) fuel ≠ none := by
  have few : ∀ rank, (∃ state, simulation.Reachable filter state ∧
      (state.threads index).phase = .dispatching ∧
      (state.threads index).start = (system.threads index).start ∧
      (state.threads index).round = (system.threads index).round ∧
      (state.threads index).rank = rank) → rank.dispatched ≤ most := by
    rintro rank ⟨state, arrives, -, -, -, rfl⟩
    refine le_trans ?_ (bounded state arrives)
    exact Finset.single_le_sum (f := fun place => (state.threads place).rank.dispatched)
      (fun _ _ => Nat.zero_le _) (Finset.mem_univ index)
  refine Rank.dispatchUntil_ne_none few ?_ ⟨system, reachable, phase, rfl, rfl, rfl⟩ (by omega)
  rintro rank event pending next ⟨state, arrives, here, begin', number, rfl⟩ turn called
  have goes : (state.threads index).step simulation.plan (state.view index) = some
      ((state.threads index).acted next ((state.threads index).rank.dispatchDeeds event pending),
        .idle) := by
    rw [← begin', ← number] at turn
    simp only [Thread.step, here, Thread.dispatchNext, turn, called]
    rfl
  have stepped : state.step simulation.plan index = some (state.withThread index
      ((state.threads index).acted next
        ((state.threads index).rank.dispatchDeeds event pending))) := by
    rw [System.step, goes]
    rfl
  refine ⟨_, arrives.reaches (.single stepped), ?_⟩
  have there (thread : Thread C) : (state.withThread index thread).threads index = thread := by
    simp only [System.withThread, Function.update_self]
  rw [there]
  exact ⟨here, begin', number, rfl⟩

/-- A single rank comes to an end. -/
theorem runSingle_ne_none (bounded : simulation.Bounded filter most) {rank : Rank C}
    (ranks : simulation.ranks.map (logged filter) = [rank]) (enough : most < fuel) :
    runSingle fuel rank ≠ none := by
  obtain ⟨solo, index, -, here⟩ := launch_of_single ranks
  rw [runSingle]
  cases start : rank.start with
  | mk begun halt =>
    cases halt with
    | some halt => exact Option.some_ne_none _
    | none =>
      obtain ⟨ready, count, strides, phase, rfl⟩ :=
        @Thread.strides_ready _ _ simulation.plan _ solo _ _ start
      have reached := System.reaches_of_strides strides (simulation.launch filter) index here
      have there : ((simulation.launch filter).withThread index ready).threads index = ready := by
        simp only [System.withThread, Function.update_self]
      have through := bounded.gets_through
        (Reachable.reaches ⟨[], rfl⟩ reached) (by rw [there]; exact phase) enough
      rw [there, Plan.bound, Plan.byVote, solo, if_pos rfl, if_pos rfl] at through
      obtain ⟨⟨last, outcome⟩, runs⟩ := Option.ne_none_iff_exists'.mp through
      cases outcome with
      | error halt =>
        simp only [runs]
        exact Option.some_ne_none _
      | ok stop =>
        simp only [runs]
        cases last.finish with
        | mk closed halt => cases halt <;> exact Option.some_ne_none _

/-- A thread among others that is to open a window gets through it. -/
theorem Bounded.advance_ne_none (bounded : simulation.Bounded filter most)
    (reachable : simulation.Reachable filter system) (among : simulation.plan.alone = false)
    (phase : (system.threads index).phase = .opening) (enough : most < fuel) :
    (system.threads index).advance simulation.plan fuel ≠ none := by
  cases healthy : (system.threads index).worker.failure with
  | some error =>
    rw [Thread.advance, Worker.advance, healthy, Option.isSome_some, if_pos rfl]
    exact Option.some_ne_none _
  | none =>
    let thread := (system.threads index).inWindow simulation.plan
    have opens : ∀ view, (system.threads index).step simulation.plan view = some (thread, .idle) :=
      Thread.step_opening among phase healthy
    have reached := System.reaches_of_strides (.single opens) system index rfl
    have there : (system.withThread index thread).threads index = thread := by
      simp only [System.withThread, Function.update_self]
    have through := bounded.gets_through (reachable.reaches reached) (by rw [there]; rfl) enough
    rw [there] at through
    obtain ⟨⟨last, outcome⟩, runs⟩ := Option.ne_none_iff_exists'.mp through
    have runs : thread.rank.dispatchUntil (simulation.plan.bound (system.threads index).start)
        (simulation.plan.byVote (system.threads index).round) fuel = some (last, outcome) := runs
    rw [Thread.advance_of_healthy healthy, runs]
    cases outcome <;> exact Option.some_ne_none _

omit [Component C] in
/-- The least latency between two ranks is positive. -/
theorem lookahead_pos
    (built : (build registry options topology clock journal).2 = .ok simulation)
    (realizes : simulation.Realizes registry topology assembly) {lookahead : Duration}
    (known : simulation.lookahead = some lookahead) : Duration.zero < lookahead := by
  rw [realizes.lookahead, lookaheadOf] at known
  obtain ⟨link, crossing, rfl⟩ := List.mem_map.mp (List.min?_mem known)
  obtain ⟨inside, crosses⟩ := List.mem_filter.mp crossing
  obtain ⟨position, found⟩ := List.mem_iff_getElem?.mp inside
  rw [Array.getElem?_toList] at found
  obtain ⟨there, -⟩ := Array.getElem?_eq_some_iff.mp found
  have same := getD_links found
  have positive := (fitting_of_build built realizes Filter.off).positive ⟨position, .a⟩ there (by
    simp only [Way.near, Way.far, same]
    rw [Link.crossesRanks, bne_iff_ne] at crosses
    exact crosses)
  rwa [Way.latency, same] at positive

/-- What a window makes of a rank: it dispatches no fewer messages than before; and where it had not
failed, more if it had one to dispatch, while it is marked if it was at its limit. -/
theorem progress_of_advance {n : Nat} {plan : Plan n} {thread : Thread C} {worker : Worker C}
    (advances : thread.advance plan fuel = some worker) :
    thread.rank.dispatched ≤ worker.rank.dispatched ∧ (thread.worker.failure = none →
      (∀ taken, thread.rank.turn (plan.bound thread.start) (plan.byVote thread.round) = .ok taken →
        thread.rank.dispatched < worker.rank.dispatched) ∧
      (thread.rank.turn (plan.bound thread.start) (plan.byVote thread.round) =
        .error .limitReached → worker.limitHit = true)) := by
  cases failure : thread.worker.failure with
  | some error =>
    rw [Thread.advance, Worker.advance, failure, Option.isSome_some, if_pos rfl] at advances
    cases advances
    exact ⟨le_refl _, fun healthy => by cases healthy⟩
  | none =>
    rw [Thread.advance_of_healthy failure] at advances
    cases ran : (thread.inWindow plan).rank.dispatchUntil (plan.bound thread.start)
        (plan.byVote thread.round) fuel with
    | none =>
      rw [ran] at advances
      cases advances
    | some reached =>
      obtain ⟨last, outcome⟩ := reached
      obtain ⟨fewer, more⟩ := Rank.dispatched_until ran
      have limited : thread.rank.turn (plan.bound thread.start) (plan.byVote thread.round) =
          .error .limitReached → outcome = .ok .limitReached := by
        intro turn
        cases fuel with
        | zero => cases ran
        | succ fuel =>
          have turn : (thread.inWindow plan).rank.turn (plan.bound thread.start)
              (plan.byVote thread.round) = .error .limitReached := turn
          rw [Rank.dispatchUntil_succ, turn] at ran
          cases ran
          rfl
      rw [ran] at advances
      cases outcome with
      | ok stop =>
        cases advances
        refine ⟨fewer, fun _ => ⟨more, fun turn => ?_⟩⟩
        cases limited turn
        rfl
      | error halt =>
        cases advances
        exact ⟨fewer, fun _ => ⟨more, fun turn => by cases limited turn⟩⟩

/-- Behind a window ranks have dispatched no fewer messages than before, and more where some rank that had
not failed had a message to dispatch. -/
theorem dispatched_of_window {n : Nat} {plan : Plan n} {system next : System C n}
    {advanced : Fin n → Worker C}
    (advances : ∀ index, (system.threads index).advance plan fuel = some (advanced index))
    (workers : next.workers = Windows.exchange (List.ofFn advanced)) :
    system.dispatched ≤ next.dispatched ∧ ∀ index taken,
      (system.threads index).worker.failure = none →
      (system.threads index).rank.turn (plan.bound (system.threads index).start)
        (plan.byVote (system.threads index).round) = .ok taken →
          system.dispatched < next.dispatched := by
  have behind (index : Fin n) :
      (next.threads index).rank.dispatched = (advanced index).rank.dispatched := by
    have same := congrArg (List.map fun worker => worker.rank.dispatched) workers
    rw [Windows.dispatched_exchange, System.workers, List.map_ofFn, List.map_ofFn] at same
    exact congrFun (List.ofFn_injective same) index
  have each := fun index => progress_of_advance (advances index)
  refine ⟨Finset.sum_le_sum fun index _ => ?_, fun index taken healthy turn =>
    Finset.sum_lt_sum (fun other _ => ?_) ⟨index, Finset.mem_univ index, ?_⟩⟩
  · rw [behind]
    exact (each index).1
  · rw [behind]
    exact (each other).1
  · rw [behind]
    exact ((each index).2 healthy).1 taken turn

omit [Component C] in
/-- A rank whose next message is due when its window begins dispatches it in this window or is at its limit,
unless the window is the first one or begins at the last instant. -/
theorem turn_of_next
    (built : (build registry options topology clock journal).2 = .ok simulation)
    (realizes : simulation.Realizes registry topology assembly)
    (among : simulation.plan.alone = false)
    (due : (system.threads index).rank.pending.nextTime? = some (system.threads index).start)
    (further : (system.threads index).round ≠ 0)
    (short : simulation.lookahead.isSome → (system.threads index).start < Instant.max) :
    (∃ taken, (system.threads index).rank.turn (simulation.plan.bound (system.threads index).start)
      (simulation.plan.byVote (system.threads index).round) = .ok taken) ∨
    (system.threads index).rank.turn (simulation.plan.bound (system.threads index).start)
      (simulation.plan.byVote (system.threads index).round) = .error .limitReached := by
  have byVote : simulation.plan.byVote (system.threads index).round = false := by
    rw [Plan.byVote, among, if_neg Bool.false_ne_true, beq_eq_false_iff_ne.mpr further,
      Bool.and_false]
  rw [Rank.turn, byVote, Bool.false_and, if_neg Bool.false_ne_true, due]
  rw [EventSet.nextTime?_eq] at due
  obtain ⟨⟨event, rest⟩, popped, -⟩ := Option.map_eq_some_iff.mp due
  have inside : ¬ (simulation.plan.bound (system.threads index).start).any
      (· ≤ (system.threads index).start) = true := by
    rw [Plan.bound, among, if_neg Bool.false_ne_true]
    cases known : simulation.plan.lookahead with
    | none => exact Bool.false_ne_true
    | some lookahead =>
      have known : simulation.lookahead = some lookahead := known
      rw [Option.map_some, Option.any_some, decide_eq_true_eq, not_le]
      exact Duration.lt_saturatingAdd (lookahead_pos built realizes known)
        (short (by rw [known]; rfl))
  simp only [if_neg inside, popped]
  split
  · exact Or.inr rfl
  · exact Or.inl ⟨_, rfl⟩

/-- A window that a run on several ranks is about to open: behind the first one, no rank has failed, and
the window begins when the next message is due. -/
structure Awaits (filter : Filter) (simulation : Simulation C) (round : Nat) (start : Instant)
    (system : System C simulation.ranks.length) : Prop where
  /-- The run gets there. -/
  reachable : simulation.Reachable filter system
  /-- All threads are to open the window. -/
  opened : system.Opened simulation.plan round start
  /-- No rank has failed. -/
  healthy : round ≠ 0 → ∀ index, (system.threads index).worker.failure = none
  /-- The next message is due. -/
  due : round ≠ 0 → ∃ index, (system.threads index).rank.pending.nextTime? = some start

/-- A run on several ranks is about to open its first window. -/
theorem awaits_first (built : (build registry options topology clock journal).2 = .ok simulation)
    (several : 2 ≤ simulation.ranks.length) (filter : Filter) :
    ∃ system, simulation.Awaits filter 0 Instant.zero system ∧
      system.workers = (simulation.ranks.map (logged filter)).map Worker.ofRank := by
  obtain ⟨system, count, starts, opened, workers, -⟩ := reaches_opened built several filter
  exact ⟨system, ⟨Reachable.reaches ⟨[], rfl⟩ starts, opened, fun some => absurd rfl some,
    fun some => absurd rfl some⟩, workers⟩

section Awaits

variable (awaits : simulation.Awaits filter round start system)
include awaits

/-- Where messages are never due at the last instant, no window but the first one begins there. -/
theorem Awaits.short
    (built : (build registry options topology clock journal).2 = .ok simulation)
    (realizes : simulation.Realizes registry topology assembly)
    (prompt : simulation.Prompt filter) (further : round ≠ 0) : start < Instant.max := by
  obtain ⟨turns, reached⟩ := awaits.reachable
  obtain ⟨index, due⟩ := awaits.due further
  have sound := ((kept_of_exec built realizes reached).steady.threads index).timed.sound
  rw [EventSet.nextTime?_eq] at due
  obtain ⟨⟨event, rest⟩, popped, rfl⟩ := Option.map_eq_some_iff.mp due
  exact prompt system awaits.reachable index event (sound.first_of_pop popped).1

/-- The ranks get through a window where each of them does. -/
theorem Awaits.exists_advanced (among : simulation.plan.alone = false) {behind : List (Worker C)}
    (window : Windows.window fuel simulation.lookahead round start system.workers = some behind) :
    ∃ advanced, (∀ index, (system.threads index).advance simulation.plan fuel =
      some (advanced index)) ∧ behind = Windows.exchange (List.ofFn advanced) := by
  have advances : ∀ index, ∃ worker,
      (system.threads index).advance simulation.plan fuel = some worker := by
    intro index
    refine Option.ne_none_iff_exists'.mp fun stuck => ?_
    have fails : Windows.window fuel simulation.lookahead round start system.workers = none :=
      awaits.opened.window_eq_none among stuck
    rw [fails] at window
    cases window
  choose advanced advances using advances
  refine ⟨advanced, advances, ?_⟩
  have opens := awaits.opened.window_eq_some among advances
  rw [Windows.window] at window
  exact Option.some.inj (window.symm.trans (congrArg (Option.map Windows.exchange) opens))

/-- Nothing that waits behind a window is due within it, unless its end is left to the votes. -/
theorem Awaits.late
    (built : (build registry options topology clock journal).2 = .ok simulation)
    (realizes : simulation.Realizes registry topology assembly)
    (several : 2 ≤ simulation.ranks.length) {middle : System C simulation.ranks.length} {count : Nat}
    (moves : System.Reaches simulation.plan system middle count) {workers : List (Worker C)}
    {deeds : List (List Deed)} (settled : middle.Settled round workers deeds)
    {index : Fin simulation.ranks.length} (healthy : (middle.threads index).worker.failure = none)
    (unmarked : (middle.threads index).worker.limitHit = false) {later : Instant}
    (due : (middle.threads index).rank.pending.nextTime? = some later)
    (byVote : simulation.plan.byVote round = false) :
    ∃ bound, simulation.plan.bound start = some bound ∧ bound ≤ later := by
  obtain ⟨turns, reached⟩ := awaits.reachable.reaches moves
  have leaves := (leaves_of_exec built several realizes reached).2
  have sound := ((kept_of_exec built realizes reached).steady.threads index).timed.sound
  rw [EventSet.nextTime?_eq] at due
  obtain ⟨⟨event, rest⟩, popped, rfl⟩ := Option.map_eq_some_iff.mp due
  have begins := System.start_of_reaches moves index
    ((settled.rounds index).trans (awaits.opened.rounds index).symm)
  rw [awaits.opened.starts] at begins
  rw [← begins]
  exact leaves.idle index healthy (by rw [settled.phase]; exact id)
    (by rw [settled.phase]; exact id) unmarked (by rw [settled.rounds]; exact byVote) event
    (sound.first_of_pop popped).1

/-- Where no rank is at its limit behind a window, some rank dispatches a message in it, unless it is the
first one or begins at the last instant. -/
theorem Awaits.exists_taken
    (built : (build registry options topology clock journal).2 = .ok simulation)
    (realizes : simulation.Realizes registry topology assembly) (among : simulation.plan.alone = false)
    {advanced : Fin simulation.ranks.length → Worker C}
    (advances : ∀ index, (system.threads index).advance simulation.plan fuel = some (advanced index))
    (unmarked : ∀ status ∈ (Windows.exchange (List.ofFn advanced)).map Worker.status,
      status.limitHit = false)
    (further : round ≠ 0) (short : simulation.lookahead.isSome → start < Instant.max) :
    ∃ index taken, (system.threads index).rank.turn
      (simulation.plan.bound (system.threads index).start)
      (simulation.plan.byVote (system.threads index).round) = .ok taken := by
  obtain ⟨index, next⟩ := awaits.due further
  have here := awaits.opened.rounds index
  have begins := awaits.opened.starts index
  rcases turn_of_next built realizes among (begins ▸ next) (here ▸ further) (begins ▸ short) with
    ⟨taken, turn⟩ | turn
  · exact ⟨index, taken, turn⟩
  · -- A rank that is at its limit when the window begins is marked behind it.
    have hit := ((progress_of_advance (advances index)).2 (awaits.healthy further index)).2 turn
    have marked : true ∈ (Windows.exchange (List.ofFn advanced)).map Worker.limitHit := by
      rw [Windows.limitHit_exchange]
      exact List.mem_map.mpr ⟨_, List.mem_ofFn.mpr ⟨index, rfl⟩, hit⟩
    obtain ⟨worker, there, marked⟩ := List.mem_map.mp marked
    cases marked.symm.trans (unmarked _ (List.mem_map_of_mem there))

/-- Where the ranks do not end the run behind a window, they are about to open another one. It begins at
the end of this window or later, and without links between ranks this window is the first one. Behind the
first window, unless this one begins at the last instant, some message was dispatched in it. -/
theorem Awaits.proceeds
    (built : (build registry options topology clock journal).2 = .ok simulation)
    (realizes : simulation.Realizes registry topology assembly)
    (several : 2 ≤ simulation.ranks.length) {behind : List (Worker C)} {later : Instant}
    (window : Windows.window fuel simulation.lookahead round start system.workers = some behind)
    (decided : decision (behind.map Worker.status) = .proceed later) :
    ∃ next, simulation.Awaits filter (round + 1) later next ∧ next.workers = behind ∧
      (∀ lookahead, simulation.lookahead = some lookahead →
        start.saturatingAdd lookahead ≤ later) ∧
      (simulation.lookahead = none → round = 0) ∧ system.dispatched ≤ next.dispatched ∧
      (round ≠ 0 → (simulation.lookahead.isSome → start < Instant.max) →
        system.dispatched < next.dispatched) := by
  have among := alone_plan several
  have distinct := ids_injective built
  obtain ⟨advanced, advances, rfl⟩ := awaits.exists_advanced among window
  obtain ⟨middle, count, -, moves, settled⟩ := awaits.opened.settles among distinct advances
  obtain ⟨more, steps, moved⟩ := id moves
  obtain ⟨next, last, onward, opened, same, -⟩ :=
    settled.proceeds (awaits.opened.regular.exec among distinct moved) among distinct decided
  obtain ⟨free, ⟨status, inside, due⟩, -⟩ := decision_eq_proceed decided
  have unmarked := limitHit_of_proceed decided
  have workers : middle.workers = next.workers := settled.workers.trans same.symm
  have each (index : Fin simulation.ranks.length) :
      (next.threads index).worker = (middle.threads index).worker :=
    (congrFun (List.ofFn_injective workers) index).symm
  have healthy := settled.healthy free
  obtain ⟨index, rfl⟩ : ∃ index, (middle.threads index).worker.status = status := by
    rw [← settled.workers, List.mem_map] at inside
    obtain ⟨worker, there, rfl⟩ := inside
    obtain ⟨index, rfl⟩ := List.mem_ofFn.mp there
    exact ⟨index, rfl⟩
  have due : (middle.threads index).rank.pending.nextTime? = some later := due
  have late (byVote : simulation.plan.byVote round = false) :=
    awaits.late built realizes several moves settled (healthy index)
      (unmarked _ (List.mem_map_of_mem (settled.mem_workers index))) due byVote
  obtain ⟨fewer, grows⟩ := dispatched_of_window advances same
  refine ⟨next, ⟨(awaits.reachable.reaches moves).reaches onward, opened,
    fun _ index => (each index) ▸ healthy index, fun _ => ⟨index, ?_⟩⟩, same,
    fun lookahead known => ?_, fun unlinked => ?_, fewer, fun further short => ?_⟩
  · rw [Thread.rank, each]
    exact due
  · have known : simulation.plan.lookahead = some lookahead := known
    obtain ⟨bound, ends, late⟩ := late (by
      rw [Plan.byVote, Plan.bound, among, if_neg Bool.false_ne_true, if_neg Bool.false_ne_true,
        known]
      rfl)
    rw [Plan.bound, among, if_neg Bool.false_ne_true, known] at ends
    exact Option.some.inj ends ▸ late
  · have unlinked : simulation.plan.lookahead = none := unlinked
    by_contra further
    obtain ⟨bound, ends, -⟩ := late (by
      rw [Plan.byVote, among, if_neg Bool.false_ne_true, beq_eq_false_iff_ne.mpr further,
        Bool.and_false])
    rw [Plan.bound, among, if_neg Bool.false_ne_true, unlinked] at ends
    cases ends
  · obtain ⟨index, taken, turn⟩ :=
      awaits.exists_taken built realizes among advances unmarked further short
    exact grows index taken (awaits.healthy further index) turn

/-- Several ranks come to an end. -/
theorem Awaits.run_ne_none
    (built : (build registry options topology clock journal).2 = .ok simulation)
    (realizes : simulation.Realizes registry topology assembly)
    (several : 2 ≤ simulation.ranks.length) (bounded : simulation.Bounded filter most)
    (prompt : simulation.Prompt filter)
    (enough : most + 2 + (most - system.dispatched) + (if round = 0 then 1 else 0) ≤ fuel) :
    Windows.run simulation.lookahead fuel round start system.workers ≠ none := by
  have among := alone_plan several
  induction fuel generalizing system round start with
  | zero => omega
  | succ fuel ih =>
    have advances : ∀ index, ∃ worker,
        (system.threads index).advance simulation.plan fuel = some worker := fun index =>
      Option.ne_none_iff_exists'.mp (bounded.advance_ne_none awaits.reachable among
        (awaits.opened.phase index) (by omega))
    choose advanced advances using advances
    have window : Windows.window fuel simulation.lookahead round start system.workers =
        some (Windows.exchange (List.ofFn advanced)) := by
      have opens := awaits.opened.window_eq_some among advances
      rw [Windows.window]
      exact congrArg (Option.map Windows.exchange) opens
    by_cases goes : ∃ later,
        decision ((Windows.exchange (List.ofFn advanced)).map Worker.status) = .proceed later
    · obtain ⟨later, decided⟩ := goes
      obtain ⟨next, following, same, -, -, fewer, grows⟩ :=
        awaits.proceeds built realizes several window decided
      have few := bounded next following.reachable
      rw [(Windows.run_of_proceed window decided).1, ← same]
      refine ih following ?_
      rw [if_neg (Nat.succ_ne_zero round)]
      by_cases first : round = 0
      · rw [if_pos first] at enough
        omega
      · have strictly := grows first fun _ => awaits.short built realizes prompt first
        rw [if_neg first] at enough
        omega
    · rw [(Windows.run_of_leaves window (not_exists.mp goes)).1]
      exact Option.some_ne_none _

end Awaits

/-- A run comes to an end with enough fuel, where ranks never dispatch more than so many messages and, on
several ranks, no message is due at the last instant. -/
theorem run_terminates
    (built : (build registry options topology clock journal).2 = .ok simulation)
    (realizes : simulation.Realizes registry topology assembly)
    (bounded : simulation.Bounded filter most)
    (prompt : 2 ≤ simulation.ranks.length → simulation.Prompt filter) :
    ∃ fuel, simulation.run fuel filter moment ≠ none := by
  refine ⟨2 * most + 3, ?_⟩
  rw [run]
  cases ranks : simulation.ranks.map (logged filter) with
  | nil => exact Option.some_ne_none _
  | cons first rest =>
    cases rest with
    | nil =>
      simp only
      rw [Ne, Option.map_eq_none_iff]
      exact runSingle_ne_none bounded ranks (by omega)
    | cons second rest =>
      have several : 2 ≤ simulation.ranks.length := by
        rw [← List.length_map, ranks]
        simp only [List.length_cons]
        omega
      simp only
      rw [Ne, Option.map_eq_none_iff, ← ranks, runWindows]
      obtain ⟨system, awaits, launched⟩ := awaits_first built several filter
      rw [← launched]
      have ends : Windows.run simulation.lookahead (2 * most + 3) 0 Instant.zero system.workers ≠ none :=
        awaits.run_ne_none built realizes several bounded (prompt several) (by rw [if_pos rfl]; omega)
      obtain ⟨⟨workers, common, windows⟩, runs⟩ := Option.ne_none_iff_exists'.mp ends
      rw [runs]
      exact Option.some_ne_none _

end Simulation

end Rally
