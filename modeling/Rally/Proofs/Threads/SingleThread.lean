import Rally.Proofs.Threads.Convergence
/-!
# A single thread

A single rank needs no rounds: its thread calls the setup hooks, dispatches until it stops, and calls the
finish hooks. So what a single rank does in its run, its thread does step by step. On one rank or on
several, a run that comes to an end is one of the threads that does so.
-/

namespace Rally

namespace Thread

variable {C : Type} {n : Nat} {plan : Plan n}

/-- A thread of a single rank behind the setup, which may have failed. -/
def begun (thread : Thread C) (called : Rank C × Option Halt) (deeds : List Deed) : Thread C :=
  (thread.acted called.1 deeds).goTo (match called.2 with
    | none => .opening
    | some halt => .ended (.error halt))

/-- The setup of a single rank goes on behind its first hooks. -/
theorem begun_acted (thread : Thread C) (phase : Phase) (rank : Rank C) (deeds more : List Deed)
    (called : Rank C × Option Halt) :
    ((thread.acted rank deeds).goTo phase).begun called more = thread.begun called (deeds ++ more) := by
  simp only [begun, acted, goTo, remember, withRank, List.append_assoc]

variable [Component C]

/-- A single thread calls the setup hooks of its rank, up to the first one that fails. -/
theorem strides_setup_alone (alone : plan.alone = true) (rest : List ComponentId) (thread : Thread C)
    (phase : thread.phase = .starting rest) :
    ∃ count, Strides plan thread (thread.begun (Rank.setupAll rest thread.rank)
      (Rank.setupAllDeeds rest thread.rank)) count := by
  induction rest generalizing thread with
  | nil =>
    refine ⟨1, .single fun view => ?_⟩
    simp only [step, phase, startNext, goTo, Rank.setupAll, Rank.setupAllDeeds, begun, acted,
      remember, withRank, rank, List.append_nil]
  | cons id rest ih =>
    cases called : thread.rank.setup id with
    | mk rank halt =>
      cases halt with
      | none =>
        have first : ∀ view, thread.step plan view =
            some ((thread.acted rank (thread.rank.setupDeeds id)).goTo (.starting rest), .idle) := by
          intro view
          simp only [step, phase, startNext, called]
          rfl
        obtain ⟨count, strides⟩ :=
          ih ((thread.acted rank (thread.rank.setupDeeds id)).goTo (.starting rest)) rfl
        rw [begun_acted] at strides
        refine ⟨count + 1, .before first ?_⟩
        simp only [Rank.setupAll, Rank.setupAllDeeds, called]
        exact strides
      | some halt =>
        refine ⟨1, .single fun view => ?_⟩
        simp only [step, phase, startNext, called, alone, Rank.setupAll, Rank.setupAllDeeds,
          List.append_nil]
        rfl

/-- A single thread whose setup does not fail opens its only window behind it. -/
theorem strides_ready (alone : plan.alone = true) {rank begun : Rank C}
    (start : rank.start = (begun, none)) :
    ∃ ready count, Strides plan (launch rank) ready count ∧ ready.phase = .dispatching ∧
      ready.rank = begun := by
  obtain ⟨count, setup⟩ :=
    strides_setup_alone alone (launch rank).positions (launch rank) rfl
  have started : (launch rank).rank.setupAll (launch rank).positions = rank.start := rfl
  rw [started, start] at setup
  have opens : ∀ view, ((launch rank).begun (begun, none)
      (Rank.setupAllDeeds (launch rank).positions (launch rank).rank)).step plan view =
        some (((launch rank).begun (begun, none)
          (Rank.setupAllDeeds (launch rank).positions (launch rank).rank)).goTo .dispatching,
            .idle) := by
    intro view
    simp only [step, Thread.begun, goTo, openWindow, alone, if_true]
  exact ⟨_, _, setup.trans (.single opens), rfl, rfl⟩

/-- A thread that gets through its messages is where it finds none to dispatch. -/
theorem strides_until {fuel : Nat} {thread : Thread C} (phase : thread.phase = .dispatching)
    {last : Rank C} {stop : Stop}
    (runs : thread.rank.dispatchUntil (plan.bound thread.start) (plan.byVote thread.round) fuel =
      some (last, .ok stop)) :
    ∃ deeds count, Strides plan thread (thread.acted last deeds) count ∧
      last.turn (plan.bound thread.start) (plan.byVote thread.round) = .error stop := by
  induction fuel generalizing thread with
  | zero => cases runs
  | succ fuel ih =>
    rw [Rank.dispatchUntil_succ] at runs
    cases turn : thread.rank.turn (plan.bound thread.start) (plan.byVote thread.round) with
    | error halt =>
      simp only [turn] at runs
      cases runs
      exact ⟨[], 0, by rw [acted_nil]; exact .refl thread, turn⟩
    | ok taken =>
      obtain ⟨event, pending⟩ := taken
      simp only [turn] at runs
      cases called : Rank.dispatch event { thread.rank with pending } with
      | mk rank halt =>
        simp only [called] at runs
        cases halt with
        | none =>
          have first : ∀ view, thread.step plan view =
              some (thread.acted rank (thread.rank.dispatchDeeds event pending), .idle) := by
            intro view
            simp only [step, phase, dispatchNext, turn, called]
            rfl
          obtain ⟨deeds, count, strides, stops⟩ :=
            @ih (thread.acted rank (thread.rank.dispatchDeeds event pending)) phase runs
          rw [acted_acted] at strides
          exact ⟨_, count + 1, .before first strides, stops⟩
        | some halt => cases runs

/-- A single thread that finds nothing to dispatch calls the finish hooks of its rank and ends. -/
theorem strides_close (alone : plan.alone = true) {thread : Thread C}
    (phase : thread.phase = .dispatching) {stop : Stop}
    (turn : thread.rank.turn (plan.bound thread.start) (plan.byVote thread.round) = .error stop) :
    ∃ next count, Strides plan thread next count ∧
      next = (thread.goTo (.finishing (Simulation.reasonOf stop) thread.positions)).closed
        (Simulation.reasonOf stop) thread.rank.finish := by
  have stops : ∀ view, thread.step plan view =
      some (thread.goTo (.finishing (Simulation.reasonOf stop) thread.positions), .idle) := by
    intro view
    simp only [step, phase, dispatchNext, turn, stopped, alone, if_true]
  obtain ⟨count, closes⟩ := @strides_finish _ _ plan _ (Simulation.reasonOf stop) thread.positions
    (thread.goTo (.finishing (Simulation.reasonOf stop) thread.positions)) rfl
  exact ⟨_, _, Strides.trans (.single stops) closes, rfl⟩

omit [Component C] in
/-- How a thread ends behind the finish hooks of its rank. -/
theorem closed_of_finish {thread : Thread C} {reason : Termination} {called : Rank C × Option Halt}
    {last : Rank C} {result : Except Halt Termination}
    (same : (last, result) = match called with
      | (rank, some halt) => (rank, .error halt)
      | (rank, none) => (rank, .ok reason)) :
    (thread.closed reason called).phase = .ended result ∧ (thread.closed reason called).rank = last := by
  obtain ⟨rank, halt⟩ := called
  cases halt <;> cases same <;> exact ⟨rfl, rfl⟩

/-- What the thread of a single rank comes to where its run comes to an end: a failure, or a state in
which nothing is left to dispatch, with the end that follows. -/
structure Alone (plan : Plan n) (rank last : Rank C) (result : Except Halt Termination) : Prop where
  /-- The thread ends as the run does. -/
  ended : ∃ next count, Strides plan (launch rank) next count ∧ next.phase = .ended result ∧
    next.rank = last
  /-- A run that does not fail before passes through a state in which nothing is left to dispatch. -/
  stopped : (∃ next count halt, Strides plan (launch rank) next count ∧
      next.phase = .ended (.error halt) ∧ result = .error halt) ∨
    ∃ middle count stop, Strides plan (launch rank) middle count ∧ middle.phase = .dispatching ∧
      middle.rank.turn none true = .error stop ∧
      (last, result) = match middle.rank.finish with
        | (rank, some halt) => (rank, .error halt)
        | (rank, none) => (rank, .ok (Simulation.reasonOf stop))

/-- Where a single rank stops, its thread does so as well, and closes for the same reason. -/
theorem alone_of_stop (alone : plan.alone = true) {fuel : Nat} {rank begun middle last : Rank C}
    {stop : Stop} {result : Except Halt Termination} (started : rank.start = (begun, none))
    (dispatched : begun.dispatchUntil none true fuel = some (middle, .ok stop))
    (same : (last, result) = match middle.finish with
      | (rank, some halt) => (rank, .error halt)
      | (rank, none) => (rank, .ok (Simulation.reasonOf stop))) : Alone plan rank last result := by
  obtain ⟨ready, count, before, phase, rfl⟩ := @strides_ready _ _ plan _ alone _ _ started
  have bound : plan.bound ready.start = none := by rw [Plan.bound, alone, if_pos rfl]
  have byVote : plan.byVote ready.round = true := by rw [Plan.byVote, alone, if_pos rfl]
  rw [← bound, ← byVote] at dispatched
  obtain ⟨deeds, more, strides, stops⟩ := strides_until phase dispatched
  obtain ⟨_, rest, closes, rfl⟩ :=
    @strides_close _ _ plan _ alone (ready.acted middle deeds) phase stop stops
  rw [bound, byVote] at stops
  have reaches := before.trans strides
  exact ⟨⟨_, _, reaches.trans closes, (closed_of_finish same).1, (closed_of_finish same).2⟩,
    Or.inr ⟨_, _, stop, reaches, phase, stops, same⟩⟩

/-- Where the run of a single rank comes to an end, so does its thread. -/
theorem alone_of_runSingle (alone : plan.alone = true) {fuel : Nat} {rank last : Rank C}
    {result : Except Halt Termination}
    (runs : Simulation.runSingle fuel rank = some (last, result)) : Alone plan rank last result := by
  cases Simulation.singly_of_runSingle runs with
  | @unready begun halt start =>
    obtain ⟨count, setup⟩ :=
      strides_setup_alone alone (launch rank).positions (launch rank) rfl
    have started : (launch rank).rank.setupAll (launch rank).positions = rank.start := rfl
    rw [started, start] at setup
    exact ⟨⟨_, _, setup, rfl, rfl⟩, Or.inl ⟨_, _, halt, setup, rfl, rfl⟩⟩
  | @broken begun last halt start dispatched =>
    obtain ⟨ready, count, before, phase, rfl⟩ := @strides_ready _ _ plan _ alone _ _ start
    have goes : ready.rank.dispatchUntil (plan.bound ready.start) (plan.byVote ready.round) fuel =
        some (last, .error halt) := by
      rw [Plan.bound, Plan.byVote, alone, if_pos rfl, if_pos rfl]
      exact dispatched
    obtain ⟨more, strides⟩ := @strides_dispatch _ _ plan _ fuel ready phase _ goes
    rw [settled, halted, alone, if_pos rfl] at strides
    exact ⟨⟨_, _, before.trans strides, rfl, rfl⟩,
      Or.inl ⟨_, _, halt, before.trans strides, rfl, rfl⟩⟩
  | unfinished start dispatched finished | finished start dispatched finished =>
    exact alone_of_stop alone start dispatched (by rw [finished])

end Thread

namespace System

variable {C : Type} {n : Nat} {system : System C n}

/-- How a run ends whose threads have all ended: as the only one of them, or as their results decide. -/
def ending? (system : System C n) : Option (Except Halt Termination) :=
  match List.ofFn system.threads with
  | [thread] =>
    match thread.phase with
    | .ended result => some result
    | _ => none
  | _ => system.verdict?.map (Except.mapError Halt.failed)

/-- Where there is one thread alone, its end is that of the run. -/
theorem ending?_of_single (single : n = 1) (index : Fin n) {result : Except Halt Termination}
    (ended : (system.threads index).phase = .ended result) : system.ending? = some result := by
  subst single
  obtain rfl : index = 0 := Subsingleton.elim _ _
  rw [ending?, List.ofFn_succ, List.ofFn_zero]
  simp only [ended]

/-- The end of a run with one thread alone is that of the thread. -/
theorem exists_ended_of_single (single : n = 1) {result : Except Halt Termination}
    (ends : system.ending? = some result) : ∃ index, (system.threads index).phase = .ended result := by
  subst single
  refine ⟨0, ?_⟩
  rw [ending?, List.ofFn_succ, List.ofFn_zero] at ends
  cases phase : (system.threads 0).phase with
  | ended other =>
    simp only [phase] at ends
    rw [Option.some.inj ends]
  | _ =>
    simp only [phase] at ends
    cases ends

/-- Otherwise it is what the results of all threads amount to. -/
theorem ending?_of_several (several : n ≠ 1) :
    system.ending? = system.verdict?.map (Except.mapError Halt.failed) := by
  rw [ending?]
  split
  · next thread only =>
    have length := congrArg List.length only
    rw [List.length_ofFn] at length
    exact absurd length several
  · rfl

/-- A good end is one for all threads. -/
theorem verdict?_of_ending {reason : Termination} (ended : system.ending? = some (.ok reason)) :
    system.verdict? = some (.ok reason) := by
  by_cases single : n = 1
  · obtain ⟨index, phase⟩ := exists_ended_of_single single ended
    subst single
    obtain rfl : index = 0 := Subsingleton.elim _ _
    rw [verdict?, List.ofFn_succ, List.ofFn_zero, List.mapM_cons, Thread.result?, phase]
    rfl
  · rw [ending?_of_several single] at ended
    obtain ⟨verdict, told, same⟩ := Option.map_eq_some_iff.mp ended
    cases verdict with
    | error problem => cases same
    | ok last =>
      cases same
      exact told

end System

namespace Simulation

variable {C : Type} [Component C] {registry : Registry C} {options : Options}
  {topology : Topology} {clock moment : Instant} {journal : Journal} {simulation : Simulation C}
  {filter : Filter} {fuel : Nat} {result : RunResult C}

omit [Component C] in
/-- A simulation on a single rank has one thread alone, that of the rank. -/
theorem launch_of_single {rank : Rank C} (ranks : simulation.ranks.map (logged filter) = [rank]) :
    simulation.plan.alone = true ∧ ∃ index : Fin simulation.ranks.length,
      (∀ place, place = index) ∧ (simulation.launch filter).threads index = .launch rank := by
  have single : simulation.ranks.length = 1 := by
    rw [← List.length_map, ranks, List.length_singleton]
  let index : Fin simulation.ranks.length := ⟨0, by omega⟩
  have found : (simulation.ranks.map (logged filter))[0]? = some rank := by rw [ranks]; rfl
  rw [List.getElem?_map, List.getElem?_eq_getElem index.isLt] at found
  exact ⟨decide_eq_true single.le, index, fun place => Fin.ext (by omega),
    congrArg Thread.launch (Option.some.inj found)⟩

/-- A single rank that comes to an end is a thread that does so. -/
theorem ending_of_runSingle {rank last : Rank C} {ending : Except Halt Termination}
    (ranks : simulation.ranks.map (logged filter) = [rank])
    (alone : runSingle fuel rank = some (last, ending)) :
    ∃ schedule system, (simulation.launch filter).exec simulation.plan schedule = some system ∧
      system.Complete ∧ system.ending? = some ending ∧
      (List.ofFn fun index => (system.threads index).rank) = [last] := by
  have single : simulation.ranks.length = 1 := by
    rw [← List.length_map, ranks, List.length_singleton]
  obtain ⟨solo, index, only, here⟩ := launch_of_single ranks
  obtain ⟨next, count, strides, ended, rank⟩ := (Thread.alone_of_runSingle solo alone).ended
  obtain ⟨schedule, -, reached⟩ :=
    System.reaches_of_strides strides (simulation.launch filter) index here
  have there (place : Fin simulation.ranks.length) :
      ((simulation.launch filter).withThread index next).threads place = next := by
    rw [only place]
    simp only [System.withThread, Function.update_self]
  refine ⟨schedule, _, reached, fun place => ⟨ending, ?_⟩,
    System.ending?_of_single single index ?_, ?_⟩
  · rw [there]
    exact ended
  · rw [there]
    exact ended
  · simp only [there, rank, List.ofFn_const, single, List.replicate_succ, List.replicate_zero]

/-- Ranks that come to an end in windows are threads that do so. -/
theorem ending_of_runWindows (built : (build registry options topology clock journal).2 = .ok simulation)
    (several : 2 ≤ simulation.ranks.length) {last : List (Rank C)}
    {ending : Except RunError Termination}
    (among : runWindows fuel simulation.lookahead (simulation.ranks.map (logged filter)) =
      some (last, ending)) :
    ∃ schedule system, (simulation.launch filter).exec simulation.plan schedule = some system ∧
      system.Complete ∧ system.ending? = some (ending.mapError .failed) ∧
      (List.ofFn fun index => (system.threads index).rank) = last := by
  obtain ⟨next, count, ⟨schedule, -, reached⟩, ends⟩ := reaches_ends built several (by
    rw [among]
    exact Option.some_ne_none _)
  obtain ⟨verdict, told, same⟩ := ends.outcome
  obtain ⟨rfl, rfl⟩ := Prod.mk.inj (Option.some.inj (among.symm.trans same))
  refine ⟨schedule, next, reached, ends.complete, ?_, rfl⟩
  rw [System.ending?_of_several (by omega), told]
  rfl

/-- A run that comes to an end is one of the threads that does so, and its report tells about their ranks. -/
theorem ending_of_run (built : (build registry options topology clock journal).2 = .ok simulation)
    (runs : simulation.run fuel filter moment = some result) :
    ∃ schedule system ending,
      (simulation.launch filter).exec simulation.plan schedule = some system ∧ system.Complete ∧
      system.ending? = some ending ∧
      result.outcome = ending.map fun reason =>
        Report.ofRanks reason (List.ofFn fun index => (system.threads index).rank) := by
  cases ends_of_run runs with
  | bare empty outcome =>
    have none : simulation.ranks.length = 0 := List.length_eq_zero_iff.mpr empty
    refine ⟨[], _, .ok .eventsExhausted, rfl, fun index => absurd index.isLt (by omega), ?_, ?_⟩
    · rw [System.ending?_of_several (by omega), System.verdict?, List.ofFn_eq_nil_iff.mpr none]
      rfl
    · rw [outcome, List.ofFn_eq_nil_iff.mpr none]
      rfl
  | single ranks alone outcome =>
    obtain ⟨schedule, system, reached, complete, told, all⟩ := ending_of_runSingle ranks alone
    exact ⟨schedule, system, _, reached, complete, told, all ▸ outcome⟩
  | several many among outcome =>
    obtain ⟨schedule, system, reached, complete, told, all⟩ :=
      ending_of_runWindows built many among
    exact ⟨schedule, system, _, reached, complete, told, all ▸ outcome⟩

/-- A run that comes to a bad end is one of the threads that does so. -/
theorem error_of_run (built : (build registry options topology clock journal).2 = .ok simulation)
    (runs : simulation.run fuel filter moment = some result) {halt : Halt}
    (fails : result.outcome = .error halt) :
    ∃ schedule system, (simulation.launch filter).exec simulation.plan schedule = some system ∧
      system.Complete ∧ system.ending? = some (.error halt) := by
  obtain ⟨schedule, system, ending, reached, complete, ended, outcome⟩ := ending_of_run built runs
  rw [fails] at outcome
  cases ending with
  | ok reason => cases outcome
  | error other =>
    obtain rfl := Except.error.inj outcome
    exact ⟨schedule, system, reached, complete, ended⟩

omit [Component C] in
/-- What comes out of a result well is what it holds. -/
theorem eq_ok_of_toOption {ε α : Type} {made : Except ε α} {value : α}
    (same : made.toOption = some value) : made = .ok value := by
  cases made with
  | error problem => cases same
  | ok other => exact congrArg Except.ok (Option.some.inj same)

/-- What is seen of a simulation that is built and run, where that comes to an end. -/
theorem exists_result {α : Type} {view : Simulation C → RunResult C → Option α} {seen : α}
    (sees : ((build registry options topology clock journal).2.toOption.bind fun simulation =>
      (simulation.run fuel filter moment).bind (view simulation)) = some seen) :
    ∃ simulation result, (build registry options topology clock journal).2 = .ok simulation ∧
      simulation.run fuel filter moment = some result ∧ view simulation result = some seen := by
  obtain ⟨simulation, made, sees⟩ := Option.bind_eq_some_iff.mp sees
  obtain ⟨result, runs, sees⟩ := Option.bind_eq_some_iff.mp sees
  exact ⟨simulation, result, eq_ok_of_toOption made, runs, sees⟩

/-- A run that comes to a good end is one of the threads that does so. -/
theorem exec_of_run (built : (build registry options topology clock journal).2 = .ok simulation)
    (runs : simulation.run fuel filter moment = some result) {report : Report C}
    (ok : result.outcome = .ok report) :
    ∃ schedule system, (simulation.launch filter).exec simulation.plan schedule = some system ∧
      system.verdict? = some (.ok report.reason) ∧
      report = Report.ofRanks report.reason
        (List.ofFn fun index => (system.threads index).rank) := by
  obtain ⟨schedule, system, ending, reached, -, ended, outcome⟩ := ending_of_run built runs
  rw [ok] at outcome
  cases ending with
  | error halt => cases outcome
  | ok reason =>
    obtain rfl := Except.ok.inj outcome
    exact ⟨schedule, system, reached, System.verdict?_of_ending ended, rfl⟩

end Simulation

end Rally
