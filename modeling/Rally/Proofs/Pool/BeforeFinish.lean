import Rally.Proofs.Pool.RunOutcomes
/-!
# Before the finish hooks

A run that comes to a good end passes through a state in which no rank has failed, nothing is on its way
between ranks, and all ranks have decided to stop. Behind it there are finish hooks alone, which change
nothing but components, votes and log lines. So what a report tells about events and links is what the
ranks were in this state.
-/

namespace Rally

/-- What a function tells of a single place. -/
theorem ofFn_of_single {α : Type} {n : Nat} (single : n = 1) (f : Fin n → α) (index : Fin n) :
    List.ofFn f = [f index] := by
  subst single
  rw [List.ofFn_succ, List.ofFn_zero, Subsingleton.elim index 0]

variable {C : Type}

/-- Whether finish hooks cast no votes. -/
def Silent (C : Type) [Component C] : Prop :=
  ∀ (state : C) context, (Component.finish state context).votes = []

namespace Rank

/-- Whether a rank differs from another one at most in what finish hooks change: its components, votes
and log lines. -/
def Finishes (first last : Rank C) : Prop :=
  last = { first with slots := last.slots, tally := last.tally, journal := last.journal }

/-- What finish hooks change twice, they change at most once. -/
theorem Finishes.trans {first middle last : Rank C} (former : first.Finishes middle)
    (latter : middle.Finishes last) : first.Finishes last := by
  rw [Finishes] at former latter ⊢
  rw [latter, former]

variable [Component C]

/-- A finish hook changes nothing but a component, votes and log lines. -/
theorem finishes_finishOne (id : ComponentId) (rank : Rank C) :
    rank.Finishes (rank.finishOne id).1 := by
  unfold finishOne
  split
  · rfl
  · dsimp only
    split
    · rfl
    · split <;> rfl

/-- Finish hooks change nothing but components, votes and log lines. -/
theorem finishes_finish (rank : Rank C) : rank.Finishes rank.finish.1 :=
  finish_keeps (fun id middle finishes => finishes.trans (finishes_finishOne id middle)) rfl

/-- A finish hook that casts no votes leaves the tally as it is. -/
theorem tally_finishOne (silent : Silent C) (id : ComponentId) (rank : Rank C) :
    (rank.finishOne id).1.tally = rank.tally := by
  unfold finishOne
  split
  · rfl
  · next slot _ =>
    have still : (rank.absorb id slot (Component.finish slot.component (rank.context slot))).tally =
        rank.tally := by
      rw [absorb, silent]
      rfl
    dsimp only
    split
    · exact still
    · split <;> exact still

/-- Finish hooks that cast no votes leave the tally as it is. -/
theorem tally_finish (silent : Silent C) (rank : Rank C) : rank.finish.1.tally = rank.tally :=
  finish_keeps (fun id middle same => (tally_finishOne silent id middle).trans same) rfl

end Rank

namespace Simulation

variable [Component C] {registry : Registry C} {options : Options} {topology : Topology}
  {clock moment : Instant} {journal : Journal} {simulation : Simulation C}
  {assembly : Assembly C} {filter : Filter} {fuel : Nat} {result : RunResult C}

/-- How a run comes to a good end: by finish hooks, from a state in which its ranks have decided to
stop. -/
structure Closes (filter : Filter) (links : Array Link) (simulation : Simulation C)
    (reason : Termination) (system last : System C simulation.ranks.length) : Prop where
  /-- The threads come to this state. -/
  reached : ∃ schedule, (simulation.launch filter).exec simulation.plan schedule = some system
  /-- Nothing is on its way in it. -/
  rested : system.Rested simulation.plan links
  /-- No rank has failed. -/
  healthy : ∀ index, (system.threads index).worker.failure = none
  /-- A single rank stops for the reason. -/
  single : simulation.plan.alone = true → ∀ index, ∃ stop,
    (system.threads index).rank.turn none true = .error stop ∧ reason = reasonOf stop
  /-- Several ranks wait for the decision to stop. -/
  waits : simulation.plan.alone = false → ∀ index, (system.threads index).phase.hasPublished
  /-- They decide to stop for the reason. -/
  decided : simulation.plan.alone = false →
    decision (system.workers.map Worker.status) = .stop reason
  /-- Finish hooks follow on each rank. -/
  finished : ∀ index, ∃ journal, (last.threads index).rank =
    ({ (system.threads index).rank with journal } : Rank C).finish.1
  /-- The threads come to the end. -/
  ended : ∃ schedule, (simulation.launch filter).exec simulation.plan schedule = some last
  /-- It is a good one. -/
  verdict : last.verdict? = some (.ok reason)

/-- The run of a single rank comes to a good end from where it stops to dispatch. -/
theorem closes_of_runSingle
    (built : (build registry options topology clock journal).2 = .ok simulation)
    (realizes : simulation.Realizes registry topology assembly) {rank final : Rank C}
    {reason : Termination} (ranks : simulation.ranks.map (logged filter) = [rank])
    (runs : runSingle fuel rank = some (final, .ok reason)) :
    ∃ system last, simulation.Closes filter assembly.links reason system last ∧
      ∀ index, (last.threads index).rank = final := by
  have single : simulation.ranks.length = 1 := by
    rw [← List.length_map, ranks, List.length_singleton]
  obtain ⟨solo, index, only, here⟩ := launch_of_single ranks
  have alone := Thread.alone_of_runSingle solo runs
  have there (thread : Thread C) (place : Fin simulation.ranks.length) :
      ((simulation.launch filter).withThread index thread).threads place = thread := by
    rw [only place]
    simp only [System.withThread, Function.update_self]
  rcases alone.stopped with
    ⟨-, -, halt, -, -, fails⟩ | ⟨middle, count, stop, strides, phase, turn, same⟩
  · cases fails
  obtain ⟨closed, more, onward, gone, rfl⟩ := alone.ended
  obtain ⟨turns, -, reached⟩ :=
    System.reaches_of_strides strides (simulation.launch filter) index here
  obtain ⟨schedule, -, ended⟩ :=
    System.reaches_of_strides onward (simulation.launch filter) index here
  have kept := kept_of_exec built realizes reached
  obtain ⟨finish, reasons⟩ : middle.rank.finish.1 = closed.rank ∧ reason = reasonOf stop := by
    cases finish : middle.rank.finish with
    | mk rank halt =>
      rw [finish] at same
      cases halt with
      | some halt => cases same
      | none =>
        obtain ⟨ranks, reasons⟩ := Prod.mk.inj same
        exact ⟨ranks.symm, Except.ok.inj reasons⟩
  refine ⟨_, _, ⟨⟨turns, reached⟩, ⟨fun place => ?_, fun way near far source goal => ?_⟩,
    fun place => kept.upright place (Or.inl solo), fun _ place => ⟨stop, ?_, reasons⟩,
    fun among => ?_, fun among => ?_, fun place => ⟨middle.rank.journal, ?_⟩, ⟨schedule, ended⟩,
    System.verdict?_of_ending (System.ending?_of_single single index ?_)⟩, fun place => ?_⟩
  · rw [there, phase]
    exact ⟨not_false, not_false⟩
  · refine kept.flowing.addressed.lane_eq_nil ?_ near far
    rw [← source, ← goal, only near, only far]
  · rw [there]
    exact turn
  · rw [among] at solo
    cases solo
  · rw [among] at solo
    cases solo
  · rw [there, there]
    exact finish.symm
  · rw [there]
    exact gone
  · rw [there]

/-- The run of several ranks comes to a good end from where they decide to stop. -/
theorem closes_of_complete
    (built : (build registry options topology clock journal).2 = .ok simulation)
    (realizes : simulation.Realizes registry topology assembly)
    (several : 2 ≤ simulation.ranks.length) {schedule : List (Fin simulation.ranks.length)}
    {last : System C simulation.ranks.length}
    (ended : (simulation.launch filter).exec simulation.plan schedule = some last)
    (complete : last.Complete) {reason : Termination}
    (ok : last.verdict? = some (.ok reason)) :
    ∃ system, simulation.Closes filter assembly.links reason system last := by
  have among := alone_plan several
  obtain ⟨fuel, workers, windows, turns, system, -, ranks, reached, settled, decided⟩ :=
    settles_of_complete built several ended complete ok
  have kept := kept_of_exec built realizes reached
  have healthy := settled.healthy (decision_eq_stop decided)
  refine ⟨system, ⟨turns, reached⟩, settled.rested kept healthy, healthy, fun solo => ?_,
    fun _ index => ?_, fun _ => ?_, fun index => ⟨((system.threads index).worker.note .debug
      ["stopping after ", toString windows, " windows: ", reason.message]).rank.journal, ?_⟩,
    ⟨schedule, ended⟩, ok⟩
  · rw [among] at solo
    cases solo
  · rw [settled.phase]
    trivial
  · rw [settled.workers]
    exact decided
  · rw [← settled.workers, System.workers, List.map_ofFn] at ranks
    have finish := congrFun (List.ofFn_injective ranks) index
    rw [finish, Function.comp_apply, Worker.finish]
    dsimp only
    split
    · next finish => exact (congrArg Prod.fst finish).symm
    · next finish => exact (congrArg Prod.fst finish).symm

/-- A run that comes to a good end does so by finish hooks, and its report is about the ranks behind
them. -/
theorem closes_of_run
    (built : (build registry options topology clock journal).2 = .ok simulation)
    (realizes : simulation.Realizes registry topology assembly)
    (runs : simulation.run fuel filter moment = some result) {report : Report C}
    (ok : result.outcome = .ok report) :
    ∃ system last, simulation.Closes filter assembly.links report.reason system last ∧
      report = Report.ofRanks report.reason
        (List.ofFn fun index => (last.threads index).rank) := by
  cases ends_of_run runs with
  | bare empty =>
    have some := ranks_of_build built
    rw [empty] at some
    cases some
  | @single rank final ending ranks alone outcome =>
    have single : simulation.ranks.length = 1 := by
      rw [← List.length_map, ranks, List.length_singleton]
    cases ending with
    | error halt => cases outcome.symm.trans ok
    | ok reason =>
      obtain ⟨system, last, closes, all⟩ := closes_of_runSingle built realizes ranks alone
      obtain rfl := Except.ok.inj (outcome.symm.trans ok)
      refine ⟨system, last, closes, ?_⟩
      rw [ofFn_of_single single _ ⟨0, by omega⟩, all]
      rfl
  | several many =>
    obtain ⟨schedule, last, ended, verdict, same⟩ := exec_of_run built runs ok
    have complete : last.Complete := fun index =>
      (last.ended_of_verdict verdict index).imp' Except.ok fun _ phase => phase
    obtain ⟨system, closes⟩ := closes_of_complete built realizes many ended complete verdict
    exact ⟨system, last, closes, same⟩

/-- What is seen of a simulation that is built and run, where that comes to a report. -/
theorem exists_run {α : Type} {view : Simulation C → Report C → α} {seen : α}
    (sees : ((build registry options topology clock journal).2.toOption.bind fun simulation =>
      (simulation.run fuel filter moment).bind fun result =>
        result.outcome.toOption.map (view simulation)) = some seen) :
    ∃ simulation result report,
      (build registry options topology clock journal).2 = .ok simulation ∧
      simulation.run fuel filter moment = some result ∧ result.outcome = .ok report ∧
      view simulation report = seen := by
  obtain ⟨simulation, result, built, runs, sees⟩ := exists_result sees
  obtain ⟨report, good, sees⟩ := Option.map_eq_some_iff.mp sees
  exact ⟨simulation, result, report, built, runs, eq_ok_of_toOption good, sees⟩

variable {reason : Termination} {system last : System C simulation.ranks.length}
  (closes : simulation.Closes filter assembly.links reason system last)
include closes

/-- Behind the decision to stop, nothing changes but components, votes and log lines. -/
theorem Closes.finishes (index : Fin simulation.ranks.length) :
    (system.threads index).rank.Finishes (last.threads index).rank := by
  obtain ⟨journal, finished⟩ := closes.finished index
  rw [finished]
  have muted : (system.threads index).rank.Finishes
      { (system.threads index).rank with journal } := rfl
  exact muted.trans (Rank.finishes_finish _)

/-- Where finish hooks cast no votes, the tallies stay as they are behind the decision to stop. -/
theorem Closes.tally (silent : Silent C) (index : Fin simulation.ranks.length) :
    (last.threads index).rank.tally = (system.threads index).rank.tally := by
  obtain ⟨journal, finished⟩ := closes.finished index
  rw [finished]
  exact Rank.tally_finish silent _

end Simulation

end Rally
