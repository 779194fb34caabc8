import Mathlib.Algebra.GroupWithZero.Nat
import Rally.Proofs.Pool.PlacementIndependence
import Rally.Proofs.Threads.HookCalls
import Rally.Proofs.Threads.SingleThread
/-!
# How runs end

A run without a limit in which no thread fails, and no finish hook does anything, ends well. Before its
end it passes through a state in which nothing is on its way between ranks; there either all voters are
ready, or no message is left and not all of them are. The report is about the ranks in this state.
-/

namespace Rally

variable {C : Type}

/-- A rank without its log lines. -/
def Rank.muted (rank : Rank C) : Rank C := { rank with journal := ⟨Filter.off, #[]⟩ }

/-- A report says nothing about log lines. -/
theorem Report.ofRanks_muted (reason : Termination) (ranks : List (Rank C)) :
    Report.ofRanks reason (ranks.map Rank.muted) = Report.ofRanks reason ranks := by
  simp only [Report.ofRanks, List.map_map, List.foldl_map]
  rfl

/-- Ranks that differ in their log lines alone have the same report. -/
theorem Report.ofRanks_congr {reason : Termination} {ranks others : List (Rank C)}
    (same : ranks.map Rank.muted = others.map Rank.muted) :
    Report.ofRanks reason ranks = Report.ofRanks reason others := by
  rw [← ofRanks_muted, same, ofRanks_muted]

/-- Whether somebody on some ranks takes part in the vote and everybody who does is ready. -/
def Voted (ranks : List (Rank C)) : Prop :=
  0 < (ranks.map fun rank => rank.tally.participants).sum ∧
    (ranks.map fun rank => rank.tally.ready).sum = (ranks.map fun rank => rank.tally.participants).sum

/-- What the reason for the end of a run tells about its ranks, given their limit. -/
def Termination.Explains (limit : Limit) : Termination → List (Rank C) → Prop
  | .allVotersReady, ranks => Voted ranks
  | .eventsExhausted, ranks => (∀ rank ∈ ranks, rank.pending.inOrder = []) ∧ ¬ Voted ranks
  | .limitReached, ranks => (∃ rank ∈ ranks, rank.limit = limit ∧ rank.Barred none) ∧ ¬ Voted ranks

/-- No limit is reached where there is none. -/
theorem Termination.not_explains_limitReached (ranks : List (Rank C)) :
    ¬ Termination.limitReached.Explains .unlimited ranks := by
  rintro ⟨⟨rank, -, unlimited, event, -, -, -, forbids⟩, -⟩
  rw [unlimited] at forbids
  cases forbids

/-- Where ranks decide to stop and those that stopped at their limit are barred by it, their tallies and
events explain the reason. -/
theorem explains_of_decision {limit : Limit} {workers : List (Worker C)} {reason : Termination}
    (decided : decision (workers.map Worker.status) = .stop reason)
    (limits : ∀ worker ∈ workers, worker.rank.limit = limit)
    (barred : ∀ worker ∈ workers, worker.limitHit = true → worker.rank.Barred none) :
    reason.Explains limit (workers.map Worker.rank) := by
  have voted : AllVoted (workers.map Worker.status) ↔ Voted (workers.map Worker.rank) := by
    rw [AllVoted, Voted, List.map_map, List.map_map, List.map_map, List.map_map]
    rfl
  have decides := decides_decision (workers.map Worker.status)
  rw [decided] at decides
  cases decides with
  | voted _ all => exact voted.mp all
  | idle _ waits none =>
    refine ⟨fun rank inside => ?_, mt voted.mpr waits⟩
    obtain ⟨worker, there, rfl⟩ := List.mem_map.mp inside
    have nothing : worker.rank.pending.nextTime? = .none := none _ (List.mem_map_of_mem there)
    rwa [EventSet.nextTime?_eq, Option.map_eq_none_iff, EventSet.pop?_eq_none_iff] at nothing
  | limited _ waits marked =>
    obtain ⟨status, inside, marks⟩ := marked
    obtain ⟨worker, there, rfl⟩ := List.mem_map.mp inside
    exact ⟨⟨worker.rank, List.mem_map_of_mem there, limits worker there,
      barred worker there marks⟩, mt voted.mpr waits⟩

/-- Where a single rank stops, its tally and events explain the reason. -/
theorem explains_of_turn {rank : Rank C} {stop : Stop} (sound : rank.pending.Sound)
    (turn : rank.turn none true = .error stop) :
    (Simulation.reasonOf stop).Explains rank.limit [rank] := by
  have ready : rank.tally.allReady = true ↔ Voted [rank] := by
    rw [Tally.allReady, Bool.and_eq_true, decide_eq_true_eq, beq_iff_eq]
    rfl
  have unready (waits : true = true → rank.tally.allReady = false) : ¬ Voted [rank] := by
    rw [← ready, waits rfl]
    exact Bool.false_ne_true
  have turns := rank.turns_turn none true
  rw [turn] at turns
  cases turns with
  | voted _ all => exact ready.mp all
  | idle waits none =>
    refine ⟨fun other inside => ?_, unready waits⟩
    rw [List.mem_singleton.mp inside]
    exact (EventSet.pop?_eq_none_iff _).mp none
  | late _ _ ends => cases ends
  | limited waits =>
    exact ⟨⟨rank, List.mem_singleton_self rank, rfl, Rank.barred_of_turn sound turn⟩, unready waits⟩

variable [Component C]

/-- Whether finish hooks do nothing. -/
def Quiet (C : Type) [Component C] : Prop :=
  ∀ (state : C) context, Component.finish state context = { component := state }

namespace Rank

/-- A finish hook that does nothing leaves a rank as it is, but for log lines. -/
theorem finishOne_of_quiet (quiet : Quiet C) (id : ComponentId) (rank : Rank C) :
    ∃ journal, rank.finishOne id = ({ rank with journal }, none) := by
  rw [finishOne]
  cases owned : rank.slot? id with
  | none => exact ⟨rank.journal, rfl⟩
  | some slot =>
    have there : rank.slots[id]? = some (some slot) := Option.join_eq_some_iff.mp owned
    have slots : rank.slots.setIfInBounds id (some slot) = rank.slots := by
      refine Array.ext_getElem? fun other => ?_
      rw [Array.getElem?_setIfInBounds]
      split
      · next same =>
        subst same
        obtain ⟨inside, -⟩ := Array.getElem?_eq_some_iff.mp there
        rw [if_pos inside, there]
      · rfl
    have still := quiet slot.component (rank.context slot)
    simp only [still, List.isEmpty_nil, if_true, absorb, slots]
    exact ⟨_, rfl⟩

/-- Finish hooks that do nothing leave a rank as it is, but for log lines. -/
theorem finish_of_quiet (quiet : Quiet C) (rank : Rank C) :
    ∃ journal, rank.finish = ({ rank with journal }, none) := by
  rw [finish]
  generalize List.range rank.slots.size = ids
  induction ids generalizing rank with
  | nil => exact ⟨rank.journal, rfl⟩
  | cons id rest ih =>
    obtain ⟨journal, called⟩ := finishOne_of_quiet quiet id rank
    obtain ⟨last, others⟩ := ih { rank with journal }
    exact ⟨last, by rw [finishAll, called]; exact others⟩

end Rank

/-- Finish hooks that do nothing do not break off. -/
theorem Quiet.calm (quiet : Quiet C) (state : C) (context : Context) (panic : Panic) :
    (Component.finish state context).outcome ≠ .panicked panic := by
  rw [quiet]
  exact fun fails => by cases fails

namespace Windows

/-- Where finish hooks do nothing, ranks that stop for a reason end for it, and differ from what they were
in their log lines alone. -/
theorem conclude_of_quiet (quiet : Quiet C) (reason : Termination) (windows : Nat)
    (workers : List (Worker C)) :
    (workers.map (conclude (.stop reason) windows)).map Prod.snd =
        List.replicate workers.length (.ok reason) ∧
      ((workers.map (conclude (.stop reason) windows)).map fun ended => ended.1.rank).map Rank.muted =
        (workers.map Worker.rank).map Rank.muted := by
  induction workers with
  | nil => exact ⟨rfl, rfl⟩
  | cons worker rest ih =>
    obtain ⟨results, ranks⟩ := ih
    obtain ⟨journal, called⟩ := (worker.note .debug
      ["stopping after ", toString windows, " windows: ", reason.message]).rank.finish_of_quiet quiet
    have ended : conclude (.stop reason) windows worker =
        ({ worker with rank := { worker.rank with journal } }, .ok reason) := by
      rw [conclude, Worker.finish]
      simp only [called]
      rfl
    simp only [List.map_cons, List.length_cons, List.replicate_succ, ended]
    exact ⟨congrArg _ results, congrArg _ ranks⟩

end Windows

namespace System

variable {n : Nat}

/-- Whether all ranks have started and none has called a finish hook, and nothing is on its way between
them. -/
structure Rested (plan : Plan n) (links : Array Link) (system : System C n) : Prop where
  /-- The setup hooks are called, and no finish hook is. -/
  going : ∀ index,
    ¬ (system.threads index).phase.isStarting ∧ ¬ (system.threads index).phase.isOver
  /-- Nothing is on its way. -/
  lanes : ∀ (way : Way) near far, plan.ids near = (way.near links).rank →
    plan.ids far = (way.far links).rank → system.lane (way.conveys links) near far = []

/-- Where all threads wait for a decision and no rank has failed, nothing is on its way. -/
theorem Settled.rested {plan : Plan n} {links : Array Link} {system : System C n}
    {first : Fin n → Rank C} {round : Nat} {ranks : List (Worker C)} {deeds : List (List Deed)}
    (settled : system.Settled round ranks deeds) (kept : system.Kept plan links first)
    (healthy : ∀ index, (system.threads index).worker.failure = none) :
    system.Rested plan links := by
  refine ⟨fun index => ?_, fun way near far source goal => ?_⟩
  · rw [settled.phase]
    exact ⟨not_false, not_false⟩
  · have unsent : (system.threads near).unsent = [] := by
      rw [Thread.unsent_of_not_posting fun rest posts => by
        rw [settled.phase] at posts
        cases posts]
      rw [(kept.steady.threads near).emptied (by rw [settled.phase]; exact not_false)
        (by rw [settled.phase]; exact not_false) (healthy near)]
      rfl
    have taken : (system.threads far).taken = [] := by
      rw [Thread.taken, settled.phase]
    rw [lane, inbound, unsent, taken, settled.channels]
    rfl

end System

namespace Simulation

variable {registry : Registry C} {options : Options} {topology : Topology}
  {clock moment : Instant} {journal : Journal} {simulation : Simulation C}
  {assembly : Assembly C} {filter : Filter} {fuel : Nat} {result : RunResult C}

/-- Whether no thread of a simulation fails, whatever the schedule is. -/
def Safe (filter : Filter) (simulation : Simulation C) : Prop :=
  ∀ schedule system, (simulation.launch filter).exec simulation.plan schedule = some system →
    ∀ index, (system.threads index).Sound simulation.plan

/-- How the result of a run comes about: from a state of the run in which nothing is on its way between
ranks, for a reason that its ranks explain. -/
def Results (filter : Filter) (links : Array Link) (simulation : Simulation C)
    (outcome : Except Halt (Report C)) : Prop :=
  ∃ turns system reason, (simulation.launch filter).exec simulation.plan turns = some system ∧
    system.Rested simulation.plan links ∧
    reason.Explains .unlimited (List.ofFn fun index => (system.threads index).rank) ∧
    outcome = .ok (Report.ofRanks reason (List.ofFn fun index => (system.threads index).rank))

/-- A single rank that comes to an end without a failure has passed through a state in which nothing was
left to do. -/
theorem results_of_runSingle
    (built : (build registry options topology clock journal).2 = .ok simulation)
    (realizes : simulation.Realizes registry topology assembly)
    (unlimited : options.limit = .unlimited) (quiet : Quiet C) (safe : simulation.Safe filter)
    {rank last : Rank C} {reason : Except Halt Termination}
    (ranks : simulation.ranks.map (logged filter) = [rank])
    (runs : runSingle fuel rank = some (last, reason)) :
    simulation.Results filter assembly.links
      (reason.map fun reason => Report.ofRanks reason [last]) := by
  have single : simulation.ranks.length = 1 := by
    rw [← List.length_map, ranks, List.length_singleton]
  obtain ⟨solo, index, only, here⟩ := launch_of_single ranks
  rcases (Thread.alone_of_runSingle solo runs).stopped with
    ⟨next, count, halt, strides, ended, -⟩ | ⟨middle, count, stop, strides, phase, turn, same⟩
  · obtain ⟨schedule, -, reached⟩ :=
      System.reaches_of_strides strides (simulation.launch filter) index here
    refine absurd ?_ ((safe schedule _ reached index).alone solo halt)
    have there : ((simulation.launch filter).withThread index next).threads index = next := by
      simp only [System.withThread, Function.update_self]
    rw [there]
    exact ended
  · obtain ⟨turns, -, reached⟩ :=
      System.reaches_of_strides strides (simulation.launch filter) index here
    have there (place : Fin simulation.ranks.length) :
        ((simulation.launch filter).withThread index middle).threads place = middle := by
      rw [only place]
      simp only [System.withThread, Function.update_self]
    have all : (List.ofFn fun place =>
        (((simulation.launch filter).withThread index middle).threads place).rank) =
          [middle.rank] := by
      simp only [there, List.ofFn_const, single, List.replicate_succ, List.replicate_zero]
    have free := (limit_of_exec built reached index).trans unlimited
    have sound := ((kept_of_exec built realizes reached).steady.threads index).timed.sound
    rw [there] at free sound
    refine ⟨turns, _, reasonOf stop, reached, ⟨fun place => ?_, fun way near far source goal => ?_⟩,
      ?_, ?_⟩
    · rw [there, phase]
      exact ⟨not_false, not_false⟩
    · refine (kept_of_exec built realizes reached).flowing.addressed.lane_eq_nil ?_ near far
      rw [← source, ← goal, only near, only far]
    · rw [all]
      exact free ▸ explains_of_turn sound turn
    · obtain ⟨journal, finished⟩ := middle.rank.finish_of_quiet quiet
      rw [finished] at same
      cases same
      rw [all]
      exact congrArg _ (Report.ofRanks_congr rfl)

/-- Several ranks that come to an end without a failure have passed through a state in which nothing was
left to do. -/
theorem results_of_runWindows
    (built : (build registry options topology clock journal).2 = .ok simulation)
    (realizes : simulation.Realizes registry topology assembly)
    (several : 2 ≤ simulation.ranks.length) (unlimited : options.limit = .unlimited)
    (quiet : Quiet C) (safe : simulation.Safe filter) {ranks : List (Rank C)}
    {reason : Except RunError Termination}
    (runs : runWindows fuel simulation.lookahead (simulation.ranks.map (logged filter)) =
      some (ranks, reason)) :
    simulation.Results filter assembly.links
      ((reason.mapError .failed).map fun reason => Report.ofRanks reason ranks) := by
  have among := alone_plan several
  obtain ⟨workers, common, windows, ran, rfl, rfl⟩ := exists_run_of_runWindows runs
  obtain ⟨begun, count, starts, opened, launched, -⟩ := reaches_opened built several filter
  rw [← launched] at ran
  obtain ⟨middle, more, onward, settled, decided, leaves⟩ :=
    opened.reaches_settled among (ids_injective built) ran
  obtain ⟨turns, -, reached⟩ := starts.trans onward
  have kept := kept_of_exec built realizes reached
  have sound := safe turns middle reached
  have free := limit_of_exec built reached
  have barred := (leaves_of_exec built several realizes reached).2.barred
  have each : ∀ worker ∈ workers, ∃ index, (middle.threads index).worker = worker := by
    rw [← settled.workers]
    exact fun worker inside => List.mem_ofFn.mp inside
  -- No rank has failed, so all ranks stop for one reason.
  obtain ⟨reason, rfl⟩ : ∃ reason, common = .stop reason := by
    cases common with
    | proceed later => exact absurd rfl (leaves later)
    | stop reason => exact ⟨reason, rfl⟩
    | abort =>
      have failed := decision_eq_abort decided.symm
      obtain ⟨status, inside, fails⟩ := failed
      obtain ⟨worker, there, rfl⟩ := List.mem_map.mp inside
      obtain ⟨index, rfl⟩ := each worker there
      have fails : (middle.threads index).worker.failure.isSome = true := fails
      rw [(sound index).healthy] at fails
      cases fails
  obtain ⟨results, same⟩ := Windows.conclude_of_quiet quiet reason windows workers
  have long : 0 < workers.length := by
    rw [← settled.workers, System.workers, List.length_ofFn]
    omega
  obtain ⟨size, length⟩ := Nat.exists_eq_succ_of_ne_zero long.ne'
  rw [results, length, Windows.verdict_replicate]
  have all : (List.ofFn fun index => (middle.threads index).rank) = workers.map Worker.rank := by
    rw [← settled.workers, System.workers, List.map_ofFn]
    rfl
  refine ⟨turns, middle, reason, reached, settled.rested kept fun index => (sound index).healthy,
    ?_, ?_⟩
  · rw [all]
    refine explains_of_decision decided.symm (fun worker inside => ?_) fun worker inside hit => ?_
    all_goals obtain ⟨index, rfl⟩ := each worker inside
    · exact (free index).trans unlimited
    · exact (barred index (sound index).healthy (by rw [settled.phase]; exact not_false)
        (by rw [settled.phase]; exact not_false) hit).unbound
  · rw [all]
    exact congrArg _ (Report.ofRanks_congr same)

/-- A run in which no thread fails comes to a good end, if it comes to an end. -/
theorem results_of_run
    (built : (build registry options topology clock journal).2 = .ok simulation)
    (realizes : simulation.Realizes registry topology assembly)
    (unlimited : options.limit = .unlimited) (quiet : Quiet C) (safe : simulation.Safe filter)
    (runs : simulation.run fuel filter moment = some result) :
    simulation.Results filter assembly.links result.outcome := by
  cases ends_of_run runs with
  | bare empty =>
    have some := ranks_of_build built
    rw [empty] at some
    cases some
  | single ranks alone outcome =>
    rw [outcome]
    exact results_of_runSingle built realizes unlimited quiet safe ranks alone
  | several many among outcome =>
    rw [outcome]
    exact results_of_runWindows built realizes many unlimited quiet safe among

end Simulation

end Rally
