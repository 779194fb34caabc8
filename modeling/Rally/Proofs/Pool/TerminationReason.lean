import Rally.Proofs.Pool.BeforeFinish
import Rally.Proofs.Pool.ReportSums
/-!
# The reason that a report tells

A run on one rank checks after every event whether it ends, and a run on several ranks decides so from
the status of all of them behind a window. Both judge alike: a report tells that all voters are ready
where they are, else that no event is left where none is, and else that the limit was reached, which then
forbids the earliest event that is left on some rank.
-/

namespace Rally

variable {C : Type}

/-- The reason for the end of a run is explained as well by ranks that differ at most in their components
and log lines. -/
theorem Termination.Explains.congr {n : Nat} {limit : Limit} {reason : Termination}
    {ranks others : Fin n → Rank C} (explains : reason.Explains limit (List.ofFn ranks))
    (same : ∀ index, (ranks index).Finishes (others index) ∧
      (others index).tally = (ranks index).tally) : reason.Explains limit (List.ofFn others) := by
  have voted : Voted (List.ofFn others) ↔ Voted (List.ofFn ranks) := by
    simp only [Voted, List.map_ofFn, List.sum_ofFn, Function.comp_apply, (same _).2]
  have left (index : Fin n) : (others index).pending = (ranks index).pending ∧
      (others index).limit = (ranks index).limit ∧
      (others index).dispatched = (ranks index).dispatched := by
    rw [(same index).1]
    exact ⟨rfl, rfl, rfl⟩
  cases reason with
  | allVotersReady => exact voted.mpr explains
  | eventsExhausted =>
    refine ⟨fun rank inside => ?_, mt voted.mp explains.2⟩
    obtain ⟨index, rfl⟩ := List.mem_ofFn.mp inside
    rw [(left index).1]
    exact explains.1 _ (List.mem_ofFn.mpr ⟨index, rfl⟩)
  | limitReached =>
    obtain ⟨⟨rank, inside, limits, barred⟩, waits⟩ := explains
    obtain ⟨index, rfl⟩ := List.mem_ofFn.mp inside
    obtain ⟨pending, limit, dispatched⟩ := left index
    refine ⟨⟨others index, List.mem_ofFn.mpr ⟨index, rfl⟩, limit.trans limits, ?_⟩,
      mt voted.mp waits⟩
    rwa [Rank.Barred, pending, limit, dispatched]

namespace Report

/-- Whether somebody takes part in the vote, as a report tells, and everybody who does is ready. -/
def Voted (report : Report C) : Prop :=
  0 < (report.ranks.map RankReport.participants).sum ∧
    (report.ranks.map RankReport.ready).sum = (report.ranks.map RankReport.participants).sum

/-- Whether the reason that a report tells is the one that its ranks give, under a limit. -/
structure Justified (limit : Limit) (ranks : List (Rank C)) (report : Report C) : Prop where
  /-- All voters are ready where everybody who takes part is. -/
  voted : report.reason = .allVotersReady ↔ report.Voted
  /-- Else no event is left where no rank has one. -/
  exhausted : report.reason = .eventsExhausted ↔
    ¬ report.Voted ∧ ∀ rank ∈ report.ranks, rank.pending = 0
  /-- Else the limit was reached. -/
  limited : report.reason = .limitReached ↔
    ¬ report.Voted ∧ ¬ ∀ rank ∈ report.ranks, rank.pending = 0
  /-- It forbids the earliest event that is left on some rank. -/
  barred : report.reason = .limitReached → ∃ rank ∈ ranks, ∃ event ∈ rank.pending.inOrder,
    (∀ other ∈ rank.pending.inOrder, event.time ≤ other.time) ∧
      limit.applies (rank.dispatched + 1) event.time = true

/-- The reason of a report is justified where its ranks explain it. -/
theorem justified_of_explains {limit : Limit} {reason : Termination} {ranks : List (Rank C)}
    (explains : reason.Explains limit ranks) : (ofRanks reason ranks).Justified limit ranks := by
  have voted : (ofRanks reason ranks).Voted ↔ Rally.Voted ranks := by
    rw [Voted, Rally.Voted, ofRanks, List.map_map, List.map_map]
    rfl
  have empty : (∀ rank ∈ (ofRanks reason ranks).ranks, rank.pending = 0) ↔
      ∀ rank ∈ ranks, rank.pending.inOrder = [] := by
    have each (rank : Rank C) : (RankReport.ofRank rank).pending = 0 ↔ rank.pending.inOrder = [] := by
      rw [RankReport.ofRank, EventSet.size_eq_length, List.length_eq_zero_iff]
    simp only [ofRanks, List.forall_mem_map, each]
  cases reason with
  | allVotersReady =>
    have all := voted.mpr explains
    exact ⟨iff_of_true rfl all, iff_of_false (by rintro ⟨⟩) fun both => both.1 all,
      iff_of_false (by rintro ⟨⟩) fun both => both.1 all, by rintro ⟨⟩⟩
  | eventsExhausted =>
    obtain ⟨nothing, waits⟩ := explains
    have waits := mt voted.mp waits
    have nothing := empty.mpr nothing
    exact ⟨iff_of_false (by rintro ⟨⟩) waits, iff_of_true rfl ⟨waits, nothing⟩,
      iff_of_false (by rintro ⟨⟩) fun both => both.2 nothing, by rintro ⟨⟩⟩
  | limitReached =>
    obtain ⟨⟨rank, inside, rfl, event, left, least, -, forbids⟩, waits⟩ := explains
    have waits := mt voted.mp waits
    have some : ¬ ∀ rank ∈ (ofRanks .limitReached ranks).ranks, rank.pending = 0 := fun nothing => by
      rw [empty.mp nothing rank inside] at left
      cases left
    exact ⟨iff_of_false (by rintro ⟨⟩) waits, iff_of_false (by rintro ⟨⟩) fun both => some both.2,
      iff_of_true rfl ⟨waits, some⟩, fun _ => ⟨rank, inside, event, left, least, forbids⟩⟩

end Report

namespace Simulation

variable [Component C] {registry : Registry C} {options : Options} {topology : Topology}
  {clock moment : Instant} {journal : Journal} {simulation : Simulation C}
  {assembly : Assembly C} {filter : Filter} {fuel : Nat} {result : RunResult C}

/-- Where ranks have decided to stop, their tallies and events explain the reason. -/
theorem Closes.explains {reason : Termination} {system last : System C simulation.ranks.length}
    (built : (build registry options topology clock journal).2 = .ok simulation)
    (realizes : simulation.Realizes registry topology assembly)
    (closes : simulation.Closes filter assembly.links reason system last) :
    reason.Explains options.limit (List.ofFn fun index => (system.threads index).rank) := by
  obtain ⟨schedule, reached⟩ := closes.reached
  have limits := limit_of_exec built reached
  cases among : simulation.plan.alone with
  | true =>
    have single : simulation.ranks.length = 1 := by
      have few : simulation.ranks.length ≤ 1 := of_decide_eq_true among
      have some := ranks_of_build built
      omega
    let index : Fin simulation.ranks.length := ⟨0, by omega⟩
    obtain ⟨stop, turn, rfl⟩ := closes.single among index
    have sound := ((kept_of_exec built realizes reached).steady.threads index).timed.sound
    rw [ofFn_of_single single (fun place => (system.threads place).rank) index, ← limits index]
    exact explains_of_turn sound turn
  | false =>
    have several : 2 ≤ simulation.ranks.length := by
      have many := of_decide_eq_false among
      omega
    have barred := (leaves_of_exec built several realizes reached).2.barred
    have ranks : (List.ofFn fun index => (system.threads index).rank) =
        system.workers.map Worker.rank := by
      rw [System.workers, List.map_ofFn]
      rfl
    rw [ranks]
    refine explains_of_decision (closes.decided among) (fun worker inside => ?_)
      fun worker inside hit => ?_
    all_goals obtain ⟨index, rfl⟩ := List.mem_ofFn.mp inside
    · exact limits index
    · have waits := closes.waits among index
      exact (barred index (closes.healthy index)
        (fun window => Phase.not_hasPublished_of_inWindow window waits)
        (fun gone => Phase.not_hasPublished_of_isOver gone waits) hit).unbound

/-- The reason that the report of a run tells is justified by the ranks at its end, where finish hooks
cast no votes. -/
theorem justified_of_run
    (built : (build registry options topology clock journal).2 = .ok simulation)
    (silent : Silent C) (runs : simulation.run fuel filter moment = some result)
    {report : Report C} (ok : result.outcome = .ok report) :
    ∃ schedule last, (simulation.launch filter).exec simulation.plan schedule = some last ∧
      last.verdict? = some (.ok report.reason) ∧
      report = Report.ofRanks report.reason (List.ofFn fun index => (last.threads index).rank) ∧
      report.Justified options.limit (List.ofFn fun index => (last.threads index).rank) := by
  obtain ⟨assembly, realizes⟩ := realizes_of_build built
  obtain ⟨system, last, closes, same⟩ := closes_of_run built realizes runs ok
  obtain ⟨schedule, ended⟩ := closes.ended
  refine ⟨schedule, last, ended, closes.verdict, same, ?_⟩
  have explains := closes.explains built realizes
  rw [same]
  refine Report.justified_of_explains (explains.congr fun index => ⟨closes.finishes index,
    closes.tally silent index⟩)

/-- Two players on a rank each that is limited to one event: the limit forbids the message that is left. -/
theorem justified_of_run_relayChain :
    ∃ (simulation : Simulation Player) (result : RunResult Player) (report : Report Player)
      (ranks : List (Rank Player)),
      (build (Registry.builtin id) { limit := .events 1 }
        (.relayChain [(.initiator, 0), (.responder, 1)] 2) Instant.zero ⟨Filter.off, #[]⟩).2 =
          .ok simulation ∧
      Silent Player ∧ simulation.run 8 Filter.off Instant.zero = some result ∧
      result.outcome = .ok report ∧ report.reason = .limitReached ∧
      report = Report.ofRanks report.reason ranks ∧ report.Justified (.events 1) ranks := by
  obtain ⟨simulation, result, report, built, runs, ok, reason⟩ := @exists_run _ _
    (Registry.builtin id) { limit := .events 1 } (.relayChain [(.initiator, 0), (.responder, 1)] 2)
    Instant.zero Instant.zero ⟨Filter.off, #[]⟩ Filter.off 8 _ (fun _ report => report.reason)
    .limitReached (by decide +kernel)
  have silent : Silent Player := fun state context => by cases state <;> rfl
  obtain ⟨-, last, -, -, same, justified⟩ := justified_of_run built silent runs ok
  exact ⟨simulation, result, report, _, built, silent, runs, ok, reason, same, justified⟩

end Simulation

end Rally
