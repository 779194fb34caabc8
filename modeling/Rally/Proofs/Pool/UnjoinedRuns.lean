import Rally.Proofs.Pool.JoinedReports
import Rally.Proofs.Pool.UnjoinedWindow
/-!
# Ranks that nothing joins run apart

A simulation of several ranks without links between them is as many simulations of one rank each. Its first
window leaves each rank where the loop of this rank alone stops, and if all ranks stop behind this window, the
report about them puts the reports of the separate runs together. They stop by vote where somebody takes part
in the vote, and each rank with voters does so alone.
-/

namespace Rally

/-- A run on several ranks, none of which has another reason to end than the others, comes to a good end for
this reason where all ranks do. -/
theorem Windows.verdict_eq_ok_iff {results : List (Except RunError Termination)} {reason ended : Termination}
    (some : results ≠ []) (only : ∀ result ∈ results, ∀ found, result = .ok found → found = reason) :
    verdict results = .ok ended ↔ ended = reason ∧ ∀ result ∈ results, result = .ok reason := by
  have whole (all : ∀ result ∈ results, result = .ok reason) : verdict results = .ok reason := by
    obtain ⟨count, size⟩ := Nat.exists_eq_succ_of_ne_zero (List.length_pos_of_ne_nil some).ne'
    rw [List.eq_replicate_iff.mpr ⟨rfl, all⟩, size, verdict_replicate]
  constructor
  · intro ends
    have all : ∀ result ∈ results, result = .ok reason := by
      intro result inside
      cases told : result with
      | ok found => rw [only result inside found told]
      | error error => exact absurd (told ▸ inside) (verdict_eq_ok ends error)
    exact ⟨(Except.ok.inj ((whole all).symm.trans ends)).symm, all⟩
  · rintro ⟨rfl, all⟩
    exact whole all

variable {C : Type} [Component C] {numbers : Numbering} {fuel : Nat} {filter : Filter}

namespace Worker

/-- Whether a worker is behind its window where the loop of a simulation of one rank stops. -/
def Meets (worker : Worker C) (stopped : Option (List (Rank C) × Termination)) : Prop :=
  ∃ last reason, stopped = some ([last], reason) ∧ worker.rank.Agrees last ∧
    (worker.limitHit = true ↔ reason = .limitReached)

omit [Component C] in
/-- Where all ranks stop, none of them has failed. -/
theorem healthy_of_stop {workers : List (Worker C)} {reason : Termination}
    (decided : decision (workers.map status) = .stop reason) : ∀ worker ∈ workers, worker.failure = none :=
  fun worker inside => Option.not_isSome_iff_eq_none.mp
    (Bool.not_eq_true _ ▸ decision_eq_stop decided (worker.status) (List.mem_map_of_mem inside))

/-- Finish hooks leave a rank as they do alone, and fail alike. -/
theorem Corresponds.finish {worker : Worker C} {looped : Rank C × Stop}
    (stands : worker.Corresponds numbers looped) (windows : Nat) (reason : Termination) :
    (worker.finish windows reason).1.rank.Corresponds numbers looped.1.finish.1 ∧
      (worker.finish windows reason).2 = looped.1.finish.2.elim (.ok reason) fun halt =>
        .error (errorOf looped.1.finish.1.id halt) := by
  have noted := corresponds_note stands.rank .debug
    ["stopping after ", toString windows, " windows: ", reason.message]
  have finished := noted.finish
  rw [Worker.finish]
  generalize worker.note .debug
    ["stopping after ", toString windows, " windows: ", reason.message] = worker at finished
  cases called : worker.rank.finish with
  | mk rank halt =>
    rw [called] at finished
    obtain ⟨same, halts⟩ := finished
    dsimp only at same halts
    rw [← halts]
    cases halt with
    | none => exact ⟨same, rfl⟩
    | some halt =>
      refine ⟨same, ?_⟩
      rw [← same.id]
      rfl

end Worker

namespace Simulation

variable {simulation : Simulation C} {rank last : Rank C} {stop : Stop} {report : Report C}

/-- The ranks behind the first window of a run. -/
def firstWindow (fuel : Nat) (filter : Filter) (simulation : Simulation C) : Option (List (Worker C)) :=
  Windows.window fuel simulation.lookahead 0 Instant.zero
    ((simulation.ranks.map (logged filter)).map Worker.ofRank)

/-- The loop of a single rank stops for the same reason as that of the rank alone. -/
theorem stopped_of_single (single : simulation.ranks = [rank]) : simulation.stopped fuel filter =
    ((logged filter rank).looped fuel).map fun looped => ([looped.1], reasonOf looped.2) := by
  rw [stopped, single, List.map_singleton, Rank.looped]
  dsimp only
  cases (logged filter rank).start with
  | mk begun halt =>
    cases halt with
    | some halt => rfl
    | none =>
      dsimp only
      cases begun.dispatchUntil none true fuel with
      | none => rfl
      | some ended =>
        obtain ⟨last, ending⟩ := ended
        cases ending <;> rfl

/-- Where its loop stops, the run of a single rank ends with its finish hooks. -/
theorem behind_of_single (single : simulation.ranks = [rank])
    (loops : (logged filter rank).looped fuel = some (last, stop)) :
    simulation.behind fuel filter =
      some ([last.finish.1], last.finish.2.elim (.ok (reasonOf stop)) .error) := by
  obtain ⟨begun, starts, runs⟩ := Rank.looped_eq_some.mp loops
  rw [behind, single, List.map_singleton]
  dsimp only
  rw [runSingle, starts]
  dsimp only
  rw [runs]
  dsimp only
  cases last.finish with
  | mk final halt => cases halt <;> rfl

/-- A run comes to a report where the ranks behind it have come to a good end. -/
theorem exists_result_iff {clock : Instant} :
    (∃ result, simulation.run fuel filter clock = some result ∧ result.outcome = .ok report) ↔
    ∃ ranks, simulation.behind fuel filter = some (ranks, .ok report.reason) ∧
      report = Report.ofRanks report.reason ranks := by
  constructor
  · rintro ⟨result, runs, ok⟩
    exact behind_of_run runs ok
  · rintro ⟨ranks, ended, same⟩
    rw [run]
    rw [behind] at ended
    generalize simulation.ranks.map (logged filter) = first at ended
    rcases first with - | ⟨rank, - | ⟨second, rest⟩⟩
    · obtain ⟨rfl, reason⟩ := Prod.mk.inj (Option.some.inj ended)
      refine ⟨_, rfl, ?_⟩
      rw [same, ← Except.ok.inj reason]
      rfl
    · obtain ⟨⟨last, ending⟩, alone, told⟩ := Option.map_eq_some_iff.mp ended
      obtain ⟨rfl, rfl⟩ := Prod.mk.inj told
      refine ⟨_, Option.map_eq_some_iff.mpr ⟨_, alone, rfl⟩, ?_⟩
      exact congrArg Except.ok same.symm
    · obtain ⟨⟨last, ending⟩, among, told⟩ := Option.map_eq_some_iff.mp ended
      obtain ⟨rfl, good⟩ := Prod.mk.inj told
      refine ⟨_, Option.map_eq_some_iff.mpr ⟨_, among, rfl⟩, ?_⟩
      dsimp only
      rw [good]
      exact congrArg Except.ok same.symm

/-- It comes to some report where these have come to some good end. -/
theorem exists_report_iff {clock : Instant} :
    (∃ result report, simulation.run fuel filter clock = some result ∧ result.outcome = .ok report) ↔
      ∃ ranks reason, simulation.behind fuel filter = some (ranks, .ok reason) := by
  rw [exists_comm]
  constructor
  · rintro ⟨report, comes⟩
    obtain ⟨ranks, ended, -⟩ := exists_result_iff.mp comes
    exact ⟨ranks, report.reason, ended⟩
  · rintro ⟨ranks, reason, ended⟩
    exact ⟨Report.ofRanks reason ranks, exists_result_iff.mpr ⟨ranks, ended, rfl⟩⟩

/-- Where all ranks stop behind the first window, the run ends with their finish hooks. -/
theorem behind_of_firstWindow (several : 2 ≤ simulation.ranks.length) {workers : List (Worker C)}
    (moved : simulation.firstWindow fuel filter = some workers) {reason : Termination}
    (decided : decision (workers.map Worker.status) = .stop reason) :
    simulation.behind (fuel + 1) filter = some (workers.map fun worker => (worker.finish 0 reason).1.rank,
      (Windows.verdict (workers.map fun worker => (worker.finish 0 reason).2)).mapError .failed) := by
  rw [firstWindow] at moved
  have long : 2 ≤ (simulation.ranks.map (logged filter)).length := by rwa [List.length_map]
  rw [behind]
  generalize simulation.ranks.map (logged filter) = ranks at moved long
  have ran : runWindows (fuel + 1) simulation.lookahead ranks =
      some (workers.map fun worker => (worker.finish 0 reason).1.rank,
        Windows.verdict (workers.map fun worker => (worker.finish 0 reason).2)) := by
    rw [runWindows, Windows.run, moved]
    dsimp only
    rw [decided]
    dsimp only
    rw [List.map_map, List.map_map]
    rfl
  rcases ranks with - | ⟨rank, - | ⟨second, rest⟩⟩
  · exact absurd long (Nat.not_succ_le_zero 1)
  · exact absurd long (Nat.not_succ_le_self 1)
  · dsimp only
    rw [ran]
    rfl

/-- It comes to a good end where no finish hook fails. -/
theorem behind_eq_ok_iff (several : 2 ≤ simulation.ranks.length) {workers : List (Worker C)}
    (moved : simulation.firstWindow fuel filter = some workers) {reason ended : Termination}
    (decided : decision (workers.map Worker.status) = .stop reason) {ranks : List (Rank C)} :
    simulation.behind (fuel + 1) filter = some (ranks, .ok ended) ↔
      ranks = workers.map (fun worker => (worker.finish 0 reason).1.rank) ∧ ended = reason ∧
        ∀ worker ∈ workers, (worker.finish 0 reason).2 = .ok reason := by
  have long : workers ≠ [] := by
    rintro rfl
    have same := congrArg List.length (Windows.outlines_window moved)
    rw [List.length_map, List.length_map, List.length_map, List.length_map] at same
    rw [← same] at several
    exact absurd several (Nat.not_succ_le_zero 1)
  have only : ∀ worker ∈ workers, ∀ found, (worker.finish 0 reason).2 = .ok found → found = reason := by
    intro worker _ found told
    rw [Worker.finish] at told
    split at told
    · exact (Except.ok.inj told).symm
    · cases told
  rw [behind_of_firstWindow several moved decided, Option.some.injEq, Prod.mk.injEq]
  refine and_congr ⟨Eq.symm, Eq.symm⟩ ?_
  have verdict := @Windows.verdict_eq_ok_iff
    (workers.map fun worker => (worker.finish 0 reason).2) reason ended
    (fun none => long (List.map_eq_nil_iff.mp none)) (by simpa only [List.forall_mem_map] using only)
  rw [List.forall_mem_map] at verdict
  rw [← verdict]
  cases Windows.verdict (workers.map fun worker => (worker.finish 0 reason).2) with
  | ok other => exact ⟨fun same => congrArg Except.ok (Except.ok.inj same),
      fun same => congrArg Except.ok (Except.ok.inj same)⟩
  | error error => exact ⟨fun wrong => (by cases wrong), fun wrong => (by cases wrong)⟩

omit [Component C] in
/-- What there is for each of several ranks is told by their numbers. -/
theorem exists_by_id {α : Type} [Nonempty α] {P : Rank C → α → Prop} {ranks : List (Rank C)}
    (distinct : (ranks.map Rank.id).Nodup) (each : ∀ rank ∈ ranks, ∃ found, P rank found) :
    ∃ f : RankId → α, ∀ rank ∈ ranks, P rank (f rank.id) := by
  have all (id : RankId) : ∃ found, ∀ rank ∈ ranks, rank.id = id → P rank found := by
    by_cases used : ∃ rank ∈ ranks, rank.id = id
    · obtain ⟨rank, inside, rfl⟩ := used
      obtain ⟨found, holds⟩ := each rank inside
      refine ⟨found, fun other among same => ?_⟩
      rwa [List.inj_on_of_nodup_map distinct among inside same]
    · obtain ⟨any⟩ := ‹Nonempty α›
      exact ⟨any, fun rank inside same => absurd ⟨rank, inside, same⟩ used⟩
  choose f holds using all
  exact ⟨f, fun rank inside => holds rank.id rank inside rfl⟩

/-- How a simulation of several ranks compares to separate simulations, one for each of these ranks. -/
structure Separates (simulation : Simulation C) (topology : Topology) (separate : RankId → Simulation C)
    (fuel : Nat) (filter : Filter) : Prop where
  /-- The first window comes to an end without a failure where the separate loops all stop. -/
  ends : (∃ workers, simulation.firstWindow fuel filter = some workers ∧
      ∀ worker ∈ workers, worker.failure = none) ↔
    ∀ rank ∈ simulation.ranks, ((separate rank.id).stopped fuel filter).isSome = true
  /-- Then it leaves each rank where its separate loop stops. -/
  leaves : ∀ workers, simulation.firstWindow fuel filter = some workers →
    (∀ worker ∈ workers, worker.failure = none) → List.Forall₂
      (fun rank worker => worker.Meets ((separate rank.id).stopped fuel filter)) simulation.ranks workers
  /-- If all ranks stop behind it, they do so by vote where somebody takes part in the vote, and where the
  loops of all ranks with voters stop by vote. -/
  voted : ∀ workers reason, simulation.firstWindow fuel filter = some workers →
    decision (workers.map Worker.status) = .stop reason →
    (reason = .allVotersReady ↔ (∃ worker ∈ workers, 0 < worker.rank.tally.participants) ∧
      ∀ worker ∈ workers, 0 < worker.rank.tally.participants →
        ∃ ranks, (separate worker.rank.id).stopped fuel filter = some (ranks, .allVotersReady))
  /-- Then the run comes to a report where the separate runs all do. -/
  reports : ∀ workers reason clock, simulation.firstWindow fuel filter = some workers →
    decision (workers.map Worker.status) = .stop reason →
    ((∃ result report, simulation.run (fuel + 1) filter clock = some result ∧ result.outcome = .ok report) ↔
      ∀ rank ∈ simulation.ranks, ∃ result report,
        (separate rank.id).run fuel filter clock = some result ∧ result.outcome = .ok report)
  /-- This report tells of all ranks what the separate ones tell, and gives the reason for which the ranks
  stop together, while each of the separate ones gives that of its loop. -/
  joins : ∀ workers reason clock result report, simulation.firstWindow fuel filter = some workers →
    decision (workers.map Worker.status) = .stop reason →
    simulation.run (fuel + 1) filter clock = some result → result.outcome = .ok report →
    report.reason = reason ∧ ∃ reports : RankId → Report C,
      (∀ rank ∈ simulation.ranks,
        (∃ other, (separate rank.id).run fuel filter clock = some other ∧
          other.outcome = .ok (reports rank.id)) ∧
        ∃ ranks, (separate rank.id).stopped fuel filter = some (ranks, (reports rank.id).reason)) ∧
      report.Joins topology (simulation.ranks.map Rank.id) reports

section Alone

variable {topology : Topology} {separate : RankId → Simulation C} {alone : RankId → Rank C}
  (lookahead : simulation.lookahead = none)
  (single : ∀ rank ∈ simulation.ranks, (separate rank.id).ranks = [alone rank.id])
  (corresponds : ∀ rank ∈ simulation.ranks, rank.Corresponds (topology.numbers rank.id) (alone rank.id))

include corresponds

omit [Component C] in
/-- Log lines do not matter for what ranks correspond to. -/
theorem corresponds_logged (filter : Filter) : ∀ rank ∈ simulation.ranks.map (logged filter),
    rank.Corresponds (topology.numbers rank.id) (logged filter (alone rank.id)) := by
  intro rank inside
  obtain ⟨first, among, rfl⟩ := List.mem_map.mp inside
  exact (corresponds first among).of_journal _ _

include lookahead

/-- Where the ranks of a simulation correspond to others, so do the workers behind its first window and the
ranks where the loops of the others stop. -/
theorem related_of_firstWindow {workers : List (Worker C)}
    (moved : simulation.firstWindow fuel filter = some workers)
    (healthy : ∀ worker ∈ workers, worker.failure = none) :
    List.Forall₂ (fun rank worker => worker.rank.id = rank.id ∧ ∃ looped,
      (logged filter (alone rank.id)).looped fuel = some looped ∧
        worker.Corresponds (topology.numbers rank.id) looped) simulation.ranks workers := by
  rw [firstWindow, lookahead] at moved
  have related := List.forall₂_map_left_iff.mp (@Windows.corresponds_window _ _ _ topology.numbers
    (fun id => logged filter (alone id)) _ (corresponds_logged corresponds filter) _ moved healthy)
  refine List.forall₂_iff_get.mpr ⟨related.length_eq, fun index inside within => ?_⟩
  obtain ⟨looped, loops, stands⟩ := (List.forall₂_iff_get.mp related).2 index inside within
  refine ⟨?_, looped, loops, stands⟩
  have here := (corresponds _ (List.get_mem simulation.ranks ⟨index, inside⟩)).id
  have still := congrArg Outline.id (Rank.outline_of_looped loops)
  exact stands.rank.id.trans (still.trans here.symm)

include single

/-- The first window comes to an end without a failure where the separate loops all stop. -/
theorem exists_firstWindow_iff : (∃ workers, simulation.firstWindow fuel filter = some workers ∧
      ∀ worker ∈ workers, worker.failure = none) ↔
    ∀ rank ∈ simulation.ranks, ((separate rank.id).stopped fuel filter).isSome = true := by
  rw [firstWindow, lookahead, @Windows.exists_window_iff _ _ topology.numbers
    (fun id => logged filter (alone id)) _ (corresponds_logged corresponds filter)]
  constructor
  · intro loops rank inside
    rw [stopped_of_single (single rank inside), Option.isSome_map]
    exact loops (logged filter rank) (List.mem_map_of_mem inside)
  · intro stops rank inside
    obtain ⟨first, among, rfl⟩ := List.mem_map.mp inside
    have stops := stops first among
    rwa [stopped_of_single (single first among), Option.isSome_map] at stops

/-- It leaves each rank where its separate loop stops. -/
theorem meets_of_firstWindow {workers : List (Worker C)}
    (moved : simulation.firstWindow fuel filter = some workers)
    (healthy : ∀ worker ∈ workers, worker.failure = none) : List.Forall₂
      (fun rank worker => worker.Meets ((separate rank.id).stopped fuel filter)) simulation.ranks workers := by
  have related := related_of_firstWindow lookahead corresponds moved healthy
  refine List.forall₂_iff_get.mpr ⟨related.length_eq, fun index inside within => ?_⟩
  obtain ⟨-, ⟨last, stop⟩, loops, stands⟩ := (List.forall₂_iff_get.mp related).2 index inside within
  refine ⟨last, reasonOf stop, ?_, stands.rank.agrees, ?_⟩
  · rw [stopped_of_single (single _ (List.get_mem simulation.ranks ⟨index, inside⟩)), loops]
    rfl
  · rw [stands.limited]
    change (stop == .limitReached) = true ↔ _
    cases stop <;> decide

/-- All ranks stop by vote where somebody takes part in the vote and all loops of ranks with voters do so. -/
theorem voted_iff_of_firstWindow {registry : Registry C} {cast : C → Tally → Prop}
    (electorate : Electorate registry cast)
    (sums : ∀ rank ∈ simulation.ranks, (alone rank.id).Sums cast) {workers : List (Worker C)}
    (moved : simulation.firstWindow fuel filter = some workers) {reason : Termination}
    (decided : decision (workers.map Worker.status) = .stop reason) :
    reason = .allVotersReady ↔ (∃ worker ∈ workers, 0 < worker.rank.tally.participants) ∧
      ∀ worker ∈ workers, 0 < worker.rank.tally.participants →
        ∃ ranks, (separate worker.rank.id).stopped fuel filter = some (ranks, .allVotersReady) := by
  have sound := decision_eq_stop decided
  have healthy := Worker.healthy_of_stop decided
  have related := related_of_firstWindow lookahead corresponds moved healthy
  -- Behind the window, the votes of a worker are those of its separate loop.
  have votes (worker : Worker C) (inside : worker ∈ workers) :
      worker.rank.tally.ready ≤ worker.rank.tally.participants ∧
      (worker.rank.tally.ready = worker.rank.tally.participants ↔
        (0 < worker.rank.tally.participants →
          ∃ ranks, (separate worker.rank.id).stopped fuel filter = some (ranks, .allVotersReady))) := by
    obtain ⟨position, there⟩ := List.mem_iff_getElem?.mp inside
    obtain ⟨rank, known, id, ⟨last, stop⟩, loops, stands⟩ := related_of_getElem? related there
    have among := List.mem_of_getElem? known
    have counted : (logged filter (alone rank.id)).Sums cast := (sums rank among).of_same rfl rfl
    have fair : last.tally.ready ≤ last.tally.participants :=
      (counted.looped electorate loops).ready_le electorate
    have voted := Rank.voted_iff_of_looped loops
    rw [id, stopped_of_single (single rank among), loops, stands.rank.tally]
    dsimp only
    refine ⟨fair, ?_⟩
    have stops : (∃ ranks, some ([last], reasonOf stop) = some (ranks, Termination.allVotersReady)) ↔
        stop = .voted := by
      cases stop <;> simp [reasonOf]
    rw [Option.map_some, stops, voted, Tally.allReady, Bool.and_eq_true, decide_eq_true_iff, beq_iff_eq]
    constructor
    · exact fun equal some => ⟨some, equal⟩
    · intro ready
      by_cases some : 0 < last.tally.participants
      · exact (ready some).2
      · omega
  have agree := decision_eq_voted_iff sound
  rw [decided] at agree
  have told : reason = .allVotersReady ↔ AllVoted (workers.map Worker.status) := by
    rw [← agree]
    exact ⟨fun same => congrArg Decision.stop same, fun same => Decision.stop.inj same⟩
  rw [told, AllVoted, List.map_map, List.map_map]
  refine and_congr ?_
    ((sum_map_eq_iff_of_le fun worker inside => (votes worker inside).1).trans
      (forall₂_congr fun worker inside => (votes worker inside).2))
  rw [List.sum_pos_iff_exists_pos_nat]
  simp only [List.mem_map, exists_exists_and_eq_and]
  rfl

/-- Where all ranks stop behind the first window, the run comes to a good end where the separate runs all
do. -/
theorem good_iff_of_firstWindow (several : 2 ≤ simulation.ranks.length) {workers : List (Worker C)}
    (moved : simulation.firstWindow fuel filter = some workers) {reason : Termination}
    (decided : decision (workers.map Worker.status) = .stop reason) :
    (∃ ranks last, simulation.behind (fuel + 1) filter = some (ranks, .ok last)) ↔
      ∀ rank ∈ simulation.ranks, ∃ ranks last,
        (separate rank.id).behind fuel filter = some (ranks, .ok last) := by
  have related := related_of_firstWindow lookahead corresponds moved (Worker.healthy_of_stop decided)
  -- The finish hooks of a worker fail where those of the rank alone do.
  have each {rank : Rank C} {worker : Worker C} (inside : rank ∈ simulation.ranks)
      {looped : Rank C × Stop} (loops : (logged filter (alone rank.id)).looped fuel = some looped)
      (stands : worker.Corresponds (topology.numbers rank.id) looped) :
      (worker.finish 0 reason).2 = .ok reason ↔
        ∃ ranks last, (separate rank.id).behind fuel filter = some (ranks, .ok last) := by
    rw [(stands.finish 0 reason).2, behind_of_single (single rank inside) loops]
    cases looped.1.finish.2 with
    | none => exact ⟨fun _ => ⟨_, _, rfl⟩, fun _ => rfl⟩
    | some halt =>
      constructor
      · intro fine
        cases fine
      · rintro ⟨_, _, fine⟩
        cases fine
  constructor
  · rintro ⟨ranks, last, good⟩ rank inside
    obtain ⟨-, -, fine⟩ := (behind_eq_ok_iff several moved decided).mp good
    obtain ⟨position, there⟩ := List.mem_iff_getElem?.mp inside
    obtain ⟨worker, found, -, looped, loops, stands⟩ := related_of_getElem? related.flip there
    exact (each inside loops stands).mp (fine worker (List.mem_of_getElem? found))
  · intro good
    refine ⟨_, _, (behind_eq_ok_iff several moved decided).mpr ⟨rfl, rfl, fun worker inside => ?_⟩⟩
    obtain ⟨position, there⟩ := List.mem_iff_getElem?.mp inside
    obtain ⟨rank, found, -, looped, loops, stands⟩ := related_of_getElem? related there
    have among := List.mem_of_getElem? found
    exact (each among loops stands).mpr (good rank among)

variable {registry : Registry C} {options : Options} {clock moment : Instant} {journal : Journal}

/-- Where all ranks stop behind the first window and no finish hook fails, a separate run ends with a rank to
which the one among others corresponds. -/
theorem exists_final (distinct : (simulation.ranks.map Rank.id).Nodup) {workers : List (Worker C)}
    (moved : simulation.firstWindow fuel filter = some workers) {reason : Termination}
    (decided : decision (workers.map Worker.status) = .stop reason)
    (fine : ∀ worker ∈ workers, (worker.finish 0 reason).2 = .ok reason) {rank : Rank C}
    (inside : rank ∈ simulation.ranks) : ∃ final : Rank C × Report C,
      (separate rank.id).behind fuel filter = some ([final.1], .ok final.2.reason) ∧
      final.2 = Report.ofRanks final.2.reason [final.1] ∧
      ∀ worker ∈ workers, worker.rank.id = rank.id →
        (worker.finish 0 reason).1.rank.Corresponds (topology.numbers rank.id) final.1 := by
  have related := related_of_firstWindow lookahead corresponds moved (Worker.healthy_of_stop decided)
  obtain ⟨position, there⟩ := List.mem_iff_getElem?.mp inside
  obtain ⟨worker, found, -, looped, loops, stands⟩ := related_of_getElem? related.flip there
  have good := fine worker (List.mem_of_getElem? found)
  rw [(stands.finish 0 reason).2] at good
  refine ⟨(looped.1.finish.1, Report.ofRanks (reasonOf looped.2) [looped.1.finish.1]), ?_, rfl,
    fun other among here => ?_⟩
  · rw [behind_of_single (single rank inside) loops]
    cases halt : looped.1.finish.2 with
    | none => rfl
    | some halt =>
      rw [halt] at good
      cases good
  · -- No other rank has this number.
    obtain ⟨place, among⟩ := List.mem_iff_getElem?.mp among
    obtain ⟨twin, known, own, also, stops, meets⟩ := related_of_getElem? related among
    obtain rfl := List.inj_on_of_nodup_map distinct (List.mem_of_getElem? known) inside
      (own.symm.trans here)
    obtain rfl := Option.some.inj (loops.symm.trans stops)
    exact (meets.finish 0 reason).1

variable {registry : Registry C} {options : Options} {clock moment : Instant} {journal : Journal}

/-- Where all ranks stop behind the first window, the report about them joins those of the separate runs. -/
theorem joins_of_firstWindow
    (built : (build registry options topology clock journal).2 = .ok simulation)
    (apart : ∀ rank ∈ simulation.ranks,
      (build registry options (topology.only rank.id) clock journal).2 = .ok (separate rank.id))
    (several : 2 ≤ simulation.ranks.length) {workers : List (Worker C)}
    (moved : simulation.firstWindow fuel filter = some workers) {reason : Termination}
    (decided : decision (workers.map Worker.status) = .stop reason) {result : RunResult C}
    (runs : simulation.run (fuel + 1) filter moment = some result) (ok : result.outcome = .ok report) :
    report.reason = reason ∧ ∃ reports : RankId → Report C,
      (∀ rank ∈ simulation.ranks,
        (∃ other, (separate rank.id).run fuel filter moment = some other ∧
          other.outcome = .ok (reports rank.id)) ∧
        ∃ ranks, (separate rank.id).stopped fuel filter = some (ranks, (reports rank.id).reason)) ∧
      report.Joins topology (simulation.ranks.map Rank.id) reports := by
  have related := related_of_firstWindow lookahead corresponds moved (Worker.healthy_of_stop decided)
  obtain ⟨ranks, ended, merges⟩ := (merges_of_partitions built).2 _ _ _ _ _ runs ok
  obtain ⟨assembly, -, resolved, -⟩ := build_ok built
  have valid := Assembly.valid_of_ofTopology resolved
  have ids : ranks.map Rank.id = simulation.ranks.map Rank.id := by
    have outlines := congrArg (List.map Outline.id) (outlines_behind ended)
    rwa [List.map_map, List.map_map] at outlines
  obtain ⟨rfl, same, fine⟩ := (behind_eq_ok_iff several moved decided).mp ended
  have distinct := distinct_of_build built
  have : Nonempty (Rank C × Report C) := by
    obtain ⟨rank, inside⟩ := List.exists_mem_of_length_pos (Nat.lt_of_lt_of_le Nat.zero_lt_two several)
    exact ⟨rank, report⟩
  obtain ⟨finals, holds⟩ := exists_by_id distinct fun rank inside =>
    exists_final lookahead single corresponds distinct moved decided fine inside
  have comes : ∀ rank ∈ simulation.ranks, ∃ other,
      (separate rank.id).run fuel filter moment = some other ∧ other.outcome = .ok (finals rank.id).2 := by
    intro rank inside
    obtain ⟨good, told, -⟩ := holds rank inside
    exact exists_result_iff.mpr ⟨_, good, told⟩
  -- A rank behind the run is that of a worker, which has the number of the rank before.
  have numbered : ∀ last ∈ workers.map (fun worker => (worker.finish 0 reason).1.rank),
      ∃ rank ∈ simulation.ranks, last.id = rank.id ∧
        last.Corresponds (topology.numbers rank.id) (finals rank.id).1 := by
    intro last inside
    obtain ⟨worker, among, rfl⟩ := List.mem_map.mp inside
    obtain ⟨position, there⟩ := List.mem_iff_getElem?.mp among
    obtain ⟨rank, known, own, -⟩ := related_of_getElem? related there
    have member := List.mem_of_getElem? known
    have still : (worker.finish 0 reason).1.rank.id = worker.rank.id :=
      congrArg Outline.id (worker.outline_conclude (.stop reason) 0)
    exact ⟨rank, member, still.trans own, (holds rank member).2.2 worker among own⟩
  refine ⟨same, fun id => (finals id).2, fun rank inside => ⟨comes rank inside, ?_⟩, ?_⟩
  · obtain ⟨before, stops, -⟩ := finishes_of_behind (holds rank inside).1
    exact ⟨before, stops⟩
  · rw [← ids]
    refine @Topology.Merges.joins _ topology _ (fun id => (finals id).1) (fun id => (finals id).2) report
      valid.components valid.links merges (fun last inside => ?_) fun last inside => ?_
    · obtain ⟨rank, member, own, -⟩ := numbered last inside
      rw [own]
      obtain ⟨other, goes, good⟩ := comes rank member
      obtain ⟨lasts, leads, merged⟩ := (merges_of_partitions (apart rank member)).2 _ _ _ _ _ goes good
      have equal := leads.symm.trans (holds rank member).1
      rwa [(Prod.mk.inj (Option.some.inj equal)).1] at merged
    · obtain ⟨rank, -, own, stands⟩ := numbered last inside
      rw [own]
      exact stands

end Alone

section Build

variable {registry : Registry C} {options : Options} {topology : Topology} {clock : Instant}
  {journal : Journal} {cast : C → Tally → Prop}

omit [Component C] in
/-- Where no link leads to another rank, all ranks of a simulation can be built alone. -/
theorem exists_separate (built : (build registry options topology clock journal).2 = .ok simulation)
    (several : 2 ≤ simulation.ranks.length) (unjoined : topology.Unjoined) (oblivious : registry.Oblivious) :
    ∃ (separate : RankId → Simulation C) (alone : RankId → Rank C), ∀ rank ∈ simulation.ranks,
      (build registry options (topology.only rank.id) clock journal).2 = .ok (separate rank.id) ∧
      (separate rank.id).ranks = [alone rank.id] ∧
      rank.Corresponds (topology.numbers rank.id) (alone rank.id) := by
  have some : topology.components ≠ [] := by
    intro none
    have ids := congrArg List.length (ids_of_build built)
    rw [none, List.length_map] at ids
    rw [ids] at several
    exact absurd several (Nat.not_succ_le_self 1)
  obtain ⟨first, inside⟩ := List.exists_mem_of_length_pos (Nat.lt_of_lt_of_le Nat.zero_lt_two several)
  have : Nonempty (Simulation C × Rank C) := ⟨simulation, first⟩
  have each : ∀ rank ∈ simulation.ranks, ∃ found : Simulation C × Rank C,
      (build registry options (topology.only rank.id) clock journal).2 = .ok found.1 ∧
      found.1.ranks = [found.2] ∧ rank.Corresponds (topology.numbers rank.id) found.2 := by
    intro rank inside
    obtain ⟨separate, alone, apart, single, same⟩ := exists_alone built unjoined oblivious some inside
    exact ⟨(separate, alone), apart, single, same⟩
  obtain ⟨found, holds⟩ := exists_by_id (distinct_of_build built) each
  exact ⟨fun id => (found id).1, fun id => (found id).2, holds⟩

/-- Where no link leads to another rank, a simulation of several ranks runs as separate simulations do that are
built from the components of one rank each and the links between these. -/
theorem separates_of_build (built : (build registry options topology clock journal).2 = .ok simulation)
    (several : 2 ≤ simulation.ranks.length) (unjoined : topology.Unjoined) (oblivious : registry.Oblivious)
    (electorate : Electorate registry cast) :
    ∃ separate : RankId → Simulation C,
      (∀ rank ∈ simulation.ranks,
        (build registry options (topology.only rank.id) clock journal).2 = .ok (separate rank.id) ∧
        (separate rank.id).ranks.map Rank.id = [rank.id]) ∧
      ∀ fuel filter, simulation.Separates topology separate fuel filter := by
  obtain ⟨separate, alone, holds⟩ := exists_separate built several unjoined oblivious
  have lookahead := lookahead_of_unjoined built unjoined
  have apart := fun rank inside => (holds rank inside).1
  have single := fun rank inside => (holds rank inside).2.1
  have corresponds := fun rank inside => (holds rank inside).2.2
  have sums : ∀ rank ∈ simulation.ranks, (alone rank.id).Sums cast := by
    intro rank inside
    refine sums_of_build (apart rank inside) electorate _ ?_
    rw [single rank inside]
    exact List.mem_singleton_self _
  refine ⟨separate, fun rank inside => ⟨apart rank inside, ?_⟩, fun fuel filter => ?_⟩
  · rw [single rank inside, List.map_singleton, ← (corresponds rank inside).id]
  · exact {
      ends := exists_firstWindow_iff lookahead single corresponds
      leaves := fun workers moved healthy => meets_of_firstWindow lookahead single corresponds moved healthy
      voted := fun workers reason moved decided =>
        voted_iff_of_firstWindow lookahead single corresponds electorate sums moved decided
      reports := fun workers reason moment moved decided => by
        have good := good_iff_of_firstWindow lookahead single corresponds several moved decided
        simpa only [exists_report_iff] using good
      joins := fun workers reason moment result report moved decided runs ok =>
        joins_of_firstWindow lookahead single corresponds built apart several moved decided runs ok }

end Build

end Simulation

/-- Two pairs of players, each on a rank of its own, of which the second one is registered between the players
of the first one. -/
def Topology.twoPairs : Topology :=
  (({} : Topology).addPlayer "left ping" .initiator 7 2
    |>.addPlayer "right ping" .initiator 3 4
    |>.addPlayer "right pong" .responder 3 4
    |>.addPlayer "left pong" .responder 7 2
    |>.addLink "right" (Binary64.ofNat 2) ⟨"right ping", "inout"⟩ ⟨"right pong", "inout"⟩
    |>.addLink "left" Binary64.one ⟨"left ping", "inout"⟩ ⟨"left pong", "inout"⟩)

/-- Two pairs of players play apart: the one on rank 3 until its fourth answer, and that on rank 7 until its
second one. -/
theorem Simulation.separates_of_build_twoPairs :
    ∃ (simulation : Simulation Player) (result : RunResult Player) (report : Report Player)
      (separate : RankId → Simulation Player),
      (build Player.registry {} .twoPairs Instant.zero ⟨Filter.off, #[]⟩).2 = .ok simulation ∧
      simulation.run 17 Filter.off Instant.zero = some result ∧ result.outcome = .ok report ∧
      2 ≤ simulation.ranks.length ∧ Topology.twoPairs.Unjoined ∧
      (simulation.firstWindow 16 Filter.off).map (fun workers => decision (workers.map Worker.status)) =
        some (.stop .allVotersReady) ∧
      report.ranks.map (fun rank => (rank.rank, rank.events)) = [(3, 8), (7, 4)] ∧
      (∀ rank ∈ simulation.ranks,
        (build Player.registry {} (Topology.twoPairs.only rank.id) Instant.zero ⟨Filter.off, #[]⟩).2 =
          .ok (separate rank.id) ∧ (separate rank.id).ranks.map Rank.id = [rank.id]) ∧
      simulation.Separates .twoPairs separate 16 Filter.off := by
  obtain ⟨simulation, result, report, built, runs, ok, seen⟩ := @exists_run _ _
    Player.registry {} .twoPairs Instant.zero Instant.zero ⟨Filter.off, #[]⟩ Filter.off 17 _
    (fun simulation report => (decide (2 ≤ simulation.ranks.length),
      (simulation.firstWindow 16 Filter.off).map fun workers => decision (workers.map Worker.status),
      report.ranks.map fun rank => (rank.rank, rank.events)))
    (true, some (.stop .allVotersReady), [(3, 8), (7, 4)]) (by decide +kernel)
  obtain ⟨counted, told⟩ := Prod.mk.inj seen
  obtain ⟨stops, events⟩ := Prod.mk.inj told
  have several : 2 ≤ simulation.ranks.length := of_decide_eq_true counted
  have unjoined : Topology.twoPairs.Unjoined := by
    unfold Topology.Unjoined
    decide +kernel
  obtain ⟨separate, apart, separates⟩ := separates_of_build built several unjoined Player.oblivious
    Player.electorate
  exact ⟨simulation, result, report, separate, built, runs, ok, several, unjoined, stops, events, apart,
    separates 16 Filter.off⟩

end Rally
