import Rally.Simulation.Run
/-!
# How runs come to an end

A single rank that comes to an end has failed in its setup, in the dispatch of an event or in a finish hook,
or it has closed behind its last event. Ranks that come to an end in windows conclude one by one, for what
they decided behind the last window. A run of a simulation is one or the other, and reports about the ranks
behind it.
-/

namespace Rally

namespace Simulation

variable {C : Type} [Component C] {fuel : Nat}

/-- How the run of a single rank comes to its end. -/
inductive Singly (fuel : Nat) (rank : Rank C) : Rank C → Except Halt Termination → Prop where
  /-- A setup hook fails. -/
  | unready {begun : Rank C} {halt : Halt} (started : rank.start = (begun, some halt)) :
      Singly fuel rank begun (.error halt)
  /-- The dispatch of an event fails. -/
  | broken {begun last : Rank C} {halt : Halt} (started : rank.start = (begun, none))
      (dispatched : begun.dispatchUntil none true fuel = some (last, .error halt)) :
      Singly fuel rank last (.error halt)
  /-- The rank stops, and a finish hook fails. -/
  | unfinished {begun middle last : Rank C} {stop : Stop} {halt : Halt}
      (started : rank.start = (begun, none))
      (dispatched : begun.dispatchUntil none true fuel = some (middle, .ok stop))
      (finished : middle.finish = (last, some halt)) : Singly fuel rank last (.error halt)
  /-- The rank stops and finishes. -/
  | finished {begun middle last : Rank C} {stop : Stop} (started : rank.start = (begun, none))
      (dispatched : begun.dispatchUntil none true fuel = some (middle, .ok stop))
      (finished : middle.finish = (last, none)) : Singly fuel rank last (.ok (reasonOf stop))

/-- The run of a single rank comes to its end in one of these ways. -/
theorem singly_of_runSingle {rank last : Rank C} {ending : Except Halt Termination}
    (runs : runSingle fuel rank = some (last, ending)) : Singly fuel rank last ending := by
  rw [runSingle] at runs
  cases started : rank.start with
  | mk begun halt =>
    rw [started] at runs
    cases halt with
    | some halt =>
      cases runs
      exact .unready started
    | none =>
      dsimp only at runs
      cases dispatched : begun.dispatchUntil none true fuel with
      | none =>
        rw [dispatched] at runs
        cases runs
      | some reached =>
        obtain ⟨middle, outcome⟩ := reached
        rw [dispatched] at runs
        cases outcome with
        | error halt =>
          cases runs
          exact .broken started dispatched
        | ok stop =>
          dsimp only at runs
          cases finished : middle.finish with
          | mk final halt =>
            rw [finished] at runs
            cases halt <;> cases runs
            · exact .finished started dispatched finished
            · exact .unfinished started dispatched finished

/-- Ranks that come to an end in windows conclude for what they decided behind the last one. -/
theorem exists_run_of_runWindows {lookahead : Option Duration} {ranks last : List (Rank C)}
    {ending : Except RunError Termination}
    (runs : runWindows fuel lookahead ranks = some (last, ending)) :
    ∃ workers decision windows,
      Windows.run lookahead fuel 0 Instant.zero (ranks.map Worker.ofRank) =
        some (workers, decision, windows) ∧
      last = (workers.map (Windows.conclude decision windows)).map (fun ended => ended.1.rank) ∧
      ending = Windows.verdict ((workers.map (Windows.conclude decision windows)).map Prod.snd) := by
  rw [runWindows] at runs
  split at runs
  · cases runs
  · next workers decision windows moved =>
    obtain ⟨rfl, rfl⟩ := Prod.mk.inj (Option.some.inj runs)
    exact ⟨workers, decision, windows, moved, rfl, rfl⟩

/-- How the run of a simulation comes to its outcome. -/
inductive Ends (fuel : Nat) (filter : Filter) (simulation : Simulation C) (result : RunResult C) :
    Prop where
  /-- There is no rank. -/
  | bare (empty : simulation.ranks = [])
      (outcome : result.outcome = .ok (Report.ofRanks .eventsExhausted []))
  /-- A single rank comes to its end. -/
  | single {rank last : Rank C} {ending : Except Halt Termination}
      (ranks : simulation.ranks.map (logged filter) = [rank])
      (alone : runSingle fuel rank = some (last, ending))
      (outcome : result.outcome = ending.map fun reason => Report.ofRanks reason [last])
  /-- Several ranks come to their end in windows. -/
  | several {last : List (Rank C)} {ending : Except RunError Termination}
      (many : 2 ≤ simulation.ranks.length)
      (among : runWindows fuel simulation.lookahead (simulation.ranks.map (logged filter)) =
        some (last, ending))
      (outcome : result.outcome = (ending.mapError .failed).map fun reason => Report.ofRanks reason last)

/-- The run of a simulation comes to its outcome in one of these ways. -/
theorem ends_of_run {filter : Filter} {clock : Instant} {simulation : Simulation C}
    {result : RunResult C} (runs : simulation.run fuel filter clock = some result) :
    simulation.Ends fuel filter result := by
  rw [run] at runs
  cases ranks : simulation.ranks.map (logged filter) with
  | nil =>
    simp only [ranks] at runs
    cases runs
    exact .bare (List.map_eq_nil_iff.mp ranks) rfl
  | cons first rest =>
    cases rest with
    | nil =>
      simp only [ranks] at runs
      obtain ⟨⟨last, ending⟩, alone, rfl⟩ := Option.map_eq_some_iff.mp runs
      exact .single ranks alone rfl
    | cons second rest =>
      have many : 2 ≤ simulation.ranks.length := by
        rw [← List.length_map, ranks]
        exact Nat.le_add_left 2 rest.length
      simp only [ranks] at runs
      obtain ⟨⟨last, ending⟩, among, rfl⟩ := Option.map_eq_some_iff.mp runs
      rw [← ranks] at among
      exact .several many among rfl

end Simulation

end Rally
