import Rally.Proofs.Player.Rings
import Rally.Proofs.Pool.ReportSums
import Rally.Proofs.Pool.Termination
/-!
# Windows bring a run on

Windows of a run on several ranks begin one later than the other, as long as there are links between ranks
and the last instant is not reached, and every window but the first one dispatches a message or is the last
one. Without links between ranks there are two windows at most. So a limit on the number of events bounds
the number of windows, whatever components do, where no message is due at the last instant.
-/

namespace Rally

variable {C : Type} [Component C]

namespace Rank

variable {rank : Rank C}

omit [Component C] in
/-- A rank that goes on takes an event that its limit does not forbid. -/
theorem free_of_turn {bound : Option Instant} {byVote : Bool}
    {taken : Scheduled Delivery × EventSet Delivery} (goes : rank.turn bound byVote = .ok taken) :
    ∃ time, rank.limit.applies (rank.dispatched + 1) time = false := by
  have turns := rank.turns_turn bound byVote
  rw [goes] at turns
  cases turns with
  | goes _ _ _ allows => exact ⟨_, allows⟩

end Rank

/-- A step of a thread whose limit forbids all events beyond a number dispatches no more of them. -/
theorem Thread.Calls.dispatched_le {n most : Nat} {plan : Plan n} {thread : Thread C} {last : Rank C}
    (calls : thread.Calls plan last)
    (limited : ∀ number, most < number → ∀ time, thread.rank.limit.applies number time = true)
    (few : thread.rank.dispatched ≤ most) : last.dispatched ≤ most := by
  cases calls with
  | setup => rwa [Rank.dispatched_setup]
  | dispatch _ turn =>
    rw [Rank.dispatched_dispatch]
    by_contra beyond
    obtain ⟨time, free⟩ := Rank.free_of_turn turn
    rw [limited _ (not_le.mp beyond)] at free
    cases free
  | finish => rwa [Rank.dispatched_finishOne]
  | none _ _ dispatched => rwa [dispatched]

namespace Windows

/-- The messages that some ranks have dispatched. -/
def dispatched (workers : List (Worker C)) : Nat :=
  (workers.map fun worker => worker.rank.dispatched).sum

omit [Component C] in
/-- The workers of some threads have dispatched as many messages as the threads. -/
theorem dispatched_workers {n : Nat} (system : System C n) :
    dispatched system.workers = system.dispatched := by
  rw [dispatched, System.workers, List.map_ofFn, List.sum_ofFn]
  rfl

/-- The windows that ranks open one after the other: the number and the start of each, and the ranks in
front of it. -/
inductive Opens (lookahead : Option Duration) (first : List (Worker C)) :
    Nat → Instant → List (Worker C) → Prop where
  /-- The first window begins with the run. -/
  | first : Opens lookahead first 0 Instant.zero first
  /-- Another one follows where the ranks do not end the run. -/
  | next {fuel round : Nat} {start later : Instant} {workers behind : List (Worker C)}
      (former : Opens lookahead first round start workers)
      (moved : window fuel lookahead round start workers = some behind)
      (decided : decision (behind.map Worker.status) = .proceed later) :
      Opens lookahead first (round + 1) later behind

end Windows

namespace Simulation

variable {registry : Registry C} {options : Options} {topology : Topology}
  {clock moment : Instant} {journal : Journal} {simulation : Simulation C}
  {assembly : Assembly C} {filter : Filter} {fuel most round : Nat} {start : Instant}
  {system : System C simulation.ranks.length}

/-- The workers of a simulation in front of the first window. -/
def starters (filter : Filter) (simulation : Simulation C) : List (Worker C) :=
  (simulation.ranks.map (logged filter)).map Worker.ofRank

/-- A limit that forbids all events beyond a number bounds those that ranks dispatch. -/
theorem bounded_of_limit
    (built : (build registry options topology clock journal).2 = .ok simulation)
    (limited : ∀ number, most < number → ∀ time, options.limit.applies number time = true) :
    simulation.Bounded filter (most * simulation.ranks.length) := by
  rintro system ⟨schedule, reached⟩
  have few := System.exec_threads (P := fun _ thread =>
    thread.rank.limit = options.limit ∧ thread.rank.dispatched ≤ most)
    (fun index thread next view effect before stepped => ⟨?_, ?_⟩) reached fun index => ?_
  · calc system.dispatched ≤ ∑ _index : Fin simulation.ranks.length, most :=
        Finset.sum_le_sum fun index _ => (few index).2
      _ = most * simulation.ranks.length := by
        rw [Finset.sum_const, Finset.card_univ, Fintype.card_fin, smul_eq_mul, Nat.mul_comm]
  · exact (Thread.moves_of_step stepped).carries.keeps_limit.trans before.1
  · exact (Thread.calls_of_step stepped).dispatched_le (before.1 ▸ limited) before.2
  · have inside := List.get_mem simulation.ranks index
    have kept : (simulation.ranks.get index).limit = options.limit :=
      (spreads_of_build built).limit _ inside
    have none : (simulation.ranks.get index).dispatched ≤ most :=
      (fresh_of_build built inside).dispatched.le.trans (Nat.zero_le most)
    exact ⟨kept, none⟩

/-- A run never opens more windows than messages can be dispatched, and two. -/
theorem Awaits.windows_le (awaits : simulation.Awaits filter round start system)
    (built : (build registry options topology clock journal).2 = .ok simulation)
    (realizes : simulation.Realizes registry topology assembly)
    (several : 2 ≤ simulation.ranks.length) (bounded : simulation.Bounded filter most)
    (prompt : simulation.Prompt filter) {workers : List (Worker C)} {common : Decision}
    {windows : Nat} (runs : Windows.run simulation.lookahead fuel round start system.workers =
      some (workers, common, windows)) :
    windows + system.dispatched ≤ round + most + if round = 0 then 1 else 0 := by
  induction fuel generalizing system round start with
  | zero => cases runs
  | succ fuel ih =>
    cases window : Windows.window fuel simulation.lookahead round start system.workers with
    | none =>
      rw [Windows.run, window] at runs
      cases runs
    | some behind =>
      by_cases goes : ∃ later, decision (behind.map Worker.status) = .proceed later
      · obtain ⟨later, decided⟩ := goes
        obtain ⟨next, following, rfl, -, -, fewer, grows⟩ :=
          awaits.proceeds built realizes several window decided
        rw [(Windows.run_of_proceed window decided).1] at runs
        have few := ih following runs
        rw [if_neg (Nat.succ_ne_zero round)] at few
        by_cases first : round = 0
        · rw [if_pos first]
          omega
        · have strictly := grows first fun _ => awaits.short built realizes prompt first
          rw [if_neg first]
          omega
      · have few := bounded system awaits.reachable
        rw [(Windows.run_of_leaves window (not_exists.mp goes)).1] at runs
        cases runs
        omega

/-- Each window that ranks open is one that the threads of the run are about to open. -/
theorem awaits_of_opens
    (built : (build registry options topology clock journal).2 = .ok simulation)
    (realizes : simulation.Realizes registry topology assembly)
    (several : 2 ≤ simulation.ranks.length) {workers : List (Worker C)}
    (opens : Windows.Opens simulation.lookahead (simulation.starters filter) round start workers) :
    ∃ system, simulation.Awaits filter round start system ∧ system.workers = workers := by
  induction opens with
  | first => exact awaits_first built several filter
  | next former moved decided ih =>
    obtain ⟨system, awaits, rfl⟩ := ih
    obtain ⟨next, following, same, -⟩ := awaits.proceeds built realizes several moved decided
    exact ⟨next, following, same⟩

/-- What the windows of a run on several ranks bring. -/
structure BringsOn (limit : Limit) (filter : Filter) (simulation : Simulation C) : Prop where
  /-- With links between ranks, a window begins later than the one before, unless this began at the last
  instant. -/
  later : ∀ {fuel round start later workers behind},
    Windows.Opens simulation.lookahead (simulation.starters filter) round start workers →
    Windows.window fuel simulation.lookahead round start workers = some behind →
    decision (behind.map Worker.status) = .proceed later →
    simulation.lookahead.isSome → start < Instant.max → start < later
  /-- Every window but the first one dispatches a message or is the last one, unless there are links
  between ranks and it begins at the last instant. -/
  grows : ∀ {fuel round start later workers behind},
    Windows.Opens simulation.lookahead (simulation.starters filter) round start workers →
    Windows.window fuel simulation.lookahead round start workers = some behind →
    decision (behind.map Worker.status) = .proceed later →
    round ≠ 0 → (simulation.lookahead.isSome → start < Instant.max) →
    Windows.dispatched workers < Windows.dispatched behind
  /-- Without links between ranks there are no more than two windows. -/
  unlinked : ∀ {round start workers},
    Windows.Opens simulation.lookahead (simulation.starters filter) round start workers →
    simulation.lookahead = none → round + 1 ≤ 2
  /-- Where no message is due at the last instant, a limit on the number of events that each rank
  dispatches ends the run, behind no more windows than messages can be dispatched, and two. -/
  ends : ∀ {most}, (∀ number, most < number → ∀ time, limit.applies number time = true) →
    simulation.Prompt filter →
    (∀ clock, ∃ fuel, simulation.run fuel filter clock ≠ none) ∧
      ∀ fuel workers common windows, Windows.run simulation.lookahead fuel 0 Instant.zero
        (simulation.starters filter) = some (workers, common, windows) →
          windows + 1 ≤ most * simulation.ranks.length + 2

/-- On several ranks windows bring a run on, whatever its components do. -/
theorem bringsOn_of_build
    (built : (build registry options topology clock journal).2 = .ok simulation)
    (several : 2 ≤ simulation.ranks.length) (filter : Filter) :
    simulation.BringsOn options.limit filter := by
  obtain ⟨assembly, realizes⟩ := realizes_of_build built
  constructor
  case later =>
    intro fuel round start later workers behind opens moved decided linked short
    obtain ⟨system, awaits, rfl⟩ := awaits_of_opens built realizes several opens
    obtain ⟨-, -, -, begins, -⟩ := awaits.proceeds built realizes several moved decided
    obtain ⟨lookahead, known⟩ := Option.isSome_iff_exists.mp linked
    exact (Duration.lt_saturatingAdd (lookahead_pos built realizes known) short).trans_le
      (begins lookahead known)
  case grows =>
    intro fuel round start later workers behind opens moved decided further short
    obtain ⟨system, awaits, rfl⟩ := awaits_of_opens built realizes several opens
    obtain ⟨next, -, rfl, -, -, -, grows⟩ := awaits.proceeds built realizes several moved decided
    rw [Windows.dispatched_workers, Windows.dispatched_workers]
    exact grows further short
  case unlinked =>
    intro round start workers opens alone
    cases opens with
    | first => omega
    | next former moved decided =>
      obtain ⟨system, awaits, rfl⟩ := awaits_of_opens built realizes several former
      obtain ⟨-, -, -, -, single, -⟩ := awaits.proceeds built realizes several moved decided
      have first := single alone
      omega
  case ends =>
    intro most limited prompt
    have bounded : simulation.Bounded filter (most * simulation.ranks.length) :=
      bounded_of_limit built limited
    refine ⟨fun clock => run_terminates built realizes bounded fun _ => prompt,
      fun fuel workers common windows runs => ?_⟩
    obtain ⟨system, awaits, launched⟩ := awaits_first built several filter
    rw [starters, ← launched] at runs
    have few := awaits.windows_le built realizes several bounded prompt runs
    rw [if_pos rfl] at few
    omega

/-- Two players on a rank each that is limited to two events: they open as many windows as they may. -/
theorem bringsOn_of_build_relayChain : ∃ (simulation : Simulation Player)
    (workers : List (Worker Player)) (common : Decision) (windows : Nat),
    (build Player.registry { limit := .events 2 }
      (.relayChain [(.initiator, 0), (.responder, 1)] 9) Instant.zero ⟨Filter.off, #[]⟩).2 =
        .ok simulation ∧
    simulation.ranks.length = 2 ∧ simulation.BringsOn (.events 2) Filter.off ∧
    (∀ number, 2 < number → ∀ time, (Limit.events 2).applies number time = true) ∧
    simulation.Prompt Filter.off ∧
    Windows.run simulation.lookahead 8 0 Instant.zero (simulation.starters Filter.off) =
      some (workers, common, windows) ∧
    windows + 1 = 6 ∧ windows + 1 ≤ 2 * simulation.ranks.length + 2 := by
  obtain ⟨simulation, -, -, built, -, -, seen⟩ := @exists_run _ _ Player.registry
    { limit := .events 2 } (.relayChain [(.initiator, 0), (.responder, 1)] 9) Instant.zero
    Instant.zero ⟨Filter.off, #[]⟩ Filter.off 8 _
    (fun simulation _ => (simulation.ranks.length,
      (Windows.run simulation.lookahead 8 0 Instant.zero (simulation.starters Filter.off)).map
        fun result => result.2.2)) (2, some 5) (by decide +kernel)
  obtain ⟨several, opened⟩ := Prod.mk.inj seen
  obtain ⟨⟨workers, common, windows⟩, runs, count⟩ := Option.map_eq_some_iff.mp opened
  obtain rfl : windows = 5 := count
  have brings := bringsOn_of_build built several.ge Filter.off
  have limited (number : Nat) (beyond : 2 < number) (time : Instant) :
      (Limit.events 2).applies number time = true := decide_eq_true beyond
  have prompt := prompt_of_relayChain Filter.off built (by decide) (by decide)
  exact ⟨simulation, workers, common, 5, built, several, brings, limited, prompt, runs, rfl,
    (brings.ends limited prompt).2 8 workers common 5 runs⟩

end Simulation

end Rally
