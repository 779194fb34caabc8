import Rally.Proofs.Pool.Forecast
import Rally.Proofs.Pool.ReportSums
import Rally.Proofs.Pool.TallyCounts
import Rally.Proofs.Pool.Termination
/-!
# Runs that go as forecast

Where components receive all that they will before they are at rest, that is, before all voters are ready
or nothing is left on its way, a run without a limit comes to an end, and its report tells the forecast:
what each component received, how it ended, and what each link carried. If then all voters are ready, this
is the reason for the end.
-/

namespace Rally

variable {C : Type} [Component C] {n : Nat} {plan : Plan n} {links : Array Link} {seats : Seats C}
  {voter : C → Voter} {told gave heard given : ComponentId → List (Instant × Delivery)} {count : Nat}

/-- Whether the voters of all components are ready behind what these received. -/
def AllReady (voter : C → Voter) (links : Array Link) (seats : Seats C)
    (told : ComponentId → List (Instant × Delivery)) : Prop :=
  ∀ id seat final posted, seats id = some seat →
    seat.follow? links (.setup id :: (told id).map .event) = some (final, posted) →
      (voter final.slot.component).isParticipant = true →
        (voter final.slot.component).isReady = true

/-- Whether the voter of some component takes part behind what it received. -/
def Contested (voter : C → Voter) (links : Array Link) (seats : Seats C)
    (told : ComponentId → List (Instant × Delivery)) : Prop :=
  ∃ id seat final posted, seats id = some seat ∧
    seat.follow? links (.setup id :: (told id).map .event) = some (final, posted) ∧
      (voter final.slot.component).isParticipant = true

/-- A forecast that components at rest have fulfilled, and behind which all voters are ready. -/
structure Foretold (voter : C → Voter) (links : Array Link) (seats : Seats C)
    (heard given : ComponentId → List (Instant × Delivery)) : Prop
    extends Forecast links seats heard given where
  /-- Each component receives at one port only. -/
  ear : OneEar seats
  /-- Components that are at rest have received all that they will. -/
  exact : ∀ told gave, Acts links seats told gave → (∀ id, told id <+: heard id) →
    (∀ way : Way, way.link < links.size → (told (way.far links).component).filter way.bears <+:
      (gave (way.near links).component).filter way.bears) →
    Closed links told gave ∨ AllReady voter links seats told →
      ∀ id seat, seats id = some seat → told id = heard id
  /-- Some voter takes part then. -/
  contested : Contested voter links seats heard
  /-- All voters are ready then. -/
  ready : AllReady voter links seats heard

namespace Forecast

/-- Where there is no component, nothing will be received. -/
theorem eq_nil (forecast : Forecast links seats heard given) (joined : Joined links seats)
    {id : ComponentId} (none : seats id = none) : heard id = [] := by
  refine List.eq_nil_iff_forall_not_mem.mpr fun entry inside => ?_
  obtain ⟨known, here⟩ := forecast.goes id entry inside
  have owned := joined.owned _ entry.2.arrival known
  change (seats (entry.2.goal links).component).isSome at owned
  rw [here, none] at owned
  cases owned

end Forecast

/-- A report is the same of what components gave alone. -/
theorem Report.Sums.congr {report : Report C} (sums : report.Sums links count seats told gave)
    (joined : Joined links seats) (received : told = heard)
    (posted : ∀ id seat, seats id = some seat → gave id = given id) :
    report.Sums links count seats heard given := by
  subst received
  have near (way : Way) (known : way.link < links.size) :
      gave (way.near links).component = given (way.near links).component := by
    obtain ⟨seat, there⟩ := Option.isSome_iff_exists.mp (joined.owned way.link way.side known)
    exact posted _ seat there
  refine ⟨sums.events, sums.latest, sums.attained, sums.whole, fun way known => ?_, sums.full,
    fun id seat there => ?_, fun closed => sums.settled fun way known => ?_⟩
  · rw [← near way known]
    exact sums.carried way known
  · rw [← posted id seat there]
    exact sums.states id seat there
  · rw [near way known]
    exact closed way known

namespace System

variable {system : System C n} {first : Fin n → Rank C}

/-- Behind their setups components act as their histories tell. -/
theorem Kept.acts_of_rested (kept : system.Kept plan links first)
    (housing : Housing links plan.ids count first)
    (sound : ∀ index, (system.threads index).Sound plan) (rested : system.Rested plan links) :
    Acts links (Pool.ofRanks (List.ofFn first)).seats (system.told links) (system.gave links) := by
  intro id seat there
  obtain ⟨index, here⟩ := (Pool.seats_ofRanks housing.apart id seat).mp there
  obtain ⟨called, final, -, begun, -, follows⟩ := kept.story housing (sound index) here
  rw [begun (rested.going index).1] at follows
  exact ⟨final, follows⟩

/-- Where nothing is on its way between ranks and nothing waits, all that was given was received. -/
theorem Kept.closed_of_rested (kept : system.Kept plan links first)
    (housing : Housing links plan.ids count first) (rested : system.Rested plan links)
    (nothing : ∀ index, (system.threads index).rank.pending.inOrder = []) :
    Closed links (system.told links) (system.gave links) := by
  intro way known
  obtain ⟨near, source⟩ := housing.placed way.link way.side known
  obtain ⟨far, goal⟩ := housing.placed way.link way.side.opposite known
  have told : system.told links (way.far links).component = _ :=
    told_eq housing kept.flowing.addressed (housing.home known goal.symm)
  have gave : system.gave links (way.near links).component = _ :=
    gave_eq housing kept.flowing.addressed (housing.home known source.symm)
  have whole := kept.flowing.conserved way near far source goal
  have waiting : way.waiting (system.threads far).rank = [] := by
    rw [Way.waiting, nothing far]
    rfl
  rw [passed, rested.lanes way near far source goal, waiting, way.sent_eq_filter,
    way.arrived_eq_filter, List.map_nil, List.append_nil, List.append_nil] at whole
  rw [told, gave, filter_goesTo, filter_comesFrom, whole]

/-- Behind what it received a component is in its place on its rank. -/
theorem Kept.slot_of_rested (kept : system.Kept plan links first)
    (housing : Housing links plan.ids count first)
    (sound : ∀ index, (system.threads index).Sound plan) (rested : system.Rested plan links)
    {id : ComponentId} {seat final : Seat C} {posted : List (Instant × Delivery)}
    (there : (Pool.ofRanks (List.ofFn first)).seats id = some seat)
    (follows : seat.follow? links (.setup id :: (system.told links id).map .event) =
      some (final, posted)) :
    ∃ index, (system.threads index).rank.slot? id = some final.slot := by
  obtain ⟨index, here⟩ := (Pool.seats_ofRanks housing.apart id seat).mp there
  obtain ⟨called, last, -, begun, now, through⟩ := kept.story housing (sound index) here
  rw [begun (rested.going index).1] at through
  obtain ⟨rfl, -⟩ := Prod.mk.inj (Option.some.inj (follows.symm.trans through))
  obtain ⟨slot, owned, place⟩ := Option.map_eq_some_iff.mp (now (rested.going index).2)
  rw [← place]
  exact ⟨index, owned⟩

/-- The tallies of ranks that have called no finish hook tell whether the voters of all components are
ready. -/
theorem Kept.allReady_iff (kept : system.Kept plan links first)
    (housing : Housing links plan.ids count first)
    (sound : ∀ index, (system.threads index).Sound plan) (rested : system.Rested plan links)
    (polled : ∀ index, (system.threads index).rank.Polled voter) :
    ((List.ofFn fun index => (system.threads index).rank).map fun rank => rank.tally.ready).sum =
        ((List.ofFn fun index => (system.threads index).rank).map
          fun rank => rank.tally.participants).sum ↔
      AllReady voter links (Pool.ofRanks (List.ofFn first)).seats (system.told links) := by
  have each : ∀ rank ∈ List.ofFn fun index => (system.threads index).rank, rank.Polled voter := by
    intro rank inside
    obtain ⟨index, rfl⟩ := List.mem_ofFn.mp inside
    exact polled index
  rw [Rank.sum_ready_eq_iff each]
  constructor
  · intro all id seat final posted there follows takes
    obtain ⟨index, owned⟩ := kept.slot_of_rested housing sound rested there follows
    exact all _ (List.mem_ofFn.mpr ⟨index, rfl⟩) _ (Rank.mem_slots_iff.mpr ⟨id, owned⟩) takes
  · intro all rank inside slot among takes
    obtain ⟨index, rfl⟩ := List.mem_ofFn.mp inside
    obtain ⟨id, owned⟩ := Rank.mem_slots_iff.mp among
    have there := kept.isSome_of_rested sound rested index id
    rw [owned] at there
    obtain ⟨seat, here⟩ := Option.isSome_iff_exists.mp there.symm
    obtain ⟨called, last, -, begun, now, through⟩ := kept.story housing (sound index) here
    rw [begun (rested.going index).1] at through
    have place := now (rested.going index).2
    rw [Rank.seats, owned] at place
    have ready := all id seat last _ ((Pool.seats_ofRanks housing.apart id seat).mpr ⟨index, here⟩)
      through
    rw [← Option.some.inj place] at ready
    exact ready takes

/-- Where the voter of some component takes part, the tallies tell so. -/
theorem Kept.participants_pos (kept : system.Kept plan links first)
    (housing : Housing links plan.ids count first)
    (sound : ∀ index, (system.threads index).Sound plan) (rested : system.Rested plan links)
    (polled : ∀ index, (system.threads index).rank.Polled voter)
    (contested : Contested voter links (Pool.ofRanks (List.ofFn first)).seats (system.told links)) :
    0 < ((List.ofFn fun index => (system.threads index).rank).map
      fun rank => rank.tally.participants).sum := by
  obtain ⟨id, seat, final, posted, there, follows, takes⟩ := contested
  obtain ⟨index, owned⟩ := kept.slot_of_rested housing sound rested there follows
  exact Rank.sum_participants_pos (List.mem_ofFn.mpr ⟨index, rfl⟩) (polled index)
    (Rank.mem_slots_iff.mpr ⟨id, owned⟩) takes

end System

namespace Simulation

variable {registry : Registry C} {options : Options} {topology : Topology} {clock moment : Instant}
  {journal : Journal} {simulation : Simulation C} {assembly : Assembly C} {filter : Filter}
  {schedule : List (Fin simulation.ranks.length)} {system : System C simulation.ranks.length}

/-- In every state of a run each rank has a place for each component. -/
theorem sizes_of_exec
    (built : (build registry options topology clock journal).2 = .ok simulation)
    (realizes : simulation.Realizes registry topology assembly)
    (reached : (simulation.launch filter).exec simulation.plan schedule = some system) :
    ∀ index, (system.threads index).rank.slots.size = topology.components.length := by
  exact System.exec_threads (P := fun _ thread => thread.rank.slots.size = topology.components.length)
    (fun _ _ _ _ _ before stepped => (Thread.calls_of_step stepped).size.trans before) reached
    (housing_of_build built realizes filter).size

/-- Where a run has not left its forecast, its ranks have dispatched no more messages than components
will receive. -/
theorem bounded_of_forecast
    (built : (build registry options topology clock journal).2 = .ok simulation)
    (realizes : simulation.Realizes registry topology assembly)
    (forecast : Forecast assembly.links simulation.places heard given)
    (ear : OneEar simulation.places)
    (calm : ∀ (state : C) context panic,
      (Component.finish state context).outcome ≠ .panicked panic) :
    simulation.Bounded filter
      (∑ id ∈ Finset.range topology.components.length, (heard id).length) := by
  rintro system ⟨schedule, reached⟩
  have kept := kept_of_exec built realizes reached
  have begins := (begins_of_exec built realizes forecast ear calm reached).2
  have taken : system.dispatched = _ :=
    Finset.sum_congr rfl fun index _ => (reports_of_exec built realizes reached index).count
  rw [taken, kept.flowing.addressed.length_taken (housing_of_build built realizes filter)]
  exact Finset.sum_le_sum fun id _ => (begins id).length_le

/-- Messages that wait are due when components will receive some. -/
theorem due_of_forecast {kind : Instant → Prop}
    (built : (build registry options topology clock journal).2 = .ok simulation)
    (realizes : simulation.Realizes registry topology assembly)
    (forecast : Forecast assembly.links simulation.places heard given)
    (ear : OneEar simulation.places)
    (calm : ∀ (state : C) context panic,
      (Component.finish state context).outcome ≠ .panicked panic)
    (early : ∀ id, ∀ entry ∈ heard id, kind entry.1) : simulation.Due filter kind := by
  rintro system ⟨schedule, reached⟩ index event inside
  have kept := kept_of_exec built realizes reached
  have housing := housing_of_build built realizes filter
  obtain ⟨fine, begins⟩ := begins_of_exec built realizes forecast ear calm reached
  let way : Way := ⟨event.payload.link, event.payload.arrival.opposite⟩
  obtain ⟨known, place⟩ := kept.flowing.addressed.pending index event inside
  have goal : simulation.plan.ids index = (way.far assembly.links).rank := by
    rw [Way.far, Side.opposite_opposite]
    exact place.symm
  obtain ⟨near, source⟩ := housing.placed way.link way.side known
  have gave : system.gave assembly.links (way.near assembly.links).component = _ :=
    System.gave_eq housing kept.flowing.addressed (housing.home known source.symm)
  -- What waits was handed to its link, and so will be received at the far end.
  have sent : event.entry ∈
      (system.gave assembly.links (way.near assembly.links).component).filter way.bears := by
    rw [gave, filter_comesFrom, ← way.sent_eq_filter,
      ← kept.flowing.conserved way near index source goal]
    exact List.mem_append_left _ (List.mem_append_right _
      (List.mem_filter.mpr ⟨List.mem_map_of_mem inside, way.bears_iff.mpr rfl⟩))
  have joined := housing.joined
  rw [seats_launch filter] at joined
  obtain ⟨seat, there⟩ := Option.isSome_iff_exists.mp (joined.owned way.link way.side known)
  have concord := kept.concord housing fun index => (fine index).sound
  rw [seats_launch filter] at concord
  have further := (forecast.gave_begins concord there (begins _)).filter way.bears
  have received : event.entry ∈
      (heard (way.far assembly.links).component).filter way.bears := by
    rw [forecast.closed way known]
    exact further.subset sent
  exact early _ _ (List.mem_filter.mp received).1

/-- A run without a limit that goes as forecast comes to an end since all voters are ready, and its report
tells the forecast. -/
theorem run_of_foretold
    (built : (build registry options topology clock journal).2 = .ok simulation)
    (realizes : simulation.Realizes registry topology assembly)
    (unlimited : options.limit = .unlimited)
    (foretold : Foretold voter assembly.links simulation.places heard given) (quiet : Quiet C)
    (ballot : Ballot voter) (polled : ∀ rank ∈ simulation.ranks, rank.Polled voter)
    (prompt : 2 ≤ simulation.ranks.length → simulation.Prompt filter) :
    (∃ fuel, simulation.run fuel filter moment ≠ none) ∧
      ∀ fuel result, simulation.run fuel filter moment = some result →
        ∃ report, result.outcome = .ok report ∧ report.reason = .allVotersReady ∧
          report.Sums assembly.links topology.components.length simulation.places heard given := by
  have safe : simulation.Safe filter := fun schedule system reached index =>
    ((begins_of_exec built realizes foretold.toForecast foretold.ear quiet.calm reached).1 index).sound
  have bounded : simulation.Bounded filter _ :=
    bounded_of_forecast built realizes foretold.toForecast foretold.ear quiet.calm
  refine ⟨run_terminates built realizes bounded prompt, fun fuel result runs => ?_⟩
  obtain ⟨turns, system, reason, reached, rested, explains, ends⟩ :=
    results_of_run built realizes unlimited quiet safe runs
  have kept := kept_of_exec built realizes reached
  have housing := housing_of_build built realizes filter
  have sound := safe turns system reached
  have begins := (begins_of_exec built realizes foretold.toForecast foretold.ear quiet.calm reached).2
  have counts := System.polled_of_exec reached ballot fun index =>
    (polled _ (List.get_mem simulation.ranks index)).of_same rfl rfl
  have joined := housing.joined
  have acts := kept.acts_of_rested housing sound rested
  have concord := kept.concord housing sound
  have votes := kept.allReady_iff housing sound rested counts
  have takes := kept.participants_pos housing sound rested counts
  have sums := kept.sums housing sound rested (reports_of_exec built realizes reached)
    (sizes_of_exec built realizes reached) (ranks_of_build built) reason
  rw [seats_launch filter] at joined acts concord votes takes sums
  -- At rest, components have received all that they will.
  have told : system.told assembly.links = heard := by
    have same : ∀ id seat, simulation.places id = some seat →
        system.told assembly.links id = heard id := by
      refine foretold.exact _ _ acts begins concord.received ?_
      cases reason with
      | allVotersReady => exact Or.inr (votes.mp explains.2)
      | eventsExhausted =>
        exact Or.inl (kept.closed_of_rested housing rested fun index =>
          explains.1 _ (List.mem_ofFn.mpr ⟨index, rfl⟩))
      | limitReached => exact absurd explains (Termination.not_explains_limitReached _)
    funext id
    cases there : simulation.places id with
    | some seat => exact same id seat there
    | none =>
      have nothing := begins id
      rw [foretold.eq_nil joined there] at nothing ⊢
      exact List.prefix_nil.mp nothing
  have ready : AllReady voter assembly.links simulation.places (system.told assembly.links) :=
    told ▸ foretold.ready
  refine ⟨_, ends, ?_, sums.congr joined told fun id seat there => ?_⟩
  · cases reason with
    | allVotersReady => rfl
    | eventsExhausted => exact absurd ⟨takes (told ▸ foretold.contested), votes.mpr ready⟩ explains.2
    | limitReached => exact absurd explains (Termination.not_explains_limitReached _)
  · obtain ⟨final, follows⟩ := acts id seat there
    obtain ⟨last, through⟩ := foretold.follows id seat there
    rw [told, through] at follows
    exact (Prod.mk.inj (Option.some.inj follows)).2.symm

end Simulation

end Rally
