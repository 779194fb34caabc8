import Rally.Proofs.Pool.LegalRuns
import Rally.Proofs.Pool.RunInvariants
import Rally.Proofs.Threads.WindowRemainders
/-!
# A run in windows is one around a pool

Where the ranks of a run wait for the decision to stop, none has failed, nothing is on its way
between them, and nothing that waits is due within the last window. So their calls, merged by time,
rank and position, are a legal run around one pool: it starts with the components before the run, and
ends with those of all ranks in front of their finish hooks, with what each link carried, and with
what waits on all ranks.
-/

namespace Rally

/-- The errors among the results of ranks. -/
def Windows.errors (results : List (Except RunError Termination)) : List RunError :=
  results.filterMap fun
    | .error error => some error
    | .ok _ => none

/-- The result of a run looks for errors first. -/
theorem Windows.verdict_eq (results : List (Except RunError Termination)) :
    verdict results =
      match (errors results).find? fun error => !isSecondary error with
      | some error => .error error
      | none =>
        match (errors results).getLast? with
        | some error => .error error
        | none =>
          .ok ((results.filterMap Except.toOption).getLast?.getD .eventsExhausted) := rfl

/-- Results tell a common reason where all of them are reasons alone. -/
theorem Windows.verdict_eq_ok {results : List (Except RunError Termination)}
    {reason : Termination} (ok : verdict results = .ok reason) :
    ∀ error, .error error ∉ results := by
  intro error inside
  have fails : error ∈ errors results := List.mem_filterMap.mpr ⟨_, inside, rfl⟩
  rw [verdict_eq] at ok
  cases found : (errors results).find? fun error => !isSecondary error with
  | some first =>
    simp only [found] at ok
    cases ok
  | none =>
    cases final : (errors results).getLast? with
    | some last =>
      simp only [found, final] at ok
      cases ok
    | none =>
      rw [List.getLast?_eq_none_iff.mp final] at fails
      cases fails

/-- A reason that is common to all results is what they tell. -/
theorem Windows.verdict_replicate (count : Nat) (reason : Termination) :
    verdict (List.replicate (count + 1) (.ok reason)) = .ok reason := by
  have fine : errors (List.replicate (count + 1) (.ok reason)) = [] := by
    rw [errors, List.filterMap_eq_nil_iff]
    intro result inside
    rw [List.eq_of_mem_replicate inside]
  have reasons : (List.replicate (count + 1) (Except.ok reason)).filterMap
      (@Except.toOption RunError Termination) = List.replicate (count + 1) reason :=
    List.filterMap_replicate_of_some rfl
  rw [verdict_eq, fine, reasons, List.getLast?_replicate]
  rfl

/-- Ranks whose results tell a reason have decided to stop for it. -/
theorem Windows.stop_of_verdict {C : Type} [Component C] {workers : List (Worker C)}
    {common : Decision} {windows : Nat} {reason : Termination} (long : 0 < workers.length)
    (ok : verdict ((workers.map (conclude common windows)).map Prod.snd) = .ok reason) :
    common = .stop reason := by
  obtain ⟨first, inside⟩ := List.exists_mem_of_length_pos long
  have fine : ∀ worker ∈ workers, ∀ error, (conclude common windows worker).2 ≠ .error error := by
    intro worker there error fails
    refine verdict_eq_ok ok error ?_
    rw [List.map_map, ← fails]
    exact List.mem_map_of_mem (f := Prod.snd ∘ conclude common windows) there
  cases common with
  | proceed later => exact absurd rfl (fine first inside _)
  | abort => exact absurd rfl (fine first inside _)
  | stop other =>
    have all : ∀ worker ∈ workers, (conclude (.stop other) windows worker).2 = .ok other := by
      intro worker there
      have good := fine worker there
      rw [conclude, Worker.finish] at good ⊢
      cases called : (worker.note .debug
          ["stopping after ", toString windows, " windows: ", other.message]).rank.finish with
      | mk rank halt =>
        cases halt with
        | none => rfl
        | some halt =>
          simp only [called] at good
          exact absurd rfl (good _)
    have same : (workers.map (conclude (.stop other) windows)).map Prod.snd =
        List.replicate workers.length (.ok other) := by
      rw [List.map_map, List.eq_replicate_iff]
      refine ⟨List.length_map _, fun found inside => ?_⟩
      obtain ⟨worker, there, rfl⟩ := List.mem_map.mp inside
      exact all worker there
    obtain ⟨count, size⟩ := Nat.exists_eq_succ_of_ne_zero long.ne'
    rw [same, size, verdict_replicate] at ok
    rw [Except.ok.inj ok]

variable {C : Type} {n : Nat} {plan : Plan n} {links : Array Link}

namespace Pool

/-- The components of several ranks in one pool. -/
theorem seats_ofRanks {ranks : Fin n → Rank C}
    (apart : ∀ index other id, ((ranks index).seats id).isSome → ((ranks other).seats id).isSome →
      index = other) (id : ComponentId) (seat : Seat C) :
    (ofRanks (List.ofFn ranks)).seats id = some seat ↔
      ∃ index, (ranks index).seats id = some seat := by
  change (List.ofFn ranks).findSome? (fun rank => rank.seats id) = some seat ↔ _
  constructor
  · intro found
    obtain ⟨rank, inside, there⟩ := List.exists_of_findSome?_eq_some found
    obtain ⟨index, rfl⟩ := List.mem_ofFn.mp inside
    exact ⟨index, there⟩
  · rintro ⟨index, there⟩
    cases found : (List.ofFn ranks).findSome? fun rank => rank.seats id with
    | none =>
      have missing := List.findSome?_eq_none_iff.mp found (ranks index) (List.mem_ofFn.mpr ⟨index, rfl⟩)
      cases missing.symm.trans there
    | some other =>
      obtain ⟨rank, inside, here⟩ := List.exists_of_findSome?_eq_some found
      obtain ⟨place, rfl⟩ := List.mem_ofFn.mp inside
      obtain rfl := apart place index id (by rw [here]; rfl) (by rw [there]; rfl)
      rw [← here, there]

/-- The messages of several ranks in one pool. -/
theorem waiting_ofRanks (ranks : Fin n → Rank C) :
    (ofRanks (List.ofFn ranks)).waiting =
      (List.finRange n).flatMap fun index => (ranks index).pending.inOrder.map Scheduled.entry := by
  change (List.ofFn ranks).flatMap (fun rank => rank.pending.inOrder.map Scheduled.entry) = _
  rw [List.ofFn_eq_map, List.flatMap_map]

/-- The links of several ranks in one pool. -/
theorem links_ofRanks {ranks : Fin n → Rank C} (some : 0 < n)
    (known : ∀ index, (ranks index).links = links) : (ofRanks (List.ofFn ranks)).links = links := by
  obtain ⟨count, rfl⟩ := Nat.exists_eq_succ_of_ne_zero some.ne'
  change ((List.ofFn ranks).head?.map Rank.links).getD #[] = links
  rw [List.ofFn_succ]
  exact known 0

/-- The traffic of several ranks in one pool. -/
theorem traffic_ofRanks {ranks : Fin n → Rank C} {histories : Fin n → List Deed} (some : 0 < n)
    (counted : ∀ index, (ranks index).Counted links (histories index)) :
    (ofRanks (List.ofFn ranks)).traffic = tallied links (flowOf
      ((List.finRange n).flatMap fun index => postedOf links (histories index))
      ((List.finRange n).flatMap fun index => takenOf (histories index))) := by
  obtain ⟨count, rfl⟩ := Nat.exists_eq_succ_of_ne_zero some.ne'
  change (List.ofFn ranks).foldl (fun sum rank => Report.mergeTraffic sum rank.traffic.toList) [] = _
  have each : (fun (sum : List Traffic) index =>
      Report.mergeTraffic sum (ranks index).traffic.toList) = fun sum index =>
        Report.mergeTraffic sum (tallied links
          (flowOf (postedOf links (histories index)) (takenOf (histories index)))) := by
    funext sum index
    rw [counted index]
  rw [List.ofFn_eq_map, List.foldl_map, each, List.finRange_succ]
  exact foldl_tallied _ _ _ _

end Pool

/-- How the ranks of a run fit together before the run. -/
structure Fitting (links : Array Link) (ids : Fin n → RankId) (count : Nat)
    (first : Fin n → Rank C) : Prop where
  /-- Every rank has a place for each component. -/
  size : ∀ index, (first index).slots.size = count
  /-- No component is on two ranks. -/
  apart : ∀ index other id, ((first index).seats id).isSome → ((first other).seats id).isSome →
    index = other
  /-- Every component is on some rank. -/
  owned : ∀ id < count, ∃ index, ((first index).seats id).isSome
  /-- A message to another rank takes some time. -/
  positive : ∀ way : Way, way.link < links.size →
    (way.near links).rank ≠ (way.far links).rank → Duration.zero < way.latency links

/-- Whether ranks wait for the decision behind a window that ends at an instant: none of them has
failed, and nothing is on its way between them. -/
structure System.Rests (plan : Plan n) (bound : Instant) (system : System C n) : Prop where
  /-- No rank is alone. -/
  among : plan.alone = false
  /-- Every thread has published its status. -/
  waits : ∀ index, (system.threads index).phase.hasPublished
  /-- The channels are empty. -/
  channels : ∀ index, system.channels index = []
  /-- No rank has failed. -/
  healthy : ∀ index, (system.threads index).worker.failure = none
  /-- The window ends for all of them at the instant. -/
  ends : ∀ index, plan.bound (system.threads index).start = some bound

namespace System.Rests

variable {system : System C n} {bound : Instant}

/-- Threads that wait for a decision are behind their window, and go on. -/
theorem outside (rests : system.Rests plan bound) (index : Fin n) :
    ¬ (system.threads index).phase.inWindow ∧ ¬ (system.threads index).phase.isOver :=
  ⟨fun window => Phase.not_hasPublished_of_inWindow window (rests.waits index),
    fun gone => Phase.not_hasPublished_of_isOver gone (rests.waits index)⟩

/-- They have called all setup hooks. -/
theorem not_isStarting (rests : system.Rests plan bound) (index : Fin n) :
    ¬ (system.threads index).phase.isStarting := fun starting =>
  (rests.outside index).1 (Phase.inWindow_of_isStarting starting)

/-- None of them has failed. -/
theorem sound (rests : system.Rests plan bound) (index : Fin n) :
    (system.threads index).Sound plan :=
  ⟨rests.healthy index, fun alone => by rw [rests.among] at alone; cases alone⟩

/-- They have nothing to post, and have taken nothing from their channel. -/
theorem nowhere (rests : system.Rests plan bound) {index : Fin n}
    (onTime : (system.threads index).OnTime plan) :
    (system.threads index).unsent = [] ∧ (system.threads index).taken = [] := by
  have empty := onTime.emptied (rests.outside index).1 (rests.outside index).2 (rests.healthy index)
  have waits := rests.waits index
  rw [Thread.unsent, Thread.taken]
  cases phase : (system.threads index).phase with
  | posting rest | draining rest =>
    rw [phase] at waits
    exact waits.elim
  | _ => exact ⟨by rw [empty]; rfl, rfl⟩

end System.Rests

/-- What the history of a rank hands to links is posted at near ends that are placed on it. -/
theorem near_of_postedOf {id : RankId} {deeds : List Deed}
    (sited : ∀ deed ∈ deeds, deed.Sited links id) :
    ∀ entry ∈ postedOf links deeds, entry.2.link < links.size ∧
      (Way.near ⟨entry.2.link, entry.2.arrival.opposite⟩ links).rank = id := by
  intro entry inside
  obtain ⟨deed, there, handed⟩ := List.mem_filterMap.mp inside
  have sited := sited deed there
  cases deed with
  | handed link side handing =>
    obtain ⟨known, place⟩ := sited
    cases handed
    refine ⟨known, ?_⟩
    rw [Way.post, Way.near, Side.opposite_opposite, place]
  | _ => cases handed

section Hooks

variable [Component C] {system : System C n} {first : Fin n → Rank C} {count : Nat}

namespace Thread.Replays

variable {thread : Thread C} {id : RankId} {before : Rank C} {visits : List Visit}

/-- The visits on a rank lead to its components as long as it goes on. -/
theorem leads (replays : thread.Replays links id before visits) (going : ¬ thread.phase.isOver) :
    Path links before.seats visits thread.rank.seats := by
  obtain ⟨last, path, there⟩ := replays.path
  rw [there going]
  exact path

/-- Behind all setups the visits are those, and one for each event that is taken. -/
theorem causes_eq (replays : thread.Replays links id before visits)
    (further : ¬ thread.phase.isStarting) :
    visits.map Visit.cause = setupsOf before.seats (List.range before.slots.size) ++
      (takenBy visits).map .event := by
  obtain ⟨entries, same⟩ := replays.begun.whole further
  have taken : takenBy visits = entries := by
    rw [takenBy_eq, same, flatMap_taken]
  rw [taken]
  exact same

end Thread.Replays

/-- The ensemble of the visits on ranks that wait for a decision. -/
def System.Kept.ensemble (kept : system.Kept plan links first) (covers : plan.Covers links)
    (distinct : Function.Injective plan.ids) (fitting : Fitting links plan.ids count first)
    {bound : Instant} (rests : system.Rests plan bound) (spent : system.Spent plan)
    (visits : Fin n → List Visit) (replays : ∀ index,
      (system.threads index).Replays links (plan.ids index) (first index) (visits index)) :
    Ensemble C n where
  links
  ids := plan.ids
  count
  first := fun index => (first index).seats
  visits
  last := fun index => (system.threads index).rank.seats
  remains := fun index => (system.threads index).rank.pending.inOrder.map Scheduled.entry
  bound
  distinct
  apart := fitting.apart
  owned := fitting.owned
  path := fun index => (replays index).leads (rests.outside index).2
  begun := fun index => by
    rw [← fitting.size index]
    exact (replays index).causes_eq (rests.not_isStarting index)
  placed := fun way known =>
    ⟨covers.placed_at known way.side, covers.placed_at known way.side.opposite⟩
  positive := fitting.positive
  posted := fun index => by
    rw [← (replays index).posted]
    exact near_of_postedOf (kept.flowing.addressed.deeds index)
  taken := fun index entry inside => by
    rw [← (replays index).taken] at inside
    exact Way.isFor_of_dispatched (kept.flowing.addressed.deeds index) inside
  held := fun index entry inside => by
    obtain ⟨event, there, rfl⟩ := List.mem_map.mp inside
    exact kept.flowing.addressed.pending index event there
  conserved := fun way near far source goal => by
    have whole := kept.flowing.conserved way near far source goal
    rw [System.passed, System.lane, System.inbound,
      (rests.nowhere (kept.steady.threads far)).2, (rests.nowhere (kept.steady.threads near)).1,
      rests.channels far, way.sent_eq_filter, way.arrived_eq_filter, (replays far).taken,
      (replays near).posted, Way.waiting] at whole
    rw [List.filter_append]
    simpa only [List.append_nil, List.filter_nil, List.map_nil] using whole
  causal := fun index => (replays index).causal
  ascending := fun index => by
    rw [← (replays index).taken, takenOf, List.pairwise_map]
    exact (kept.steady.threads index).chronicle.ascending
  early := fun index entry inside => by
    rw [← (replays index).taken, takenOf, List.mem_map] at inside
    obtain ⟨event, there, rfl⟩ := inside
    exact (kept.steady.threads index).early event there bound (rests.ends index)
  late := fun index entry inside => by
    obtain ⟨event, there, rfl⟩ := List.mem_map.mp inside
    exact spent.windows index (rests.healthy index) (rests.outside index).1 (rests.outside index).2
      bound (rests.ends index) event there

/-- The visits of ranks that wait for a decision behind a window, with nothing on its way, are a legal
run around one pool. -/
theorem System.Kept.legal (kept : system.Kept plan links first) (covers : plan.Covers links)
    (distinct : Function.Injective plan.ids) (some : 0 < n)
    (fitting : Fitting links plan.ids count first)
    (waits : ∀ index, (system.threads index).phase.hasPublished)
    (channels : ∀ index, system.channels index = [])
    (healthy : ∀ index, (system.threads index).worker.failure = none)
    (among : plan.alone = false) (spent : system.Spent plan) {bound : Instant}
    (ends : ∀ index, plan.bound (system.threads index).start = Option.some bound)
    {before : Pool C} (seats : ∀ id seat, before.seats id = Option.some seat ↔
      ∃ index, (first index).seats id = Option.some seat) (known : before.links = links)
    (nothing : before.waiting = []) (uncounted : before.traffic = tallied links (flowOf [] [])) :
    ∃ begun last, before.setupAll? (List.range count) = Option.some begun ∧
      begun.Runs ((mergedCalls plan.ids fun index =>
        takenOf (system.threads index).history).map Call.entry) last ∧
      last.Alike (Pool.ofRanks (List.ofFn fun index => (system.threads index).rank)) := by
  have rests : system.Rests plan bound := ⟨among, waits, channels, healthy, ends⟩
  choose visits replays using fun index => kept.replayed index (rests.sound index)
  have still (index : Fin n) (id : ComponentId) :
      ((system.threads index).rank.seats id).isSome = ((first index).seats id).isSome :=
    ((replays index).leads (rests.outside index).2).isSome_eq id
  have apart : ∀ index other id, ((system.threads index).rank.seats id).isSome →
      ((system.threads other).rank.seats id).isSome → index = other := by
    intro index other id here there
    rw [still] at here there
    exact fitting.apart index other id here there
  have traffic := Pool.traffic_ofRanks some kept.counted
  simp only [(replays _).posted, (replays _).taken] at traffic
  obtain ⟨begun, last, setups, runs, alike⟩ :=
    (kept.ensemble covers distinct fitting rests spent visits replays).legal seats known nothing
      uncounted (Pool.seats_ofRanks apart) (Pool.links_ofRanks some kept.steady.wired.links)
      (Pool.waiting_ofRanks _) traffic
  refine ⟨begun, last, setups, ?_, alike⟩
  simp only [(replays _).taken]
  exact runs

/-- Whether what ranks did, merged by time, rank and position, is a legal run around one pool that ends
like some ranks: with the states of their components, the counters of the links, and what waits. -/
def System.Linearizes (plan : Plan n) (count : Nat) (before : Pool C) (behind : List (Rank C))
    (system : System C n) : Prop :=
  ∃ begun last, before.setupAll? (List.range count) = some begun ∧
    begun.Runs ((mergedCalls plan.ids fun index =>
      takenOf (system.threads index).history).map Call.entry) last ∧
    last.Alike (Pool.ofRanks behind)

namespace Simulation

variable {registry : Registry C} {options : Options} {topology : Topology} {clock : Instant}
  {journal : Journal} {simulation : Simulation C} {assembly : Assembly C}

omit [Component C] in
/-- The ranks of a simulation fit together. -/
theorem fitting_of_build
    (built : (build registry options topology clock journal).2 = .ok simulation)
    (realizes : simulation.Realizes registry topology assembly) (filter : Filter) :
    Fitting assembly.links simulation.plan.ids topology.components.length fun index =>
      ((simulation.launch filter).threads index).rank := by
  have spreads := spreads_of_build built
  have seats (index : Fin simulation.ranks.length) (id : ComponentId) :
      (((simulation.launch filter).threads index).rank.seats id).isSome =
        ((simulation.ranks.get index).slot? id).isSome := Option.isSome_map
  refine ⟨fun index => spreads.size (simulation.ranks.get index) (List.get_mem _ _), fun index other id here there => ?_,
    fun id known => ?_, fun way known differ => ?_⟩
  · rw [seats] at here there
    exact ids_injective built
      (spreads.apart _ (List.get_mem _ _) _ (List.get_mem _ _) id here there)
  · obtain ⟨rank, inside, owned⟩ := spreads.owned id known
    obtain ⟨index, rfl⟩ := List.mem_iff_get.mp inside
    exact ⟨index, by rw [seats]; exact owned⟩
  · obtain ⟨spec, -, joins⟩ := related_of_getElem? realizes.follows.joined (getElem?_links known)
    have latency := joins.positive (Link.crossesRanks_of_ne (Ne.symm differ))
    exact lt_of_le_of_ne (Duration.zero_le _) (Ne.symm latency)

/-- A run on several ranks that comes to a good end waits for the decision to stop before, with
nothing on its way. -/
theorem settles_of_complete
    (built : (build registry options topology clock journal).2 = .ok simulation)
    (several : 2 ≤ simulation.ranks.length) {filter : Filter}
    {schedule : List (Fin simulation.ranks.length)}
    {system : System C simulation.ranks.length}
    (reached : (simulation.launch filter).exec simulation.plan schedule = some system)
    (complete : system.Complete) {reason : Termination}
    (ok : system.verdict? = some (.ok reason)) :
    ∃ fuel workers windows turns middle,
      Windows.run simulation.lookahead fuel 0 Instant.zero
        ((simulation.ranks.map (logged filter)).map Worker.ofRank) =
          some (workers, .stop reason, windows) ∧
      (List.ofFn fun index => (system.threads index).rank) =
        workers.map (fun worker => (worker.finish windows reason).1.rank) ∧
      (simulation.launch filter).exec simulation.plan turns = some middle ∧
      middle.Settled windows workers system.histories ∧
      decision (workers.map Worker.status) = .stop reason := by
  obtain ⟨-, ⟨verdict, told, ran⟩, -⟩ := ends_of_complete built several reached complete
  obtain rfl : verdict = .ok reason := Option.some.inj (told.symm.trans ok)
  obtain ⟨workers, common, windows, runs, ranks, result⟩ := exists_run_of_runWindows ran
  have long : 0 < workers.length := by
    have same := congrArg List.length ranks
    rw [List.length_map, List.length_map, List.length_ofFn] at same
    omega
  obtain rfl := Windows.stop_of_verdict long result.symm
  obtain ⟨begun, count, starts, opened, launched, told⟩ := reaches_opened built several filter
  rw [← launched] at runs
  obtain ⟨middle, more, onward, settled, decided, leaves⟩ :=
    opened.reaches_settled (alone_plan several) (ids_injective built) runs
  rw [decided] at leaves
  obtain ⟨final, behind, ahead, concluded⟩ :=
    @System.Settled.concludes _ _ simulation.plan _ _ _ _ _ settled leaves
  obtain ⟨turns, -, arrives⟩ := starts.trans onward
  obtain ⟨rest, -, goes⟩ := (starts.trans onward).trans ahead
  have threads := threads_eq_of_complete built several reached complete goes concluded.complete
  have histories : system.histories = final.histories := by
    rw [System.histories, System.histories, threads]
  refine ⟨_, workers, windows, turns, middle, launched ▸ runs, ?_, arrives, ?_, decided.symm⟩
  · rw [ranks, List.map_map]
    rfl
  · rw [histories, concluded.histories]
    exact settled

omit [Component C] in
/-- Where a link joins two ranks, settled threads are behind the same window, which has an end. -/
theorem exists_bound {middle : System C simulation.ranks.length} {ledger : List (List RankStatus)}
    {round : Nat} {workers : List (Worker C)} {deeds : List (List Deed)}
    (realizes : simulation.Realizes registry topology assembly)
    (several : 2 ≤ simulation.ranks.length)
    (crossing : ∃ rank ∈ simulation.ranks, ∃ link ∈ rank.links.toList, link.crossesRanks = true)
    (recorded : middle.Recorded ledger) (settled : middle.Settled round workers deeds) :
    ∃ bound, ∀ index, simulation.plan.bound (middle.threads index).start = some bound := by
  obtain ⟨lookahead, known⟩ : ∃ lookahead, simulation.plan.lookahead = some lookahead := by
    obtain ⟨rank, inside, link, there, crosses⟩ := crossing
    rw [realizes.links rank inside] at there
    change ∃ lookahead, simulation.lookahead = some lookahead
    rw [realizes.lookahead]
    exact (lookaheadOf_le there crosses).imp fun _ => And.left
  refine ⟨(startBehind (ledger.take round)).saturatingAdd lookahead, fun index => ?_⟩
  rw [recorded.start_eq index, settled.rounds, Plan.bound, alone_plan several,
    if_neg Bool.false_ne_true, known]
  rfl

omit [Component C] in
/-- Before a run nothing waits around the pool of all ranks, and nothing has been counted. -/
theorem pool_launch (built : (build registry options topology clock journal).2 = .ok simulation)
    (realizes : simulation.Realizes registry topology assembly) (filter : Filter)
    (some : 0 < simulation.ranks.length) :
    let ranks := fun index => logged filter (simulation.ranks.get index)
    (Pool.ofRanks (List.ofFn ranks)).waiting = [] ∧
      (Pool.ofRanks (List.ofFn ranks)).traffic = tallied assembly.links (flowOf [] []) := by
  have fresh (index : Fin simulation.ranks.length) :
      (logged filter (simulation.ranks.get index)).pending = {} :=
    (fresh_of_build built (List.get_mem _ index)).pending
  have counted (index : Fin simulation.ranks.length) :
      (logged filter (simulation.ranks.get index)).Counted assembly.links [] :=
    counted_launch built realizes filter index
  constructor
  · rw [Pool.waiting_ofRanks, List.flatMap_eq_nil_iff]
    intro index _
    rw [fresh, EventSet.inOrder_empty]
    rfl
  · rw [Pool.traffic_ofRanks some counted]
    exact congrArg _ (congrArg₂ _ (List.flatMap_eq_nil_iff.mpr fun _ _ => rfl)
      (List.flatMap_eq_nil_iff.mpr fun _ _ => rfl))

/-- What the ranks of a simulation do in a run in windows that comes to a good end is, merged by time,
rank and position, a legal run around one pool: it starts with the components of the simulation, and
ends with those that the ranks have in front of their finish hooks, with the counters of their links
and with all that waits on them. -/
theorem linearizes_of_exec
    (built : (build registry options topology clock journal).2 = .ok simulation)
    (several : 2 ≤ simulation.ranks.length)
    (crossing : ∃ rank ∈ simulation.ranks, ∃ link ∈ rank.links.toList, link.crossesRanks = true)
    (unlimited : options.limit = .unlimited) {filter : Filter}
    {schedule : List (Fin simulation.ranks.length)}
    {system : System C simulation.ranks.length}
    (reached : (simulation.launch filter).exec simulation.plan schedule = some system)
    (complete : system.Complete) {reason : Termination}
    (ok : system.verdict? = some (.ok reason)) :
    ∃ fuel workers windows,
      Windows.run simulation.lookahead fuel 0 Instant.zero
        ((simulation.ranks.map (logged filter)).map Worker.ofRank) =
          some (workers, .stop reason, windows) ∧
      (List.ofFn fun index => (system.threads index).rank) =
        workers.map (fun worker => (worker.finish windows reason).1.rank) ∧
      system.Linearizes simulation.plan topology.components.length
        (Pool.ofRanks (simulation.ranks.map (logged filter))) (workers.map Worker.rank) := by
  obtain ⟨assembly, realizes⟩ := realizes_of_build built
  obtain ⟨fuel, workers, windows, turns, middle, runs, ranks, arrives, settled, decided⟩ :=
    settles_of_complete built several reached complete ok
  refine ⟨fuel, workers, windows, runs, ranks, ?_⟩
  have kept := kept_of_exec built realizes arrives
  obtain ⟨timely, spent⟩ := spent_of_exec built several unlimited realizes arrives
  obtain ⟨ledger, recorded, -⟩ := timely.punctual
  obtain ⟨bound, ends⟩ := exists_bound realizes several crossing recorded settled
  have histories : (fun index => takenOf (middle.threads index).history) =
      fun index => takenOf (system.threads index).history := by
    funext index
    exact congrArg takenOf (congrFun (List.ofFn_injective settled.histories) index)
  have before : simulation.ranks.map (logged filter) =
      List.ofFn fun index => logged filter (simulation.ranks.get index) := by
    rw [← Function.comp_def (logged filter), ← List.map_ofFn, List.ofFn_get]
  have behind : workers.map Worker.rank =
      List.ofFn fun index => (middle.threads index).rank := by
    rw [← settled.workers, System.workers, List.map_ofFn]
    rfl
  have fitting := fitting_of_build built realizes filter
  obtain ⟨nothing, uncounted⟩ := pool_launch built realizes filter (by omega)
  rw [System.Linearizes, before, behind, ← histories]
  exact kept.legal realizes.covers (ids_injective built) (by omega) fitting
    (fun index => by rw [settled.phase]; trivial) settled.channels
    (settled.healthy (decision_eq_stop decided)) (alone_plan several) spent ends
    (Pool.seats_ofRanks fitting.apart)
    (Pool.links_ofRanks (by omega) fun index =>
      realizes.links (simulation.ranks.get index) (List.get_mem _ _)) nothing uncounted

/-- The calls of two players on a rank each. -/
theorem linearizes_of_exec_relayChain :
    ∃ (simulation : Simulation Player) (schedule : List (Fin simulation.ranks.length))
      (system : System Player simulation.ranks.length) (fuel windows : Nat)
      (workers : List (Worker Player)),
      (build (Registry.builtin id) {} (.relayChain [(.initiator, 0), (.responder, 1)] 1)
        Instant.zero ⟨Filter.off, #[]⟩).2 = .ok simulation ∧
      (simulation.launch Filter.off).exec simulation.plan schedule = some system ∧
      Windows.run simulation.lookahead fuel 0 Instant.zero
        ((simulation.ranks.map (logged Filter.off)).map Worker.ofRank) =
          some (workers, .stop .allVotersReady, windows) ∧
      (List.ofFn fun index => (system.threads index).rank) =
        workers.map (fun worker => (worker.finish windows .allVotersReady).1.rank) ∧
      system.Linearizes simulation.plan 2
        (Pool.ofRanks (simulation.ranks.map (logged Filter.off))) (workers.map Worker.rank) := by
  have ends : ((build (Registry.builtin id : Registry Player) {}
      (.relayChain [(.initiator, 0), (.responder, 1)] 1) Instant.zero
      ⟨Filter.off, #[]⟩).2.toOption.map fun simulation => (simulation.ranks.length,
        simulation.ranks.any fun rank => rank.links.toList.any Link.crossesRanks,
        (runWindows 8 simulation.lookahead
          (simulation.ranks.map (logged Filter.off))).map fun (_, reason) => reason.toOption)) =
      some (2, true, some (some .allVotersReady)) := by
    decide +kernel
  cases built : (build (Registry.builtin id : Registry Player) {}
      (.relayChain [(.initiator, 0), (.responder, 1)] 1) Instant.zero ⟨Filter.off, #[]⟩).2 with
  | error problem =>
    rw [built] at ends
    cases ends
  | ok simulation =>
    rw [built] at ends
    simp only [Except.toOption, Option.map_some, Option.some.injEq, Prod.mk.injEq] at ends
    obtain ⟨two, crosses, result⟩ := ends
    obtain ⟨⟨ranks, verdict⟩, runs, good⟩ := Option.map_eq_some_iff.mp result
    have finite : runWindows 8 simulation.lookahead (simulation.ranks.map (logged Filter.off)) ≠
        none := by
      rw [runs]
      exact Option.some_ne_none _
    obtain ⟨system, count, ⟨schedule, -, reached⟩, ended⟩ := reaches_ends built two.ge finite
    obtain ⟨outcome, told, same⟩ := ended.outcome
    have ok : system.verdict? = some (.ok .allVotersReady) := by
      have equal : some (ranks, verdict) = some (_, outcome) := runs.symm.trans same
      rw [told, ← (Prod.mk.inj (Option.some.inj equal)).2]
      cases verdict with
      | error problem => cases good
      | ok reason => rw [Option.some.inj good]
    obtain ⟨rank, inside, crosses⟩ := List.any_eq_true.mp crosses
    obtain ⟨fuel, workers, windows, holds⟩ := linearizes_of_exec built two.ge
      ⟨rank, inside, List.any_eq_true.mp crosses⟩ rfl reached ended.complete ok
    exact ⟨simulation, schedule, system, fuel, windows, workers, rfl, reached, holds⟩

end Simulation

end Hooks

end Rally
