import Rally.Proofs.Pool.Determinacy
/-!
# Where components are placed makes no difference

A topology may be placed on any ranks, and run under any limit. Where its components make no use of
their ranks but for what a likeness ignores, and receive at one port only, then in all runs that come to
a good end each component handles the same messages at the same times, as far as both runs go, and
behind as many messages its state is the same.
-/

namespace Rally

variable {C : Type} {n m : Nat}

/-- What a deed tells about a message that the component of a position handled. -/
def Deed.handled? (id : ComponentId) : Deed → Option Arrival
  | dispatched _ arrival => if arrival.component = id then some arrival else none
  | _ => none

namespace System

/-- The messages that the component of a position handled, with their times and ports. -/
def handled (id : ComponentId) (system : System C n) : List Arrival :=
  (List.finRange n).flatMap fun index =>
    (system.threads index).history.filterMap (Deed.handled? id)

/-- The state of the component of a position. -/
def component? (id : ComponentId) (system : System C n) : Option C :=
  (List.finRange n).findSome? fun index =>
    ((system.threads index).rank.slot? id).map Slot.component

/-- Whether the rank of a component has called its setup hooks and none of its finish hooks. -/
def Plays (id : ComponentId) (system : System C n) : Prop :=
  ∀ index, ((system.threads index).rank.slot? id).isSome →
    ¬ (system.threads index).phase.isStarting ∧ ¬ (system.threads index).phase.isOver

end System

/-- Whether two components handled messages that are alike. -/
structure Likeness.Arrivals (like : Likeness C) (arrival other : Arrival) : Prop where
  /-- They have the same position. -/
  component : arrival.component = other.component
  /-- The messages arrived at the same port. -/
  port : arrival.port = other.port
  /-- They did so at the same time. -/
  now : arrival.now = other.now
  /-- They are alike. -/
  message : like.message arrival.message other.message

/-- Whether the component of a position does the same in two runs: as far as both of them go it handles
the same messages, and behind as many messages its state is the same. -/
structure System.Agrees (like : Likeness C) (id : ComponentId) (system : System C n)
    (other : System C m) : Prop where
  /-- The messages handled in the one run are the first ones handled in the other. -/
  handled : (∃ part, part <+: other.handled id ∧ List.Forall₂ like.Arrivals (system.handled id) part) ∨
    ∃ part, part <+: system.handled id ∧ List.Forall₂ like.Arrivals part (other.handled id)
  /-- Behind as many messages the states are alike. -/
  states : system.Plays id → other.Plays id →
    (system.handled id).length = (other.handled id).length → ∀ state also,
      system.component? id = some state → other.component? id = some also → like.state id state also

/-- How the component at the end of a link reads an event that arrives there. -/
def readBy (links : Array Link) (entry : Instant × Delivery) : Arrival :=
  ⟨(entry.2.goal links).component, (entry.2.goal links).port, entry.1, entry.2.message⟩

variable {plan : Plan n} {links others : Array Link} {system : System C n}

/-- What a component handled is what was dispatched to it. -/
theorem System.Addressed.handled_eq (addressed : system.Addressed plan links) (id : ComponentId) :
    system.handled id = (system.told links id).map (readBy links) := by
  have each (deeds : List Deed) (index : Fin n)
      (sited : ∀ deed ∈ deeds, deed.Sited links (plan.ids index)) :
      deeds.filterMap (Deed.handled? id) =
        ((takenOf deeds).filter (goesTo links id)).map (readBy links) := by
    induction deeds with
    | nil => rfl
    | cons deed rest ih =>
      have behind := ih fun other inside => sited other (List.mem_cons_of_mem _ inside)
      have here := sited deed List.mem_cons_self
      cases deed with
      | dispatched event arrival =>
        obtain ⟨-, place, now, message⟩ := here
        have taken : takenOf (.dispatched event arrival :: rest) = event.entry :: takenOf rest :=
          rfl
        have goal : event.entry.2.goal links = ⟨arrival.component, arrival.port, plan.ids index⟩ :=
          place
        rw [taken]
        by_cases same : arrival.component = id
        · have goes : goesTo links id event.entry = true := by
            rw [goesTo, goal, beq_iff_eq]
            exact same
          have told : Deed.handled? id (.dispatched event arrival) = some arrival := if_pos same
          have reads : readBy links event.entry = arrival := by
            rw [readBy, goal, Scheduled.entry, ← now, ← message]
          rw [List.filterMap_cons_some told, List.filter_cons_of_pos goes, List.map_cons, reads,
            behind]
        · have goes : ¬ goesTo links id event.entry = true := by
            rw [goesTo, goal, beq_iff_eq]
            exact same
          have told : Deed.handled? id (.dispatched event arrival) = none := if_neg same
          rw [List.filterMap_cons_none told, List.filter_cons_of_neg goes, behind]
      | _ => exact behind
  rw [System.handled, System.told, List.filter_flatMap, List.map_flatMap]
  exact List.flatMap_congr fun index _ => each _ index (addressed.deeds index)

/-- Events that are alike are read alike, wherever the ends of links are placed. -/
theorem Likeness.Entries.arrivals {like : Likeness C} (parallel : Parallel links others)
    {entry other : Instant × Delivery} (alike : like.Entries entry other) :
    like.Arrivals (readBy links entry) (readBy others other) := by
  refine ⟨?_, ?_, alike.time, alike.message⟩
  · rw [readBy, readBy, Delivery.goal, Delivery.goal, alike.link, alike.arrival]
    exact parallel.component _ _
  · rw [readBy, readBy, Delivery.goal, Delivery.goal, alike.link, alike.arrival]
    exact parallel.port _ _

/-- Where a run comes to a good end, so do all its threads. -/
theorem System.ended_of_verdict {reason : Termination}
    (ok : system.verdict? = some (.ok reason)) (index : Fin n) :
    ∃ common, (system.threads index).phase = .ended (.ok common) := by
  obtain ⟨results, all, verdict⟩ := Option.map_eq_some_iff.mp ok
  obtain ⟨position, there⟩ := List.mem_iff_getElem?.mp
    (List.mem_ofFn.mpr ⟨index, rfl⟩ : system.threads index ∈ List.ofFn system.threads)
  obtain ⟨result, found, told⟩ := related_of_getElem? (related_of_mapM all).flip there
  have inside := List.mem_of_getElem? found
  have fine := Windows.verdict_eq_ok verdict
  rw [Thread.result?] at told
  cases phase : (system.threads index).phase with
  | ended outcome =>
    simp only [phase, Option.some.injEq] at told
    cases outcome with
    | ok common => exact ⟨common, rfl⟩
    | error halt =>
      rw [← told] at inside
      exact absurd inside (fine _)
  | _ =>
    simp only [phase] at told
    cases told

section Hooks

variable [Component C]

omit [Component C] in
/-- Where a run comes to a good end, no thread has failed. -/
theorem System.sound_of_verdict (upright : ∀ index, (system.threads index).Upright plan)
    {reason : Termination} (ok : system.verdict? = some (.ok reason)) :
    ∀ index, (system.threads index).Sound plan := by
  intro index
  obtain ⟨common, ended⟩ := system.ended_of_verdict ok index
  refine ⟨upright index (Or.inr ?_), fun _ halt fails => ?_⟩
  · rw [ended]
    trivial
  · rw [ended] at fails
    cases fails

/-- The place of a component whose rank has called no finish hook. -/
theorem System.Kept.seat_of_component? {first : Fin n → Rank C} (kept : system.Kept plan links first)
    (sound : ∀ index, (system.threads index).Sound plan) {id : ComponentId} (plays : system.Plays id)
    {state : C} (there : system.component? id = some state) :
    ∃ index seat final, (first index).seats id = some seat ∧
      (system.threads index).rank.seats id = some final ∧ final.slot.component = state ∧
      ¬ (system.threads index).phase.isStarting ∧ ¬ (system.threads index).phase.isOver := by
  obtain ⟨index, -, found⟩ := List.exists_of_findSome?_eq_some there
  obtain ⟨slot, owned, rfl⟩ := Option.map_eq_some_iff.mp found
  obtain ⟨started, going⟩ := plays index (by rw [owned]; rfl)
  obtain ⟨visits, replays⟩ := kept.replayed index (sound index)
  obtain ⟨last, path, same⟩ := replays.path
  have here : (system.threads index).rank.seats id =
      some ⟨slot, (system.threads index).rank.id⟩ := by
    rw [Rank.seats, owned]
    rfl
  have before : ((first index).seats id).isSome := by
    rw [← path.isSome_eq id, ← same going, here]
    rfl
  obtain ⟨seat, known⟩ := Option.isSome_iff_exists.mp before
  exact ⟨index, seat, _, known, here, rfl, started, going⟩

namespace Simulation

/-- Whether a run that comes to a good end passes through a state. -/
def Passes (filter : Filter) (simulation : Simulation C)
    (system : System C simulation.ranks.length) : Prop :=
  ∃ turns rest last reason, (simulation.launch filter).exec simulation.plan turns = some system ∧
    system.exec simulation.plan rest = some last ∧ last.verdict? = some (.ok reason)

/-- Whether each component does the same in all runs of two simulations that come to a good end. -/
def AgreesWith (like : Likeness C) (simulation other : Simulation C) : Prop :=
  ∀ filter log system twin, simulation.Passes filter system → other.Passes log twin →
    ∀ id, system.Agrees like id twin

variable {registry : Registry C} {options choices : Options} {topology : Topology}
  {former latter : ComponentId → RankId} {clock moment : Instant} {journal records : Journal}
  {simulation other : Simulation C} {like : Likeness C}

/-- In a state that a run with a good end passes through, no thread has failed. -/
theorem Passes.sound {topology : Topology}
    (built : (build registry options topology clock journal).2 = .ok simulation)
    {assembly : Assembly C} (realizes : simulation.Realizes registry topology assembly)
    {filter : Filter} {system : System C simulation.ranks.length}
    (passes : simulation.Passes filter system) :
    (∃ turns, (simulation.launch filter).exec simulation.plan turns = some system) ∧
      ∀ index, (system.threads index).Sound simulation.plan := by
  obtain ⟨turns, rest, last, reason, reached, onward, ok⟩ := passes
  refine ⟨⟨turns, reached⟩, sound_of_exec onward ?_⟩
  have whole : (simulation.launch filter).exec simulation.plan (turns ++ rest) = some last := by
    rw [System.exec_append, reached]
    exact onward
  exact System.sound_of_verdict (kept_of_exec built realizes whole).upright ok

/-- Where the components of a topology make no use of their ranks but for what a likeness ignores, and
receive at one port only, they do the same wherever they are placed, and under any limit. -/
theorem agreesWith_of_build
    (built : (build registry options (topology.place former) clock journal).2 = .ok simulation)
    (also : (build registry choices (topology.place latter) moment records).2 = .ok other)
    (respected : like.Respected)
    (alike : ∀ id seat twin, simulation.places id = some seat → other.places id = some twin →
      like.Places id seat twin)
    (ear : OneEar simulation.places) : simulation.AgreesWith like other := by
  obtain ⟨assembly, realizes⟩ := realizes_of_build built
  obtain ⟨frame, realizesToo⟩ := realizes_of_build also
  intro filter log system twin passes passesToo id
  obtain ⟨⟨turns, reached⟩, sound⟩ := passes.sound built realizes
  obtain ⟨⟨others, arrived⟩, soundToo⟩ := passesToo.sound also realizesToo
  have kept := kept_of_exec built realizes reached
  have keptToo := kept_of_exec also realizesToo arrived
  have housing := housing_of_build built realizes filter
  have housingToo := housing_of_build also realizesToo log
  have parallel := realizes.follows.parallel realizesToo.follows
  have matching : Matching like assembly.links frame.links simulation.places other.places :=
    ⟨parallel, seats_launch filter simulation ▸ housing.joined,
      seats_launch log other ▸ housingToo.joined, alike, ear⟩
  have chord := keptToo.concord housingToo soundToo
  rw [seats_launch] at chord
  have agree := agree_of_exec built realizes reached sound respected matching chord id
  have one := kept.flowing.addressed.handled_eq id
  have two := keptToo.flowing.addressed.handled_eq id
  refine ⟨?_, fun plays playsToo long state last there here => ?_⟩
  · rw [one, two]
    exact (agree.map fun _ _ _ _ entries => entries.arrivals parallel).begins
  · rw [one, two, List.length_map, List.length_map] at long
    obtain ⟨index, seat, final, known, now, rfl, started, going⟩ :=
      kept.seat_of_component? sound plays there
    obtain ⟨place, spot, ending, found, later, rfl, begun, onward⟩ :=
      keptToo.seat_of_component? soundToo playsToo here
    obtain ⟨called, behind, -, setup, still, follows⟩ := kept.story housing (sound index) known
    obtain ⟨summoned, result, -, setupToo, stillToo, goes⟩ :=
      keptToo.story housingToo (soundToo place) found
    rw [setup started] at follows
    rw [setupToo begun] at goes
    obtain rfl : final = behind := Option.some.inj (now.symm.trans (still going))
    obtain rfl : ending = result := Option.some.inj (later.symm.trans (stillToo onward))
    have first : simulation.places id = some seat := by
      rw [← seats_launch filter]
      exact (Pool.seats_ofRanks housing.apart id seat).mpr ⟨index, known⟩
    have second : other.places id = some spot := by
      rw [← seats_launch log]
      exact (Pool.seats_ofRanks housingToo.apart id spot).mpr ⟨place, found⟩
    have deeds := respected.follow parallel
      (.cons (.setup id) (agree.map fun _ _ _ _ entries => .event entries))
      (alike id seat spot first second) follows goes
    exact (deeds.places (by rw [List.length_cons, List.length_map, List.length_cons,
      List.length_map, long])).state

end Simulation

end Hooks

end Rally
