import Rally.Proofs.Pool.ComponentHistories
/-!
# Histories that fit together

The histories of components fit together where each component goes through what it received and posts
what it gave, and what it received on a way is the beginning of what the component at the near end gave
there. In every state of a run in which no rank has failed they do so, and a step adds at most one event
to the history of one component: the next one on its way, which was given before.
-/

namespace Rally

/-- An event arrives at the far end of its way. -/
theorem goal_of_bears {links : Array Link} {way : Way} {entry : Instant × Delivery}
    (carried : way.bears entry = true) : entry.2.goal links = way.far links := by
  rw [way.bears_iff.mp carried, Way.far, Side.opposite_opposite]
  rfl

/-- An event comes from the near end of its way. -/
theorem source_of_bears {links : Array Link} {way : Way} {entry : Instant × Delivery}
    (carried : way.bears entry = true) : entry.2.source links = way.near links := by
  rw [way.bears_iff.mp carried]
  rfl

/-- What goes a way is for the component at its far end. -/
theorem filter_goesTo {links : Array Link} (way : Way) (entries : List (Instant × Delivery)) :
    (entries.filter (goesTo links (way.far links).component)).filter way.bears =
      entries.filter way.bears := by
  rw [List.filter_filter]
  refine List.filter_congr fun entry _ => ?_
  cases carried : way.bears entry with
  | false => rfl
  | true => rw [Bool.true_and, goesTo, beq_iff_eq, goal_of_bears carried]

/-- What goes a way is from the component at its near end. -/
theorem filter_comesFrom {links : Array Link} (way : Way) (entries : List (Instant × Delivery)) :
    (entries.filter (comesFrom links (way.near links).component)).filter way.bears =
      entries.filter way.bears := by
  rw [List.filter_filter]
  refine List.filter_congr fun entry _ => ?_
  cases carried : way.bears entry with
  | false => rfl
  | true => rw [Bool.true_and, comesFrom, beq_iff_eq, source_of_bears carried]

variable {C : Type} {n : Nat} {plan : Plan n} {links : Array Link}

/-- How links join components. -/
structure Joined (links : Array Link) (seats : Seats C) : Prop where
  /-- There is a component at each end of a link. -/
  owned : ∀ link side, link < links.size →
    (seats ((links.getD link default).endAt side).component).isSome
  /-- A configured port is bound to the end of a link that is there. -/
  bound : ∀ id seat port binding, seats id = some seat → seat.slot.binding? port = some binding →
    binding.link < links.size ∧
      ((links.getD binding.link default).endAt binding.side).component = id ∧
      ((links.getD binding.link default).endAt binding.side).port = port
  /-- No two ends of links are at one port. -/
  unique : ∀ link side other otherSide, link < links.size → other < links.size →
    ((links.getD link default).endAt side).component =
      ((links.getD other default).endAt otherSide).component →
    ((links.getD link default).endAt side).port =
      ((links.getD other default).endAt otherSide).port → link = other ∧ side = otherSide

/-- How the ranks of a run, the links and the components fit together before the run. -/
structure Housing (links : Array Link) (ids : Fin n → RankId) (count : Nat)
    (first : Fin n → Rank C) : Prop extends Fitting links ids count first where
  /-- Every rank has its number. -/
  named : ∀ index, (first index).id = ids index
  /-- All ranks know the links. -/
  known : ∀ index, (first index).links = links
  /-- Their ports fit the links. -/
  wired : ∀ index, (first index).Wired
  /-- The ends of a link are placed on ranks that there are. -/
  placed : ∀ link side, link < links.size →
    ∃ index, ids index = ((links.getD link default).endAt side).rank
  /-- No two ends of links are at one port. -/
  unique : ∀ link side other otherSide, link < links.size → other < links.size →
    ((links.getD link default).endAt side).component =
      ((links.getD other default).endAt otherSide).component →
    ((links.getD link default).endAt side).port =
      ((links.getD other default).endAt otherSide).port → link = other ∧ side = otherSide

namespace Housing

variable {count : Nat} {first : Fin n → Rank C}

/-- The component at the end of a link is on the rank on which the end is placed. -/
theorem home (housing : Housing links plan.ids count first) {link : LinkId} {side : Side}
    {index : Fin n} (known : link < links.size)
    (here : ((links.getD link default).endAt side).rank = plan.ids index) :
    ((first index).seats ((links.getD link default).endAt side).component).isSome := by
  have same : (first index).link link = links.getD link default := by
    rw [Rank.link, housing.known]
  obtain ⟨slot, owned⟩ := (housing.wired index).owned link side (by rw [housing.known]; exact known)
    (by rw [same, here, housing.named])
  rw [same] at owned
  rw [Rank.seats, owned]
  rfl

/-- The ports of a component are bound to the ends of links. -/
theorem bound (housing : Housing links plan.ids count first) (index : Fin n) :
    ∀ id seat port binding, (first index).seats id = some seat →
      seat.slot.binding? port = some binding → binding.link < links.size ∧
        (links.getD binding.link default).endAt binding.side = ⟨id, port, plan.ids index⟩ := by
  intro id seat port binding there bound
  obtain ⟨slot, owned, rfl⟩ := Option.map_eq_some_iff.mp there
  have fits := (housing.wired index).bound id slot port binding owned bound
  rwa [Rank.link, housing.known, housing.named] at fits

/-- The links join the components of all ranks. -/
theorem joined (housing : Housing links plan.ids count first) :
    Joined links (Pool.ofRanks (List.ofFn first)).seats := by
  refine ⟨fun link side known => ?_, fun id seat port binding there bound => ?_, housing.unique⟩
  · obtain ⟨index, placed⟩ := housing.placed link side known
    obtain ⟨seat, found⟩ := Option.isSome_iff_exists.mp (housing.home known placed.symm)
    rw [(Pool.seats_ofRanks housing.apart _ seat).mpr ⟨index, found⟩]
    rfl
  · obtain ⟨index, found⟩ := (Pool.seats_ofRanks housing.apart id seat).mp there
    obtain ⟨known, place⟩ := housing.bound index id seat port binding found bound
    exact ⟨known, by rw [place], by rw [place]⟩

end Housing

/-- A component of a rank has a place there. -/
theorem Rank.lt_size_of_seats {rank : Rank C} {id : ComponentId} (owned : (rank.seats id).isSome) :
    id < rank.slots.size := by
  rw [seats, Option.isSome_map] at owned
  obtain ⟨slot, here⟩ := Option.isSome_iff_exists.mp owned
  exact lt_size_of_slot? here

namespace System

/-- What was dispatched to the component of a position. -/
def told (links : Array Link) (system : System C n) (id : ComponentId) :
    List (Instant × Delivery) :=
  ((List.finRange n).flatMap fun index => takenOf (system.threads index).history).filter
    (goesTo links id)

/-- What the component of a position handed to links. -/
def gave (links : Array Link) (system : System C n) (id : ComponentId) :
    List (Instant × Delivery) :=
  ((List.finRange n).flatMap fun index => postedOf links (system.threads index).history).filter
    (comesFrom links id)

variable {system next : System C n} {index : Fin n} {count : Nat} {first : Fin n → Rank C}

/-- What a rank dispatches is for its components. -/
theorem Addressed.taken (addressed : system.Addressed plan links) {entry : Instant × Delivery}
    (inside : entry ∈ takenOf (system.threads index).history) :
    entry.2.link < links.size ∧ (entry.2.goal links).rank = plan.ids index := by
  have held := Way.isFor_of_dispatched (addressed.deeds index) inside
  exact ⟨held.known, held.here⟩

/-- What a rank hands to links comes from its components. -/
theorem Addressed.posted (addressed : system.Addressed plan links) {entry : Instant × Delivery}
    (inside : entry ∈ postedOf links (system.threads index).history) :
    entry.2.link < links.size ∧ (entry.2.source links).rank = plan.ids index :=
  near_of_postedOf (addressed.deeds index) entry inside

/-- What was dispatched to a component was so on its rank. -/
theorem told_eq (housing : Housing links plan.ids count first)
    (addressed : system.Addressed plan links) {id : ComponentId}
    (here : ((first index).seats id).isSome) :
    system.told links id =
      (takenOf (system.threads index).history).filter (goesTo links id) := by
  rw [told, List.filter_flatMap]
  refine flatMap_eq_of_alone (List.nodup_finRange n) (List.mem_finRange index) ?_
  intro other _ differ
  rw [List.filter_eq_nil_iff]
  intro entry inside goes
  obtain ⟨known, place⟩ := addressed.taken inside
  have there := housing.home known place
  rw [goesTo, beq_iff_eq, Delivery.goal] at goes
  rw [goes] at there
  exact differ (housing.apart other index id there here)

/-- What a component handed to links it did so on its rank. -/
theorem gave_eq (housing : Housing links plan.ids count first)
    (addressed : system.Addressed plan links) {id : ComponentId}
    (here : ((first index).seats id).isSome) :
    system.gave links id =
      (postedOf links (system.threads index).history).filter (comesFrom links id) := by
  rw [gave, List.filter_flatMap]
  refine flatMap_eq_of_alone (List.nodup_finRange n) (List.mem_finRange index) ?_
  intro other _ differ
  rw [List.filter_eq_nil_iff]
  intro entry inside comes
  obtain ⟨known, place⟩ := addressed.posted inside
  have there := housing.home known place
  rw [comesFrom, beq_iff_eq, Delivery.source] at comes
  rw [comes] at there
  exact differ (housing.apart other index id there here)

end System

/-- Whether on each way all that was given was received. -/
def Closed (links : Array Link) (told gave : ComponentId → List (Instant × Delivery)) : Prop :=
  ∀ way : Way, way.link < links.size →
    (told (way.far links).component).filter way.bears =
      (gave (way.near links).component).filter way.bears

section Hooks

variable [Component C]

/-- Whether each component went through its setup and what it received, and so posted what it gave. -/
def Acts (links : Array Link) (seats : Seats C)
    (told gave : ComponentId → List (Instant × Delivery)) : Prop :=
  ∀ id seat, seats id = some seat → ∃ final,
    seat.follow? links (.setup id :: (told id).map .event) = some (final, gave id)

/-- Histories of components that fit together: what each received and what it gave. -/
structure Concord (links : Array Link) (seats : Seats C)
    (told gave : ComponentId → List (Instant × Delivery)) : Prop where
  /-- A component is set up before it receives, goes through what it received, and so posts what it
  gave. -/
  follows : ∀ id seat, seats id = some seat → ∃ called final,
    (called = [.setup id] ∨ called = [] ∧ told id = []) ∧
      seat.follow? links (called ++ (told id).map .event) = some (final, gave id)
  /-- What it received on a way is the beginning of what was given there. -/
  received : ∀ way : Way, way.link < links.size →
    (told (way.far links).component).filter way.bears <+:
      (gave (way.near links).component).filter way.bears
  /-- It received what is for it. -/
  goes : ∀ id, ∀ entry ∈ told id,
    entry.2.link < links.size ∧ (entry.2.goal links).component = id

namespace System

variable {system next : System C n} {index : Fin n} {count : Nat} {first : Fin n → Rank C}

omit [Component C] in
/-- The setups of components call each of them at most once. -/
theorem filter_setupsOf {seats : Seats C} {ids : List ComponentId} (nodup : ids.Nodup)
    {id : ComponentId} (here : (seats id).isSome) :
    (setupsOf seats ids).filter (fun cause => cause.component links == id) =
      if id ∈ ids then [.setup id] else [] := by
  induction ids with
  | nil => rfl
  | cons other rest ih =>
    obtain ⟨fresh, nodup⟩ := List.nodup_cons.mp nodup
    have split : setupsOf seats (other :: rest) =
        (if (seats other).isSome then [.setup other] else []) ++ setupsOf seats rest := by
      rw [setupsOf, List.filter_cons]
      split <;> rfl
    rw [split, List.filter_append, ih nodup]
    by_cases same : other = id
    · subst same
      rw [if_pos here, if_neg fresh, if_pos List.mem_cons_self, List.append_nil]
      exact List.filter_cons_of_pos (beq_self_eq_true _)
    · have none : (if (seats other).isSome then [Cause.setup other] else []).filter
          (fun cause => cause.component links == id) = [] := by
        refine List.filter_eq_nil_iff.mpr fun cause inside equal => same ?_
        split at inside
        · rw [List.mem_singleton.mp inside] at equal
          exact beq_iff_eq.mp equal
        · cases inside
      have still : id ∈ other :: rest ↔ id ∈ rest :=
        ⟨fun inside => (List.mem_cons.mp inside).resolve_left (Ne.symm same),
          List.mem_cons_of_mem _⟩
      rw [none, List.nil_append, if_congr still rfl rfl]

/-- Where the rank of a component has not failed, this is what the component went through. -/
theorem Kept.story (kept : system.Kept plan links first)
    (housing : Housing links plan.ids count first) (sound : (system.threads index).Sound plan)
    {id : ComponentId} {seat : Seat C} (here : (first index).seats id = some seat) :
    ∃ called final, (called = [.setup id] ∨ called = [] ∧ system.told links id = []) ∧
      (¬ (system.threads index).phase.isStarting → called = [.setup id]) ∧
      (¬ (system.threads index).phase.isOver → (system.threads index).rank.seats id = some final) ∧
      seat.follow? links (called ++ (system.told links id).map .event) =
        some (final, system.gave links id) := by
  obtain ⟨visits, replays⟩ := kept.replayed index sound
  obtain ⟨last, path, there⟩ := replays.path
  obtain ⟨final, found, follows⟩ := path.follows here
  obtain ⟨done, rest, entries, causes, split, part, whole⟩ := replays.begun.exists_split
  have owned : ((first index).seats id).isSome := by
    rw [here]
    rfl
  have nodup : done.Nodup := by
    have all : (done ++ rest).Nodup := split ▸ List.nodup_range
    exact all.of_append_left
  have known : id ∈ done ++ rest := split ▸ List.mem_range.mpr (Rank.lt_size_of_seats owned)
  have taken : takenOf (system.threads index).history = entries := by
    rw [replays.taken, takenBy_eq, causes, flatMap_taken]
  have told := told_eq housing kept.flowing.addressed owned
  have gave := gave_eq housing kept.flowing.addressed owned
  rw [replays.posted, path.filter_posted fun id seat port binding there bound => by
    rw [Way.near, (housing.bound index id seat port binding there bound).2]] at gave
  have own : (visitsOf links id visits).map Visit.cause =
      (if id ∈ done then [.setup id] else []) ++ (system.told links id).map .event := by
    have through : (visitsOf links id visits).map Visit.cause =
        (visits.map Visit.cause).filter fun cause => cause.component links == id := by
      rw [visitsOf, List.filter_map]
      rfl
    rw [through, causes, List.filter_append, filter_setupsOf nodup owned, told, taken,
      List.filter_map]
    rfl
  rw [own, ← gave] at follows
  refine ⟨_, final, ?_, fun further => ?_, fun going => ?_, follows⟩
  · by_cases called : id ∈ done
    · exact Or.inl (if_pos called)
    · refine Or.inr ⟨if_neg called, ?_⟩
      have ahead := (List.mem_append.mp known).resolve_left called
      rw [told, taken, part (List.ne_nil_of_mem ahead)]
      rfl
  · rw [whole further, List.append_nil] at known
    exact if_pos known
  · rw [there going]
    exact found

/-- In every state of a run in which no rank has failed, the histories of all components fit
together. -/
theorem Kept.concord (kept : system.Kept plan links first)
    (housing : Housing links plan.ids count first)
    (sound : ∀ index, (system.threads index).Sound plan) :
    Concord links (Pool.ofRanks (List.ofFn first)).seats (system.told links)
      (system.gave links) := by
  refine ⟨fun id seat there => ?_, fun way known => ?_, fun id entry inside => ?_⟩
  · obtain ⟨index, here⟩ := (Pool.seats_ofRanks housing.apart id seat).mp there
    obtain ⟨called, final, first, -, -, follows⟩ := kept.story housing (sound index) here
    exact ⟨called, final, first, follows⟩
  · obtain ⟨near, source⟩ := housing.placed way.link way.side known
    obtain ⟨far, goal⟩ := housing.placed way.link way.side.opposite known
    have told : system.told links (way.far links).component = _ :=
      told_eq housing kept.flowing.addressed (housing.home known goal.symm)
    have gave : system.gave links (way.near links).component = _ :=
      gave_eq housing kept.flowing.addressed (housing.home known source.symm)
    rw [told, gave]
    have whole := kept.flowing.conserved way near far source goal
    rw [System.passed, way.sent_eq_filter, way.arrived_eq_filter, List.append_assoc] at whole
    rw [filter_goesTo, filter_comesFrom, ← whole]
    exact List.prefix_append _ _
  · obtain ⟨there, goes⟩ := List.mem_filter.mp inside
    obtain ⟨index, -, taken⟩ := List.mem_flatMap.mp there
    exact ⟨(kept.flowing.addressed.taken taken).1, beq_iff_eq.mp goes⟩

/-- The next event of a rank is for one of its components, and the next one of its way, which was handed
to the link before. -/
theorem Kept.next_of_pop (kept : system.Kept plan links first)
    (housing : Housing links plan.ids count first) (covers : plan.Covers links)
    (distinct : Function.Injective plan.ids) (window : (system.threads index).phase.inWindow)
    {event : Scheduled Delivery} {pending : EventSet Delivery}
    (popped : (system.threads index).rank.pending.pop? = some (event, pending)) :
    ∃ way : Way, way.link < links.size ∧ way.bears event.entry = true ∧
      plan.ids index = (way.far links).rank ∧
      (system.told links (way.far links).component ++ [event.entry]).filter way.bears <+:
        (system.gave links (way.near links).component).filter way.bears := by
  let way : Way := ⟨event.entry.2.link, event.entry.2.arrival.opposite⟩
  have carried : way.bears event.entry = true := way.bears_iff.mpr rfl
  have routed := kept.flowing.addressed.routed kept.steady (Thread.unsent_of_inWindow window)
  obtain ⟨known, place⟩ := kept.flowing.addressed.pending index event
    (routed.sound.first_of_pop popped).1
  have goal : plan.ids index = (way.far links).rank := by
    rw [Way.far, Side.opposite_opposite]
    exact place.symm
  obtain ⟨near, source⟩ := housing.placed way.link way.side known
  have told : system.told links (way.far links).component = _ :=
    told_eq housing kept.flowing.addressed (housing.home known goal.symm)
  have gave : system.gave links (way.near links).component = _ :=
    gave_eq housing kept.flowing.addressed (housing.home known source.symm)
  refine ⟨way, known, carried, goal, ?_⟩
  rw [told, gave, List.filter_append, filter_goesTo, filter_comesFrom, ← List.filter_append]
  exact kept.flowing.posted_before covers distinct kept.steady
    (Thread.unsent_of_inWindow window) popped source goal

/-- A step of threads that do not fail dispatches nothing, or one event to one component: the next one
of its way, which was handed to the link before. -/
theorem Kept.told_step (kept : system.Kept plan links first)
    (housing : Housing links plan.ids count first) (covers : plan.Covers links)
    (distinct : Function.Injective plan.ids) (stepped : system.step plan index = some next)
    (latter : next.Kept plan links first) (sound : (next.threads index).Sound plan) :
    (∀ id, next.told links id = system.told links id) ∨
      ∃ entry : Instant × Delivery, ∃ way : Way, way.link < links.size ∧ way.bears entry = true ∧
        (∀ id, next.told links id = system.told links id ++
          if id = (way.far links).component then [entry] else []) ∧
        (system.told links (way.far links).component ++ [entry]).filter way.bears <+:
          (system.gave links (way.near links).component).filter way.bears := by
  obtain ⟨⟨thread, effect⟩, moved, rfl⟩ := Option.map_eq_some_iff.mp stepped
  rw [threads_withThread_self] at sound
  have others {other : Fin n} (differ : other ≠ index) :
      (((system.apply index effect).withThread index thread).threads other) =
        system.threads other := threads_withThread_of_ne differ _ _
  rcases Thread.takes_of_step moved sound (kept.steady.wired.links index)
    (fun starting => ((kept.steady.threads index).began starting).1) with
    same | ⟨window, event, pending, popped, taken⟩
  · left
    intro id
    rw [told, told]
    refine congrArg _ (List.flatMap_congr fun other _ => ?_)
    by_cases here : other = index
    · rw [here, threads_withThread_self, same]
    · rw [others here]
  · right
    obtain ⟨way, known, carried, goal, onward⟩ :=
      kept.next_of_pop housing covers distinct window popped
    have far : ((first index).seats (way.far links).component).isSome :=
      housing.home known goal.symm
    have none {id : ComponentId} (away : id ≠ (way.far links).component) :
        [event.entry].filter (goesTo links id) = [] := by
      refine List.filter_cons_of_neg fun goes => away ?_
      rw [goesTo, beq_iff_eq, goal_of_bears carried] at goes
      exact goes.symm
    refine ⟨event.entry, way, known, carried, fun id => ?_, onward⟩
    by_cases same : id = (way.far links).component
    · have whole : [event.entry].filter (goesTo links id) = [event.entry] := by
        refine List.filter_cons_of_pos ?_
        rw [goesTo, beq_iff_eq, goal_of_bears carried, same]
      rw [if_pos same, told_eq housing latter.flowing.addressed (same ▸ far),
        told_eq housing kept.flowing.addressed (same ▸ far), threads_withThread_self, taken,
        List.filter_append, whole]
    · rw [if_neg same, List.append_nil, told, told, List.filter_flatMap, List.filter_flatMap]
      refine List.flatMap_congr fun other _ => ?_
      by_cases here : other = index
      · rw [here, threads_withThread_self, taken, List.filter_append, none same,
          List.append_nil]
      · rw [others here]

end System

end Hooks

end Rally
