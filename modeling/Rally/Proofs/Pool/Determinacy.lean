import Rally.Proofs.Pool.AlikeHistories
/-!
# Each component has one history

Where each component receives at one port only, all that it receives comes over one way. So its history
is fixed by that of the component at the near end: with every event that a run dispatches, histories
stay alike to those of another family that fits together. By induction along a run, this holds of all
states of two runs of simulations that are alike.
-/

namespace Rally

/-- What is at a position of the beginning of a list is there in the list. -/
theorem getElem?_of_begins {α : Type} {part whole : List α} (begins : part <+: whole) {position : Nat}
    {member : α} (there : part[position]? = some member) : whole[position]? = some member := by
  obtain ⟨inside, rfl⟩ := List.getElem?_eq_some_iff.mp there
  exact List.prefix_iff_getElem?.mp begins position inside

variable {C : Type} {like : Likeness C} {links others : Array Link} {seats also : Seats C}
  {told gave heard given : ComponentId → List (Instant × Delivery)}

/-- Whether each component receives at one port only. -/
def OneEar (seats : Seats C) : Prop :=
  ∀ id seat port other, seats id = some seat → seat.slot.receives port = true →
    seat.slot.receives other = true → port = other

/-- Links and components of two simulations that are alike. -/
structure Matching (like : Likeness C) (links others : Array Link) (seats also : Seats C) :
    Prop where
  /-- Their links are parallel. -/
  parallel : Parallel links others
  /-- The links of the one join its components. -/
  joined : Joined links seats
  /-- So do those of the other one. -/
  along : Joined others also
  /-- Components at one position are in places that are alike. -/
  places : ∀ id seat other, seats id = some seat → also id = some other → like.Places id seat other
  /-- Each component receives at one port only. -/
  ear : OneEar seats

/-- All that a component receives at one port comes over the way that leads there. -/
theorem Joined.bears_of_receives (joined : Joined links seats) (ear : OneEar seats)
    {id : ComponentId} {seat : Seat C} (there : seats id = some seat) {way : Way}
    (known : way.link < links.size) (far : (way.far links).component = id)
    (hears : seat.slot.receives (way.far links).port = true) {entry : Instant × Delivery}
    (inside : entry.2.link < links.size) (goes : (entry.2.goal links).component = id)
    (received : seat.slot.receives (entry.2.goal links).port = true) : way.bears entry = true := by
  have port := ear id seat _ _ there received hears
  obtain ⟨link, side⟩ := joined.unique entry.2.link entry.2.arrival way.link way.side.opposite
    inside known (goes.trans far.symm) port
  rw [way.bears_iff, link, side, Side.opposite_opposite]

/-- Events that are alike go the same way. -/
theorem Likeness.Entries.bears_eq {entry other : Instant × Delivery}
    (alike : like.Entries entry other) (way : Way) : way.bears entry = way.bears other := by
  rw [Way.bears, Way.bears, Way.carries, Way.carries, alike.link, alike.arrival]

/-- The causes of a component in two families of histories are alike where these are. -/
theorem Likeness.causes_agree {id : ComponentId} {called summoned : List Cause}
    (first : called = [.setup id] ∨ called = [] ∧ told id = [])
    (second : summoned = [.setup id] ∨ summoned = [] ∧ heard id = [])
    (agree : Agree like.Entries (told id) (heard id)) :
    Agree like.Causes (called ++ (told id).map .event) (summoned ++ (heard id).map .event) := by
  rcases first with rfl | ⟨rfl, none⟩
  · rcases second with rfl | ⟨rfl, none⟩
    · exact .cons (.setup id) (agree.map fun _ _ _ _ alike => .event alike)
    · rw [none]
      exact .right _
  · rw [none]
    exact .left _

section Hooks

variable [Component C]

namespace Concord

/-- What a component received arrived at a port that receives. -/
theorem receives (concord : Concord links seats told gave) {id : ComponentId} {seat : Seat C}
    (there : seats id = some seat) : ∀ entry ∈ told id,
      seat.slot.receives (entry.2.goal links).port = true := by
  intro entry inside
  obtain ⟨called, final, -, follows⟩ := concord.follows id seat there
  exact Seat.receives_of_follow? follows
    (List.mem_append_right _ (List.mem_map_of_mem inside))

/-- What a component with one ear received came over the way that leads there. -/
theorem filter_told (concord : Concord links seats told gave) (joined : Joined links seats)
    (ear : OneEar seats) {way : Way} (known : way.link < links.size) {seat : Seat C}
    (there : seats (way.far links).component = some seat)
    (hears : seat.slot.receives (way.far links).port = true) :
    (told (way.far links).component).filter way.bears = told (way.far links).component := by
  refine List.filter_eq_self.mpr fun entry inside => ?_
  obtain ⟨joins, goes⟩ := concord.goes _ entry inside
  exact joined.bears_of_receives ear there known rfl hears joins goes
    (concord.receives there entry inside)

/-- Where the histories of a component are alike, so is what it gave. -/
theorem gave_agree (concord : Concord links seats told gave)
    (chord : Concord others also heard given) (respected : like.Respected)
    (matching : Matching like links others seats also) {id : ComponentId} {seat other : Seat C}
    (there : seats id = some seat) (twin : also id = some other)
    (agree : Agree like.Entries (told id) (heard id)) : Agree like.Entries (gave id) (given id) := by
  obtain ⟨called, final, first, follows⟩ := concord.follows id seat there
  obtain ⟨summoned, last, second, goes⟩ := chord.follows id other twin
  exact (respected.follow matching.parallel (Likeness.causes_agree first second agree)
    (matching.places id seat other there twin) follows goes).posts

/-- Where two families of histories fit together, the next event of a component in the one is alike to
that in the other, if there is one. -/
theorem agree_next (concord : Concord links seats told gave)
    (chord : Concord others also heard given) (respected : like.Respected)
    (matching : Matching like links others seats also)
    (agree : ∀ id, Agree like.Entries (told id) (heard id)) {way : Way}
    (known : way.link < links.size) {seat : Seat C}
    (there : seats (way.far links).component = some seat)
    (hears : seat.slot.receives (way.far links).port = true) {entry : Instant × Delivery}
    (carried : way.bears entry = true)
    (next : (told (way.far links).component ++ [entry]).filter way.bears <+:
      (gave (way.near links).component).filter way.bears) :
    Agree like.Entries (told (way.far links).component ++ [entry])
      (heard (way.far links).component) := by
  have size := matching.parallel.size
  have far : (way.far others).component = (way.far links).component :=
    (matching.parallel.component way.link way.side.opposite).symm
  have near : (way.near others).component = (way.near links).component :=
    (matching.parallel.component way.link way.side).symm
  obtain ⟨source, nearby⟩ : ∃ source, seats (way.near links).component = some source :=
    Option.isSome_iff_exists.mp (matching.joined.owned way.link way.side known)
  obtain ⟨spring, close⟩ : ∃ spring, also (way.near others).component = some spring :=
    Option.isSome_iff_exists.mp (matching.along.owned way.link way.side (size ▸ known))
  obtain ⟨other, twin⟩ : ∃ other, also (way.far others).component = some other :=
    Option.isSome_iff_exists.mp (matching.along.owned way.link way.side.opposite (size ▸ known))
  rw [far] at twin
  rw [near] at close
  have ports := (matching.places _ seat other there twin).ports
  have same (port : PortId) : other.slot.receives port = seat.slot.receives port := by
    rw [Slot.receives, Slot.receives, Slot.binding?, Slot.binding?, ports]
  -- All that the component receives in either family comes over the same way.
  have one := concord.filter_told matching.joined matching.ear known there hears
  have two : (heard (way.far links).component).filter way.bears =
      heard (way.far links).component := by
    refine List.filter_eq_self.mpr fun old inside => ?_
    obtain ⟨joins, goes⟩ := chord.goes _ old inside
    have received := chord.receives twin old inside
    rw [same, Delivery.goal, ← matching.parallel.port] at received
    rw [Delivery.goal, ← matching.parallel.component] at goes
    exact matching.joined.bears_of_receives matching.ear there known rfl hears (size ▸ joins) goes
      received
  have posts := ((gave_agree concord chord respected matching nearby close (agree _)).filter
    fun _ _ alike => alike.bears_eq way).1
  have received := chord.received way (size ▸ known)
  rw [far, near, two] at received
  have here : ((told (way.far links).component ++ [entry]).filter way.bears)[
      (told (way.far links).component).length]? = some entry := by
    rw [List.filter_append, one, List.filter_cons_of_pos carried,
      List.getElem?_append_right (Nat.le_refl _), Nat.sub_self]
    rfl
  exact (agree _).snoc fun later found =>
    posts.get (getElem?_of_begins next here) (getElem?_of_begins received found)

end Concord

namespace System

variable {n : Nat} {plan : Plan n} {system next : System C n} {index : Fin n} {count : Nat}
  {first : Fin n → Rank C}

/-- A step keeps the histories of components alike to those of another family that fits together. -/
theorem Kept.agree_step (kept : system.Kept plan links first)
    (housing : Housing links plan.ids count first) (covers : plan.Covers links)
    (distinct : Function.Injective plan.ids) (stepped : system.step plan index = some next)
    (latter : next.Kept plan links first) (before : ∀ index, (system.threads index).Sound plan)
    (behind : ∀ index, (next.threads index).Sound plan) (respected : like.Respected)
    (matching : Matching like links others (Pool.ofRanks (List.ofFn first)).seats also)
    (chord : Concord others also heard given)
    (agree : ∀ id, Agree like.Entries (system.told links id) (heard id)) (id : ComponentId) :
    Agree like.Entries (next.told links id) (heard id) := by
  rcases kept.told_step housing covers distinct stepped latter (behind index) with
    same | ⟨entry, way, known, carried, told, given⟩
  · rw [same]
    exact agree id
  · rw [told]
    by_cases here : id = (way.far links).component
    · subst here
      rw [if_pos rfl]
      obtain ⟨seat, there⟩ : ∃ seat,
          (Pool.ofRanks (List.ofFn first)).seats (way.far links).component = some seat :=
        Option.isSome_iff_exists.mp (matching.joined.owned way.link way.side.opposite known)
      have hears : seat.slot.receives (entry.2.goal links).port = true := by
        refine (latter.concord housing behind).receives there entry ?_
        rw [told, if_pos rfl]
        exact List.mem_append_right _ (List.mem_singleton_self _)
      rw [goal_of_bears carried] at hears
      exact (kept.concord housing before).agree_next chord respected matching agree known there
        hears carried given
    · rw [if_neg here, List.append_nil]
      exact agree id

end System

namespace Simulation

variable {registry : Registry C} {options : Options} {topology : Topology} {clock : Instant}
  {journal : Journal} {simulation : Simulation C} {assembly : Assembly C} {filter : Filter}
  {schedule : List (Fin simulation.ranks.length)} {system : System C simulation.ranks.length}

/-- The components of a simulation in their places. -/
def places (simulation : Simulation C) : Seats C := fun id =>
  simulation.ranks.findSome? fun rank => rank.seats id

omit [Component C] in
/-- The threads of a simulation start with its components. -/
theorem seats_launch (filter : Filter) (simulation : Simulation C) :
    (Pool.ofRanks (List.ofFn fun index =>
      ((simulation.launch filter).threads index).rank)).seats = simulation.places := by
  funext id
  change (List.ofFn fun index => ((simulation.launch filter).threads index).rank).findSome?
    (fun rank => rank.seats id) = simulation.ranks.findSome? fun rank => rank.seats id
  have same : (List.ofFn fun index => ((simulation.launch filter).threads index).rank) =
      simulation.ranks.map fun rank => (Thread.launch (logged filter rank)).rank := by
    conv_rhs => rw [← List.ofFn_get simulation.ranks, List.map_ofFn]
    rfl
  rw [same, List.findSome?_map]
  rfl

omit [Component C] in
/-- The ranks, links and components of a simulation fit together. -/
theorem housing_of_build
    (built : (build registry options topology clock journal).2 = .ok simulation)
    (realizes : simulation.Realizes registry topology assembly) (filter : Filter) :
    Housing assembly.links simulation.plan.ids topology.components.length fun index =>
      ((simulation.launch filter).threads index).rank := by
  have there {link : LinkId} (known : link < assembly.links.size) :
      assembly.links.toList[link]? = some (assembly.links.getD link default) := by
    rw [Array.getElem?_toList, Array.getElem?_eq_getElem known, Array.getD_eq_getD_getElem?,
      Array.getElem?_eq_getElem known]
    rfl
  refine ⟨fitting_of_build built realizes filter, fun index => rfl,
    fun index => realizes.links (simulation.ranks.get index) (List.get_mem _ _), fun index => ?_,
    fun link side known => realizes.covers.placed_at known side,
    fun link side other otherSide known knownToo component port =>
      realizes.follows.end_unique (there known) (there knownToo) component port⟩
  have wired := realizes.wired (simulation.ranks.get index) (List.get_mem _ _)
  exact ⟨wired.bound, wired.owned⟩

/-- Threads that have not failed had not before. -/
theorem sound_of_exec {rest : List (Fin simulation.ranks.length)}
    {middle last : System C simulation.ranks.length}
    (onward : middle.exec simulation.plan rest = some last)
    (sound : ∀ index, (last.threads index).Sound simulation.plan) :
    ∀ index, (middle.threads index).Sound simulation.plan := by
  induction rest generalizing middle with
  | nil =>
    cases onward
    exact sound
  | cons index rest ih =>
    obtain ⟨next, stepped, onward⟩ := Option.bind_eq_some_iff.mp onward
    exact System.sound_of_step stepped (ih onward)

/-- In all states of a run in which no rank has failed, the histories of components are alike to those
of another family that fits together. -/
theorem agree_of_exec
    (built : (build registry options topology clock journal).2 = .ok simulation)
    (realizes : simulation.Realizes registry topology assembly)
    (reached : (simulation.launch filter).exec simulation.plan schedule = some system)
    (sound : ∀ index, (system.threads index).Sound simulation.plan) (respected : like.Respected)
    (matching : Matching like assembly.links others simulation.places also)
    (chord : Concord others also heard given) (id : ComponentId) :
    Agree like.Entries (system.told assembly.links id) (heard id) := by
  have housing := housing_of_build built realizes filter
  refine System.exec_induction (P := fun state =>
    (∀ index, (state.threads index).Sound simulation.plan) →
      ∀ id, Agree like.Entries (state.told assembly.links id) (heard id)) ?_ ?_ reached sound id
  · intro _ id
    have nothing : (simulation.launch filter).told assembly.links id = [] := by
      rw [System.told, List.filter_flatMap]
      exact List.flatMap_eq_nil_iff.mpr fun _ _ => rfl
    rw [nothing]
    exact .left _
  · intro turns former latter index arrives agree stepped behind
    have before := System.sound_of_step stepped behind
    have onward : (simulation.launch filter).exec simulation.plan (turns ++ [index]) = some latter := by
      rw [System.exec_append, arrives, Option.bind_some, System.exec, stepped]
      rfl
    exact (kept_of_exec built realizes arrives).agree_step housing realizes.covers
      (ids_injective built) stepped (kept_of_exec built realizes onward) before behind respected
      (seats_launch filter simulation ▸ matching) chord (agree before)

end Simulation

end Hooks

end Rally
