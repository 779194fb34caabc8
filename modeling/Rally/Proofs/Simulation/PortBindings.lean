import Rally.Proofs.Simulation.Placement
import Rally.Proofs.Threads.RankDeeds
import Rally.Proofs.Topology.Wiring
/-!
# Links between the ports of ranks

On every rank of a simulation, a configured port is bound to the end of a link that the topology
attaches to it, and each rank owns the components at the ends of links that are placed on it. Nothing
that a rank does changes this.
-/

namespace Rally

/-- The link of a position is the one that is there. -/
theorem Rank.link_eq {C : Type} {rank : Rank C} {id : LinkId} {link : Link}
    (there : rank.links[id]? = some link) : rank.link id = link := by
  rw [Rank.link, Array.getD_eq_getD_getElem?, there, Option.getD_some]

/-- How the ports of a rank and the links fit together. -/
structure Rank.Wired {C : Type} (rank : Rank C) : Prop where
  /-- A configured port is bound to the end of a link that is there. -/
  bound : ∀ id slot port binding, rank.slot? id = some slot → slot.binding? port = some binding →
    binding.link < rank.links.size ∧
      (rank.link binding.link).endAt binding.side = ⟨id, port, rank.id⟩
  /-- The rank owns the component at an end that is placed on it. -/
  owned : ∀ link side, link < rank.links.size → ((rank.link link).endAt side).rank = rank.id →
    ∃ slot, rank.slot? ((rank.link link).endAt side).component = some slot

namespace Simulation

variable {C : Type}

/-- Where the component of a part is created. -/
def site (part : Part C) : Site :=
  ⟨part.name, part.rank, part.params, part.type.ports, part.wiring⟩

/-- Whether a component is the one that the type of a part creates. -/
inductive Creates (part : Part C) (placed : Placed C) : Prop where
  /-- The type creates the component, with its ports and votes. -/
  | fitted (fitted : Fitted C (site part))
      (created : (part.type.create (site part)).result = .ok fitted)
      (same : placed = ⟨⟨part.name, fitted.component, part.type.ports, fitted.bindings.ports⟩,
        fitted.votes, part.rank⟩)

/-- A component that is created is the one that its type creates. -/
theorem creates_of_place {clock : Instant} {part : Part C} {journal : Journal} {placed : Placed C}
    (created : (place clock part journal).2 = .ok placed) : Creates part placed := by
  unfold place at created
  simp only at created
  split at created
  · cases created
  · next fitted made =>
    cases created
    exact .fitted fitted made rfl

/-- Components that are created are those that their types create. -/
theorem creates_of_placeAll {clock : Instant} {parts : List (Part C)} {journal : Journal}
    {placed : List (Placed C)} (created : (placeAll clock parts journal).2 = .ok placed) :
    List.Forall₂ Creates parts placed := by
  induction parts generalizing journal placed with
  | nil =>
    cases created
    exact .nil
  | cons part rest ih =>
    rw [placeAll] at created
    split at created
    · cases created
    · next later first made =>
      split at created
      · cases created
      · next last others behind =>
        cases created
        refine .cons (@creates_of_place _ clock part journal first ?_) (@ih later others ?_)
        · rw [made]
        · rw [behind]

/-- Whether a component was created for a part. -/
structure Fits (part : Part C) (placed : Placed C) : Prop where
  /-- It is placed on the rank of the part. -/
  rank : placed.rank = part.rank
  /-- Its configured ports are bound to what is attached to those of the part. -/
  attached : ∀ port binding, placed.slot.binding? port = some binding →
    part.wiring.lookup port = some (binding.link, binding.side)

/-- A component that the type of a part creates fits the part. -/
theorem Creates.fits {part : Part C} {placed : Placed C} (creates : Creates part placed) :
    Fits part placed := by
  obtain ⟨fitted, -, rfl⟩ := creates
  exact ⟨rfl, fitted.bindings.attached⟩

/-- Components that are created fit their parts. -/
theorem fits_of_placeAll {clock : Instant} {parts : List (Part C)} {journal : Journal}
    {placed : List (Placed C)} (created : (placeAll clock parts journal).2 = .ok placed) :
    List.Forall₂ Fits parts placed :=
  (creates_of_placeAll created).imp fun _ _ => Creates.fits

/-- The component of a position on a rank is that created for the position, where it is placed
there. -/
theorem slot?_rankOf {links : Array Link} {limit : Limit} {placed : List (Placed C)} {id : RankId}
    {position : ComponentId} {slot : Slot C} :
    (rankOf links limit placed id).slot? position = some slot ↔
      ∃ component, placed[position]? = some component ∧ component.rank = id ∧
        component.slot = slot := by
  simp only [Rank.slot?, rankOf, List.getElem?_toArray, List.getElem?_map]
  cases placed[position]? with
  | none => simp
  | some component =>
    by_cases here : component.rank = id
    · simp [here]
    · simp [here]

variable {registry : Registry C} {options : Options} {topology : Topology} {clock : Instant}
  {journal : Journal} {simulation : Simulation C}

/-- What a simulation takes over from the topology that it is built from. -/
structure Realizes (registry : Registry C) (topology : Topology) (assembly : Assembly C)
    (simulation : Simulation C) : Prop where
  /-- The topology passes the check. -/
  follows : assembly.Follows registry topology
  /-- All ranks know all links. -/
  links : ∀ rank ∈ simulation.ranks, rank.links = assembly.links
  /-- Their ports fit the links. -/
  wired : ∀ rank ∈ simulation.ranks, rank.Wired
  /-- The ends of a link are placed on ranks that there are. -/
  placed : ∀ link ∈ assembly.links.toList, ∀ side, ∃ rank ∈ simulation.ranks,
    rank.id = (link.endAt side).rank
  /-- The lookahead is the least latency between two ranks. -/
  lookahead : simulation.lookahead = lookaheadOf assembly.links.toList

/-- A simulation that was built takes over the topology, and has the components created for it. -/
theorem placed_of_build
    (built : (build registry options topology clock journal).2 = .ok simulation) :
    ∃ assembly placed, simulation.Realizes registry topology assembly ∧
      (placeAll clock assembly.parts.toList journal).2 = .ok placed ∧
      simulation.ranks = (rankIds (placed.map Placed.rank)).map
        (rankOf assembly.links options.limit placed) := by
  obtain ⟨assembly, placed, resolved, created, ranks, lookahead, -⟩ := build_ok built
  have follows := Assembly.follows_of_ofTopology resolved
  have fits := fits_of_placeAll created
  -- The component at the end of a link is created on the rank of that end.
  have there : ∀ link ∈ assembly.links.toList, ∀ side, ∃ component,
      placed[(link.endAt side).component]? = some component ∧
        component.rank = (link.endAt side).rank := by
    intro link inside side
    obtain ⟨position, found⟩ := List.mem_iff_getElem?.mp inside
    obtain ⟨spec, -, joins⟩ := related_of_getElem? follows.joined found
    obtain ⟨part, known, -, -, rank⟩ := (joins.located side).found
    rw [← Array.getElem?_toList] at known
    obtain ⟨component, created, fit⟩ := related_of_getElem? fits.flip known
    exact ⟨component, created, fit.rank.trans rank⟩
  refine ⟨assembly, placed, ⟨follows, ?_, ?_, ?_, lookahead⟩, created, ranks⟩
  · intro rank inside
    rw [ranks] at inside
    obtain ⟨id, -, rfl⟩ := List.mem_map.mp inside
    rfl
  · intro rank inside
    rw [ranks] at inside
    obtain ⟨id, -, rfl⟩ := List.mem_map.mp inside
    refine ⟨fun position slot port binding owned bound => ?_, fun link side known here => ?_⟩
    · obtain ⟨component, created, placedHere, rfl⟩ := slot?_rankOf.mp owned
      obtain ⟨part, known, fit⟩ := related_of_getElem? fits created
      rw [Array.getElem?_toList] at known
      obtain ⟨joined, found, same⟩ := follows.attached position part known port binding.link
        binding.side (fit.attached port binding bound)
      rw [Array.getElem?_toList] at found
      obtain ⟨inside, -⟩ := Array.getElem?_eq_some_iff.mp found
      refine ⟨inside, ?_⟩
      rw [@Rank.link_eq _ (rankOf assembly.links options.limit placed id) _ _ found, same,
        ← fit.rank, placedHere]
      rfl
    · have found := Array.getElem?_eq_getElem known
      rw [Rank.link_eq found] at here ⊢
      obtain ⟨component, created, rank⟩ := there _ (Array.getElem_mem_toList known) side
      exact ⟨component.slot, slot?_rankOf.mpr ⟨component, created, rank.trans here, rfl⟩⟩
  · intro link inside side
    obtain ⟨component, created, rank⟩ := there link inside side
    refine ⟨rankOf assembly.links options.limit placed (link.endAt side).rank, ?_, rfl⟩
    rw [ranks]
    refine List.mem_map.mpr ⟨_, mem_rankIds ?_, rfl⟩
    rw [← rank]
    exact List.mem_map_of_mem (List.mem_of_getElem? created)

/-- A simulation that was built takes over the topology. -/
theorem realizes_of_build
    (built : (build registry options topology clock journal).2 = .ok simulation) :
    ∃ assembly, simulation.Realizes registry topology assembly := by
  obtain ⟨assembly, -, realizes, -⟩ := placed_of_build built
  exact ⟨assembly, realizes⟩

/-- Components are created on the ranks that their definitions name. -/
theorem ranks_of_creates {assembly : Assembly C} (follows : assembly.Follows registry topology)
    {placed : List (Placed C)}
    (creates : List.Forall₂ Creates assembly.parts.toList placed) :
    topology.components.map ComponentSpec.rank = placed.map Placed.rank :=
  (map_eq_of_related (follows.described.imp fun _ _ describes => describes.rank.symm)).trans
    (map_eq_of_related (creates.imp fun _ _ made => made.fits.rank.symm))

/-- The ranks of a simulation that was built are those of the components of its topology. -/
theorem ids_of_build
    (built : (build registry options topology clock journal).2 = .ok simulation) :
    simulation.ranks.map Rank.id = rankIds (topology.components.map ComponentSpec.rank) := by
  obtain ⟨assembly, placed, resolved, created, ranks, -⟩ := build_ok built
  have follows := Assembly.follows_of_ofTopology resolved
  rw [ranks, List.map_map, ranks_of_creates follows (creates_of_placeAll created)]
  exact List.map_id _

/-- The ranks of a simulation that was built are in the order of their numbers. -/
theorem ids_ascending (built : (build registry options topology clock journal).2 = .ok simulation) :
    simulation.ranks.Pairwise fun former latter => former.id < latter.id := by
  have ascending := rankIds_ascending (topology.components.map ComponentSpec.rank)
  rwa [← ids_of_build built, List.pairwise_map] at ascending

/-- A simulation that was built has some rank. -/
theorem ranks_of_build (built : (build registry options topology clock journal).2 = .ok simulation) :
    0 < simulation.ranks.length := by
  obtain ⟨assembly, placed, -, -, ranks⟩ := placed_of_build built
  rw [ranks, List.length_map]
  cases placed with
  | nil => exact Nat.zero_lt_one
  | cons first rest => exact List.length_pos_of_mem (mem_rankIds List.mem_cons_self)

/-- How the components of a topology are spread over the ranks of a simulation before its run. -/
structure Spreads (options : Options) (topology : Topology) (simulation : Simulation C) : Prop where
  /-- Every rank has a place for each component. -/
  size : ∀ rank ∈ simulation.ranks, rank.slots.size = topology.components.length
  /-- No component is on two ranks. -/
  apart : ∀ rank ∈ simulation.ranks, ∀ other ∈ simulation.ranks, ∀ id,
    (rank.slot? id).isSome → (other.slot? id).isSome → rank.id = other.id
  /-- Every component is on some rank. -/
  owned : ∀ id < topology.components.length, ∃ rank ∈ simulation.ranks, (rank.slot? id).isSome
  /-- No message is counted. -/
  traffic : ∀ rank ∈ simulation.ranks,
    rank.traffic = rank.links.map fun link => { name := link.name }
  /-- The limit is the chosen one. -/
  limit : ∀ rank ∈ simulation.ranks, rank.limit = options.limit

/-- A simulation that was built spreads the components of its topology over its ranks. -/
theorem spreads_of_build
    (built : (build registry options topology clock journal).2 = .ok simulation) :
    simulation.Spreads options topology := by
  obtain ⟨assembly, placed, resolved, created, ranks, -⟩ := build_ok built
  have follows := Assembly.follows_of_ofTopology resolved
  have fits := fits_of_placeAll created
  have places {rank : Rank C} (inside : rank ∈ simulation.ranks) :
      rank = rankOf assembly.links options.limit placed rank.id := by
    rw [ranks] at inside
    obtain ⟨id, -, rfl⟩ := List.mem_map.mp inside
    rfl
  have holds {rank : Rank C} (inside : rank ∈ simulation.ranks) {id : ComponentId}
      (owned : (rank.slot? id).isSome) :
      ∃ component, placed[id]? = some component ∧ component.rank = rank.id := by
    rw [places inside] at owned
    obtain ⟨slot, there⟩ := Option.isSome_iff_exists.mp owned
    obtain ⟨component, found, here, -⟩ := slot?_rankOf.mp there
    exact ⟨component, found, here⟩
  refine ⟨fun rank inside => ?_, fun rank inside other insideToo id owned ownedToo => ?_,
    fun id known => ?_, fun rank inside => ?_, fun rank inside => ?_⟩
  · have long : rank.slots.size = placed.length := by
      rw [places inside]
      simp only [rankOf, List.size_toArray, List.length_map]
    rw [long, ← fits.length_eq, ← follows.described.length_eq]
  · obtain ⟨component, found, here⟩ := holds inside owned
    obtain ⟨same, foundToo, hereToo⟩ := holds insideToo ownedToo
    rw [found, Option.some.injEq] at foundToo
    rw [← here, ← hereToo, foundToo]
  · rw [follows.described.length_eq, fits.length_eq] at known
    have found := List.getElem?_eq_getElem known
    refine ⟨rankOf assembly.links options.limit placed placed[id].rank, ?_, ?_⟩
    · rw [ranks]
      exact List.mem_map_of_mem (mem_rankIds (List.mem_map_of_mem (List.getElem_mem known)))
    · rw [slot?_rankOf.mpr ⟨_, found, rfl, rfl⟩]
      rfl
  · rw [places inside]
    rfl
  · rw [places inside]
    rfl

end Simulation

end Rally
