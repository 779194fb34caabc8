import Rally.Proofs.Player.Buildable
import Rally.Proofs.Pool.RankAlone
/-!
# Building one rank alone

Component types do not get to see the numbers of links. So where no link leads to another rank, the components
and links of one rank can be built alone as well: the components are created as before, and the rank alone
corresponds to the one that is built with all others.
-/

namespace Rally

variable {C : Type}

/-- Whether two sites are one, where links have other numbers. -/
structure Site.Renumbers (renumber : LinkId → LinkId) (site other : Site) : Prop where
  /-- The name is the same. -/
  name : site.name = other.name
  /-- So is the rank. -/
  rank : site.rank = other.rank
  /-- So are the parameters. -/
  params : site.params = other.params
  /-- So are the declared ports. -/
  declared : site.declared = other.declared
  /-- So are the ends of links that are attached to each port. -/
  wiring : ∀ port,
    site.wiring.lookup port = (other.wiring.lookup port).map fun wire => (renumber wire.1, wire.2)

/-- A binding to the link of another number. -/
def Binding.renumber (renumber : LinkId → LinkId) (binding : Binding) : Binding :=
  { binding with link := renumber binding.link }

/-- Whether two created components are one, where links have other numbers. -/
structure Fitted.Renumbers (renumber : LinkId → LinkId) {site other : Site} (fitted : Fitted C site)
    (twin : Fitted C other) : Prop where
  /-- The state is the same. -/
  component : fitted.component = twin.component
  /-- So are the votes. -/
  votes : fitted.votes = twin.votes
  /-- So are the ends of links that each port is bound to. -/
  bindings : ∀ port : PortId, fitted.bindings.ports[port]?.join =
    (twin.bindings.ports[port]?.join).map (Binding.renumber renumber)

/-- Whether a type creates the same components, whatever the numbers of links are. -/
def ComponentType.Oblivious (type : ComponentType C) : Prop :=
  ∀ renumber site other, site.declared = type.ports → site.Renumbers renumber other →
    ∀ fitted, (type.create site).result = .ok fitted →
      ∃ twin, (type.create other).result = .ok twin ∧ fitted.Renumbers renumber twin

/-- Whether all types of a registry create the same components, whatever the numbers of links are. -/
def Registry.Oblivious (registry : Registry C) : Prop :=
  ∀ name type, registry.get? name = some type → type.Oblivious

namespace Simulation

variable {numbers : Numbering}

/-- Whether two created components are one, bound to the same links. -/
structure Placed.Corresponds (numbers : Numbering) (placed other : Placed C) : Prop where
  /-- What is in the place is the same. -/
  slot : placed.slot.Corresponds numbers other.slot
  /-- So are the votes. -/
  votes : placed.votes = other.votes
  /-- So is the rank. -/
  rank : placed.rank = other.rank

/-- The same component is created at a site where links have other numbers. -/
theorem Creates.corresponds {part twin : Part C} {placed : Placed C} (creates : Creates part placed)
    (oblivious : part.type.Oblivious) (same : part.Corresponds numbers twin) :
    (∃ fitted, (twin.type.create (site twin)).result = .ok fitted) ∧
      ∀ other, Creates twin other → placed.Corresponds numbers other := by
  obtain ⟨fitted, created, rfl⟩ := creates
  obtain ⟨name, rank, type, params, wiring⟩ := part
  obtain ⟨called, here, kind, texts, wired⟩ := twin
  obtain ⟨names, ranks, types, told, wires⟩ := same
  dsimp only at names ranks types told wires oblivious created
  subst names ranks types told
  let renumber (link : LinkId) : LinkId := numbers.links.getD link 0
  have renumbered {link number : LinkId} (there : numbers.links[number]? = some link) :
      renumber number = link := by
    change numbers.links.getD number 0 = link
    rw [List.getD_eq_getElem?_getD, there, Option.getD_some]
  have sites : (site ⟨name, rank, type, params, wiring⟩).Renumbers renumber
      (site ⟨name, rank, type, params, wired⟩) := by
    refine ⟨rfl, rfl, rfl, rfl, fun port => ?_⟩
    have wires := wires port
    change wiring.lookup port = (wired.lookup port).map _
    generalize wiring.lookup port = wire at wires
    generalize wired.lookup port = also at wires
    cases wires with
    | none => rfl
    | some same => rw [Option.map_some, renumbered same.1, ← same.2]
  obtain ⟨made, makes, fits⟩ := oblivious renumber _ _ rfl sites fitted created
  refine ⟨⟨made, makes⟩, fun other also => ?_⟩
  obtain ⟨twin, again, rfl⟩ := also
  obtain rfl : made = twin := Except.ok.inj (makes.symm.trans again)
  refine ⟨⟨rfl, fits.component, rfl, fun port => ?_⟩, fits.votes, rfl⟩
  have bindings := fits.bindings port
  have attached := made.bindings.attached port
  simp only [Slot.binding?, bindings]
  cases bound : made.bindings.ports[port]?.join with
  | none => exact .none
  | some binding =>
    have wires := wires port
    rw [show wired.lookup port = some (binding.link, binding.side) from attached binding bound] at wires
    rw [Option.map_some]
    refine .some ⟨?_, rfl, rfl⟩
    generalize wiring.lookup port = wire at wires
    cases wires with
    | some same => exact same.1.trans (congrArg some (renumbered same.1).symm)

/-- The places of a rank that are filled are those of the components created for it. -/
theorem places_rankOf (links : Array Link) (limit : Limit) (placed : List (Placed C)) (id : RankId) :
    ((List.range (rankOf links limit placed id).slots.size).filter fun position =>
      ((rankOf links limit placed id).slot? position).isSome) =
        positions (fun created => created.rank == id) placed := by
  have room : (rankOf links limit placed id).slots.size = placed.length := by
    simp only [rankOf, List.size_toArray, List.length_map]
  rw [room, positions]
  refine List.filter_congr fun position _ => ?_
  rw [Bool.eq_iff_iff, Option.isSome_iff_exists]
  constructor
  · rintro ⟨slot, owned⟩
    obtain ⟨created, there, rank, -⟩ := slot?_rankOf.mp owned
    rw [there]
    exact beq_iff_eq.mpr rank
  · intro kept
    cases there : placed[position]? with
    | none =>
      rw [there] at kept
      cases kept
    | some created =>
      rw [there] at kept
      exact ⟨created.slot, slot?_rankOf.mpr ⟨created, there, beq_iff_eq.mp kept, rfl⟩⟩

section Ranks

variable {registry : Registry C} {topology : Topology} {id : RankId} {assembly alone : Assembly C}
  {placed others : List (Placed C)} (follows : assembly.Follows registry topology)
  (single : alone.Follows registry (topology.only id))
  (creates : List.Forall₂ Creates assembly.parts.toList placed)
  (makes : List.Forall₂ Creates alone.parts.toList others) (unjoined : topology.Unjoined)
  (oblivious : registry.Oblivious)

include follows creates

/-- The components created on a rank have the positions of those that are defined for it. -/
theorem positions_of_creates :
    (topology.numbers id).components = positions (fun created => created.rank == id) placed := by
  refine positions_congr ?_
  have same := congrArg (List.map fun rank => rank == id) (ranks_of_creates follows creates)
  rwa [List.map_map, List.map_map] at same

include single unjoined oblivious

/-- The components of a rank can be created alone. -/
theorem exists_fitted_alone : ∀ twin ∈ alone.parts.toList,
    ∃ fitted, (twin.type.create (site twin)).result = .ok fitted := by
  intro twin inside
  obtain ⟨number, also⟩ := List.mem_iff_getElem?.mp inside
  obtain ⟨spec, kept, -⟩ := related_of_getElem? single.described also
  obtain ⟨position, there, -⟩ := exists_position kept
  obtain ⟨part, other, known, found, same, -⟩ := follows.corresponds_part single unjoined there
  rw [Array.getElem?_toList, found, Option.some.injEq] at also
  subst also
  rw [← Array.getElem?_toList] at known
  obtain ⟨created, -, made⟩ := related_of_getElem? creates.flip known
  obtain ⟨definition, -, describes⟩ := related_of_getElem? follows.described known
  exact (made.corresponds (oblivious _ _ describes.type) same).1

include makes

/-- They are created as they are among others. -/
theorem corresponds_placed {number position : ComponentId}
    (there : (topology.numbers id).components[number]? = some position) :
    ∃ created other, placed[position]? = some created ∧ others[number]? = some other ∧
      created.Corresponds (topology.numbers id) other ∧ created.rank = id := by
  obtain ⟨part, twin, known, found, same, rank⟩ := follows.corresponds_part single unjoined there
  rw [← Array.getElem?_toList] at known found
  obtain ⟨created, here, made⟩ := related_of_getElem? creates.flip known
  obtain ⟨other, also, fits⟩ := related_of_getElem? makes.flip found
  obtain ⟨definition, -, describes⟩ := related_of_getElem? follows.described known
  exact ⟨created, other, here, also, (made.corresponds (oblivious _ _ describes.type) same).2 other fits,
    made.fits.rank.trans rank⟩

omit follows creates unjoined oblivious in
/-- As many components are created as are defined for the rank. -/
theorem length_alone : others.length = (topology.numbers id).components.length := by
  rw [← makes.length_eq, ← single.described.length_eq]
  exact length_positions.symm

/-- They cast the votes that those of the rank cast among others. -/
theorem votes_alone : (placed.filter fun created => created.rank == id).map Placed.votes =
    (others.filter fun created => created.rank == id).map Placed.votes := by
  have numbered := @positions_of_creates _ _ _ id _ _ follows creates
  have long := length_alone single makes
  have pair {number position : ComponentId}
      (there : (topology.numbers id).components[number]? = some position) :=
    corresponds_placed follows single creates makes unjoined oblivious there
  have all : others.filter (fun created => created.rank == id) = others := by
    refine List.filter_eq_self.mpr fun other inside => ?_
    obtain ⟨number, also⟩ := List.mem_iff_getElem?.mp inside
    have within := (List.getElem?_eq_some_iff.mp also).1
    obtain ⟨created, twin, -, found, same, rank⟩ := pair (List.getElem?_eq_getElem (long ▸ within))
    rw [also, Option.some.injEq] at found
    subst found
    exact beq_iff_eq.mpr (same.rank.symm.trans rank)
  refine List.ext_getElem? fun number => ?_
  rw [all, List.getElem?_map, List.getElem?_map, getElem?_filter, ← numbered]
  cases there : (topology.numbers id).components[number]? with
  | none =>
    have beyond : others.length ≤ number := long ▸ List.getElem?_eq_none_iff.mp there
    rw [List.getElem?_eq_none beyond]
    rfl
  | some position =>
    obtain ⟨created, twin, here, found, same, -⟩ := pair there
    rw [found, Option.bind_some, here, Option.map_some, Option.map_some, same.votes]

/-- A rank that is built alone corresponds to the one that is built with all others. -/
theorem corresponds_rankOf (limit : Limit) :
    (rankOf assembly.links limit placed id).Corresponds (topology.numbers id)
      (rankOf alone.links limit others id) := by
  have numbered := @positions_of_creates _ _ _ id _ _ follows creates
  have long := length_alone single makes
  have ballots := votes_alone follows single creates makes unjoined oblivious
  have pair {number position : ComponentId}
      (there : (topology.numbers id).components[number]? = some position) :=
    corresponds_placed follows single creates makes unjoined oblivious there
  have links {number position : LinkId} (there : (topology.numbers id).links[number]? = some position) :=
    follows.corresponds_link single there
  exact {
    id := rfl
    places := by
      rw [numbered]
      exact places_rankOf assembly.links limit placed id
    size := by simp only [rankOf, List.size_toArray, List.length_map, long]
    slots := fun number position there => by
      obtain ⟨created, other, here, also, same, rank⟩ := pair there
      rw [slot?_rankOf.mpr ⟨created, here, rank, rfl⟩,
        slot?_rankOf.mpr ⟨other, also, same.rank.symm.trans rank, rfl⟩]
      exact .some same.slot
    links := fun number position there => (links there).1
    inside := fun position among side => by
      obtain ⟨number, there⟩ := List.mem_iff_getElem?.mp among
      exact (links there).2.2.2 side
    distinct := nodup_positions
    traffic := fun number position there => by
      obtain ⟨same, inside, within, -⟩ := links there
      have name := same.name
      rw [Array.getD_eq_getD_getElem?, Array.getD_eq_getD_getElem?, Array.getElem?_eq_getElem inside,
        Array.getElem?_eq_getElem within, Option.getD_some, Option.getD_some] at name
      simp only [rankOf, Array.getElem?_map, Array.getElem?_eq_getElem inside,
        Array.getElem?_eq_getElem within, Option.map_some, name]
    unused := fun position traffic _ there => by
      simp only [rankOf, Array.getElem?_map, Option.map_eq_some_iff] at there
      obtain ⟨link, -, rfl⟩ := there
      rfl
    counts := by
      rw [Topology.numbers, length_positions]
      simp only [rankOf, Array.size_map]
      exact single.joined.length_eq.symm
    pending := .empty
    outgoing := ⟨rfl, rfl⟩
    tally := by simp only [rankOf, List.flatMap_def, ballots]
    limit := rfl
    dispatched := rfl
    lastTime := rfl
    now := rfl }

end Ranks

variable {registry : Registry C} {options : Options} {topology : Topology} {clock : Instant}
  {journal : Journal} {simulation : Simulation C}

/-- Ranks that are all one are one. -/
theorem rankIds_of_same {ranks : List RankId} {id : RankId} (some : ranks ≠ [])
    (same : ∀ rank ∈ ranks, rank = id) : rankIds ranks = [id] := by
  have ascending := rankIds_ascending ranks
  have among {rank : RankId} : rank ∈ rankIds ranks ↔ rank ∈ ranks := mem_rankIds_iff some
  cases used : rankIds ranks with
  | nil =>
    obtain ⟨rank, inside⟩ := List.exists_mem_of_ne_nil _ some
    have missing := among.mpr inside
    rw [used] at missing
    cases missing
  | cons first rest =>
    have first_eq : first = id := same first (among.mp (used ▸ List.mem_cons_self))
    cases rest with
    | nil => rw [first_eq]
    | cons second rest =>
      have second_eq : second = id :=
        same second (among.mp (used ▸ List.mem_cons_of_mem _ List.mem_cons_self))
      rw [used] at ascending
      have less := List.rel_of_pairwise_cons ascending List.mem_cons_self
      exact absurd (first_eq.trans second_eq.symm) (Nat.ne_of_lt less)

/-- Where no link leads to another rank, there is no latency that bounds the windows. -/
theorem lookahead_of_unjoined (built : (build registry options topology clock journal).2 = .ok simulation)
    (unjoined : topology.Unjoined) : simulation.lookahead = none := by
  obtain ⟨assembly, realizes⟩ := realizes_of_build built
  have follows := realizes.follows
  have inner : assembly.links.toList.filter Link.crossesRanks = [] := by
    refine List.filter_eq_nil_iff.mpr fun link inside => ?_
    obtain ⟨number, there⟩ := List.mem_iff_getElem?.mp inside
    obtain ⟨spec, defined, joins⟩ := related_of_getElem? follows.joined there
    have owner (side : Side) : ∃ holder ∈ topology.components,
        holder.name = (spec.endAt side).component ∧ (link.endAt side).rank = holder.rank := by
      obtain ⟨holder, -, here, name, -⟩ := (follows.names (joins.located side)).found
      have among := List.mem_of_getElem? here
      exact ⟨holder, among, name, follows.rank_of_located (joins.located side) among name⟩
    obtain ⟨first, here, name, near⟩ := owner .a
    obtain ⟨second, also, called, far⟩ := owner .b
    have same := unjoined spec (List.mem_of_getElem? defined) first here second also name called
    rw [Link.crossesRanks, bne_iff_ne, not_not]
    exact near.trans (same.trans far.symm)
  rw [realizes.lookahead, lookaheadOf, inner]
  rfl

/-- Where no link leads to another rank, each rank with components can be built alone, and corresponds to the
one that is built with all others. -/
theorem exists_alone (built : (build registry options topology clock journal).2 = .ok simulation)
    (unjoined : topology.Unjoined) (oblivious : registry.Oblivious) (some : topology.components ≠ [])
    {rank : Rank C} (inside : rank ∈ simulation.ranks) : ∃ separate alone,
      (build registry options (topology.only rank.id) clock journal).2 = .ok separate ∧
      separate.ranks = [alone] ∧ rank.Corresponds (topology.numbers rank.id) alone := by
  obtain ⟨assembly, placed, resolved, created, ranks, -⟩ := build_ok built
  have follows := Assembly.follows_of_ofTopology resolved
  have creates := creates_of_placeAll created
  obtain ⟨alone, checked⟩ := (Assembly.passes_iff_valid registry (topology.only rank.id)).1.mpr
    ((Assembly.valid_of_ofTopology resolved).only rank.id)
  have single := Assembly.follows_of_ofTopology checked
  obtain ⟨others, made⟩ := exists_placeAll clock journal
    (exists_fitted_alone follows single creates unjoined oblivious)
  have makes := creates_of_placeAll made
  have same := ranks_of_creates single makes
  have used : rankIds (others.map Placed.rank) = [rank.id] := by
    rw [← same]
    refine rankIds_of_same ?_ fun number among => ?_
    · have among : rank.id ∈ simulation.ranks.map Rank.id := List.mem_map_of_mem inside
      have specs : topology.components.map ComponentSpec.rank ≠ [] :=
        fun none => some (List.map_eq_nil_iff.mp none)
      rw [ids_of_build built, mem_rankIds_iff specs] at among
      obtain ⟨spec, present, here⟩ := List.mem_map.mp among
      exact List.ne_nil_of_mem
        (List.mem_map_of_mem (List.mem_filter.mpr ⟨present, beq_iff_eq.mpr here⟩))
    · obtain ⟨spec, present, rfl⟩ := List.mem_map.mp among
      exact beq_iff_eq.mp (List.mem_filter.mp present).2
  have whole : rank = rankOf assembly.links options.limit placed rank.id := by
    rw [ranks] at inside
    obtain ⟨id, -, rfl⟩ := List.mem_map.mp inside
    rfl
  refine ⟨⟨[rankOf alone.links options.limit others rank.id], lookaheadOf alone.links.toList, options.limit,
    options.quiet⟩, rankOf alone.links options.limit others rank.id, ?_, rfl, ?_⟩
  · unfold build
    rw [checked]
    dsimp only
    split
    · next wrong =>
      rw [wrong] at made
      cases made
    · next right =>
      rw [right] at made
      cases made
      rw [used]
      rfl
  · rw [whole]
    exact corresponds_rankOf follows single creates makes unjoined oblivious options.limit

end Simulation

/-- A player plays alike where links have other numbers, and its ports are bound to these. -/
theorem Play.Configured.renumber {renumber : LinkId → LinkId} {wired others : PortId → Option (LinkId × Side)}
    (wires : ∀ port, wired port = (others port).map fun wire => (renumber wire.1, wire.2))
    {play other : Play} {ports twins : Ports} (configured : Configured wired play ports)
    (also : Configured others other twins) : play = other ∧ ∀ port : PortId,
      ports[port]?.join = (twins[port]?.join).map (Binding.renumber renumber) := by
  cases configured with
  | loop inout input output =>
    cases also with
    | loop there first second =>
      rw [wires, there] at inout
      cases inout
      refine ⟨rfl, fun port => ?_⟩
      rcases port with - | - | - | port <;> rfl
    | relay none first second =>
      rw [wires, none] at inout
      cases inout
  | relay inout input output =>
    cases also with
    | loop there first second =>
      rw [wires, there] at inout
      cases inout
    | relay none first second =>
      rw [wires, first] at input
      rw [wires, second] at output
      cases input
      cases output
      refine ⟨rfl, fun port => ?_⟩
      rcases port with - | - | - | port <;> rfl

/-- Links offer a player the same ways to play, whatever their numbers are. -/
theorem Play.Configured.offered {wired : PortId → Option (LinkId × Side)} {play : Play} {ports : Ports}
    (configured : Configured wired play ports) : Offered wired := by
  cases configured with
  | loop inout input output => exact Or.inl ⟨by rw [inout]; rfl, input, output⟩
  | relay inout input output => exact Or.inr ⟨inout, by rw [input]; rfl, by rw [output]; rfl⟩

namespace Player

/-- Players do not depend on the numbers of links. -/
theorem oblivious_type {C : Type} (wrap : Player → C) (role : Role) : (type wrap role).Oblivious := by
  intro renumber site other declared same fitted creates
  rw [ports_type] at declared
  obtain ⟨play, rounds, configured, told, component, votes⟩ := created_of_type declared creates
  have offered : Play.Offered fun port => other.wiring.lookup port := by
    have wires (port : PortId) (free : site.wiring.lookup port = none) : other.wiring.lookup port = none := by
      rw [same.wiring] at free
      exact Option.map_eq_none_iff.mp free
    have held (port : PortId) (taken : (site.wiring.lookup port).isSome) :
        (other.wiring.lookup port).isSome := by
      rwa [same.wiring, Option.isSome_map] at taken
    rcases configured.offered with ⟨inout, input, output⟩ | ⟨inout, input, output⟩
    · exact Or.inl ⟨held 0 inout, wires 1 input, wires 2 output⟩
    · exact Or.inr ⟨wires 0 inout, held 1 input, held 2 output⟩
  obtain ⟨twin, makes⟩ := exists_created wrap role (same.declared ▸ declared)
    (fun initiator => ⟨rounds, same.params ▸ told initiator⟩) offered
  obtain ⟨way, count, joined, reads, made, casts⟩ := created_of_type (same.declared ▸ declared) makes
  obtain ⟨rfl, bindings⟩ := configured.renumber same.wiring joined
  refine ⟨twin, makes, ?_, votes.trans casts.symm, bindings⟩
  rw [component, made, same.rank]
  cases role with
  | initiator =>
    have equal := (told rfl).symm.trans (same.params ▸ reads rfl)
    rw [Except.ok.inj equal]
  | responder => rfl

/-- So do no types of the registry. -/
theorem oblivious : registry.Oblivious := by
  intro name type known
  obtain ⟨role, -, rfl⟩ := exists_role_of_registry known
  exact oblivious_type _ role

end Player

end Rally
