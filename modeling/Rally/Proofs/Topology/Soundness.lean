import Mathlib.Data.List.Pairwise
import Rally.Proofs.Topology.Wiring
/-!
# Topologies that pass the check

A topology passes the check where its components and its links have different names, the types of the
components are known and their parameters have texts, and each link has a latency, leads from one port of a
component to another one, to none of which another link is attached, and takes some time between two ranks.
-/

namespace Rally

/-- What a topology needs to pass the check. -/
structure Topology.Sound {C : Type} (registry : Registry C) (topology : Topology) : Prop where
  /-- Different components have different names. -/
  names : topology.components.Pairwise fun first second => first.name ≠ second.name
  /-- Their types are known, and their parameters have texts. -/
  types : ∀ spec ∈ topology.components, (registry.get? spec.type).isSome ∧
    ∃ params, Assembly.paramTexts spec = .ok params
  /-- Different links have different names. -/
  links : topology.links.Pairwise fun first second => first.name ≠ second.name
  /-- They have latencies. -/
  latencies : ∀ link ∈ topology.links, ∃ latency, Duration.ofSeconds link.latency = .ok latency
  /-- No link leads back to its port. -/
  differ : ∀ link ∈ topology.links, link.a ≠ link.b
  /-- No two links are at one port. -/
  apart : topology.links.Pairwise fun first second =>
    ∀ side other, first.endAt side ≠ second.endAt other
  /-- Links are at ports of components. -/
  known : ∀ link ∈ topology.links, ∀ side, ∃ spec ∈ topology.components, ∃ type,
    spec.name = (link.endAt side).component ∧ registry.get? spec.type = some type ∧
      (portId? type.ports (link.endAt side).port).isSome
  /-- A link between two ranks takes some time. -/
  positive : ∀ link ∈ topology.links, ∀ first ∈ topology.components,
    ∀ second ∈ topology.components, first.name = link.a.component →
      second.name = link.b.component → first.rank ≠ second.rank →
        Duration.ofSeconds link.latency ≠ .ok Duration.zero

namespace Assembly

variable {C : Type} {registry : Registry C} {parts others : Parts C} {endpoint : Endpoint}

/-- Components with different names, known types and texts for parameters become parts. -/
theorem exists_parts (before : List ComponentSpec) {specs : List ComponentSpec}
    (names : specs.Pairwise fun first second => first.name ≠ second.name)
    (fresh : ∀ spec ∈ specs, ∀ other ∈ before, other.name ≠ spec.name)
    (types : ∀ spec ∈ specs, (registry.get? spec.type).isSome ∧
      ∃ params, paramTexts spec = .ok params) :
    ∃ parts, partsBehind registry before specs = .ok parts := by
  induction specs generalizing before with
  | nil => exact ⟨[], rfl⟩
  | cons spec rest ih =>
    obtain ⟨differ, names⟩ := List.pairwise_cons.mp names
    obtain ⟨registered, params, texts⟩ := types spec List.mem_cons_self
    obtain ⟨type, known⟩ := Option.isSome_iff_exists.mp registered
    have single : before.any (fun other => other.name == spec.name) = false := by
      rw [List.any_eq_false]
      exact fun other inside same =>
        fresh spec List.mem_cons_self other inside (beq_iff_eq.mp same)
    obtain ⟨parts, behind⟩ := ih (spec :: before) names (fun other inside former known => by
      rcases List.mem_cons.mp known with rfl | known
      · exact differ other inside
      · exact fresh other (List.mem_cons_of_mem _ inside) former known)
      fun other inside => types other (List.mem_cons_of_mem _ inside)
    refine ⟨⟨spec.name, spec.rank, type, params, []⟩ :: parts, ?_⟩
    simp only [partsBehind, part, single, known, texts, behind]
    rfl

/-- Whether an endpoint is read as a place among parts. -/
structure Finds (parts : Parts C) (endpoint : Endpoint) (place : LinkEnd) : Prop where
  /-- The first part of the name has the port, and is on the rank. -/
  found : ∃ part, componentId? parts endpoint.component = some place.component ∧
    parts[place.component]? = some part ∧
    portId? part.type.ports endpoint.port = some place.port ∧ part.rank = place.rank

/-- Where an endpoint is does not depend on what is attached to parts. -/
theorem Finds.of_bare {place : LinkEnd} (finds : Finds parts endpoint place)
    (same : others.map bare = parts.map bare) : Finds others endpoint place := by
  obtain ⟨part, position, there, declared, rank⟩ := finds.found
  have bared : (others.map bare)[place.component]? = some (bare part) := by
    rw [same, Array.getElem?_map, there]
    rfl
  rw [Array.getElem?_map] at bared
  obtain ⟨other, here, alike⟩ := Option.map_eq_some_iff.mp bared
  have search (group : Parts C) : componentId? group endpoint.component =
      componentId? (group.map bare) endpoint.component := by
    rw [componentId?, componentId?, Array.findIdx?_map]
    rfl
  refine ⟨other, ?_, here, ?_, ?_⟩
  · rw [search, same, ← search]
    exact position
  · have type : (bare other).type = (bare part).type := by rw [alike]
    exact type.symm ▸ declared
  · have placed : (bare other).rank = (bare part).rank := by rw [alike]
    exact placed.trans rank

/-- Whether links are attached to ports at some endpoints alone. -/
def Taken (used : Endpoint → Prop) (parts : Parts C) : Prop :=
  ∀ (id : ComponentId) (part : Part C), parts[id]? = some part → ∀ port wire,
    part.wiring.lookup port = some wire → ∃ endpoint, used endpoint ∧
      endpoint.component = part.name ∧ portId? part.type.ports endpoint.port = some port

/-- Ports have different numbers. -/
theorem port_eq {declared : List PortInfo} {first second : String} {number : PortId}
    (here : portId? declared first = some number) (there : portId? declared second = some number) :
    first = second := by
  obtain ⟨_, one, -⟩ := List.findIdx?_eq_some_iff_getElem.mp here
  obtain ⟨_, other, -⟩ := List.findIdx?_eq_some_iff_getElem.mp there
  exact (beq_iff_eq.mp one).symm.trans (beq_iff_eq.mp other)

/-- An end of a link is attached to a port to which no link is. -/
theorem exists_attach (spec : LinkSpec) (id : LinkId) (side : Side) {place : LinkEnd}
    {used : Endpoint → Prop} (finds : Finds parts endpoint place) (taken : Taken used parts)
    (free : ¬ used endpoint) :
    ∃ attached, attach spec id side endpoint parts = .ok (place, attached) ∧
      attached.map bare = parts.map bare ∧
      Taken (fun other => used other ∨ other = endpoint) attached := by
  obtain ⟨part, position, there, declared, rank⟩ := finds.found
  obtain ⟨inside, same⟩ := Array.getElem?_eq_some_iff.mp there
  have name : part.name = endpoint.component := by
    obtain ⟨_, found, -⟩ := Array.findIdx?_eq_some_iff_getElem.mp position
    rw [same] at found
    exact beq_iff_eq.mp found
  have untaken : (part.wiring.lookup place.port).isSome = false := by
    cases attached : part.wiring.lookup place.port with
    | none => rfl
    | some wire =>
      obtain ⟨other, uses, component, port⟩ := taken _ part there _ wire attached
      have equal : other = endpoint := by
        obtain ⟨holder, label⟩ := other
        obtain ⟨owner, title⟩ := endpoint
        cases component.trans name
        cases port_eq port declared
        rfl
      exact absurd (equal ▸ uses) free
  let wired := { part with wiring := (place.port, id, side) :: part.wiring }
  have passes : attach spec id side endpoint parts =
      .ok (place, parts.setIfInBounds place.component wired) := by
    have whole : (⟨place.component, place.port, part.rank⟩ : LinkEnd) = place := by rw [rank]
    simp only [attach, position, there, declared, untaken, Bool.false_eq_true, if_false, whole]
    rfl
  refine ⟨_, passes, bare_attach passes, fun other holder present port wire attached => ?_⟩
  by_cases here : other = place.component
  · subst here
    rw [Array.getElem?_setIfInBounds_self, if_pos inside, Option.some.injEq] at present
    subst present
    by_cases equal : port = place.port
    · exact ⟨endpoint, Or.inr rfl, name.symm, equal ▸ declared⟩
    · change ((place.port, id, side) :: part.wiring).lookup port = some wire at attached
      rw [List.lookup_cons, beq_eq_false_iff_ne.mpr equal] at attached
      obtain ⟨former, uses, found⟩ := taken _ part there port wire attached
      exact ⟨former, Or.inl uses, found⟩
  · rw [Array.getElem?_setIfInBounds_ne (Ne.symm here)] at present
    obtain ⟨former, uses, found⟩ := taken _ holder present port wire attached
    exact ⟨former, Or.inl uses, found⟩

/-- A link with a name and a latency, at two ports to which none is attached, passes the check. -/
theorem exists_link {before : List LinkSpec} {spec : LinkSpec} {latency : Duration}
    {used : Endpoint → Prop} (single : ∀ other ∈ before, other.name ≠ spec.name)
    (takes : Duration.ofSeconds spec.latency = .ok latency) (differ : spec.a ≠ spec.b)
    (finds : ∀ side, ∃ place, Finds parts (spec.endAt side) place) (taken : Taken used parts)
    (free : ∀ side, ¬ used (spec.endAt side))
    (positive : ∀ a b, Finds parts spec.a a → Finds parts spec.b b → a.rank ≠ b.rank →
      latency ≠ Duration.zero) :
    ∃ joined wired, link before spec parts = .ok (joined, wired) ∧
      wired.map bare = parts.map bare ∧
      Taken (fun endpoint => used endpoint ∨ ∃ side, spec.endAt side = endpoint) wired := by
  obtain ⟨a, here⟩ := finds .a
  obtain ⟨b, there⟩ := finds .b
  obtain ⟨half, first, same, used⟩ := exists_attach spec before.length .a here taken (free .a)
  obtain ⟨wired, second, also, used⟩ := exists_attach spec before.length .b
    (there.of_bare same) used fun former =>
      former.elim (free .b) fun again => differ again.symm
  have fresh : before.any (fun other => other.name == spec.name) = false := by
    rw [List.any_eq_false]
    exact fun other inside same => single other inside (beq_iff_eq.mp same)
  have slow : ((⟨spec.name, latency, a, b⟩ : Link).crossesRanks && latency == Duration.zero) =
      false := by
    rw [Bool.and_eq_false_iff]
    by_cases same : a.rank = b.rank
    · left
      simp [Link.crossesRanks, same]
    · exact Or.inr (beq_eq_false_iff_ne.mpr (positive a b here there same))
  refine ⟨⟨spec.name, latency, a, b⟩, wired, ?_, also.trans same, fun id part there port wire attached => ?_⟩
  · change attach spec before.length .a spec.a parts = _ at first
    change attach spec before.length .b spec.b half = _ at second
    simp only [link, fresh, takes, differ, first, second, slow, bind, Except.bind, Except.mapError,
      pure, Except.pure, if_false, Bool.false_eq_true]
  · obtain ⟨endpoint, uses, found⟩ := used id part there port wire attached
    refine ⟨endpoint, ?_, found⟩
    rcases uses with (former | rfl) | rfl
    · exact Or.inl former
    · exact Or.inr ⟨.a, rfl⟩
    · exact Or.inr ⟨.b, rfl⟩

/-- Links that fit together pass the check behind others. -/
theorem exists_links (before : List LinkSpec) {specs : List LinkSpec}
    (names : specs.Pairwise fun first second => first.name ≠ second.name)
    (fresh : ∀ spec ∈ specs, ∀ other ∈ before, other.name ≠ spec.name)
    (latencies : ∀ spec ∈ specs, ∃ latency, Duration.ofSeconds spec.latency = .ok latency)
    (differ : ∀ spec ∈ specs, spec.a ≠ spec.b)
    (apart : specs.Pairwise fun first second =>
      ∀ side other, first.endAt side ≠ second.endAt other)
    (finds : ∀ spec ∈ specs, ∀ side, ∃ place, Finds parts (spec.endAt side) place)
    (positive : ∀ spec ∈ specs, ∀ a b, Finds parts spec.a a → Finds parts spec.b b →
      a.rank ≠ b.rank → Duration.ofSeconds spec.latency ≠ .ok Duration.zero)
    {used : Endpoint → Prop} (taken : Taken used parts)
    (free : ∀ spec ∈ specs, ∀ side, ¬ used (spec.endAt side)) :
    ∃ links wired, linksBehind before specs parts = .ok (links, wired) := by
  induction specs generalizing before parts used with
  | nil => exact ⟨[], parts, rfl⟩
  | cons spec rest ih =>
    obtain ⟨distinct, names⟩ := List.pairwise_cons.mp names
    obtain ⟨away, apart⟩ := List.pairwise_cons.mp apart
    obtain ⟨latency, takes⟩ := latencies spec List.mem_cons_self
    obtain ⟨joined, half, first, same, used⟩ := exists_link (fresh spec List.mem_cons_self) takes
      (differ spec List.mem_cons_self) (finds spec List.mem_cons_self) taken
      (free spec List.mem_cons_self) fun a b here there crosses zero =>
        positive spec List.mem_cons_self a b here there crosses (zero ▸ takes)
    have within {other : LinkSpec} (inside : other ∈ rest) : other ∈ spec :: rest :=
      List.mem_cons_of_mem _ inside
    obtain ⟨links, wired, others⟩ := ih (spec :: before) names
      (fun other inside former known => by
        rcases List.mem_cons.mp known with rfl | known
        · exact distinct other inside
        · exact fresh other (within inside) former known)
      (fun other inside => latencies other (within inside))
      (fun other inside => differ other (within inside)) apart
      (fun other inside side => (finds other (within inside) side).imp fun _ found =>
        found.of_bare same)
      (fun other inside a b here there => positive other (within inside) a b
        (here.of_bare same.symm) (there.of_bare same.symm))
      used fun other inside side taken => by
        rcases taken with former | ⟨turn, again⟩
        · exact free other (within inside) side former
        · exact away other inside turn side again
    refine ⟨joined :: links, wired, ?_⟩
    rw [linksBehind, first]
    change (linksBehind (spec :: before) rest half).bind _ = _
    rw [others]
    rfl

section Described

variable {specs : List ComponentSpec} {list : List (Part C)}
  (described : List.Forall₂ (Describes registry) specs list)

include described

/-- An endpoint is found at a component of its name, on the rank of this. -/
theorem Finds.exists_spec {place : LinkEnd} (finds : Finds list.toArray endpoint place) :
    ∃ spec ∈ specs, spec.name = endpoint.component ∧ spec.rank = place.rank := by
  obtain ⟨part, position, there, -, rank⟩ := finds.found
  obtain ⟨_, found, -⟩ := Array.findIdx?_eq_some_iff_getElem.mp position
  obtain ⟨_, same⟩ := Array.getElem?_eq_some_iff.mp there
  rw [same] at found
  obtain ⟨spec, known, describes⟩ := related_of_getElem? described (Array.getElem?_toList ▸ there)
  exact ⟨spec, List.mem_of_getElem? known, describes.name ▸ beq_iff_eq.mp found,
    describes.rank ▸ rank⟩

/-- Where components have different names, an endpoint is found at a port of the one that it names. -/
theorem exists_finds (distinct : specs.Pairwise fun first second => first.name ≠ second.name)
    {spec : ComponentSpec} {type : ComponentType C} (inside : spec ∈ specs)
    (name : spec.name = endpoint.component) (known : registry.get? spec.type = some type)
    (declares : (portId? type.ports endpoint.port).isSome) :
    ∃ place, Finds list.toArray endpoint place := by
  obtain ⟨port, declared⟩ := Option.isSome_iff_exists.mp declares
  have some : (componentId? list.toArray endpoint.component).isSome := by
    obtain ⟨position, there⟩ := List.mem_iff_getElem?.mp inside
    have within : position < list.length :=
      described.length_eq ▸ (List.getElem?_eq_some_iff.mp there).1
    obtain ⟨other, same, describes⟩ :=
      related_of_getElem? described (List.getElem?_eq_getElem within)
    rw [there, Option.some.injEq] at same
    rw [componentId?, Array.findIdx?_isSome, Array.any_eq_true]
    refine ⟨position, within, ?_⟩
    rw [List.getElem_toArray, describes.name, ← same, name]
    exact beq_self_eq_true _
  obtain ⟨id, position⟩ := Option.isSome_iff_exists.mp some
  obtain ⟨within, found, -⟩ := Array.findIdx?_eq_some_iff_getElem.mp position
  obtain ⟨other, there, describes⟩ :=
    related_of_getElem? described (List.getElem?_eq_getElem within)
  have same : other = spec := by
    by_contra differ
    have symmetric : Std.Symm fun first second : ComponentSpec => first.name ≠ second.name :=
      ⟨fun _ _ => Ne.symm⟩
    exact distinct.forall (List.mem_of_getElem? there) inside differ
      ((describes.name.symm.trans (beq_iff_eq.mp found)).trans name.symm)
  subst same
  have type := describes.type
  rw [known, Option.some.injEq] at type
  exact ⟨⟨id, port, _⟩, _, position, List.getElem?_toArray.trans (List.getElem?_eq_getElem within),
    type ▸ declared, rfl⟩

end Described

/-- A topology that is sound passes the check. -/
theorem exists_assembly {topology : Topology} (sound : topology.Sound registry) :
    ∃ assembly, ofTopology registry topology = .ok assembly := by
  obtain ⟨parts, checked⟩ := exists_parts [] sound.names
    (fun _ _ _ none => absurd none List.not_mem_nil) sound.types
  obtain ⟨distinct, -, described, blank⟩ := partsBehind_ok checked
  have untaken : Taken (fun _ => False) parts.toArray := by
    intro id part there port wire attached
    rw [blank part (List.mem_of_getElem? (Array.getElem?_toList ▸ there))] at attached
    cases attached
  obtain ⟨links, wired, joined⟩ := exists_links [] sound.links
    (fun _ _ _ none => absurd none List.not_mem_nil) sound.latencies sound.differ sound.apart
    (fun link inside side => by
      obtain ⟨spec, among, type, name, known, declares⟩ := sound.known link inside side
      exact exists_finds described distinct among name known declares)
    (fun link inside a b here there crosses => by
      obtain ⟨first, one, named, placed⟩ := here.exists_spec described
      obtain ⟨second, other, called, put⟩ := there.exists_spec described
      exact sound.positive link inside first one second other named called
        (placed ▸ put ▸ crosses))
    untaken fun _ _ _ => id
  refine ⟨⟨wired, links.toArray⟩, ?_⟩
  rw [ofTopology, checked]
  change (linksBehind [] topology.links parts.toArray).bind _ = _
  rw [joined]
  rfl

end Assembly

end Rally
