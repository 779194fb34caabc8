import Rally.Player
import Rally.Proofs.Topology.Soundness
import Rally.Topology.Readymade
/-!
# What the check of a topology decides

A topology passes the check just where ten plain conditions hold of its components and links. What becomes of
it tells each of two things from the other: which link end a port holds, and at which port a link ends.
-/

namespace Rally

/-- Whether a value can be a parameter: a text, a number or a truth value. -/
def Yaml.Value.IsScalar : Yaml.Value → Prop
  | .string _ | .number _ | .bool _ => True
  | .null | .sequence _ | .mapping _ | .tagged _ _ => False

/-- The conditions under which a topology can be built with the component types of a registry. -/
structure Topology.Valid {C : Type} (registry : Registry C) (topology : Topology) : Prop where
  /-- Different components have different names. -/
  components : topology.components.Pairwise fun first second => first.name ≠ second.name
  /-- Their types are registered. -/
  types : ∀ spec ∈ topology.components, (registry.get? spec.type).isSome
  /-- Their parameters are texts, numbers and truth values. -/
  params : ∀ spec ∈ topology.components, ∀ entry ∈ spec.params, entry.2.IsScalar
  /-- Different links have different names. -/
  links : topology.links.Pairwise fun first second => first.name ≠ second.name
  /-- Their latencies are durations. -/
  latencies : ∀ link ∈ topology.links, ∃ latency, Duration.ofSeconds link.latency = .ok latency
  /-- The two ends of a link differ. -/
  differ : ∀ link ∈ topology.links, link.a ≠ link.b
  /-- An end names a component and a port that its type declares. -/
  known : ∀ link ∈ topology.links, ∀ side, ∃ spec ∈ topology.components,
    spec.name = (link.endAt side).component ∧ ∃ type, registry.get? spec.type = some type ∧
      ∃ port ∈ type.ports, port.name = (link.endAt side).port
  /-- No two ends of links name one port of one component. -/
  apart : ∀ (i j : LinkId) (first second : LinkSpec), topology.links[i]? = some first →
    topology.links[j]? = some second → ∀ side other, first.endAt side = second.endAt other →
      i = j ∧ side = other
  /-- A link between components on different ranks takes some time. -/
  positive : ∀ link ∈ topology.links, ∀ first ∈ topology.components,
    ∀ second ∈ topology.components, first.name = link.a.component →
      second.name = link.b.component → first.rank ≠ second.rank →
        Duration.ofSeconds link.latency ≠ .ok Duration.zero

namespace Assembly

variable {C : Type} {registry : Registry C} {topology : Topology} {assembly : Assembly C}

/-- Whether what is attached to ports and the ends of links are two readings of one relation. -/
structure Mirrors (assembly : Assembly C) : Prop where
  /-- A link end is on the rank of its component, to the port of which it is attached. -/
  held : ∀ (id : LinkId) (joined : Link) (side : Side), assembly.links[id]? = some joined →
    ∃ part, assembly.parts[(joined.endAt side).component]? = some part ∧
      part.rank = (joined.endAt side).rank ∧
      part.wiring.lookup (joined.endAt side).port = some (id, side)
  /-- What is attached to a port of a component is the end of a link there. -/
  ends : ∀ (component : ComponentId) (part : Part C), assembly.parts[component]? = some part →
    ∀ (port : PortId) (id : LinkId) (side : Side), (port, id, side) ∈ part.wiring →
      ∃ joined, assembly.links[id]? = some joined ∧
        joined.endAt side = ⟨component, port, part.rank⟩

/-- A value becomes a text just where it can be a parameter. -/
theorem paramText_ok_iff (component key : String) (value : Yaml.Value) :
    (∃ text, paramText component key value = .ok text) ↔ value.IsScalar := by
  cases value <;> simp [paramText, Yaml.Value.IsScalar]

/-- The parameters of a component become texts just where all of them can be parameters. -/
theorem paramTexts_ok_iff (spec : ComponentSpec) :
    (∃ params, paramTexts spec = .ok params) ↔ ∀ entry ∈ spec.params, entry.2.IsScalar := by
  -- The texts found so far do not matter to those that are still to be found.
  suffices behind : ∀ (entries : Keyed Yaml.Value) (former : Parameters),
      (∃ params, entries.foldlM
        (fun params entry => (paramText spec.name entry.1 entry.2).map (params.insert entry.1))
        former = .ok params) ↔ ∀ entry ∈ entries, entry.2.IsScalar from behind spec.params _
  intro entries
  induction entries with
  | nil => exact fun former => ⟨fun _ _ none => absurd none List.not_mem_nil, fun _ => ⟨former, rfl⟩⟩
  | cons entry rest ih =>
    intro former
    obtain ⟨key, value⟩ := entry
    rw [List.forall_mem_cons, List.foldlM_cons, ← paramText_ok_iff spec.name key value]
    cases paramText spec.name key value with
    | error problem =>
      constructor
      · rintro ⟨params, passes⟩
        simp only [Except.map, bind, Except.bind, reduceCtorEq] at passes
      · rintro ⟨⟨text, passes⟩, -⟩
        cases passes
    | ok text =>
      simp only [Except.map, bind, Except.bind]
      exact (ih (former.insert key text)).trans
        ⟨fun rest => ⟨⟨text, rfl⟩, rest⟩, fun both => both.2⟩

/-- Whether each port of the parts is attached to one link end at most. -/
def Single (parts : Parts C) : Prop :=
  ∀ (id : ComponentId) (part : Part C), parts[id]? = some part →
    (part.wiring.map Prod.fst).Nodup

/-- An end is attached to a port to which none is. -/
theorem Single.attach {spec : LinkSpec} {id : LinkId} {side : Side} {endpoint : Endpoint}
    {parts attached : Parts C} {place : LinkEnd} (single : Single parts)
    (passes : Assembly.attach spec id side endpoint parts = .ok (place, attached)) :
    Single attached := by
  obtain ⟨part, found, -, -, -, free, rfl⟩ := attach_ok passes
  obtain ⟨inside, -⟩ := Array.getElem?_eq_some_iff.mp found
  intro component other present
  by_cases here : place.component = component
  · subst here
    rw [Array.getElem?_setIfInBounds_self, if_pos inside, Option.some.injEq] at present
    subst present
    refine List.nodup_cons.mpr ⟨fun taken => ?_, single _ part found⟩
    obtain ⟨entry, among, same⟩ := List.mem_map.mp taken
    have differ := List.lookup_eq_none_iff.mp free entry among
    rw [same, bne_self_eq_false] at differ
    cases differ
  · rw [Array.getElem?_setIfInBounds_ne here] at present
    exact single component other present

/-- Where a port is attached to one link end at most, this is found. -/
theorem lookup_of_mem {wiring : Wiring} (single : (wiring.map Prod.fst).Nodup) {port : PortId}
    {wire : LinkId × Side} (inside : (port, wire) ∈ wiring) :
    wiring.lookup port = some wire := by
  induction wiring with
  | nil => exact absurd inside List.not_mem_nil
  | cons entry rest ih =>
    obtain ⟨fresh, single⟩ := List.nodup_cons.mp single
    rcases List.mem_cons.mp inside with rfl | later
    · exact List.lookup_cons_self
    · have differ : port ≠ entry.1 := fun same =>
        fresh (same ▸ List.mem_map_of_mem later)
      rw [List.lookup_cons, beq_eq_false_iff_ne.mpr differ]
      exact ih single later

/-- Links that pass the check behind others have new names and two ends, which are attached to ports
to which none is. -/
theorem names_of_linksBehind {before specs : List LinkSpec} {parts wired : Parts C}
    {links : List Link} (passes : linksBehind before specs parts = .ok (links, wired)) :
    specs.Pairwise (fun first second => first.name ≠ second.name) ∧
      (∀ spec ∈ specs, ∀ other ∈ before, other.name ≠ spec.name) ∧
      (∀ spec ∈ specs, spec.a ≠ spec.b) ∧ (Single parts → Single wired) := by
  induction specs generalizing before parts wired links with
  | nil =>
    cases passes
    exact ⟨.nil, fun _ none => absurd none List.not_mem_nil,
      fun _ none => absurd none List.not_mem_nil, id⟩
  | cons spec rest ih =>
    simp only [linksBehind, bind, Except.bind] at passes
    cases first : link before spec parts with
    | error problem =>
      rw [first] at passes
      cases passes
    | ok checked =>
      obtain ⟨joined, middle⟩ := checked
      simp only [first] at passes
      cases behind : linksBehind (spec :: before) rest middle with
      | error problem =>
        rw [behind] at passes
        cases passes
      | ok others =>
        simp only [behind] at passes
        cases passes
        obtain ⟨fresh, differ, _, _, _, half, -, one, other, -⟩ := attaches_of_link first
        obtain ⟨distinct, later, differs, keeps⟩ := ih behind
        refine ⟨List.pairwise_cons.mpr ⟨fun other inside => ?_, distinct⟩, fun next inside => ?_,
          fun next inside => ?_, fun single => keeps ((single.attach one).attach other)⟩
        · exact later other inside spec List.mem_cons_self
        · rcases List.mem_cons.mp inside with rfl | inside
          · exact fresh
          · exact fun former known => later next inside former (List.mem_cons_of_mem _ known)
        · rcases List.mem_cons.mp inside with rfl | inside
          · exact differ
          · exact differs next inside

/-- What the links of a topology that passes the check are, and what is attached to its ports. -/
theorem names_of_ofTopology (passes : ofTopology registry topology = .ok assembly) :
    topology.links.Pairwise (fun first second => first.name ≠ second.name) ∧
      (∀ link ∈ topology.links, link.a ≠ link.b) ∧ Single assembly.parts := by
  simp only [ofTopology, bind, Except.bind, pure, Except.pure] at passes
  cases components : partsBehind registry [] topology.components with
  | error problem =>
    rw [components] at passes
    cases passes
  | ok parts =>
    simp only [components] at passes
    cases behind : linksBehind [] topology.links parts.toArray with
    | error problem =>
      rw [behind] at passes
      cases passes
    | ok wired =>
      simp only [behind] at passes
      cases passes
      obtain ⟨-, -, -, blank⟩ := partsBehind_ok components
      obtain ⟨distinct, -, differ, keeps⟩ := names_of_linksBehind behind
      refine ⟨distinct, differ, keeps fun id part found => ?_⟩
      rw [List.getElem?_toArray] at found
      rw [blank part (List.mem_of_getElem? found)]
      exact List.nodup_nil

/-- What is attached to ports and the ends of links tell one another. -/
theorem Follows.mirrors (follows : assembly.Follows registry topology)
    (single : Single assembly.parts) : assembly.Mirrors where
  held id joined side there := by
    rw [← Array.getElem?_toList] at there
    obtain ⟨spec, -, joins⟩ := related_of_getElem? follows.joined there
    obtain ⟨part, found, -, -, rank⟩ := (joins.located side).found
    obtain ⟨holder, here, taken⟩ := follows.occupied id joined there side
    rw [found, Option.some.injEq] at here
    exact ⟨part, found, rank, here ▸ taken⟩
  ends component part found port id side inside := by
    obtain ⟨joined, there, same⟩ :=
      follows.attached component part found port id side
        (lookup_of_mem (single component part found) inside)
    exact ⟨joined, by rwa [Array.getElem?_toList] at there, same⟩

/-- The component of a located end is the one that its endpoint names. -/
theorem Follows.rank_of_located (follows : assembly.Follows registry topology)
    {endpoint : Endpoint} {place : LinkEnd} (located : Located assembly.parts endpoint place)
    {spec : ComponentSpec} (inside : spec ∈ topology.components)
    (name : spec.name = endpoint.component) : place.rank = spec.rank := by
  obtain ⟨part, found, called, -, rank⟩ := located.found
  rw [← Array.getElem?_toList] at found
  obtain ⟨twin, there, describes⟩ := related_of_getElem? follows.described found
  obtain ⟨id, here⟩ := List.mem_iff_getElem?.mp inside
  obtain rfl := follows.position_eq there here
    (name.trans (called.symm.trans describes.name))
  rw [there, Option.some.injEq] at here
  rw [← rank, describes.rank, here]

/-- A topology that passes the check is valid. -/
theorem valid_of_ofTopology (passes : ofTopology registry topology = .ok assembly) :
    topology.Valid registry := by
  have follows := follows_of_ofTopology passes
  obtain ⟨names, differ, -⟩ := names_of_ofTopology passes
  have described {spec : ComponentSpec} (inside : spec ∈ topology.components) :
      ∃ part, Describes registry spec part := by
    obtain ⟨id, there⟩ := List.mem_iff_getElem?.mp inside
    obtain ⟨part, -, describes⟩ := related_of_getElem? follows.described.flip there
    exact ⟨part, describes⟩
  have joined {link : LinkSpec} (inside : link ∈ topology.links) :
      ∃ joined, Joins assembly.parts link joined := by
    obtain ⟨id, there⟩ := List.mem_iff_getElem?.mp inside
    obtain ⟨joined, -, joins⟩ := related_of_getElem? follows.joined.flip there
    exact ⟨joined, joins⟩
  constructor
  case components => exact follows.distinct
  case types =>
    intro spec inside
    obtain ⟨part, describes⟩ := described inside
    exact Option.isSome_of_eq_some describes.type
  case params =>
    intro spec inside
    obtain ⟨part, describes⟩ := described inside
    exact (paramTexts_ok_iff spec).mp ⟨_, describes.params⟩
  case links => exact names
  case latencies =>
    intro link inside
    obtain ⟨joined, joins⟩ := joined inside
    cases takes : Duration.ofSeconds link.latency with
    | error problem => exact nomatch takes ▸ joins.latency
    | ok latency => exact ⟨latency, rfl⟩
  case differ => exact differ
  case known =>
    intro link inside side
    obtain ⟨joined, joins⟩ := joined inside
    obtain ⟨spec, type, there, name, known, declared⟩ :=
      (follows.names (joins.located side)).found
    obtain ⟨within, same, -⟩ := List.findIdx?_eq_some_iff_getElem.mp declared
    exact ⟨spec, List.mem_of_getElem? there, name, type, known, _, List.getElem_mem within,
      beq_iff_eq.mp same⟩
  case apart =>
    intro i j first second here there side other same
    obtain ⟨one, found, joins⟩ := related_of_getElem? follows.joined.flip here
    obtain ⟨two, present, meets⟩ := related_of_getElem? follows.joined.flip there
    have names := follows.names (joins.located side)
    rw [same] at names
    obtain ⟨component, port⟩ := names.eq (follows.names (meets.located other))
    exact follows.end_unique found present component port
  case positive =>
    intro link inside first among second within here there crosses zero
    obtain ⟨joined, joins⟩ := joined inside
    have one := follows.rank_of_located (joins.located .a) among here
    have other := follows.rank_of_located (joins.located .b) within there
    have latency := joins.latency
    rw [zero] at latency
    refine joins.positive (bne_iff_ne.mpr ?_) (Option.some.inj latency).symm
    change (joined.endAt .a).rank ≠ (joined.endAt .b).rank
    rwa [one, other]

end Assembly

/-- A valid topology is sound. -/
theorem Topology.Valid.sound {C : Type} {registry : Registry C} {topology : Topology}
    (valid : topology.Valid registry) : topology.Sound registry where
  names := valid.components
  types spec inside := ⟨valid.types spec inside,
    (Assembly.paramTexts_ok_iff spec).mpr (valid.params spec inside)⟩
  links := valid.links
  latencies := valid.latencies
  differ := valid.differ
  apart := by
    refine List.pairwise_iff_getElem.mpr fun i j within inside before side other same => ?_
    have equal : i = j := (valid.apart i j _ _ (List.getElem?_eq_getElem within)
      (List.getElem?_eq_getElem inside) side other same).1
    exact absurd equal (Nat.ne_of_lt before)
  known link inside side := by
    obtain ⟨spec, among, name, type, known, port, declared, same⟩ := valid.known link inside side
    refine ⟨spec, among, type, name, known, ?_⟩
    rw [portId?, List.findIdx?_isSome, List.any_eq_true]
    exact ⟨port, declared, beq_iff_eq.mpr same⟩
  positive := valid.positive

namespace Assembly

/-- A topology passes the check just where it is valid; then its parts are described by its components,
its links by its definitions of links, and both tell alike which end of a link is at which port. -/
theorem passes_iff_valid {C : Type} (registry : Registry C) (topology : Topology) :
    ((∃ assembly, ofTopology registry topology = .ok assembly) ↔ topology.Valid registry) ∧
      ∀ assembly, ofTopology registry topology = .ok assembly →
        List.Forall₂ (Describes registry) topology.components assembly.parts.toList ∧
          List.Forall₂ (Joins assembly.parts) topology.links assembly.links.toList ∧
          assembly.Mirrors := by
  refine ⟨⟨fun ⟨assembly, passes⟩ => valid_of_ofTopology passes,
    fun valid => exists_assembly valid.sound⟩, fun assembly passes => ?_⟩
  have follows := follows_of_ofTopology passes
  obtain ⟨-, -, single⟩ := names_of_ofTopology passes
  exact ⟨follows.described, follows.joined, follows.mirrors single⟩

/-- Two players with a link each way pass the check. -/
theorem passes_iff_valid_relayChain :
    (Topology.relayChain [(.initiator, 0), (.responder, 1)] 1).Valid
        (Registry.builtin id : Registry Player) ∧
      ∃ assembly, ofTopology (Registry.builtin id : Registry Player)
        (.relayChain [(.initiator, 0), (.responder, 1)] 1) = .ok assembly ∧ assembly.Mirrors := by
  obtain ⟨decides, tells⟩ := passes_iff_valid (Registry.builtin id : Registry Player)
    (.relayChain [(.initiator, 0), (.responder, 1)] 1)
  have some : ((ofTopology (Registry.builtin id : Registry Player)
      (.relayChain [(.initiator, 0), (.responder, 1)] 1)).toOption.map fun _ => ()) = some () := by
    decide +kernel
  cases passes : ofTopology (Registry.builtin id : Registry Player)
      (.relayChain [(.initiator, 0), (.responder, 1)] 1) with
  | error problem =>
    rw [passes] at some
    cases some
  | ok assembly =>
    exact ⟨decides.mp ⟨assembly, passes⟩, assembly, rfl, (tells assembly passes).2.2⟩

end Assembly

end Rally
