import Rally.Proofs.Topology.Wiring
/-!
# Topologies on other ranks

The components of a topology can be placed on any ranks. Where two placements pass the check, their
links join the same ports of the same components and take the same time, and the same is attached to
the ports of each component.
-/

namespace Rally

/-- Whether links join the same ports and take the same time, on whatever ranks their ends are. -/
structure Parallel (links others : Array Link) : Prop where
  /-- There are as many links. -/
  size : links.size = others.size
  /-- Ends are at the same components. -/
  component : ∀ link side, ((links.getD link default).endAt side).component =
    ((others.getD link default).endAt side).component
  /-- They are at the same ports. -/
  port : ∀ link side, ((links.getD link default).endAt side).port =
    ((others.getD link default).endAt side).port
  /-- Messages take the same time. -/
  latency : ∀ link, (links.getD link default).latency = (others.getD link default).latency

namespace Topology

/-- Places the components of a topology on ranks. -/
def place (ranks : ComponentId → RankId) (topology : Topology) : Topology :=
  { topology with
    components := topology.components.mapIdx fun id spec => { spec with rank := ranks id } }

variable {C : Type} {registry : Registry C} {topology : Topology} {former latter : ComponentId → RankId}

/-- A component that is placed on a rank. -/
theorem getElem?_place (id : ComponentId) :
    (topology.place former).components[id]? =
      topology.components[id]?.map fun spec => { spec with rank := former id } :=
  List.getElem?_mapIdx

/-- Endpoints name the same ports, wherever the components are placed. -/
theorem Names.replace {endpoint : Endpoint} {component : ComponentId} {port : PortId}
    (names : (topology.place former).Names registry endpoint component port) :
    (topology.place latter).Names registry endpoint component port := by
  obtain ⟨⟨spec, type, there, name, known, declared⟩, unique⟩ := names
  rw [getElem?_place] at there
  obtain ⟨bare, found, rfl⟩ := Option.map_eq_some_iff.mp there
  refine ⟨⟨{ bare with rank := latter component }, type, ?_, name, known, declared⟩, ?_⟩
  · rw [getElem?_place, found]
    rfl
  · intro other spec there name
    rw [getElem?_place] at there
    obtain ⟨bare, found, rfl⟩ := Option.map_eq_some_iff.mp there
    refine unique other { bare with rank := former other } ?_ name
    rw [getElem?_place, found]
    rfl

end Topology

namespace Assembly

variable {C : Type} {registry : Registry C} {topology : Topology}
  {former latter : ComponentId → RankId} {assembly other : Assembly C}

/-- The links of two placements of a topology are parallel. -/
theorem Follows.parallel (follows : assembly.Follows registry (topology.place former))
    (also : other.Follows registry (topology.place latter)) :
    Parallel assembly.links other.links := by
  have one : topology.links.length = assembly.links.size := follows.joined.length_eq
  have two : topology.links.length = other.links.size := also.joined.length_eq
  have size := one.symm.trans two
  -- A link of the one and the link of its position in the other join what one definition says.
  have same (link : LinkId) : (assembly.links.getD link default).latency =
      (other.links.getD link default).latency ∧
      ∀ side, ((assembly.links.getD link default).endAt side).component =
          ((other.links.getD link default).endAt side).component ∧
        ((assembly.links.getD link default).endAt side).port =
          ((other.links.getD link default).endAt side).port := by
    by_cases known : link < assembly.links.size
    · obtain ⟨spec, there, joins⟩ := related_of_getElem? follows.joined (getElem?_links known)
      obtain ⟨twin, here, also'⟩ := related_of_getElem? also.joined (getElem?_links (size ▸ known))
      obtain rfl : spec = twin := Option.some.inj (there.symm.trans here)
      refine ⟨Option.some.inj (joins.latency.symm.trans also'.latency), fun side => ?_⟩
      exact (follows.names (joins.located side)).replace.eq (also.names (also'.located side))
    · have beyond : ¬ link < other.links.size := size ▸ known
      rw [Array.getD_eq_getD_getElem?, Array.getD_eq_getD_getElem?,
        Array.getElem?_eq_none (Nat.le_of_not_lt known),
        Array.getElem?_eq_none (Nat.le_of_not_lt beyond)]
      exact ⟨rfl, fun side => ⟨rfl, rfl⟩⟩
  exact ⟨size, fun link side => ((same link).2 side).1, fun link side => ((same link).2 side).2,
    fun link => (same link).1⟩

/-- What is attached to the port of a part is the end of a link there, and every end there is. -/
theorem Follows.lookup_iff {topology : Topology} (follows : assembly.Follows registry topology)
    {id : ComponentId} {part : Part C} (there : assembly.parts[id]? = some part) {port : PortId}
    {link : LinkId} {side : Side} :
    part.wiring.lookup port = some (link, side) ↔ link < assembly.links.size ∧
      ((assembly.links.getD link default).endAt side).component = id ∧
      ((assembly.links.getD link default).endAt side).port = port := by
  constructor
  · intro found
    obtain ⟨joined, known, same⟩ := follows.attached id part there port link side found
    have inside : link < assembly.links.size := (List.getElem?_eq_some_iff.mp known).1
    rw [getElem?_links inside, Option.some.injEq] at known
    rw [known, same]
    exact ⟨inside, rfl, rfl⟩
  · rintro ⟨known, component, place⟩
    obtain ⟨owner, found, taken⟩ := follows.occupied link _ (getElem?_links known) side
    rw [component, there, Option.some.injEq] at found
    rw [← place, found]
    exact taken

/-- The same is attached to the ports of a component in two placements of a topology. -/
theorem Follows.lookup_eq (follows : assembly.Follows registry (topology.place former))
    (also : other.Follows registry (topology.place latter)) {id : ComponentId}
    {part twin : Part C} (there : assembly.parts[id]? = some part)
    (here : other.parts[id]? = some twin) (port : PortId) :
    part.wiring.lookup port = twin.wiring.lookup port := by
  have parallel := follows.parallel also
  refine Option.ext fun wire => ?_
  obtain ⟨link, side⟩ := wire
  exact (follows.lookup_iff there).trans (Iff.trans (by
    rw [parallel.size, parallel.component, parallel.port]) (also.lookup_iff here).symm)

end Assembly

end Rally
