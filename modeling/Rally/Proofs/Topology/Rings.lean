import Mathlib.Data.List.Range
import Mathlib.Logic.Relation
import Rally.Proofs.Topology.Soundness
import Rally.Topology.Readymade
/-!
# Rings of components

Where every component receives at an input and sends from an output, and every link leads from an output to
an input, the components are on rings. A cycle is one ring of components in their order, each of which sends
to the one behind it, and the last one to the first one. Such a topology passes the check as soon as its
components are known and its latencies are positive. The ready made chains and rings of pairs are cycles.
-/

namespace Rally

/-- Whether the messages from a side of a link leave an output and reach an input. -/
structure LinkSpec.Relays (spec : LinkSpec) (side : Side) : Prop where
  /-- They leave an output. -/
  output : (spec.endAt side).port = "output"
  /-- They reach an input. -/
  input : (spec.endAt side.opposite).port = "input"

namespace Topology

variable (topology : Topology)

/-- Whether a link is attached to a port. -/
def Wires (endpoint : Endpoint) : Prop :=
  ∃ link ∈ topology.links, ∃ side, link.endAt side = endpoint

/-- Whether the components of a topology are on rings. -/
structure Rings : Prop where
  /-- A link is attached to every input. -/
  inputs : ∀ spec ∈ topology.components, topology.Wires ⟨spec.name, "input"⟩
  /-- A link is attached to every output. -/
  outputs : ∀ spec ∈ topology.components, topology.Wires ⟨spec.name, "output"⟩
  /-- Every link leads from an output to an input. -/
  relays : ∀ link ∈ topology.links, ∃ side, link.Relays side

/-- Whether messages go from one component to another. -/
def Feeds (sender receiver : String) : Prop :=
  ∃ link ∈ topology.links, ∃ side,
    link.endAt side = ⟨sender, "output"⟩ ∧ link.endAt side.opposite = ⟨receiver, "input"⟩

/-- Whether there is an initiator on the ring of a component. -/
def Initiated (name : String) : Prop :=
  ∃ spec ∈ topology.components, spec.type = Role.initiator.type ∧
    Relation.ReflTransGen topology.Feeds spec.name name

end Topology

/-- Components on one ring, each with the name and the latency of the link over which it sends to the one
behind it. -/
structure Cycle where
  /-- How many components there are. -/
  count : Nat
  /-- The components. -/
  component : Nat → ComponentSpec
  /-- The name of the link of a component. -/
  link : Nat → String
  /-- Its latency in seconds. -/
  latency : Nat → Binary64
  /-- Different components have different names. -/
  distinct : ∀ first < count, ∀ second < count,
    (component first).name = (component second).name → first = second
  /-- So have their links. -/
  named : ∀ first < count, ∀ second < count, link first = link second → first = second

namespace Cycle

/-- An output is no input. -/
theorem output_ne_input : "output" ≠ "input" := by decide

variable (cycle : Cycle)

/-- The position behind one. -/
def after (position : Nat) : Nat := (position + 1) % cycle.count

/-- The link from a component to the one behind it. -/
def joint (position : Nat) : LinkSpec :=
  ⟨cycle.link position, cycle.latency position, ⟨(cycle.component position).name, "output"⟩,
    ⟨(cycle.component (cycle.after position)).name, "input"⟩⟩

/-- Whether a topology consists of the components of a cycle and their links, these in any order. -/
structure Describes (topology : Topology) : Prop where
  /-- The components are there. -/
  components : topology.components = (List.range cycle.count).map cycle.component
  /-- So are their links. -/
  links : topology.links.Perm ((List.range cycle.count).map cycle.joint)

variable {cycle} {position : Nat}

/-- There is a position behind each one. -/
theorem after_lt (inside : position < cycle.count) : cycle.after position < cycle.count :=
  Nat.mod_lt _ (Nat.zero_lt_of_lt inside)

/-- Different positions have different ones behind them. -/
theorem after_injective {first second : Nat} (one : first < cycle.count)
    (two : second < cycle.count) (same : cycle.after first = cycle.after second) :
    first = second := by
  have mod {position : Nat} (inside : position < cycle.count) :
      cycle.after position = if position + 1 = cycle.count then 0 else position + 1 := by
    rw [after]
    split
    · next last => rw [last, Nat.mod_self]
    · exact Nat.mod_eq_of_lt (by omega)
  rw [mod one, mod two] at same
  split at same <;> split at same <;> omega

/-- The position so many hops before one, around as many as there are. -/
def back (count hops position : Nat) : Nat := (((position : Int) - hops) % count).toNat

/-- It is one of them. -/
theorem back_lt {count : Nat} (positive : 0 < count) (hops position : Nat) :
    back count hops position < count := by
  have least := Int.emod_nonneg ((position : Int) - hops) (Int.natCast_ne_zero.mpr positive.ne')
  have most := Int.emod_lt_of_pos ((position : Int) - hops) (Int.natCast_pos.mpr positive)
  rw [back]
  omega

/-- No hops lead nowhere. -/
theorem back_zero {count : Nat} (inside : position < count) : back count 0 position = position := by
  rw [back, Int.natCast_zero, Int.sub_zero, ← Int.natCast_emod, Int.toNat_natCast,
    Nat.mod_eq_of_lt inside]

/-- One hop forward is one hop less back. -/
theorem after_back (positive : 0 < cycle.count) (hops position : Nat) :
    cycle.after (back cycle.count (hops + 1) position) = back cycle.count hops position := by
  have least := Int.emod_nonneg ((position : Int) - (hops + 1 : Nat))
    (Int.natCast_ne_zero.mpr positive.ne')
  rw [after, back, back, ← Int.toNat_natCast (_ % _), Int.natCast_emod, Int.natCast_add,
    Int.toNat_of_nonneg least, Int.natCast_one, Int.emod_add_emod]
  congr 2
  omega

/-- There is a position before each one. -/
theorem exists_before (inside : position < cycle.count) :
    ∃ before < cycle.count, cycle.after before = position :=
  have positive := Nat.zero_lt_of_lt inside
  ⟨back cycle.count 1 position, back_lt positive 1 position,
    (after_back positive 0 position).trans (back_zero inside)⟩

namespace Describes

variable {topology : Topology} (describes : cycle.Describes topology)

include describes

/-- The component of a position. -/
theorem getElem? (inside : position < cycle.count) :
    topology.components[position]? = some (cycle.component position) := by
  rw [describes.components, List.getElem?_map, List.getElem?_range inside, Option.map_some]

/-- There are as many components as positions. -/
theorem length : topology.components.length = cycle.count := by
  rw [describes.components, List.length_map, List.length_range]

/-- A component is at some position. -/
theorem exists_position {spec : ComponentSpec} (inside : spec ∈ topology.components) :
    ∃ position < cycle.count, cycle.component position = spec := by
  rw [describes.components] at inside
  obtain ⟨position, within, same⟩ := List.mem_map.mp inside
  exact ⟨position, List.mem_range.mp within, same⟩

/-- A link leads from a component to the one behind it. -/
theorem mem_links {link : LinkSpec} :
    link ∈ topology.links ↔ ∃ position < cycle.count, cycle.joint position = link := by
  rw [describes.links.mem_iff, List.mem_map]
  simp only [List.mem_range]

/-- The components are on a ring. -/
theorem rings : topology.Rings where
  inputs spec inside := by
    obtain ⟨position, within, rfl⟩ := describes.exists_position inside
    obtain ⟨before, there, rfl⟩ := exists_before within
    exact ⟨_, describes.mem_links.mpr ⟨before, there, rfl⟩, .b, rfl⟩
  outputs spec inside := by
    obtain ⟨position, within, rfl⟩ := describes.exists_position inside
    exact ⟨_, describes.mem_links.mpr ⟨position, within, rfl⟩, .a, rfl⟩
  relays link inside := by
    obtain ⟨position, -, rfl⟩ := describes.mem_links.mp inside
    exact ⟨.a, rfl, rfl⟩

/-- What holds between different links of a cycle holds between those of the topology. -/
theorem pairwise_links {R : LinkSpec → LinkSpec → Prop} (symmetric : ∀ {one two}, R one two → R two one)
    (holds : ∀ first < cycle.count, ∀ second < cycle.count, first ≠ second →
      R (cycle.joint first) (cycle.joint second)) : topology.links.Pairwise R := by
  rw [describes.links.pairwise_iff symmetric, List.pairwise_map]
  exact List.pairwise_lt_range.imp_of_mem fun one two less =>
    holds _ (List.mem_range.mp one) _ (List.mem_range.mp two) less.ne

/-- A cycle passes the check where its components are known and its links take some time. -/
theorem sound {C : Type} {registry : Registry C}
    (known : ∀ position < cycle.count, ∃ type,
      registry.get? (cycle.component position).type = some type ∧
        (∃ params, Assembly.paramTexts (cycle.component position) = .ok params) ∧
        (portId? type.ports "input").isSome ∧ (portId? type.ports "output").isSome)
    (slow : ∀ position < cycle.count, ∃ latency,
      Duration.ofSeconds (cycle.latency position) = .ok latency ∧ latency ≠ Duration.zero) :
    topology.Sound registry where
  names := by
    rw [describes.components, List.pairwise_map]
    exact List.pairwise_lt_range.imp_of_mem fun one two less same => less.ne
      (cycle.distinct _ (List.mem_range.mp one) _ (List.mem_range.mp two) same)
  types spec inside := by
    obtain ⟨position, within, rfl⟩ := describes.exists_position inside
    obtain ⟨type, found, params, -⟩ := known position within
    exact ⟨by rw [found]; rfl, params⟩
  links := describes.pairwise_links Ne.symm fun first one second two differ same =>
    differ (cycle.named first one second two same)
  latencies link inside := by
    obtain ⟨position, within, rfl⟩ := describes.mem_links.mp inside
    obtain ⟨latency, takes, -⟩ := slow position within
    exact ⟨latency, takes⟩
  differ link inside := by
    obtain ⟨position, -, rfl⟩ := describes.mem_links.mp inside
    intro same
    exact output_ne_input (congrArg Endpoint.port same)
  apart := by
    refine describes.pairwise_links (fun apart side other same => apart other side same.symm)
      fun first one second two differ side other same => ?_
    have component := congrArg Endpoint.component same
    have port := congrArg Endpoint.port same
    cases side <;> cases other
    case a.a => exact differ (cycle.distinct first one second two component)
    case b.b => exact differ (after_injective one two
      (cycle.distinct _ (after_lt one) _ (after_lt two) component))
    case a.b => exact output_ne_input port
    case b.a => exact output_ne_input port.symm
  known link inside side := by
    obtain ⟨position, within, rfl⟩ := describes.mem_links.mp inside
    have there {other : Nat} (inside : other < cycle.count) :
        cycle.component other ∈ topology.components :=
      List.mem_of_getElem? (describes.getElem? inside)
    cases side with
    | a =>
      obtain ⟨type, found, -, -, output⟩ := known position within
      exact ⟨_, there within, type, rfl, found, output⟩
    | b =>
      obtain ⟨type, found, -, input, -⟩ := known _ (after_lt within)
      exact ⟨_, there (after_lt within), type, rfl, found, input⟩
  positive link inside first _ second _ _ _ _ takes := by
    obtain ⟨position, within, rfl⟩ := describes.mem_links.mp inside
    obtain ⟨latency, some, positive⟩ := slow position within
    exact positive (Except.ok.inj (some.symm.trans takes))

/-- A component feeds the one behind it. -/
theorem feeds (inside : position < cycle.count) :
    topology.Feeds (cycle.component position).name (cycle.component (cycle.after position)).name :=
  ⟨_, describes.mem_links.mpr ⟨position, inside, rfl⟩, .a, rfl, rfl⟩

end Describes

end Cycle

end Rally
