import Rally.Proofs.Player.Rings
import Rally.Proofs.Topology.Soundness
/-!
# Topologies of players that are built

A topology of players is built where it passes the check, each player is joined to others either by its port
for both directions or by its two ports for one direction each, and the rounds that initiators are to play can
be read.
-/

namespace Rally

section Joining

variable {site : Site}

/-- A port to which a link is attached can be configured. -/
theorem Site.exists_configure (mode : PortMode) {port : String} (bindings : site.Bindings)
    (wired : (site.wire? port).isSome) : ∃ configured, site.configure mode port bindings = .ok configured := by
  unfold configure
  split
  · exact ⟨_, rfl⟩
  · next unwired =>
    rw [unwired] at wired
    cases wired

/-- Whether links are attached to the first port alone, or to all others. -/
def Play.Offered (wired : PortId → Option (LinkId × Side)) : Prop :=
  (wired 0).isSome ∧ wired 1 = none ∧ wired 2 = none ∨
    wired 0 = none ∧ (wired 1).isSome ∧ (wired 2).isSome

/-- A player whose ports offer a way to play can be configured. -/
theorem Play.exists_configure (declared : site.declared = Play.ports)
    (offered : Offered fun port => site.wiring.lookup port) :
    ∃ configured, configure site = .ok configured := by
  have declares (id : PortId) (port : String) (named : portId? Play.ports port = some id) :
      portId? site.declared port = some id := declared ▸ named
  have inout : site.isWired "inout" = (site.wiring.lookup 0).isSome :=
    Site.isWired_eq (declares 0 _ rfl)
  have input : site.isWired "input" = (site.wiring.lookup 1).isSome :=
    Site.isWired_eq (declares 1 _ rfl)
  have output : site.isWired "output" = (site.wiring.lookup 2).isSome :=
    Site.isWired_eq (declares 2 _ rfl)
  rcases offered with ⟨both, first, second⟩ | ⟨both, first, second⟩
  · obtain ⟨⟨id, bindings⟩, configured⟩ :=
      Site.exists_configure .duplex site.noPorts (inout.trans both)
    have others : ["input", "output"].find? site.isWired = none := by
      simp [input, output, first, second]
    refine ⟨(.loop id, bindings), ?_⟩
    rw [configure, if_pos (inout.trans both), others, configured]
    rfl
  · obtain ⟨⟨id, bindings⟩, configured⟩ :=
      Site.exists_configure .duplex site.noPorts (input.trans first)
    obtain ⟨⟨other, all⟩, further⟩ :=
      Site.exists_configure .sendOnly bindings (output.trans second)
    refine ⟨(.relay id other, all), ?_⟩
    rw [configure, if_neg (by simp [inout, both]), configured]
    change (site.configure .sendOnly "output" bindings).bind _ = _
    rw [further]
    rfl

end Joining

namespace Player

/-- Both roles have types, with the ports of all players. -/
theorem exists_type (role : Role) :
    ∃ type, registry.get? role.type = some type ∧ type.ports = Play.ports := by
  cases role <;> exact ⟨_, rfl, rfl⟩

/-- A player of a role whose ports offer a way to play, and whose rounds can be read, is created. -/
theorem exists_created {C : Type} (wrap : Player → C) (role : Role) {site : Site}
    (declared : site.declared = Play.ports)
    (told : role = .initiator → ∃ rounds, rounds? site.params = .ok rounds)
    (offered : Play.Offered fun port => site.wiring.lookup port) :
    ∃ fitted, ((type wrap role).create site).result = .ok fitted := by
  obtain ⟨configuration, configured⟩ := Play.exists_configure declared offered
  cases role with
  | initiator =>
    obtain ⟨rounds, reads⟩ := told rfl
    change site.params.find "model" (Parameters.natural? 64) Ping.defaultRounds = _ at reads
    suffices creates : ∃ fitted,
        ((Ping.create site).map fun ping => wrap (.ping ping)).result = .ok fitted from creates
    unfold Creation.map Ping.create
    rw [reads, configured]
    exact ⟨_, rfl⟩
  | responder =>
    suffices creates : ∃ fitted,
        ((Pong.create site).map fun pong => wrap (.pong pong)).result = .ok fitted from creates
    unfold Creation.map Pong.create
    rw [configured]
    exact ⟨_, rfl⟩

/-- So is a part of its type. -/
theorem exists_fitted {part : Part Player} {name : String}
    (known : registry.get? name = some part.type)
    (told : name = Role.initiator.type → ∃ rounds, rounds? part.params = .ok rounds)
    (offered : Play.Offered fun port => part.wiring.lookup port) :
    ∃ fitted, (part.type.create (Simulation.site part)).result = .ok fitted := by
  obtain ⟨role, rfl, type⟩ := exists_role_of_registry known
  rw [type]
  exact exists_created _ role (ports_of_registry known) (fun same => told (congrArg Role.type same)) offered

end Player

namespace Simulation

variable {C : Type}

/-- Parts whose components can be created are placed. -/
theorem exists_placeAll (clock : Instant) {parts : List (Part C)} (journal : Journal)
    (creates : ∀ part ∈ parts, ∃ fitted, (part.type.create (site part)).result = .ok fitted) :
    ∃ placed, (placeAll clock parts journal).2 = .ok placed := by
  induction parts generalizing journal with
  | nil => exact ⟨[], rfl⟩
  | cons part rest ih =>
    obtain ⟨fitted, created⟩ := creates part List.mem_cons_self
    have first : ∃ one, (place clock part journal).2 = .ok one := by
      unfold place
      unfold site at created
      simp only [created]
      exact ⟨_, rfl⟩
    obtain ⟨one, first⟩ := first
    obtain ⟨others, placed⟩ := ih (place clock part journal).1 fun other inside =>
      creates other (List.mem_cons_of_mem _ inside)
    refine ⟨one :: others, ?_⟩
    rw [placeAll]
    split
    · next wrong =>
      rw [wrong] at first
      cases first
    · next more found right =>
      rw [right] at first placed
      cases first
      split
      · next wrong =>
        rw [wrong] at placed
        cases placed
      · next also =>
        rw [also] at placed
        cases placed
        rfl

end Simulation

namespace Topology

/-- Whether the links at the ports of a component tell a player how to play. -/
def Offers (topology : Topology) (name : String) : Prop :=
  topology.Wires ⟨name, "inout"⟩ ∧ ¬ topology.Wires ⟨name, "input"⟩ ∧
      ¬ topology.Wires ⟨name, "output"⟩ ∨
    ¬ topology.Wires ⟨name, "inout"⟩ ∧ topology.Wires ⟨name, "input"⟩ ∧
      topology.Wires ⟨name, "output"⟩

/-- What a topology of players needs to be built. -/
structure Playable (topology : Topology) : Prop where
  /-- It passes the check. -/
  sound : topology.Sound Player.registry
  /-- The rounds of initiators can be read. -/
  told : ∀ spec ∈ topology.components, spec.type = Role.initiator.type →
    ∀ params, Assembly.paramTexts spec = .ok params → ∃ rounds, Player.rounds? params = .ok rounds
  /-- All players can be joined. -/
  offers : ∀ spec ∈ topology.components, topology.Offers spec.name

end Topology

/-- A link is attached to a port of a part where the topology has one there. -/
theorem Assembly.Follows.isSome_lookup {topology : Topology} {assembly : Assembly Player}
    (follows : assembly.Follows Player.registry topology) {id : ComponentId} {spec : ComponentSpec}
    {part : Part Player} (known : topology.components[id]? = some spec)
    (present : assembly.parts[id]? = some part) {name : String} {port : PortId}
    (declared : portId? Play.ports name = some port) :
    (part.wiring.lookup port).isSome ↔ topology.Wires ⟨spec.name, name⟩ := by
  constructor
  · intro attached
    obtain ⟨⟨link, side⟩, wired⟩ := Option.isSome_iff_exists.mp attached
    obtain ⟨size, component, at_port⟩ := (follows.lookup_iff present).mp wired
    obtain ⟨definition, there⟩ := follows.exists_link size
    obtain ⟨-, other, found, called, port⟩ := follows.end_of_player there side
    rw [component, known, Option.some.injEq] at found
    subst found
    rw [at_port] at port
    refine ⟨definition, List.mem_of_getElem? there, side, ?_⟩
    rw [called, ← Assembly.port_eq port declared]
  · rintro ⟨definition, inside, side, same⟩
    obtain ⟨link, there⟩ := List.mem_iff_getElem?.mp inside
    obtain ⟨size, other, found, called, port⟩ := follows.end_of_player there side
    rw [same] at called port
    refine Option.isSome_iff_exists.mpr ⟨(link, side), (follows.lookup_iff present).mpr
      ⟨size, follows.position_eq known found called, ?_⟩⟩
    exact Option.some.inj (port.symm.trans declared)

/-- A topology of players that are joined is built. -/
theorem Simulation.exists_of_playable {topology : Topology} (playable : topology.Playable)
    (options : Options) (clock : Instant) (journal : Journal) : ∃ simulation,
    (build Player.registry options topology clock journal).2 = .ok simulation := by
  obtain ⟨assembly, checked⟩ := Assembly.exists_assembly playable.sound
  have follows := Assembly.follows_of_ofTopology checked
  have creates : ∀ part ∈ assembly.parts.toList,
      ∃ fitted, (part.type.create (site part)).result = .ok fitted := by
    intro part inside
    obtain ⟨id, present⟩ := List.mem_iff_getElem?.mp inside
    obtain ⟨spec, known, describes⟩ := related_of_getElem? follows.described present
    have among := List.mem_of_getElem? known
    have wires {name : String} {port : PortId} (declared : portId? Play.ports name = some port) :=
      follows.isSome_lookup known (Array.getElem?_toList ▸ present) declared
    have free {name : String} {port : PortId} (declared : portId? Play.ports name = some port)
        (unwired : ¬ topology.Wires ⟨spec.name, name⟩) : part.wiring.lookup port = none :=
      Option.not_isSome_iff_eq_none.mp (mt (wires declared).mp unwired)
    refine Player.exists_fitted describes.type
      (fun type => playable.told spec among type part.params describes.params) ?_
    rcases playable.offers spec among with ⟨both, first, second⟩ | ⟨both, first, second⟩
    · exact Or.inl ⟨(wires rfl).mpr both, free rfl first, free rfl second⟩
    · exact Or.inr ⟨free rfl both, (wires rfl).mpr first, (wires rfl).mpr second⟩
  obtain ⟨placed, created⟩ := exists_placeAll clock journal creates
  unfold build
  rw [checked]
  split
  · next wrong =>
    cases wrong
  · next other same =>
    cases same
    split
    · next wrong =>
      rw [wrong] at created
      cases created
    · exact ⟨_, rfl⟩

end Rally
