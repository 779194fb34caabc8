import Rally.Player
import Rally.Proofs.Pool.Determinacy
/-!
# How players are created

What is attached to the ports of a player decides how it plays: by one port in both directions, or by one
port for each direction. A player that was created plays in this way, has counted nothing, and an
initiator takes part in the vote.
-/

namespace Rally

namespace Site

variable {site : Site} {mode : PortMode} {port : String} {id : PortId}

/-- The link end attached to a port that is declared. -/
theorem wire?_eq (declared : portId? site.declared port = some id) :
    site.wire? port = (site.wiring.lookup id).map fun (link, side) => (id, link, side) := by
  rw [wire?, declared, Option.bind_some]

/-- A port that is declared and configured is bound to what is attached to it. -/
theorem configure_ok {bindings configured : site.Bindings} {place : PortId}
    (declared : portId? site.declared port = some place)
    (ok : site.configure mode port bindings = .ok (id, configured)) :
    id = place ∧ ∃ link side, site.wiring.lookup place = some (link, side) ∧
      configured.ports = bindings.ports.set place (some ⟨link, side, mode⟩) := by
  unfold configure at ok
  split at ok
  · next found link side wired =>
    cases ok
    have there := lookup_of_wire? wired
    rw [wire?_eq declared] at wired
    obtain ⟨wire, -, same⟩ := Option.map_eq_some_iff.mp wired
    obtain rfl := (Prod.mk.inj same).1
    exact ⟨rfl, link, side, there, rfl⟩
  · cases ok

/-- A port that is declared is wired if something is attached to it. -/
theorem isWired_eq (declared : portId? site.declared port = some id) :
    site.isWired port = (site.wiring.lookup id).isSome := by
  rw [isWired, wire?_eq declared, Option.isSome_map]

/-- Nothing is attached to a port that is declared and not wired. -/
theorem lookup_eq_none (declared : portId? site.declared port = some id)
    (unwired : ¬ site.isWired port = true) : site.wiring.lookup id = none := by
  rwa [isWired_eq declared, Option.not_isSome_iff_eq_none] at unwired

end Site

namespace Simulation

variable {C : Type} {registry : Registry C} {options : Options} {topology : Topology}
  {clock : Instant} {journal : Journal} {simulation : Simulation C}

/-- The components of ranks are those created for them. -/
theorem findSome?_seats (links : Array Link) (limit : Limit) (placed : List (Placed C))
    (id : ComponentId) :
    ((rankIds (placed.map Placed.rank)).map (rankOf links limit placed)).findSome?
      (fun rank => rank.seats id) = placed[id]?.map fun created => ⟨created.slot, created.rank⟩ := by
  have seat {rank : RankId} {seat : Seat C} :
      (rankOf links limit placed rank).seats id = some seat ↔
        ∃ created, placed[id]? = some created ∧ created.rank = rank ∧
          seat = ⟨created.slot, created.rank⟩ := by
    constructor
    · intro found
      obtain ⟨slot, owned, rfl⟩ := Option.map_eq_some_iff.mp found
      obtain ⟨created, there, rfl, rfl⟩ := slot?_rankOf.mp owned
      exact ⟨created, there, rfl, rfl⟩
    · rintro ⟨created, there, rfl, rfl⟩
      rw [Rank.seats, slot?_rankOf.mpr ⟨created, there, rfl, rfl⟩]
      rfl
  cases there : placed[id]? with
  | none =>
    refine List.findSome?_eq_none_iff.mpr fun rank inside => ?_
    obtain ⟨number, -, rfl⟩ := List.mem_map.mp inside
    refine Option.eq_none_iff_forall_ne_some.mpr fun other found => ?_
    obtain ⟨created, known, -⟩ := seat.mp found
    rw [there] at known
    cases known
  | some created =>
    have used : created.rank ∈ rankIds (placed.map Placed.rank) :=
      mem_rankIds (List.mem_map_of_mem (List.mem_of_getElem? there))
    cases found : ((rankIds (placed.map Placed.rank)).map (rankOf links limit placed)).findSome?
        (fun rank => rank.seats id) with
    | none =>
      have missing := List.findSome?_eq_none_iff.mp found _ (List.mem_map_of_mem used)
      rw [seat.mpr ⟨created, there, rfl, rfl⟩] at missing
      cases missing
    | some other =>
      obtain ⟨rank, inside, known⟩ := List.exists_of_findSome?_eq_some found
      obtain ⟨number, -, rfl⟩ := List.mem_map.mp inside
      obtain ⟨twin, here, -, rfl⟩ := seat.mp known
      rw [there] at here
      cases here
      rfl

/-- The components of a simulation that was built are those that their types create. -/
theorem creates_of_build
    (built : (build registry options topology clock journal).2 = .ok simulation) :
    ∃ assembly placed, simulation.Realizes registry topology assembly ∧
      List.Forall₂ Creates assembly.parts.toList placed ∧
      simulation.ranks = (rankIds (placed.map Placed.rank)).map
        (rankOf assembly.links options.limit placed) ∧
      ∀ id, simulation.places id = placed[id]?.map fun created => ⟨created.slot, created.rank⟩ := by
  obtain ⟨assembly, placed, realizes, created, ranks⟩ := placed_of_build built
  refine ⟨assembly, placed, realizes, creates_of_placeAll created, ranks, fun id => ?_⟩
  rw [places, ranks]
  exact findSome?_seats _ _ _ _

/-- What is in the place of a position is what its type creates for the part that the topology describes. -/
theorem created_of_places
    (built : (build registry options topology clock journal).2 = .ok simulation) :
    ∃ assembly, simulation.Realizes registry topology assembly ∧
      ∀ id seat, simulation.places id = some seat → ∃ spec part placed,
        topology.components[id]? = some spec ∧ assembly.parts[id]? = some part ∧
        Assembly.Describes registry spec part ∧ Creates part placed ∧
        seat = ⟨placed.slot, placed.rank⟩ := by
  obtain ⟨assembly, placed, realizes, creates, -, places⟩ := creates_of_build built
  refine ⟨assembly, realizes, fun id seat there => ?_⟩
  rw [places id] at there
  obtain ⟨created, found, rfl⟩ := Option.map_eq_some_iff.mp there
  obtain ⟨part, present, made⟩ := related_of_getElem? creates found
  obtain ⟨spec, known, describes⟩ := related_of_getElem? realizes.follows.described present
  rw [Array.getElem?_toList] at present
  exact ⟨spec, part, created, known, present, describes, made, rfl⟩

end Simulation

namespace Play

/-- How a player plays and which ports it has configured, for what is attached to its ports. -/
inductive Configured (wired : PortId → Option (LinkId × Side)) : Play → Ports → Prop where
  /-- A link is attached to the first port and to no other one. -/
  | loop {link : LinkId} {side : Side} (inout : wired 0 = some (link, side)) (input : wired 1 = none)
      (output : wired 2 = none) :
      Configured wired (.loop 0) [some ⟨link, side, .duplex⟩, none, none]
  /-- Links are attached to all ports but the first one. -/
  | relay {link other : LinkId} {side turn : Side} (inout : wired 0 = none)
      (input : wired 1 = some (link, side)) (output : wired 2 = some (other, turn)) :
      Configured wired (.relay 1 2)
        [none, some ⟨link, side, .duplex⟩, some ⟨other, turn, .sendOnly⟩]

variable {wired : PortId → Option (LinkId × Side)} {play other : Play} {ports others : Ports}

/-- What is attached to the ports of a player decides how it plays. -/
theorem Configured.eq (configured : Configured wired play ports)
    (also : Configured wired other others) : play = other ∧ ports = others := by
  cases configured with
  | loop inout input output =>
    cases also with
    | loop inoutToo _ _ =>
      rw [inout] at inoutToo
      cases inoutToo
      exact ⟨rfl, rfl⟩
    | relay none _ _ =>
      rw [inout] at none
      cases none
  | relay inout input output =>
    cases also with
    | loop there _ _ =>
      rw [inout] at there
      cases there
    | relay _ inputToo outputToo =>
      rw [input] at inputToo
      rw [output] at outputToo
      cases inputToo
      cases outputToo
      exact ⟨rfl, rfl⟩

/-- The ports of a player that is joined to others are configured. -/
theorem configured_of_configure {site : Site} (declared : site.declared = Play.ports)
    {bindings : site.Bindings} (ok : configure site = .ok (play, bindings)) :
    Configured (fun port => site.wiring.lookup port) play bindings.ports := by
  have inout : portId? site.declared "inout" = some 0 := by
    rw [declared]
    rfl
  have input : portId? site.declared "input" = some 1 := by
    rw [declared]
    rfl
  have output : portId? site.declared "output" = some 2 := by
    rw [declared]
    rfl
  have bare : site.noPorts.ports = [none, none, none] := by
    change List.replicate site.declared.length none = _
    rw [declared]
    rfl
  unfold configure at ok
  split at ok
  · split at ok
    · cases ok
    · next unwired =>
      rw [List.find?_eq_none] at unwired
      simp only [bind, Except.bind, pure, Except.pure] at ok
      split at ok
      · cases ok
      · next made configured =>
        cases ok
        obtain ⟨place, link, side, found, ports⟩ := Site.configure_ok inout configured
        rw [ports, bare, place]
        exact .loop found (Site.lookup_eq_none input (unwired "input" (by simp)))
          (Site.lookup_eq_none output (unwired "output" (by simp)))
  · next unwired =>
    simp only [bind, Except.bind, pure, Except.pure] at ok
    split at ok
    · cases ok
    · next made configured =>
      split at ok
      · cases ok
      · next more further =>
        cases ok
        obtain ⟨place, link, side, found, ports⟩ := Site.configure_ok input configured
        obtain ⟨spot, leads, turn, there, portsToo⟩ := Site.configure_ok output further
        rw [portsToo, ports, bare, place, spot]
        exact .relay (Site.lookup_eq_none inout unwired) found there

end Play

namespace Player

/-- The role of a player. -/
def role : Player → Role
  | .ping _ => .initiator
  | .pong _ => .responder

/-- How a player is joined to others. -/
def play : Player → Play
  | .ping player => player.play
  | .pong player => player.play

/-- The rounds that an initiator is told to play. -/
def rounds? (params : Parameters) : Except ConfigError Nat :=
  params.find "model" (Parameters.natural? 64) Ping.defaultRounds

/-- The type of the players of a role inside of another type. -/
def type {C : Type} (wrap : Player → C) : Role → ComponentType C
  | .initiator => Ping.type.map fun ping => wrap (.ping ping)
  | .responder => Pong.type.map fun pong => wrap (.pong pong)

/-- The types of players have the ports of all players. -/
theorem ports_type {C : Type} (wrap : Player → C) (role : Role) : (type wrap role).ports = Play.ports := by
  cases role <;> rfl

/-- A player of a role as it is created. -/
def created (play : Play) (rank : RankId) (rounds : Nat) : Role → Player
  | .initiator => .ping { play, rank, maxRounds := rounds, voter := .voting }
  | .responder => .pong { play, rank }

/-- The votes that are cast while a player of a role is created. -/
def birthVotes : Role → List Vote
  | .initiator => [.join]
  | .responder => []

/-- What the type of a role creates is a player of this role that is joined to others as its links ask for. -/
theorem created_of_type {C : Type} {wrap : Player → C} {role : Role} {site : Site}
    (declared : site.declared = Play.ports) {fitted : Fitted C site}
    (creates : ((type wrap role).create site).result = .ok fitted) :
    ∃ play rounds, Play.Configured (fun port => site.wiring.lookup port) play fitted.bindings.ports ∧
      (role = .initiator → rounds? site.params = .ok rounds) ∧
      fitted.component = wrap (created play site.rank rounds role) ∧
      fitted.votes = birthVotes role := by
  cases role with
  | initiator =>
    change ((Ping.create site).map fun ping => wrap (.ping ping)).result = .ok fitted at creates
    unfold Creation.map Ping.create at creates
    split at creates
    · cases creates
    · next rounds told =>
      cases ok : Play.configure site with
      | error problem =>
        rw [ok] at creates
        cases creates
      | ok configuration =>
        rw [ok] at creates
        cases creates
        exact ⟨_, rounds, Play.configured_of_configure declared ok, fun _ => told, rfl, rfl⟩
  | responder =>
    change ((Pong.create site).map fun pong => wrap (.pong pong)).result = .ok fitted at creates
    unfold Creation.map Pong.create at creates
    cases ok : Play.configure site with
    | error problem =>
      rw [ok] at creates
      cases creates
    | ok configuration =>
      rw [ok] at creates
      cases creates
      exact ⟨_, 0, Play.configured_of_configure declared ok, (fun none => by cases none), rfl, rfl⟩

/-- Whether a component is a player in the state in which players are created. -/
inductive Made (part : Part Player) : Player → Ports → List Vote → Prop where
  /-- An initiator. -/
  | ping {play : Play} {ports : Ports} {rounds : Nat}
      (type : part.type.fullName = Role.initiator.type) (told : rounds? part.params = .ok rounds)
      (configured : Play.Configured (fun port => part.wiring.lookup port) play ports) :
      Made part
        (.ping { play := play, rank := part.rank, maxRounds := rounds, voter := .voting }) ports [.join]
  /-- A responder. -/
  | pong {play : Play} {ports : Ports} (type : part.type.fullName = Role.responder.type)
      (configured : Play.Configured (fun port => part.wiring.lookup port) play ports) :
      Made part (.pong { play := play, rank := part.rank }) ports []

/-- The registry of players alone. -/
abbrev registry : Registry Player := Registry.builtin id

/-- The types of players are those of the two roles. -/
theorem type_of_registry {name : String} {type : ComponentType Player}
    (known : registry.get? name = some type) :
    name = Role.initiator.type ∧ type = Ping.type.map .ping ∨
      name = Role.responder.type ∧ type = Pong.type.map .pong := by
  have types : registry.types =
      [(Role.initiator.type, Ping.type.map .ping), (Role.responder.type, Pong.type.map .pong)] := by
    rfl
  rw [Registry.get?, types, Keyed.get?, Keyed.get?, Keyed.get?] at known
  split at known
  · next same => exact Or.inl ⟨same.symm, (Option.some.inj known).symm⟩
  · split at known
    · next same => exact Or.inr ⟨same.symm, (Option.some.inj known).symm⟩
    · cases known

/-- They are those that are put inside of no other type. -/
theorem exists_role_of_registry {name : String} {type : ComponentType Player}
    (known : registry.get? name = some type) :
    ∃ role : Role, name = role.type ∧ type = Player.type (fun player => player) role := by
  rcases type_of_registry known with ⟨rfl, rfl⟩ | ⟨rfl, rfl⟩
  · exact ⟨.initiator, rfl, rfl⟩
  · exact ⟨.responder, rfl, rfl⟩

/-- What a type of players creates is a player. -/
theorem made_of_creates {part : Part Player} {placed : Simulation.Placed Player}
    (creates : Simulation.Creates part placed) {name : String}
    (known : registry.get? name = some part.type) :
    Made part placed.slot.component placed.slot.ports placed.votes := by
  obtain ⟨fitted, made, rfl⟩ := creates
  obtain ⟨role, -, type⟩ := exists_role_of_registry known
  have declared : (Simulation.site part).declared = Play.ports := by
    change part.type.ports = Play.ports
    rw [type]
    cases role <;> rfl
  rw [type] at made
  obtain ⟨play, rounds, configured, told, component, votes⟩ := created_of_type declared made
  change Made part fitted.component fitted.bindings.ports fitted.votes
  rw [component, votes]
  cases role with
  | initiator => exact .ping (by rw [type]; rfl) (told rfl) configured
  | responder => exact .pong (by rw [type]; rfl) configured

end Player

end Rally
