import Rally.Proofs.Player.Circuit
/-!
# Circuits in a simulation

Where every link leads from the port on which a player speaks to the one at which another one hears, the
players of a simulation are a circuit. Its run ends since all voters are ready, and the report tells for each
player what it heard, and for each link that what a player said over it was heard.
-/

namespace Rally

namespace Play

/-- The port on which a player hears. -/
def input : Play → PortId
  | .loop inout => inout
  | .relay input _ => input

variable {wired : PortId → Option (LinkId × Side)} {play : Play} {ports : Ports}

/-- A player that is joined to others hears on a port that is configured. -/
theorem Configured.input (configured : Configured wired play ports) :
    ∃ link side, ports[play.input]?.join = some ⟨link, side, .duplex⟩ := by
  cases configured with
  | loop | relay => exact ⟨_, _, rfl⟩

/-- It speaks on one, too. -/
theorem Configured.output (configured : Configured wired play ports) :
    ∃ link side mode, ports[play.output]?.join = some ⟨link, side, mode⟩ := by
  cases configured with
  | loop | relay => exact ⟨_, _, _, rfl⟩

end Play

namespace Seat

/-- The way that leads to the port on which a player hears. -/
def ear (seat : Seat Player) : Way :=
  ((seat.slot.binding? seat.slot.component.play.input).map fun binding =>
    ⟨binding.link, binding.side.opposite⟩).getD ⟨0, .a⟩

/-- The way that leads away from the port on which it speaks. -/
def mouth (seat : Seat Player) : Way :=
  ((seat.slot.binding? seat.slot.component.play.output).map fun binding =>
    ⟨binding.link, binding.side⟩).getD ⟨0, .a⟩

end Seat

/-- Whether links join the players in some places to a circuit, where initiators play so many rounds. -/
structure Circular (links : Array Link) (seats : Seats Player) (count rounds : Nat) : Prop
    extends Joined links seats where
  /-- There are so many players. -/
  placed : ∀ id, (seats id).isSome ↔ id < count
  /-- They are as they were created. -/
  fresh : ∀ id seat, seats id = some seat → seat.slot.component.Fresh rounds
  /-- Each of them hears on a port that is configured. -/
  input : ∀ id seat, seats id = some seat → ∃ link side,
    seat.slot.binding? seat.slot.component.play.input = some ⟨link, side, .duplex⟩
  /-- So it speaks. -/
  output : ∀ id seat, seats id = some seat → ∃ link side mode,
    seat.slot.binding? seat.slot.component.play.output = some ⟨link, side, mode⟩
  /-- A way leads away from a port on which a player speaks where it leads to one on which one hears. -/
  relays : ∀ way : Way, way.link < links.size → ∀ seat other,
    seats (way.near links).component = some seat → seats (way.far links).component = some other →
      ((way.near links).port = seat.slot.component.play.output ↔
        (way.far links).port = other.slot.component.play.input)

namespace Circular

variable {links : Array Link} {seats : Seats Player} {count rounds : Nat}
  (circular : Circular links seats count rounds) {id : ComponentId} {seat : Seat Player}

include circular

/-- The way over which a player hears ends at its port. -/
theorem far_ear (there : seats id = some seat) : seat.ear.link < links.size ∧
    (seat.ear.far links).component = id ∧
    (seat.ear.far links).port = seat.slot.component.play.input := by
  obtain ⟨link, side, bound⟩ := circular.input id seat there
  have ear : seat.ear = ⟨link, side.opposite⟩ := by
    rw [Seat.ear, bound]
    rfl
  rw [ear, Way.far, Side.opposite_opposite]
  exact circular.bound id seat _ _ there bound

/-- The way over which it speaks begins at its port. -/
theorem near_mouth (there : seats id = some seat) : seat.mouth.link < links.size ∧
    (seat.mouth.near links).component = id ∧
    (seat.mouth.near links).port = seat.slot.component.play.output := by
  obtain ⟨link, side, mode, bound⟩ := circular.output id seat there
  have mouth : seat.mouth = ⟨link, side⟩ := by
    rw [Seat.mouth, bound]
    rfl
  rw [mouth]
  exact circular.bound id seat _ _ there bound

/-- A way that ends where a player hears is the one over which it hears. -/
theorem eq_ear (there : seats id = some seat) {way : Way} (known : way.link < links.size)
    (component : (way.far links).component = id)
    (port : (way.far links).port = seat.slot.component.play.input) : way = seat.ear := by
  obtain ⟨inside, here, hears⟩ := circular.far_ear there
  obtain ⟨link, side⟩ := circular.unique way.link way.side.opposite seat.ear.link
    seat.ear.side.opposite known inside (component.trans here.symm) (port.trans hears.symm)
  have turned := congrArg Side.opposite side
  rw [Side.opposite_opposite, Side.opposite_opposite] at turned
  cases way
  cases ear : seat.ear
  rw [ear] at link turned
  cases link
  cases turned
  rfl

/-- A way that begins where a player speaks is the one over which it speaks. -/
theorem eq_mouth (there : seats id = some seat) {way : Way} (known : way.link < links.size)
    (component : (way.near links).component = id)
    (port : (way.near links).port = seat.slot.component.play.output) : way = seat.mouth := by
  obtain ⟨inside, here, speaks⟩ := circular.near_mouth there
  obtain ⟨link, side⟩ := circular.unique way.link way.side seat.mouth.link seat.mouth.side known
    inside (component.trans here.symm) (port.trans speaks.symm)
  cases way
  cases mouth : seat.mouth
  rw [mouth] at link side
  cases link
  cases side
  rfl

/-- The player behind another one speaks over the way over which this one hears. -/
theorem spoken (there : seats id = some seat) :
    ∃ other, seats (seat.ear.near links).component = some other ∧ other.mouth = seat.ear := by
  obtain ⟨known, here, hears⟩ := circular.far_ear there
  obtain ⟨other, behind⟩ := Option.isSome_iff_exists.mp
    (circular.owned seat.ear.link seat.ear.side known)
  refine ⟨other, behind, (circular.eq_mouth behind known rfl ?_).symm⟩
  exact (circular.relays seat.ear known other seat behind (here ▸ there)).mpr hears

/-- The player that hears another one does so over the way over which this one speaks. -/
theorem listened (there : seats id = some seat) :
    ∃ other, seats (seat.mouth.far links).component = some other ∧ other.ear = seat.mouth := by
  obtain ⟨known, here, speaks⟩ := circular.near_mouth there
  obtain ⟨other, ahead⟩ := Option.isSome_iff_exists.mp
    (circular.owned seat.mouth.link seat.mouth.side.opposite known)
  refine ⟨other, ahead, (circular.eq_ear ahead known rfl ?_).symm⟩
  exact (circular.relays seat.mouth known seat other (here ▸ there) ahead).mp speaks

omit circular in
/-- The player of a position; where there is none, nobody who says anything. -/
def playerAt (seats : Seats Player) (id : ComponentId) : Player :=
  ((seats id).map fun seat => seat.slot.component).getD (.pong { play := default, rank := 0 })

omit circular in
/-- The way over which the player of a position hears. -/
def earAt (seats : Seats Player) (id : ComponentId) : Way :=
  ((seats id).map Seat.ear).getD ⟨0, .a⟩

omit circular in
/-- The way over which it speaks. -/
def mouthAt (seats : Seats Player) (id : ComponentId) : Way :=
  ((seats id).map Seat.mouth).getD ⟨0, .a⟩

omit circular in
/-- What is at a position where there is a player. -/
theorem at_eq (there : seats id = some seat) : playerAt seats id = seat.slot.component ∧
    earAt seats id = seat.ear ∧ mouthAt seats id = seat.mouth := by
  rw [playerAt, earAt, mouthAt, there]
  exact ⟨rfl, rfl, rfl⟩

/-- Where there are players. -/
theorem exists_seat (inside : id < count) : ∃ seat, seats id = some seat :=
  Option.isSome_iff_exists.mp ((circular.placed id).mpr inside)

/-- A player that is there has one of the first positions. -/
theorem lt_count (there : seats id = some seat) : id < count :=
  (circular.placed id).mp (Option.isSome_iff_exists.mpr ⟨seat, there⟩)

/-- The circuit of the players. -/
def circuit : Circuit where
  links := links
  count := count
  rounds := rounds
  player := playerAt seats
  ear := earAt seats
  mouth := mouthAt seats
  fresh id inside := by
    obtain ⟨seat, there⟩ := circular.exists_seat inside
    rw [(at_eq there).1]
    exact circular.fresh id seat there
  known id inside := by
    obtain ⟨seat, there⟩ := circular.exists_seat inside
    rw [(at_eq there).2.1]
    exact (circular.far_ear there).1
  far id inside := by
    obtain ⟨seat, there⟩ := circular.exists_seat inside
    rw [(at_eq there).2.1]
    exact (circular.far_ear there).2.1
  near id inside := by
    obtain ⟨seat, there⟩ := circular.exists_seat inside
    rw [(at_eq there).2.2]
    exact (circular.near_mouth there).2.1
  spoken id inside := by
    obtain ⟨seat, there⟩ := circular.exists_seat inside
    obtain ⟨other, behind, same⟩ := circular.spoken there
    rw [(at_eq there).2.1, (at_eq behind).2.2]
    exact ⟨circular.lt_count behind, same⟩
  heard id inside := by
    obtain ⟨seat, there⟩ := circular.exists_seat inside
    obtain ⟨other, ahead, same⟩ := circular.listened there
    rw [(at_eq there).2.2, (at_eq ahead).2.1]
    exact ⟨circular.lt_count ahead, same⟩

/-- The player of a circuit that is in a place. -/
theorem player_eq (there : seats id = some seat) :
    circular.circuit.player id = seat.slot.component := (at_eq there).1

/-- The way over which it hears. -/
theorem ear_eq (there : seats id = some seat) : circular.circuit.ear id = seat.ear :=
  (at_eq there).2.1

/-- The players are in their places. -/
theorem seated : circular.circuit.Seated seats := by
  refine ⟨fun id inside => (circular.placed id).mpr inside, fun id seat => circular.lt_count,
    fun id seat there => (circular.player_eq there).symm, fun id seat there => ?_⟩
  obtain ⟨play, place⟩ := And.intro (at_eq there).2.1 (at_eq there).2.2
  obtain ⟨link, side, heard⟩ := circular.input id seat there
  obtain ⟨other, turn, mode, bound⟩ := circular.output id seat there
  constructor
  · change seat.slot.receives ((earAt seats id).far links).port = true
    rw [(at_eq there).2.1, (circular.far_ear there).2.2, Slot.receives, heard]
    rfl
  · change ∃ mode, seat.slot.binding? seat.slot.component.play.output =
      some ⟨(mouthAt seats id).link, (mouthAt seats id).side, mode⟩
    rw [(at_eq there).2.2, Seat.mouth, bound]
    exact ⟨mode, rfl⟩

end Circular

/-- The component of a name is the first one that has it. -/
theorem Report.component?_of_getElem? {C : Type} {report : Report C} {id : ComponentId}
    {name : String} {component : C} (there : report.components[id]? = some (name, component))
    (first : ∀ other < id, ∀ entry, report.components[other]? = some entry → entry.1 ≠ name) :
    report.component? name = some component := by
  obtain ⟨inside, entry⟩ := List.getElem?_eq_some_iff.mp there
  have found : (report.components.find? fun entry => entry.1 == name) = some (name, component) :=
    List.find?_eq_some_iff_getElem.mpr ⟨beq_self_eq_true _, id, inside, entry, fun other before => by
      rw [Bool.not_eq_true', beq_eq_false_iff_ne]
      exact first other before _ (List.getElem?_eq_getElem (before.trans inside))⟩
  exact congrArg (Option.map Prod.snd) found

namespace Circuit

variable {circuit : Circuit} {reach : Nat} {seats : Seats Player}

/-- What the report of a run tells where the players of a circuit heard all that they hear. -/
structure Concludes (circuit : Circuit) (reach : Nat) (seats : Seats Player)
    (report : Report Player) : Prop where
  /-- All players are there. -/
  full : report.components.length = circuit.count
  /-- Each of them is in its state behind what it heard. -/
  players : ∀ id seat, seats id = some seat → report.components[id]? =
    some (seat.slot.name, (circuit.player id).behind circuit.rounds
      ((circuit.arrivals reach id).map Prod.snd))
  /-- All links are there. -/
  whole : report.links.length = circuit.links.size
  /-- What a player hears was said and is heard. -/
  heard : ∀ id < circuit.count, ∃ traffic, report.links[(circuit.ear id).link]? = some traffic ∧
    traffic.leaving (circuit.ear id).side =
      ⟨(circuit.arrivals reach id).length, (circuit.arrivals reach id).length⟩
  /-- Nothing is said over any other way. -/
  silent : ∀ way : Way, way.link < circuit.links.size → (∀ id < circuit.count, way ≠ circuit.ear id) →
    ∃ traffic, report.links[way.link]? = some traffic ∧ traffic.leaving way.side = ⟨0, 0⟩
  /-- Messages are dispatched to be heard. -/
  events : report.events =
    ∑ id ∈ Finset.range circuit.count, (circuit.arrivals reach id).length
  /-- Nothing is heard behind the end. -/
  latest : ∀ id < circuit.count, ∀ arrival ∈ circuit.arrivals reach id, arrival.1 ≤ report.endTime
  /-- The run ended when something was heard, or where it began. -/
  attained : report.endTime = Instant.zero ∨
    ∃ id < circuit.count, ∃ arrival ∈ circuit.arrivals reach id, arrival.1 = report.endTime
  /-- Nothing is left. -/
  settled : ∀ rank ∈ report.ranks, rank.pending = 0

/-- A report that sums up what the players of a circuit hear and say concludes the circuit. -/
theorem concludes_of_sums (seated : circuit.Seated seats) (reaches : circuit.Reaches reach)
    {report : Report Player} (sums : report.Sums circuit.links circuit.count seats
      (circuit.received reach) (circuit.given reach)) : circuit.Concludes reach seats report := by
  have texts {id : ComponentId} (inside : id < circuit.count) :
      circuit.received reach id = (circuit.arrivals reach id).map (circuit.ear id).bring :=
    if_pos inside
  refine ⟨sums.full, fun id seat there => ?_, sums.whole, fun id inside => ?_,
    fun way known silent => ?_, ?_, fun id inside arrival among => ?_, ?_,
    sums.settled fun way _ => closed reaches way⟩
  · obtain ⟨final, follows, place⟩ := sums.states id seat there
    have through := seated.follows there reach (circuit.arrivals reach id).length
    rw [texts (seated.inside id seat there)] at follows
    rw [List.take_length, follows] at through
    rw [place, (Prod.mk.inj (Option.some.inj through)).1]
    rfl
  · obtain ⟨traffic, there, counts⟩ := sums.carried (circuit.ear id) (circuit.known id inside)
    refine ⟨traffic, there, ?_⟩
    rw [counts, ← closed reaches, circuit.far id inside, texts inside, Way.filter_bring,
      List.length_map]
  · obtain ⟨traffic, there, counts⟩ := sums.carried way known
    refine ⟨traffic, there, ?_⟩
    have nothing : (circuit.received reach (way.far circuit.links).component).filter way.bears = [] := by
      rw [received]
      split
      · next inside => exact Way.filter_bring_of_ne (silent _ inside) _
      · rfl
    rw [counts, ← closed reaches, nothing, List.length_nil]
  · rw [sums.events]
    refine Finset.sum_congr rfl fun id inside => ?_
    rw [texts (Finset.mem_range.mp inside), List.length_map]
  · refine sums.latest id ((circuit.ear id).bring arrival) ?_
    rw [texts inside]
    exact List.mem_map_of_mem among
  · refine sums.attained.imp_right ?_
    rintro ⟨id, entry, there, due⟩
    rw [received] at there
    split at there
    · next inside =>
      obtain ⟨arrival, among, rfl⟩ := List.mem_map.mp there
      exact ⟨id, inside, arrival, among, due⟩
    · cases there

end Circuit

namespace Player

variable {part : Part Player} {player : Player} {ports : Ports} {votes : List Vote}

/-- A player that was created is fresh. -/
theorem Made.fresh (made : Made part player ports votes) {rounds : Nat}
    (told : part.type.fullName = Role.initiator.type → rounds? part.params = .ok rounds) :
    player.Fresh rounds := by
  cases made with
  | ping type known =>
    rw [told type] at known
    cases known
    exact .ping _ _
  | pong => exact .pong _ _

/-- It has its ports configured as it plays. -/
theorem Made.configured (made : Made part player ports votes) :
    Play.Configured (fun port => part.wiring.lookup port) player.play ports := by
  cases made with
  | ping _ _ configured | pong _ configured => exact configured

/-- It is an initiator where it was created for one. -/
theorem Made.initiates (made : Made part player ports votes) :
    player.initiates = true ↔ part.type.fullName = Role.initiator.type := by
  cases made with
  | ping type => exact ⟨fun _ => type, fun _ => rfl⟩
  | pong type =>
    constructor
    · intro begins
      cases begins
    · intro same
      rw [type] at same
      exact absurd same (by decide)

/-- The type of a player has the name by which it is known. -/
theorem fullName_of_registry {name : String} {type : ComponentType Player}
    (known : registry.get? name = some type) : type.fullName = name := by
  rcases type_of_registry known with ⟨rfl, rfl⟩ | ⟨rfl, rfl⟩ <;> decide

end Player

namespace Simulation

variable {options : Options} {topology : Topology} {clock moment : Instant} {journal : Journal}
  {simulation : Simulation Player} {assembly : Assembly Player} {filter : Filter} {rounds reach : Nat}

/-- The components of a simulation are those of its topology. -/
theorem isSome_places
    (built : (build Player.registry options topology clock journal).2 = .ok simulation)
    (id : ComponentId) : (simulation.places id).isSome ↔ id < topology.components.length := by
  obtain ⟨assembly, placed, realizes, creates, -, places⟩ := creates_of_build built
  rw [places, Option.isSome_map, isSome_getElem?, ← creates.length_eq,
    ← realizes.follows.described.length_eq]

/-- The tallies of ranks count the voters of the players that were created. -/
theorem polled_of_build
    (built : (build Player.registry options topology clock journal).2 = .ok simulation) :
    ∀ rank ∈ simulation.ranks, rank.Polled Player.voter := by
  obtain ⟨assembly, placed, realizes, creates, ranks, -⟩ := creates_of_build built
  rw [ranks]
  intro rank inside
  obtain ⟨id, -, rfl⟩ := List.mem_map.mp inside
  refine Rank.polled_rankOf (fun created there => ?_) id
  obtain ⟨position, found⟩ := List.mem_iff_getElem?.mp there
  obtain ⟨part, present, made⟩ := related_of_getElem? creates found
  obtain ⟨spec, -, describes⟩ := related_of_getElem? realizes.follows.described present
  exact (Player.made_of_creates made describes.type).casts

/-- A player has the name and rank that the topology gives, and is an initiator where it says so. -/
theorem described_of_build
    (built : (build Player.registry options topology clock journal).2 = .ok simulation)
    {id : ComponentId} {seat : Seat Player} (there : simulation.places id = some seat)
    {spec : ComponentSpec} (known : topology.components[id]? = some spec) :
    seat.slot.name = spec.name ∧ seat.rank = spec.rank ∧
      (seat.slot.component.initiates = true ↔ spec.type = Role.initiator.type) := by
  obtain ⟨_, -, made⟩ := made_of_places built
  obtain ⟨other, part, votes, found, -, describes, name, rank, player⟩ := made id seat there
  rw [known, Option.some.injEq] at found
  subst found
  rw [player.initiates, Player.fullName_of_registry describes.type]
  exact ⟨name.trans describes.name, rank.trans describes.rank, Iff.rfl⟩

/-- Where links lead from the ports on which players speak to those at which they hear, the players of a
simulation are a circuit. -/
theorem circular_of_build
    (built : (build Player.registry options topology clock journal).2 = .ok simulation)
    (realizes : simulation.Realizes Player.registry topology assembly)
    (told : ∀ spec ∈ topology.components, spec.type = Role.initiator.type →
      ∀ params, Assembly.paramTexts spec = .ok params → Player.rounds? params = .ok rounds)
    (relays : ∀ way : Way, way.link < assembly.links.size → ∀ seat other,
      simulation.places (way.near assembly.links).component = some seat →
      simulation.places (way.far assembly.links).component = some other →
        ((way.near assembly.links).port = seat.slot.component.play.output ↔
          (way.far assembly.links).port = other.slot.component.play.input)) :
    Circular assembly.links simulation.places topology.components.length rounds := by
  have joined := (housing_of_build built realizes Filter.off).joined
  rw [seats_launch] at joined
  obtain ⟨_, -, made⟩ := made_of_places built
  refine ⟨joined, isSome_places built, fun id seat there => ?_, fun id seat there => ?_,
    fun id seat there => ?_, relays⟩
  · obtain ⟨spec, part, votes, known, -, describes, -, -, player⟩ := made id seat there
    refine player.fresh fun type => ?_
    rw [Player.fullName_of_registry describes.type] at type
    exact told spec (List.mem_of_getElem? known) type part.params describes.params
  · obtain ⟨spec, part, votes, -, -, -, -, -, player⟩ := made id seat there
    exact player.configured.input
  · obtain ⟨spec, part, votes, -, -, -, -, -, player⟩ := made id seat there
    exact player.configured.output

variable (built : (build Player.registry options topology clock journal).2 = .ok simulation)
  (circular : Circular assembly.links simulation.places topology.components.length rounds)

include built

/-- A player of a circuit is an initiator where the topology says so. -/
theorem initiates_iff {id : ComponentId} {spec : ComponentSpec}
    (known : topology.components[id]? = some spec) :
    (circular.circuit.player id).initiates = true ↔ spec.type = Role.initiator.type := by
  obtain ⟨seat, there⟩ := circular.exists_seat (List.getElem?_eq_some_iff.mp known).1
  rw [circular.player_eq there]
  exact (described_of_build built there known).2.2

variable {circular} (realizes : simulation.Realizes Player.registry topology assembly)
  (reaches : circular.circuit.Reaches reach)

include realizes reaches

omit reaches in
/-- The report names each player of a circuit as the topology does, and tells its state behind all that it
heard. -/
theorem component?_of_concludes {report : Report Player}
    (concluded : circular.circuit.Concludes reach simulation.places report) {id : ComponentId}
    {spec : ComponentSpec} (known : topology.components[id]? = some spec) :
    report.component? spec.name = some ((circular.circuit.player id).behind rounds
      ((circular.circuit.arrivals reach id).map Prod.snd)) := by
  have there {id : ComponentId} {spec : ComponentSpec} (known : topology.components[id]? = some spec) :
      report.components[id]? = some (spec.name, (circular.circuit.player id).behind rounds
        ((circular.circuit.arrivals reach id).map Prod.snd)) := by
    obtain ⟨seat, here⟩ := circular.exists_seat (List.getElem?_eq_some_iff.mp known).1
    rw [concluded.players id seat here, (described_of_build built here known).1]
    rfl
  refine Report.component?_of_getElem? (there known) fun other before entry former => ?_
  have within : other < topology.components.length :=
    before.trans (List.getElem?_eq_some_iff.mp known).1
  rw [there (List.getElem?_eq_getElem within), Option.some.injEq] at former
  obtain ⟨_, rfl⟩ := List.getElem?_eq_some_iff.mp known
  rw [← former]
  exact List.pairwise_iff_getElem.mp realizes.follows.distinct other id _ _ before

/-- Messages that wait are due when players of a circuit hear some. -/
theorem due_of_circular {kind : Instant → Prop} (early : ∀ id < topology.components.length,
    ∀ arrival ∈ circular.circuit.arrivals reach id, kind arrival.1) :
    simulation.Due filter kind := by
  refine due_of_forecast built realizes (Circuit.forecast circular.seated reaches) (ear_of_build built)
    Player.quiet.calm fun id entry inside => ?_
  rw [Circuit.received] at inside
  split at inside
  · next here =>
    obtain ⟨arrival, among, rfl⟩ := List.mem_map.mp inside
    exact early id here arrival among
  · cases inside

/-- A run without a limit of a circuit with an initiator comes to an end since all voters are ready, and
all players heard what they hear. -/
theorem run_of_circular (unlimited : options.limit = .unlimited)
    (initiator : ∃ spec ∈ topology.components, spec.type = Role.initiator.type)
    (prompt : 2 ≤ simulation.ranks.length → simulation.Prompt filter) :
    (∃ fuel, simulation.run fuel filter moment ≠ none) ∧
      ∀ fuel result, simulation.run fuel filter moment = some result →
        ∃ report, result.outcome = .ok report ∧ report.reason = .allVotersReady ∧
          circular.circuit.Concludes reach simulation.places report := by
  have some : ∃ id < circular.circuit.count, (circular.circuit.player id).initiates = true := by
    obtain ⟨spec, inside, type⟩ := initiator
    obtain ⟨id, known⟩ := List.mem_iff_getElem?.mp inside
    exact ⟨id, (List.getElem?_eq_some_iff.mp known).1, (initiates_iff built circular known).mpr type⟩
  have foretold := Circuit.foretold circular.seated (ear_of_build built) reaches some
  obtain ⟨ends, concludes⟩ := run_of_foretold built realizes unlimited foretold Player.quiet
    Player.ballot (polled_of_build built) prompt
  refine ⟨ends, fun fuel result runs => ?_⟩
  obtain ⟨report, ok, reason, sums⟩ := concludes fuel result runs
  exact ⟨report, ok, reason, Circuit.concludes_of_sums circular.seated reaches sums⟩

end Simulation

end Rally
