import Rally.Proofs.Player.CircuitRuns
/-!
# When messages arrive

A message that gets to a player from some hops behind it takes as long as all ways that it goes, as far as
there are instants, and where players spell the way that messages take its text spells these players. Of the
messages that a player waits for, the last one comes from the initiator behind as many hops as it takes to
meet as many initiators. A run ends when the last of these messages arrives at an initiator.
-/

namespace Rally

/-- A player that spells the way of messages answers with its word behind what it received. -/
theorem Player.reply_of_relay {player : Player} (relay : player.play.isRelay = true)
    (received : String) : player.reply received = received ++ "-" ++ player.word := by
  rcases player with ⟨play, _⟩ | ⟨play, _⟩ <;> cases play
  · cases relay
  · rfl
  · cases relay
  · rfl

namespace Circuit

/-- The time, in nanoseconds, that a message takes to a player from some hops behind it. -/
def lag (circuit : Circuit) : Nat → ComponentId → Nat
  | 0, id => ((circuit.ear id).latency circuit.links).toNanos
  | hops + 1, id =>
    circuit.lag hops (circuit.prev id) + ((circuit.ear id).latency circuit.links).toNanos

/-- The players that a message comes by from some hops behind a player, in the order in which it does. -/
def route (circuit : Circuit) : Nat → ComponentId → List ComponentId
  | 0, id => [circuit.prev id]
  | hops + 1, id => circuit.route hops (circuit.prev id) ++ [circuit.prev id]

/-- Whether so many hops behind a player, and no fewer, there are as many initiators as messages are
waited for. -/
structure Meets (circuit : Circuit) (id : ComponentId) (hops : Nat) : Prop where
  /-- So many hops are enough. -/
  enough : patience circuit.rounds ≤ (circuit.origins hops id).length
  /-- Fewer are not. -/
  least : ∀ fewer < hops, (circuit.origins fewer id).length < patience circuit.rounds

variable {circuit : Circuit} {id : ComponentId} {hops reach : Nat}

/-- A message arrives when it went all ways, or at the last instant. -/
theorem toNanos_voyage (circuit : Circuit) (hops : Nat) (id : ComponentId) :
    (circuit.voyage hops id).1.toNanos = min (circuit.lag hops id) Instant.max.toNanos := by
  induction hops generalizing id with
  | zero =>
    have start : Instant.zero.toNanos = 0 := rfl
    rw [voyage, Way.delay, Duration.toNanos_saturatingAdd, lag, start, Nat.zero_add, Instant.max]
  | succ hops ih =>
    rw [voyage, Way.delay, Duration.toNanos_saturatingAdd, ih, lag, Instant.max]
    omega

/-- A message takes as long as all ways that it goes. -/
theorem lag_eq_sum (circuit : Circuit) (hops : Nat) (id : ComponentId) : circuit.lag hops id =
    ∑ hop ∈ Finset.range (hops + 1),
      ((circuit.ear (circuit.prev^[hop] id)).latency circuit.links).toNanos := by
  induction hops generalizing id with
  | zero =>
    rw [Finset.sum_range_one]
    rfl
  | succ hops ih =>
    rw [Finset.sum_range_succ', lag, ih]
    rfl

/-- It goes by all players behind the one at which it arrives. -/
theorem route_eq_map (circuit : Circuit) (hops : Nat) (id : ComponentId) : circuit.route hops id =
    (List.range (hops + 1)).map fun hop => circuit.prev^[hops + 1 - hop] id := by
  induction hops generalizing id with
  | zero => rfl
  | succ hops ih =>
    rw [List.range_succ, List.map_append, List.map_singleton, route, ih]
    congr 1
    · refine List.map_congr_left fun hop inside => ?_
      have within := List.mem_range.mp inside
      rw [← Function.iterate_succ_apply, show (hops + 1 - hop).succ = hops + 1 + 1 - hop by omega]
    · rw [show hops + 1 + 1 - (hops + 1) = 1 by omega, Function.iterate_one]

/-- A message from further behind takes no less time. -/
theorem lag_mono (circuit : Circuit) (id : ComponentId) : Monotone fun hops => circuit.lag hops id := by
  refine monotone_nat_of_le_succ fun hops => ?_
  induction hops generalizing id with
  | zero => exact Nat.le_add_left _ _
  | succ hops ih => exact Nat.add_le_add_right (ih (circuit.prev id)) _

/-- Where no way takes longer than so many nanoseconds, a message takes no longer for each hop. -/
theorem lag_le {most : Nat}
    (short : ∀ id < circuit.count, ((circuit.ear id).latency circuit.links).toNanos ≤ most)
    (inside : id < circuit.count) (hops : Nat) : circuit.lag hops id ≤ (hops + 1) * most := by
  induction hops generalizing id with
  | zero =>
    rw [Nat.zero_add, Nat.one_mul]
    exact short id inside
  | succ hops ih =>
    rw [lag, Nat.succ_mul]
    exact Nat.add_le_add (ih (prev_lt inside)) (short id inside)

/-- It arrives no earlier. -/
theorem voyage_mono (circuit : Circuit) (id : ComponentId) {further : Nat} (behind : hops ≤ further) :
    (circuit.voyage hops id).1 ≤ (circuit.voyage further id).1 := by
  rw [Duration.le_iff_toNanos_le, toNanos_voyage, toNanos_voyage]
  exact min_le_min_right _ (circuit.lag_mono id behind)

/-- Where players spell the way of messages, a text spells its route. -/
theorem text_voyage (relay : ∀ id < circuit.count, (circuit.player id).play.isRelay = true)
    (inside : id < circuit.count) (hops : Nat) : (circuit.voyage hops id).2 =
      spell (fun id => (circuit.player id).word) (circuit.route hops id) := by
  induction hops generalizing id with
  | zero => exact (spell_singleton (fun id => (circuit.player id).word) (circuit.prev id)).symm
  | succ hops ih =>
    have some : circuit.route hops (circuit.prev id) ≠ [] := by
      cases hops with
      | zero => exact List.cons_ne_nil _ _
      | succ => exact List.append_ne_nil_of_right_ne_nil _ (List.cons_ne_nil _ _)
    rw [voyage, route, spell_concat _ some, ← ih (prev_lt inside)]
    exact Player.reply_of_relay (relay _ (prev_lt inside)) _

namespace Meets

variable (meets : circuit.Meets id hops)

include meets

/-- The last hop leads to an initiator, and all of them lead to as many as messages are waited for. -/
theorem exists_last : ∃ last, hops = last + 1 ∧
    circuit.origins hops id = circuit.origins last id ++ [last] ∧
    (circuit.origins hops id).length = patience circuit.rounds := by
  have positive := patience_pos circuit.rounds
  cases hops with
  | zero => exact absurd (positive.trans_le meets.enough) (Nat.lt_irrefl _)
  | succ last =>
    have enough := meets.enough
    have short := meets.least last (Nat.lt_succ_self last)
    rw [origins_concat] at enough ⊢
    split at enough
    · next found =>
      rw [List.length_append, List.length_singleton] at enough
      rw [if_pos found, List.length_append, List.length_singleton]
      exact ⟨last, rfl, rfl, by omega⟩
    · rw [List.append_nil] at enough
      omega

variable (reaches : circuit.Reaches reach) (inside : id < circuit.count)

include reaches inside

/-- A player hears messages from all initiators that it meets. -/
theorem arrivals_eq :
    circuit.arrivals reach id = (circuit.origins hops id).map fun hops => circuit.voyage hops id := by
  obtain ⟨_, -, -, exact_length⟩ := meets.exists_last
  have same := take_origins reaches inside (Nat.le_max_left reach hops)
  obtain ⟨rest, further⟩ := @origins_begins circuit id hops _ (Nat.le_max_right reach hops)
  rw [arrivals, ← same, ← further, ← exact_length, List.take_left]

/-- The last one that it hears comes from the last of them. -/
theorem getLast?_arrivals :
    (circuit.arrivals reach id).getLast? = some (circuit.voyage (hops - 1) id) := by
  obtain ⟨last, rfl, split, -⟩ := meets.exists_last
  rw [meets.arrivals_eq reaches inside, split, List.map_append, List.map_singleton,
    List.getLast?_concat]
  rfl

/-- Where players spell the way of messages, its text spells the players behind which the last initiator
is. -/
theorem getLast?_texts (relay : ∀ id < circuit.count, (circuit.player id).play.isRelay = true) :
    ((circuit.arrivals reach id).map Prod.snd).getLast? =
      some (spell (fun id => (circuit.player id).word) (circuit.route (hops - 1) id)) := by
  rw [List.getLast?_map, meets.getLast?_arrivals reaches inside, Option.map_some,
    text_voyage relay inside]

/-- All others arrive no later. -/
theorem arrival_le {arrival : Instant × String} (among : arrival ∈ circuit.arrivals reach id) :
    arrival.1 ≤ (circuit.voyage (hops - 1) id).1 := by
  rw [meets.arrivals_eq reaches inside] at among
  obtain ⟨behind, found, rfl⟩ := List.mem_map.mp among
  have within := List.mem_range.mp (List.mem_of_mem_filter found)
  exact circuit.voyage_mono id (by omega)

end Meets

/-- What any player hears arrives no later than something that an initiator hears. -/
theorem exists_later (reaches : circuit.Reaches reach) (inside : id < circuit.count)
    {arrival : Instant × String} (among : arrival ∈ circuit.arrivals reach id) :
    ∃ other < circuit.count, (circuit.player other).initiates = true ∧
      ∃ later ∈ circuit.arrivals reach other, arrival.1 ≤ later.1 := by
  have lively : circuit.Lively id := by
    by_contra quiet
    rw [arrivals_of_not_lively quiet] at among
    cases among
  obtain ⟨hops, found⟩ := lively
  obtain ⟨period, positive, -, around⟩ := exists_period inside
  -- Behind the initiator that is some hops behind the player, the player itself comes again.
  suffices behind : ∀ (more : Nat) (arrival : Instant × String),
      arrival ∈ circuit.arrivals reach (circuit.prev^[more] (circuit.prev^[hops + 1] id)) →
        ∃ other < circuit.count, (circuit.player other).initiates = true ∧
          ∃ later ∈ circuit.arrivals reach other, arrival.1 ≤ later.1 by
    refine behind (period * (hops + 1) - (hops + 1)) arrival ?_
    rw [← Function.iterate_add_apply, Nat.sub_add_cancel (Nat.le_mul_of_pos_left _ positive),
      around.mul_const (hops + 1)]
    exact among
  intro more
  induction more with
  | zero => exact fun arrival among => ⟨_, iterate_lt inside _, found, arrival, among, le_refl _⟩
  | succ more ih =>
    intro arrival among
    rw [Function.iterate_succ_apply'] at among
    generalize ahead : circuit.prev^[more] (circuit.prev^[hops + 1] id) = next at among ih
    have there : next < circuit.count := ahead ▸ iterate_lt (iterate_lt inside _) more
    cases begins : (circuit.player (circuit.prev next)).initiates with
    | true => exact ⟨_, prev_lt there, begins, arrival, among, le_refl _⟩
    | false =>
      have passes : (circuit.ear next).delay circuit.links
          (arrival.1, (circuit.player (circuit.prev next)).reply arrival.2) ∈
            circuit.arrivals reach next := by
        rw [Circuit.arrivals_eq reaches there]
        refine List.mem_map_of_mem ?_
        cases player : circuit.player (circuit.prev next) with
        | ping => simp [player, Player.initiates] at begins
        | pong => exact List.mem_map_of_mem among
      obtain ⟨other, within, initiator, later, heard, order⟩ := ih _ passes
      exact ⟨other, within, initiator, later, heard, (Duration.le_saturatingAdd _ _).trans order⟩

section Ends

variable (reaches : circuit.Reaches reach) {far : ComponentId → Nat}
  (meets : ∀ id < circuit.count, (circuit.player id).initiates = true → circuit.Meets id (far id))

include reaches meets

/-- All that players hear arrives no later than the last message at some initiator. -/
theorem exists_latest (inside : id < circuit.count) {arrival : Instant × String}
    (among : arrival ∈ circuit.arrivals reach id) :
    ∃ other < circuit.count, (circuit.player other).initiates = true ∧
      arrival.1 ≤ (circuit.voyage (far other - 1) other).1 := by
  obtain ⟨other, within, initiator, later, heard, order⟩ := exists_later reaches inside among
  exact ⟨other, within, initiator,
    order.trans ((meets other within initiator).arrival_le reaches within heard)⟩

/-- A run ends when the last message that an initiator waits for arrives. -/
theorem Concludes.isGreatest {seats : Seats Player} {report : Report Player}
    (concludes : circuit.Concludes reach seats report)
    (some : ∃ id < circuit.count, (circuit.player id).initiates = true) :
    IsGreatest {moment | ∃ id < circuit.count, (circuit.player id).initiates = true ∧
      (circuit.voyage (far id - 1) id).1 = moment} report.endTime := by
  have until_end {id : ComponentId} (inside : id < circuit.count)
      (initiator : (circuit.player id).initiates = true) :
      (circuit.voyage (far id - 1) id).1 ≤ report.endTime :=
    concludes.latest id inside _ (List.mem_of_getLast?
      ((meets id inside initiator).getLast?_arrivals reaches inside))
  refine ⟨?_, ?_⟩
  · rcases concludes.attained with start | ⟨id, inside, arrival, among, same⟩
    · obtain ⟨id, inside, initiator⟩ := some
      refine ⟨id, inside, initiator, le_antisymm (until_end inside initiator) ?_⟩
      rw [start]
      exact Duration.zero_le _
    · obtain ⟨other, within, initiator, order⟩ := exists_latest reaches meets inside among
      exact ⟨other, within, initiator, le_antisymm (until_end within initiator) (same ▸ order)⟩
  · rintro moment ⟨id, inside, initiator, rfl⟩
    exact until_end inside initiator

end Ends

end Circuit

/-- Where the last messages that initiators wait for arrive before the last instant, all messages do. -/
theorem Simulation.prompt_of_meets {options : Options} {topology : Topology} {clock : Instant}
    {journal : Journal} {simulation : Simulation Player} {assembly : Assembly Player}
    {filter : Filter} {rounds reach : Nat} {far : ComponentId → Nat}
    (built : (build Player.registry options topology clock journal).2 = .ok simulation)
    (realizes : simulation.Realizes Player.registry topology assembly)
    {circular : Circular assembly.links simulation.places topology.components.length rounds}
    (reaches : circular.circuit.Reaches reach)
    (meets : ∀ id < circular.circuit.count, (circular.circuit.player id).initiates = true →
      circular.circuit.Meets id (far id))
    (short : ∀ id < circular.circuit.count, (circular.circuit.player id).initiates = true →
      (circular.circuit.voyage (far id - 1) id).1 < Instant.max) : simulation.Prompt filter := by
  refine due_of_circular built realizes reaches fun id inside arrival among => ?_
  obtain ⟨other, within, initiator, order⟩ := Circuit.exists_latest reaches meets inside among
  exact order.trans_lt (short other within initiator)

/-- Where the latencies of links are short, no message of players that are a circuit takes longer than to go
around all players as often as messages are waited for. -/
theorem Simulation.due_of_latencies {options : Options} {topology : Topology} {clock : Instant}
    {journal : Journal} {simulation : Simulation Player} {assembly : Assembly Player}
    {filter : Filter} {rounds most : Nat}
    (built : (build Player.registry options topology clock journal).2 = .ok simulation)
    (realizes : simulation.Realizes Player.registry topology assembly)
    (circular : Circular assembly.links simulation.places topology.components.length rounds)
    (short : ∀ link ∈ topology.links, ∀ latency,
      Duration.ofSeconds link.latency = .ok latency → latency.toNanos ≤ most) :
    simulation.Due filter fun time =>
      time.toNanos ≤ patience rounds * topology.components.length * most := by
  refine due_of_circular built realizes circular.circuit.reaches_around
    fun id inside arrival among => ?_
  have ways (id : ComponentId) (inside : id < circular.circuit.count) :
      ((circular.circuit.ear id).latency circular.circuit.links).toNanos ≤ most := by
    obtain ⟨spec, there⟩ := realizes.follows.exists_link (circular.circuit.known id inside)
    exact short spec (List.mem_of_getElem? there) _ (realizes.follows.latency_eq there)
  obtain ⟨hops, found, rfl⟩ := List.mem_map.mp among
  have near := List.mem_range.mp (List.mem_of_mem_filter (List.mem_of_mem_take found))
  rw [Circuit.toNanos_voyage]
  exact (Nat.min_le_left _ _).trans
    ((Circuit.lag_le ways inside hops).trans (Nat.mul_le_mul_right most near))

end Rally
