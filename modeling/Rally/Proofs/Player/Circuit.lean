import Mathlib.Algebra.BigOperators.Fin
import Mathlib.Algebra.Order.BigOperators.Group.Finset
import Mathlib.Dynamics.PeriodicPts.Lemmas
import Rally.Proofs.Player.Hooks
import Rally.Proofs.Pool.ForecastRuns
/-!
# Circuits of players

In a circuit each player hears over one way what one other player says, and no two hear the same one. So
players form rings, and all that a player hears began with the word of an initiator some hops back on its
ring. Where initiators wait for equally many messages, each of them hears exactly as many, first the word
of the nearest initiator behind it, then that of the next one, and so on; and so does every other player on
its ring. A message that is on its way must be heard before the last initiator is ready.
-/

namespace Rally

/-- Players on rings, each with a way over which it hears and one over which it speaks. -/
structure Circuit where
  /-- The links. -/
  links : Array Link
  /-- The number of players. -/
  count : Nat
  /-- How many rounds initiators play. -/
  rounds : Nat
  /-- The players before they are set up. -/
  player : ComponentId → Player
  /-- The way over which a player hears. -/
  ear : ComponentId → Way
  /-- The way over which it speaks. -/
  mouth : ComponentId → Way
  /-- The players are as they were created. -/
  fresh : ∀ id < count, (player id).Fresh rounds
  /-- A player hears what goes over a link that is there. -/
  known : ∀ id < count, (ear id).link < links.size
  /-- The way over which a player hears leads to it. -/
  far : ∀ id < count, ((ear id).far links).component = id
  /-- The way over which it speaks leads away from it. -/
  near : ∀ id < count, ((mouth id).near links).component = id
  /-- What a player hears is said. -/
  spoken : ∀ id < count, ((ear id).near links).component < count ∧
    mouth ((ear id).near links).component = ear id
  /-- What it says is heard. -/
  heard : ∀ id < count, ((mouth id).far links).component < count ∧
    ear ((mouth id).far links).component = mouth id

namespace Circuit

variable (circuit : Circuit)

/-- The player that another one hears. -/
def prev (id : ComponentId) : ComponentId := ((circuit.ear id).near circuit.links).component

/-- The player that hears another one. -/
def next (id : ComponentId) : ComponentId := ((circuit.mouth id).far circuit.links).component

/-- Whether a player some hops behind another one is an initiator. -/
def begins (id : ComponentId) (hops : Nat) : Bool :=
  (circuit.player (circuit.prev^[hops + 1] id)).initiates

/-- When a message that began some hops behind a player arrives there, and its text: the word of the
player that it began with, answered by all others that it passed. -/
def voyage : Nat → ComponentId → Instant × String
  | 0, id => (circuit.ear id).delay circuit.links
      (Instant.zero, (circuit.player (circuit.prev id)).word)
  | hops + 1, id =>
    let arrival := voyage hops (circuit.prev id)
    (circuit.ear id).delay circuit.links
      (arrival.1, (circuit.player (circuit.prev id)).reply arrival.2)

/-- How many hops there are between a player and the initiators within a reach behind it. -/
def origins (reach : Nat) (id : ComponentId) : List Nat :=
  (List.range reach).filter (circuit.begins id)

/-- What a player hears, and when. -/
def arrivals (reach : Nat) (id : ComponentId) : List (Instant × String) :=
  ((circuit.origins reach id).take (patience circuit.rounds)).map fun hops => circuit.voyage hops id

/-- All that a component will receive. -/
def received (reach : Nat) (id : ComponentId) : List (Instant × Delivery) :=
  if id < circuit.count then (circuit.arrivals reach id).map (circuit.ear id).bring else []

/-- All that it will give. -/
def given (reach : Nat) (id : ComponentId) : List (Instant × Delivery) :=
  if id < circuit.count then
    ((circuit.player id).tells circuit.rounds (circuit.arrivals reach id)).map fun text =>
      (circuit.mouth id).bring ((circuit.mouth id).delay circuit.links text)
  else []

/-- Whether there is an initiator on the ring of a player. -/
def Lively (id : ComponentId) : Prop := ∃ hops, circuit.begins id hops = true

/-- Whether a reach is enough to find as many initiators behind each player of their rings as messages
are waited for. -/
def Reaches (reach : Nat) : Prop :=
  ∀ id < circuit.count, circuit.Lively id →
    patience circuit.rounds ≤ (circuit.origins reach id).length

variable {circuit : Circuit} {id : ComponentId} {reach : Nat}

/-- The player that another one hears is there. -/
theorem prev_lt (inside : id < circuit.count) : circuit.prev id < circuit.count :=
  (circuit.spoken id inside).1

/-- So is any player behind it. -/
theorem iterate_lt (inside : id < circuit.count) (hops : Nat) :
    circuit.prev^[hops] id < circuit.count := by
  induction hops generalizing id with
  | zero => exact inside
  | succ hops ih => exact ih (prev_lt inside)

/-- A player is heard by the one that hears it. -/
theorem next_prev (inside : id < circuit.count) : circuit.next (circuit.prev id) = id := by
  rw [next, prev, (circuit.spoken id inside).2, circuit.far id inside]

/-- The one that hears a player hears this one. -/
theorem prev_next (inside : id < circuit.count) : circuit.prev (circuit.next id) = id := by
  rw [next, prev, (circuit.heard id inside).2, circuit.near id inside]

/-- Players hear each other in turn. -/
def turn (circuit : Circuit) : Equiv.Perm (Fin circuit.count) where
  toFun id := ⟨circuit.prev id, prev_lt id.2⟩
  invFun id := ⟨circuit.next id, (circuit.heard id id.2).1⟩
  left_inv id := Fin.ext (next_prev id.2)
  right_inv id := Fin.ext (prev_next id.2)

/-- Behind some hops, no more than there are players, a player comes back to itself. -/
theorem exists_period (inside : id < circuit.count) :
    ∃ period, 0 < period ∧ period ≤ circuit.count ∧ circuit.prev.IsPeriodicPt period id := by
  have hop (hops : Nat) : (circuit.turn^[hops] ⟨id, inside⟩).val = circuit.prev^[hops] id := by
    induction hops with
    | zero => rfl
    | succ hops ih =>
      rw [Function.iterate_succ_apply', Function.iterate_succ_apply', ← ih]
      rfl
  have few : Function.minimalPeriod circuit.turn ⟨id, inside⟩ ≤ circuit.count :=
    Function.minimalPeriod_le_card.trans (Fintype.card_fin _).le
  have positive : 0 < Function.minimalPeriod circuit.turn ⟨id, inside⟩ :=
    Function.minimalPeriod_pos_of_mem_periodicPts (circuit.turn.injective.mem_periodicPts _)
  exact ⟨_, positive, few, (hop _).symm.trans
    (congrArg Fin.val (Function.isPeriodicPt_minimalPeriod circuit.turn ⟨id, inside⟩))⟩

/-- What began one hop further behind the player that another one hears began behind this one. -/
theorem begins_succ (circuit : Circuit) (id : ComponentId) (hops : Nat) :
    circuit.begins id (hops + 1) = circuit.begins (circuit.prev id) hops := by
  rw [begins, begins, Function.iterate_succ_apply]

/-- The initiators behind a player are the one that it hears, if this is one, and those behind. -/
theorem origins_succ (circuit : Circuit) (reach : Nat) (id : ComponentId) :
    circuit.origins (reach + 1) id =
      (if (circuit.player (circuit.prev id)).initiates then [0] else []) ++
        (circuit.origins reach (circuit.prev id)).map (· + 1) := by
  have behind : ((List.range reach).map (· + 1)).filter (circuit.begins id) =
      (circuit.origins reach (circuit.prev id)).map (· + 1) := by
    rw [origins, List.filter_map]
    exact congrArg _ (List.filter_congr fun hops _ => begins_succ circuit id hops)
  rw [origins, List.range_succ_eq_map, List.filter_cons, behind]
  change (if (circuit.player (circuit.prev id)).initiates = true then _ else _) = _
  split <;> rfl

/-- One hop more finds the initiator there, if this is one. -/
theorem origins_concat (circuit : Circuit) (hops : Nat) (id : ComponentId) :
    circuit.origins (hops + 1) id =
      circuit.origins hops id ++ if circuit.begins id hops then [hops] else [] := by
  rw [origins, List.range_succ, List.filter_append, ← origins, List.filter_cons, List.filter_nil]

/-- A further reach finds more initiators behind those found. -/
theorem origins_begins {more : Nat} (further : reach ≤ more) :
    circuit.origins reach id <+: circuit.origins more id := by
  obtain ⟨rest, rfl⟩ := Nat.exists_eq_add_of_le further
  rw [origins, origins, List.range_add, List.filter_append]
  exact List.prefix_append _ _

/-- Where there is no initiator on a ring, none is found. -/
theorem origins_of_not_lively (quiet : ¬ circuit.Lively id) (reach : Nat) :
    circuit.origins reach id = [] :=
  List.filter_eq_nil_iff.mpr fun hops _ found => quiet ⟨hops, found⟩

/-- On a ring with an initiator there is one behind fewer hops than there are players. -/
theorem Lively.exists_near (lively : circuit.Lively id) (inside : id < circuit.count) :
    ∃ hops < circuit.count, circuit.begins id hops = true := by
  obtain ⟨period, positive, few, back⟩ := exists_period inside
  obtain ⟨hops, found⟩ := lively
  refine ⟨hops % period, (Nat.mod_lt hops positive).trans_le few, ?_⟩
  rw [begins, Function.iterate_succ_apply', ← found, begins, Function.iterate_succ_apply',
    back.iterate_mod_apply]

/-- The initiator behind a player is on the ring of those in between. -/
theorem Lively.iterate (lively : circuit.Lively id) (inside : id < circuit.count) (hops : Nat) :
    circuit.Lively (circuit.prev^[hops] id) := by
  obtain ⟨period, positive, -, back⟩ := exists_period inside
  obtain ⟨behind, found⟩ := lively
  -- Around the ring as often as there are hops, the same initiator is behind.
  refine ⟨period * hops - hops + behind, ?_⟩
  have around : period * hops - hops + behind + 1 + hops = behind + 1 + period * hops := by
    have beyond : hops ≤ period * hops := Nat.le_mul_of_pos_left _ positive
    omega
  rw [begins, ← Function.iterate_add_apply, around, Function.iterate_add_apply,
    (back.mul_const hops).eq]
  exact found

/-- Where there are initiators behind a player, each time around finds one more. -/
theorem le_length_origins (inside : id < circuit.count) (lively : circuit.Lively id) (times : Nat) :
    times ≤ (circuit.origins (times * circuit.count) id).length := by
  induction times with
  | zero => exact Nat.zero_le _
  | succ times ih =>
    obtain ⟨hops, near, found⟩ := (lively.iterate inside (times * circuit.count)).exists_near
      (iterate_lt inside _)
    have again : circuit.begins id (times * circuit.count + hops) = true := by
      rw [begins, ← found, begins, ← Function.iterate_add_apply, Nat.add_assoc, Nat.add_comm]
    have within : times * circuit.count + hops + 1 ≤ (times + 1) * circuit.count := by
      rw [Nat.succ_mul]
      omega
    have more : (circuit.origins (times * circuit.count) id).length ≤
        (circuit.origins (times * circuit.count + hops) id).length :=
      (origins_begins (Nat.le_add_right _ hops)).length_le
    refine le_trans ?_ (origins_begins within).length_le
    rw [origins_concat, if_pos again, List.length_append, List.length_singleton]
    omega

/-- To go around as often as messages are waited for is enough. -/
theorem reaches_around (circuit : Circuit) :
    circuit.Reaches (patience circuit.rounds * circuit.count) := fun _ inside lively =>
  le_length_origins inside lively _

/-- With more reach than enough a player hears the same. -/
theorem take_origins (reaches : circuit.Reaches reach) (inside : id < circuit.count) {more : Nat}
    (further : reach ≤ more) : (circuit.origins more id).take (patience circuit.rounds) =
      (circuit.origins reach id).take (patience circuit.rounds) := by
  by_cases lively : circuit.Lively id
  · obtain ⟨rest, same⟩ := @origins_begins circuit id _ _ further
    rw [← same, List.take_append_of_le_length (reaches id inside lively)]
  · rw [origins_of_not_lively lively, origins_of_not_lively lively]

/-- A player on a ring with an initiator hears as many messages as are waited for. -/
theorem length_arrivals (reaches : circuit.Reaches reach) (inside : id < circuit.count)
    (lively : circuit.Lively id) :
    (circuit.arrivals reach id).length = patience circuit.rounds := by
  rw [arrivals, List.length_map, List.length_take, Nat.min_eq_left (reaches id inside lively)]

/-- No player hears more. -/
theorem length_arrivals_le (circuit : Circuit) (reach : Nat) (id : ComponentId) :
    (circuit.arrivals reach id).length ≤ patience circuit.rounds := by
  rw [arrivals, List.length_map, List.length_take]
  exact Nat.min_le_left _ _

/-- What a player hears is what the one behind it says for what it hears itself. -/
theorem arrivals_eq (reaches : circuit.Reaches reach) (inside : id < circuit.count) :
    circuit.arrivals reach id =
      ((circuit.player (circuit.prev id)).tells circuit.rounds
        (circuit.arrivals reach (circuit.prev id))).map
          ((circuit.ear id).delay circuit.links) := by
  have positive : patience circuit.rounds = patience circuit.rounds - 1 + 1 :=
    (Nat.sub_add_cancel (patience_pos circuit.rounds)).symm
  rw [arrivals, ← take_origins reaches inside (Nat.le_succ reach), origins_succ]
  cases player : circuit.player (circuit.prev id) with
  | ping initiator =>
    rw [Player.tells, arrivals, ← List.map_take, List.take_take,
      Nat.min_eq_left (Nat.sub_le _ 1), positive]
    simp only [Player.initiates, if_true, List.singleton_append, List.take_succ_cons,
      Nat.add_sub_cancel, List.map_cons, List.map_map, ← List.map_take]
    refine congrArg₂ _ ?_ (List.map_congr_left fun hops _ => ?_)
    · rw [voyage, player]
    · simp only [Function.comp_apply, voyage, player]
  | pong responder =>
    rw [Player.tells, arrivals]
    simp only [Player.initiates, Bool.false_eq_true, if_false, List.nil_append, List.map_map,
      ← List.map_take]
    refine List.map_congr_left fun hops _ => ?_
    simp only [Function.comp_apply, voyage, player]

section Counts

variable {counts : ComponentId → Nat}
  (most : ∀ id < circuit.count, counts id ≤ patience circuit.rounds)

include most

/-- Where as many messages are heard as are said, on a ring with an initiator all that are waited for are
heard: nowhere are fewer heard than behind, and so nowhere more. -/
theorem full_of_closed (equal : ∀ id < circuit.count, counts id =
      (circuit.player (circuit.prev id)).gifts circuit.rounds (counts (circuit.prev id)))
    (inside : id < circuit.count) (lively : circuit.Lively id) :
    counts id = patience circuit.rounds := by
  have fewer (other : Fin circuit.count) : counts (circuit.turn other) ≤ counts other := by
    have here := equal other other.2
    have there := most (circuit.prev other) (prev_lt other.2)
    change counts (circuit.prev other) ≤ counts other
    rw [Player.gifts] at here
    split at here <;> omega
  have totals : ∑ other, counts (circuit.turn other) = ∑ other : Fin circuit.count, counts other :=
    Equiv.sum_comp circuit.turn fun other : Fin circuit.count => counts other
  have same (other : ComponentId) (there : other < circuit.count) :
      counts (circuit.prev other) = counts other :=
    (Finset.sum_eq_sum_iff_of_le fun other _ => fewer other).mp totals ⟨other, there⟩
      (Finset.mem_univ _)
  have along (hops : Nat) : counts (circuit.prev^[hops] id) = counts id := by
    induction hops with
    | zero => rfl
    | succ hops ih =>
      rw [Function.iterate_succ_apply', same _ (iterate_lt inside hops), ih]
  obtain ⟨hops, found⟩ := lively
  have here := equal _ (iterate_lt inside hops)
  rw [begins] at found
  rw [← Function.iterate_succ_apply' circuit.prev, along, along, Player.gifts, if_pos found] at here
  have positive := patience_pos circuit.rounds
  have few := most id inside
  omega

/-- So are they where the initiators hear all that they wait for, and nowhere more is heard than said. -/
theorem full_of_ready (said : ∀ id < circuit.count, counts id ≤
      (circuit.player (circuit.prev id)).gifts circuit.rounds (counts (circuit.prev id)))
    (ready : ∀ id < circuit.count, (circuit.player id).initiates = true →
      patience circuit.rounds ≤ counts id)
    (inside : id < circuit.count) (lively : circuit.Lively id) :
    counts id = patience circuit.rounds := by
  have back {other : ComponentId} (there : other < circuit.count)
      (full : counts other = patience circuit.rounds) :
      counts (circuit.prev other) = patience circuit.rounds := by
    have behind := most _ (prev_lt there)
    have here := said other there
    cases begins : (circuit.player (circuit.prev other)).initiates with
    | true => exact Nat.le_antisymm behind (ready _ (prev_lt there) begins)
    | false =>
      rw [Player.gifts, begins, if_neg Bool.false_ne_true] at here
      omega
  obtain ⟨hops, found⟩ := lively
  obtain ⟨period, positive, -, around⟩ := exists_period inside
  -- Going on from the initiator about the ring leads back to the player.
  have full (more : Nat) :
      counts (circuit.prev^[more] (circuit.prev^[hops + 1] id)) = patience circuit.rounds := by
    induction more with
    | zero =>
      exact Nat.le_antisymm (most _ (iterate_lt inside _)) (ready _ (iterate_lt inside _) found)
    | succ more ih =>
      rw [Function.iterate_succ_apply']
      exact back (iterate_lt (iterate_lt inside _) more) ih
  have home := full (period * (hops + 1) - (hops + 1))
  have far : hops + 1 ≤ period * (hops + 1) := Nat.le_mul_of_pos_left _ positive
  rw [← Function.iterate_add_apply, Nat.sub_add_cancel far,
    around.mul_const (hops + 1)] at home
  exact home

end Counts

/-- Among all that a player gives, only what it says over the way over which it speaks goes any way. -/
theorem filter_given (circuit : Circuit) (reach : Nat) (id : ComponentId) (way : Way) :
    (circuit.given reach id).filter way.bears =
      if id < circuit.count ∧ way = circuit.mouth id then circuit.given reach id else [] := by
  by_cases inside : id < circuit.count
  · have texts : circuit.given reach id =
        (((circuit.player id).tells circuit.rounds (circuit.arrivals reach id)).map
          ((circuit.mouth id).delay circuit.links)).map (circuit.mouth id).bring := by
      rw [given, if_pos inside, List.map_map]
      rfl
    by_cases same : way = circuit.mouth id
    · rw [if_pos ⟨inside, same⟩, texts, same, Way.filter_bring]
    · rw [if_neg fun both => same both.2, texts, Way.filter_bring_of_ne same]
  · rw [if_neg fun both => inside both.1, given, if_neg inside]
    rfl

/-- On each way all that players give is received. -/
theorem closed (reaches : circuit.Reaches reach) (way : Way) :
    (circuit.received reach (way.far circuit.links).component).filter way.bears =
      (circuit.given reach (way.near circuit.links).component).filter way.bears := by
  rw [filter_given]
  split
  · next spoken =>
    obtain ⟨inside, speaks⟩ := spoken
    obtain ⟨there, hears⟩ := circuit.heard _ inside
    have behind := prev_next inside
    rw [next] at behind
    rw [← speaks] at there hears behind
    rw [received, if_pos there, hears, Way.filter_bring, arrivals_eq reaches there, behind, hears,
      given, if_pos inside, List.map_map, ← speaks]
    rfl
  · next silent =>
    rw [received]
    split
    · next there =>
      refine Way.filter_bring_of_ne (fun hears => silent ?_) _
      obtain ⟨inside, speaks⟩ := circuit.spoken _ there
      rw [← hears] at inside speaks
      exact ⟨inside, speaks.symm⟩
    · rfl

/-- Whether the components in some places are the players of a circuit. -/
structure Seated (circuit : Circuit) (seats : Seats Player) : Prop where
  /-- All players are there. -/
  owned : ∀ id < circuit.count, (seats id).isSome
  /-- Nobody else is. -/
  inside : ∀ id seat, seats id = some seat → id < circuit.count
  /-- Each is in its place. -/
  player : ∀ id seat, seats id = some seat → seat.slot.component = circuit.player id
  /-- Their ports are bound to the ways over which they hear and speak. -/
  tuned : ∀ id seat, seats id = some seat →
    seat.Tuned circuit.links (circuit.ear id) (circuit.mouth id)

variable {seats : Seats Player}

/-- What a player does for the first texts that it hears. -/
theorem Seated.follows (seated : circuit.Seated seats) {seat : Seat Player}
    (there : seats id = some seat) (reach count : Nat) :
    seat.follow? circuit.links
        (.setup id :: (((circuit.arrivals reach id).take count).map (circuit.ear id).bring).map
          .event) =
      some (seat.hold ((circuit.player id).behind circuit.rounds
          (((circuit.arrivals reach id).take count).map Prod.snd)),
        ((circuit.player id).tells circuit.rounds ((circuit.arrivals reach id).take count)).map
          fun text => (circuit.mouth id).bring ((circuit.mouth id).delay circuit.links text)) := by
  have inside := seated.inside id seat there
  have follows := @Seat.follow?_of_fresh circuit.links seat (circuit.ear id) (circuit.mouth id)
    circuit.rounds (seated.tuned id seat there)
    (seated.player id seat there ▸ circuit.fresh id inside) id
    ((circuit.arrivals reach id).take count)
  rw [seated.player id seat there] at follows
  exact follows

/-- What the players of a circuit will hear is a forecast. -/
theorem forecast (seated : circuit.Seated seats) (reaches : circuit.Reaches reach) :
    Forecast circuit.links seats (circuit.received reach) (circuit.given reach) := by
  refine ⟨fun id seat there => ?_, fun way known => ?_, fun id entry there => ?_⟩
  · have follows := seated.follows there reach (circuit.arrivals reach id).length
    rw [List.take_length] at follows
    rw [received, given, if_pos (seated.inside id seat there), if_pos (seated.inside id seat there)]
    exact ⟨_, follows⟩
  · exact closed reaches way
  · rw [received] at there
    split at there
    · next inside =>
      obtain ⟨arrival, -, rfl⟩ := List.mem_map.mp there
      exact ⟨circuit.known id inside, circuit.far id inside⟩
    · cases there

/-- Where there is no initiator on its ring, a player hears nothing. -/
theorem arrivals_of_not_lively (quiet : ¬ circuit.Lively id) (reach : Nat) :
    circuit.arrivals reach id = [] := by
  rw [arrivals, origins_of_not_lively quiet, List.take_nil, List.map_nil]

/-- An initiator has one on its ring. -/
theorem lively_of_initiates (inside : id < circuit.count)
    (initiates : (circuit.player id).initiates = true) : circuit.Lively id := by
  obtain ⟨period, positive, -, around⟩ := exists_period inside
  refine ⟨period - 1, ?_⟩
  rw [begins, Nat.sub_add_cancel positive, around]
  exact initiates

section Rest

variable {told gave : ComponentId → List (Instant × Delivery)} (seated : circuit.Seated seats)
  (acts : Acts circuit.links seats told gave) (begins : ∀ id, told id <+: circuit.received reach id)

include begins

/-- Where a player heard a part of what it will, it heard the first texts. -/
theorem told_eq (inside : id < circuit.count) :
    told id = ((circuit.arrivals reach id).take (told id).length).map (circuit.ear id).bring := by
  have part := List.prefix_iff_eq_take.mp (begins id)
  rw [received, if_pos inside, ← List.map_take] at part
  exact part

/-- It heard no more than it waits for. -/
theorem length_told_le (inside : id < circuit.count) :
    (told id).length ≤ patience circuit.rounds := by
  have few := (begins id).length_le
  rw [received, if_pos inside, List.length_map] at few
  exact few.trans (circuit.length_arrivals_le reach id)

include seated acts

/-- It gave what it says for these. -/
theorem gave_eq (inside : id < circuit.count) :
    gave id = ((circuit.player id).tells circuit.rounds
      ((circuit.arrivals reach id).take (told id).length)).map
        fun text => (circuit.mouth id).bring ((circuit.mouth id).delay circuit.links text) := by
  obtain ⟨seat, there⟩ := Option.isSome_iff_exists.mp (seated.owned id inside)
  obtain ⟨final, follows⟩ := acts id seat there
  rw [told_eq begins inside, seated.follows there] at follows
  exact (Prod.mk.inj (Option.some.inj follows)).2.symm

/-- What goes the way over which a player hears is what it heard, and what the one behind it gave. -/
theorem filter_ear (inside : id < circuit.count) :
    (told id).filter (circuit.ear id).bears = told id ∧
      (gave (circuit.prev id)).filter (circuit.ear id).bears = gave (circuit.prev id) := by
  have behind := prev_lt inside
  have speaks : circuit.mouth (circuit.prev id) = circuit.ear id := (circuit.spoken id inside).2
  constructor
  · rw [told_eq begins inside, Way.filter_bring]
  · have texts := gave_eq seated acts begins behind
    rw [speaks, ← Function.comp_def, ← List.map_map] at texts
    rw [texts, Way.filter_bring]

/-- The player behind it gave as many messages as it sends for what it heard itself. -/
theorem length_gave (inside : id < circuit.count) : (gave id).length =
    (circuit.player id).gifts circuit.rounds (told id).length := by
  have few := (begins id).length_le
  rw [received, if_pos inside, List.length_map] at few
  rw [gave_eq seated acts begins inside, List.length_map, Player.length_tells, List.length_take,
    Nat.min_eq_left few]

/-- Players at rest have heard all that they will. -/
theorem told_of_rest (received : ∀ way : Way, way.link < circuit.links.size →
      (told (way.far circuit.links).component).filter way.bears <+:
        (gave (way.near circuit.links).component).filter way.bears)
    (rest : Closed circuit.links told gave ∨ AllReady Player.voter circuit.links seats told)
    (reaches : circuit.Reaches reach) (inside : id < circuit.count) :
    told id = circuit.received reach id := by
  by_cases lively : circuit.Lively id
  · refine (begins id).eq_of_length ?_
    rw [Circuit.received, if_pos inside, List.length_map, length_arrivals reaches inside lively]
    rcases rest with closed | ready
    · refine @full_of_closed circuit _ (fun id => (told id).length)
        (fun _ there => length_told_le begins there) (fun id there => ?_) inside lively
      have equal := closed _ (circuit.known id there)
      rw [circuit.far id there, (filter_ear seated acts begins there).1] at equal
      change told id = (gave (circuit.prev id)).filter (circuit.ear id).bears at equal
      rw [(filter_ear seated acts begins there).2] at equal
      exact (congrArg List.length equal).trans (length_gave seated acts begins (prev_lt there))
    · refine @full_of_ready circuit _ (fun id => (told id).length)
        (fun _ there => length_told_le begins there) (fun id there => ?_)
        (fun id there initiates => ?_) inside lively
      · have fewer := received _ (circuit.known id there)
        rw [circuit.far id there, (filter_ear seated acts begins there).1] at fewer
        change told id <+: (gave (circuit.prev id)).filter (circuit.ear id).bears at fewer
        rw [(filter_ear seated acts begins there).2] at fewer
        exact fewer.length_le.trans_eq (length_gave seated acts begins (prev_lt there))
      · obtain ⟨seat, here⟩ := Option.isSome_iff_exists.mp (seated.owned id there)
        have few := (begins id).length_le
        rw [Circuit.received, if_pos there, List.length_map] at few
        have follows := seated.follows here reach (told id).length
        rw [← told_eq begins there] at follows
        have votes := @Player.voter_behind circuit.rounds _ initiates
          (((circuit.arrivals reach id).take (told id).length).map Prod.snd)
        have enough := votes.2.mp (ready id seat _ _ here follows votes.1)
        rw [List.length_map, List.length_take, Nat.min_eq_left few] at enough
        exact enough
  · have nothing := begins id
    rw [Circuit.received, if_pos inside, arrivals_of_not_lively lively, List.map_nil] at nothing ⊢
    exact List.prefix_nil.mp nothing

end Rest

/-- A circuit with an initiator goes as forecast. -/
theorem foretold (seated : circuit.Seated seats) (one : OneEar seats)
    (reaches : circuit.Reaches reach)
    (some : ∃ id < circuit.count, (circuit.player id).initiates = true) :
    Foretold Player.voter circuit.links seats (circuit.received reach) (circuit.given reach) := by
  have votes {id : ComponentId} {seat final : Seat Player} {posted : List (Instant × Delivery)}
      (there : seats id = Option.some seat)
      (follows : seat.follow? circuit.links
        (.setup id :: (circuit.received reach id).map .event) = Option.some (final, posted)) :
      final.slot.component = (circuit.player id).behind circuit.rounds
        ((circuit.arrivals reach id).map Prod.snd) := by
    have through := seated.follows there reach (circuit.arrivals reach id).length
    rw [received, if_pos (seated.inside id seat there)] at follows
    rw [List.take_length, follows] at through
    exact congrArg (fun seat : Seat Player => seat.slot.component)
      (Prod.mk.inj (Option.some.inj through)).1
  refine ⟨forecast seated reaches, one, fun told gave acts begins received rest id seat there =>
    told_of_rest seated acts begins received rest reaches (seated.inside id seat there), ?_, ?_⟩
  · obtain ⟨id, inside, initiates⟩ := some
    obtain ⟨seat, there⟩ := Option.isSome_iff_exists.mp (seated.owned id inside)
    obtain ⟨final, follows⟩ := (forecast seated reaches).follows id seat there
    refine ⟨id, seat, final, _, there, follows, ?_⟩
    rw [votes there follows]
    exact (Player.voter_behind initiates _).1
  · intro id seat final posted there follows takes
    have inside := seated.inside id seat there
    rw [votes there follows] at takes ⊢
    cases initiates : (circuit.player id).initiates with
    | true =>
      refine (Player.voter_behind initiates _).2.mpr ?_
      rw [List.length_map, length_arrivals reaches inside (lively_of_initiates inside initiates)]
    | false =>
      cases player : circuit.player id with
      | ping self =>
        rw [player] at initiates
        cases initiates
      | pong self =>
        rw [player] at takes
        cases takes

end Circuit

end Rally
