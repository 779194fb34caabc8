import Mathlib.Data.List.Sort
import Rally.Proofs.Player.Cycles
/-!
# Runs of the ready made relays

However long a chain is, whatever the roles and ranks of its stages and the number of rounds are, its run
ends when the last message arrives of those that initiators wait for, and the text of this message spells
the stages that it came by. On a ring of pairs all of them arrive at once, three seconds for each round.
-/

namespace Rally

namespace Topology

section Chain

variable (stages : List (Role × Nat)) (rounds : Nat)

/-- The role of a stage. -/
def stageRole (position : Nat) : Role := (stages.getD position (.responder, 0)).1

/-- Its rank. -/
def stageRank (position : Nat) : RankId := (stages.getD position (.responder, 0)).2

/-- How many stages are walked backwards from one until as many initiators are met as messages are waited
for; to walk around the chain as often is enough. -/
def distance (position : Nat) : Nat :=
  (List.range (patience rounds * stages.length + 1)).findIdx fun hops =>
    decide (patience rounds ≤ Cycle.met stages.length (stageRole stages) hops position)

/-- The stages of a chain are players. -/
theorem plays_chain :
    (chain stages rounds).Plays (stageRole stages) (stageRank stages) rounds :=
  ⟨fun _ _ => rfl, fun _ _ => ⟨_, ofSeconds_one, by decide⟩⟩

variable {stages rounds}

/-- A stage of a role is at its position. -/
theorem stage_eq {position : Nat} {stage : Role × Nat} (there : stages[position]? = some stage) :
    stageRole stages position = stage.1 ∧ stageRank stages position = stage.2 := by
  rw [stageRole, stageRank, List.getD, there]
  exact ⟨rfl, rfl⟩

/-- Where a position of the chain is that of an initiator there is one. -/
theorem initiator_iff {position : Nat} : stageRole stages position = .initiator ↔
    ∃ rank, stages[position]? = some (.initiator, rank) := by
  constructor
  · intro initiator
    rw [stageRole, List.getD] at initiator
    cases there : stages[position]? with
    | none =>
      rw [there] at initiator
      cases initiator
    | some stage =>
      rw [there] at initiator
      exact ⟨stage.2, congrArg (fun role => some (role, stage.2)) initiator⟩
  · rintro ⟨rank, there⟩
    exact (stage_eq there).1

/-- Where a stage is an initiator, so is a position of the chain. -/
theorem exists_initiator (some : ∃ stage ∈ stages, stage.1 = .initiator) :
    ∃ position < stages.length, stageRole stages position = .initiator := by
  obtain ⟨stage, inside, initiator⟩ := some
  obtain ⟨position, there⟩ := List.mem_iff_getElem?.mp inside
  exact ⟨position, (List.getElem?_eq_some_iff.mp there).1, (stage_eq there).1.trans initiator⟩

/-- As many initiators are met in the stages that are walked, and no fewer stages have as many. -/
theorem walk_distance (some : ∃ stage ∈ stages, stage.1 = .initiator) (position : Nat) :
    Cycle.Walk stages.length (stageRole stages) rounds position (distance stages rounds position) := by
  have around : ∃ hops ∈ List.range (patience rounds * stages.length + 1),
      decide (patience rounds ≤ Cycle.met stages.length (stageRole stages) hops position) = true :=
    ⟨_, List.mem_range.mpr (Nat.lt_succ_self _),
      decide_eq_true (Cycle.le_met (exists_initiator some) _ position)⟩
  constructor
  · have found := @List.findIdx_getElem _ _ _ (List.findIdx_lt_length_of_exists around)
    rw [List.getElem_range, decide_eq_true_iff] at found
    exact found
  · intro fewer less
    have short := List.not_of_lt_findIdx less
    rw [List.getElem_range, decide_eq_false_iff_not, Nat.not_le] at short
    exact short

/-- Over so many links of a chain messages take as many seconds. -/
theorem span_chain (stages : List (Role × Nat)) (rounds hops position : Nat) :
    (chain stages rounds).span hops position = hops * 1000000000 := by
  have each : ∀ hop ∈ Finset.range hops, ((chain stages rounds).delay
      (Cycle.back (chain stages rounds).count (hop + 1) position)).toNanos = 1000000000 := by
    intro hop _
    change ((Duration.ofSeconds Binary64.one).toOption.getD Duration.zero).toNanos = _
    rw [ofSeconds_one]
    rfl
  rw [Cycle.span, Finset.sum_congr rfl each, Finset.sum_const, Finset.card_range, smul_eq_mul]

end Chain

section Ring

/-- The role at a position of a ring of pairs. -/
def pairRole (position : Nat) : Role := if position % 2 = 0 then .initiator else .responder

/-- At even positions are initiators. -/
theorem pairRole_eq {position : Nat} : pairRole position = .initiator ↔ position % 2 = 0 := by
  rw [pairRole]
  split <;> simp [*]

variable (count rounds : Nat)

/-- The players of a ring of pairs are on the ranks of their pairs. -/
theorem plays_pairs : (pairs count rounds).Plays pairRole (· / 2) rounds := by
  refine ⟨fun position _ => ?_, fun position _ => ?_⟩
  · change pairPlayer rounds position = player (pairPlayer rounds position).name _ _ rounds
    rw [pairPlayer, pairRole]
    split <;> rfl
  · change ∃ latency, Duration.ofSeconds (if position % 2 = 0 then Binary64.one else Binary64.ofNat 2) =
      .ok latency ∧ latency ≠ Duration.zero
    split
    · exact ⟨_, ofSeconds_one, by decide⟩
    · exact ⟨_, ofSeconds_two, by decide⟩

/-- Behind initiators messages take one second, and two behind responders. -/
theorem toNanos_delay (position : Nat) : ((pairs count rounds).delay position).toNanos =
    if position % 2 = 0 then 1000000000 else 2000000000 := by
  change ((Duration.ofSeconds (if position % 2 = 0 then Binary64.one else Binary64.ofNat 2)).toOption.getD
    Duration.zero).toNanos = _
  split
  · rw [ofSeconds_one]
    rfl
  · rw [ofSeconds_two]
    rfl

variable {count rounds}

/-- An even number of hops leads from one member of a pair to the same one of a pair, and an odd number to
the other one. -/
theorem back_mod_two (positive : 0 < count) (hops position : Nat) :
    Cycle.back (2 * count) hops position % 2 = (position + hops) % 2 := by
  have least := Int.emod_nonneg ((position : Int) - hops)
    (Int.natCast_ne_zero.mpr (Nat.mul_pos (show 0 < 2 by decide) positive).ne')
  have parity := Int.emod_emod_of_dvd ((position : Int) - hops)
    (Int.natCast_dvd_natCast.mpr (Nat.dvd_mul_right 2 count))
  rw [Cycle.back]
  omega

variable (positive : 0 < count) {position : Nat} (even : position % 2 = 0)

include positive even

/-- Every second player before an initiator is one. -/
theorem met_pairs (hops : Nat) : Cycle.met (2 * count) pairRole hops position = hops / 2 := by
  induction hops with
  | zero => rfl
  | succ hops ih =>
    have parity := back_mod_two positive (hops + 1) position
    rw [Cycle.met, List.range_succ, List.countP_append, List.countP_singleton]
    refine (congrArg (· + _) ih).trans ?_
    by_cases odd : hops % 2 = 1
    · rw [if_pos (decide_eq_true (pairRole_eq.mpr (by omega)))]
      omega
    · rw [if_neg (mt of_decide_eq_true (mt pairRole_eq.mp (by omega)))]
      omega

/-- So half of the players before it are. -/
theorem walk_pairs :
    Cycle.Walk (2 * count) pairRole rounds position (2 * patience rounds) := by
  refine ⟨?_, fun fewer less => ?_⟩
  · rw [met_pairs positive even]
    omega
  · rw [met_pairs positive even]
    omega

/-- A message takes three seconds from one initiator to the next one. -/
theorem span_pairs (turns : Nat) :
    (pairs count rounds).span (2 * turns) position = 3 * turns * 1000000000 := by
  induction turns with
  | zero => rw [Nat.mul_zero, Cycle.span, Finset.sum_range_zero]
  | succ turns ih =>
    have near : Cycle.back (pairs count rounds).count (2 * turns + 1) position % 2 = _ :=
      back_mod_two positive (2 * turns + 1) position
    have far : Cycle.back (pairs count rounds).count (2 * turns + 1 + 1) position % 2 = _ :=
      back_mod_two positive (2 * turns + 1 + 1) position
    rw [Cycle.span] at ih ⊢
    rw [Nat.mul_succ, Finset.sum_range_succ, Finset.sum_range_succ, ih, toNanos_delay,
      toNanos_delay, if_neg (by omega), if_pos (by omega)]
    omega

omit positive even

/-- An even number of hops leads from an initiator to another one. -/
theorem back_even (count hops pair : Nat) :
    Cycle.back (2 * count) (2 * hops) (2 * pair) = 2 * Cycle.back count hops pair := by
  have double (number : Nat) : ((2 * number : Nat) : Int) = 2 * number := Int.natCast_mul 2 number
  rw [Cycle.back, Cycle.back, double, double, double, ← Int.mul_sub,
    Int.mul_emod_mul_of_pos _ _ (by decide)]
  omega

/-- The responder of its pair comes next. -/
theorem back_odd (positive : 0 < count) {hops : Nat} (some : 0 < hops) (pair : Nat) :
    Cycle.back (2 * count) (2 * hops - 1) (2 * pair) = 2 * Cycle.back count hops pair + 1 := by
  have inside := Cycle.back_lt positive hops pair
  have next := @Cycle.after_back (pairs count 0) (Nat.mul_pos (by decide) positive) (2 * hops - 1)
    (2 * pair)
  change (Cycle.back (2 * count) (2 * hops - 1 + 1) (2 * pair) + 1) % (2 * count) =
    Cycle.back (2 * count) (2 * hops - 1) (2 * pair) at next
  rw [Nat.sub_add_cancel (by omega), back_even, Nat.mod_eq_of_lt (by omega)] at next
  exact next.symm

/-- Texts that come in pairs are those of the pairs. -/
theorem intercalate_pairs {α : Type} (first second : α → String) (xs : List α) :
    "-".intercalate (xs.flatMap fun x => [first x, second x]) =
      "-".intercalate (xs.map fun x => first x ++ "-" ++ second x) := by
  induction xs with
  | nil => rfl
  | cons x rest ih =>
    rw [List.flatMap_cons, List.map_cons]
    cases rest with
    | nil => rfl
    | cons y rest =>
      have more : (y :: rest).flatMap (fun x => [first x, second x]) ≠ [] := List.cons_ne_nil _ _
      have others : (y :: rest).map (fun x => first x ++ "-" ++ second x) ≠ [] :=
        List.cons_ne_nil _ _
      rw [String.intercalate_append_of_ne_nil (List.cons_ne_nil _ _) more, ih,
        String.intercalate_cons_cons, String.intercalate_singleton,
        String.intercalate_cons_of_ne_nil others]

/-- The text of a message spells pairs. -/
theorem spell_pairs (positive : 0 < count) (rounds pair : Nat) :
    spell (fun other => Play.tag (pairRole other) (other / 2))
        (Cycle.trail (2 * count) (2 * rounds) (2 * pair)) =
      "-".intercalate ((Cycle.trail count rounds pair).map fun other => s!"Ping{other}-Pong{other}") := by
  rw [spell, Cycle.trail, List.map_map, ← flatMap_pairs, intercalate_pairs, Cycle.trail, List.map_map]
  refine congrArg _ (List.map_congr_left fun hop inside => ?_)
  have within := List.mem_range.mp inside
  have ahead : 2 * rounds - 2 * hop = 2 * (rounds - hop) := by omega
  have behind : 2 * rounds - (2 * hop + 1) = 2 * (rounds - hop) - 1 := by omega
  simp only [Function.comp_apply, ahead, behind, back_even,
    back_odd positive (Nat.sub_pos_of_lt within)]
  generalize Cycle.back count (rounds - hop) pair = other
  have responder : pairRole (2 * other + 1) = .responder := if_neg (by omega)
  rw [pairRole_eq.mpr (Nat.mul_mod_right 2 other), Nat.mul_div_cancel_left other (by decide), responder,
    show (2 * other + 1) / 2 = other by omega, Play.tag, Play.tag, ← String.append_assoc,
    @String.append_assoc _ "-"]
  rfl

end Ring

end Topology

/-- A number of whole seconds is that of a duration without any further nanoseconds. -/
theorem Duration.toNanos_eq_seconds {duration : Duration} {seconds : Nat} :
    duration.toNanos = seconds * 1000000000 ↔ duration.secs = seconds ∧ duration.nanos = 0 := by
  have below := duration.nanos_lt
  rw [toNanos]
  omega

/-- What the report of the run of a chain tells. -/
structure Report.Chains (stages : List (Role × Nat)) (rounds : Nat) (report : Report Player) :
    Prop where
  /-- All voters are ready. -/
  reason : report.reason = .allVotersReady
  /-- The last message of an initiator spells the stages that were walked, in their order. -/
  payload : ∀ position rank, stages[position]? = some (.initiator, rank) → ∃ ping : Ping,
    report.component? (Topology.stageName stages position) = some (.ping ping) ∧
      ping.last = some ("-".intercalate
        ((Cycle.trail stages.length (Topology.distance stages rounds position) position).map
          fun other => Play.tag (Topology.stageRole stages other) (Topology.stageRank stages other)))
  /-- The run takes as many seconds as the longest of these walks has stages. -/
  latest : IsGreatest {seconds | ∃ position rank, stages[position]? = some (.initiator, rank) ∧
    Topology.distance stages rounds position = seconds} report.endTime.secs
  /-- It takes no more than whole seconds. -/
  whole : report.endTime.nanos = 0

/-- What the report of the run of a ring of pairs tells. -/
structure Report.Pairs (count rounds : Nat) (report : Report Player) : Prop where
  /-- All voters are ready. -/
  reason : report.reason = .allVotersReady
  /-- The run takes three seconds for each message that initiators wait for. -/
  seconds : report.endTime.secs = 3 * patience rounds
  /-- It takes no more than whole seconds. -/
  whole : report.endTime.nanos = 0
  /-- Both players of each pair receive as many messages. -/
  events : report.events = 2 * count * patience rounds
  /-- As many are sent. -/
  sent : report.messagesSent = 2 * count * patience rounds
  /-- All of them are delivered. -/
  delivered : report.messagesDelivered = 2 * count * patience rounds
  /-- Nothing is left. -/
  settled : ∀ rank ∈ report.ranks, rank.pending = 0
  /-- The last message of an initiator spells the pairs before it, in their order. -/
  payload : ∀ pair < count, ∃ ping : Ping,
    report.component? (Topology.ringPing pair) = some (.ping ping) ∧
      ping.last = some ("-".intercalate ((Cycle.trail count (patience rounds) pair).map
        fun other => s!"Ping{other}-Pong{other}"))

/-- The report of the run of a chain tells how messages went around it. -/
theorem chains_of_circles {stages : List (Role × Nat)} {rounds : Nat} {report : Report Player}
    (circles : report.Circles (Topology.chain stages rounds) (Topology.stageRole stages)
      (Topology.stageRank stages) rounds (Topology.distance stages rounds)) : report.Chains stages rounds := by
  obtain ⟨⟨last, -, here, attained⟩, most⟩ := circles.latest
  rw [Topology.span_chain] at attained
  obtain ⟨seconds, whole⟩ := Duration.toNanos_eq_seconds.mp attained.symm
  refine ⟨circles.reason, fun position rank there => ?_, ⟨?_, ?_⟩, whole⟩
  · exact circles.payload position (List.getElem?_eq_some_iff.mp there).1
      (Topology.stage_eq there).1
  · obtain ⟨rank, there⟩ := Topology.initiator_iff.mp here
    exact ⟨last, rank, there, seconds.symm⟩
  · rintro _ ⟨position, rank, there, rfl⟩
    have later := most ⟨position, (List.getElem?_eq_some_iff.mp there).1, (Topology.stage_eq there).1,
      Topology.span_chain _ _ _ _⟩
    rw [← attained] at later
    rw [seconds]
    exact Nat.le_of_mul_le_mul_right later (by decide)

/-- So does that of the run of a ring of pairs. -/
theorem pairs_of_circles {count rounds : Nat} {report : Report Player} (positive : 0 < count)
    (circles : report.Circles (Topology.pairs count rounds) Topology.pairRole (· / 2)
      rounds fun _ => 2 * patience rounds) : report.Pairs count rounds := by
  obtain ⟨⟨last, -, here, attained⟩, -⟩ := circles.latest
  rw [Topology.pairRole_eq] at here
  rw [Topology.span_pairs positive here] at attained
  obtain ⟨seconds, whole⟩ := Duration.toNanos_eq_seconds.mp attained.symm
  refine ⟨circles.reason, seconds, whole, circles.events, circles.sent, circles.delivered,
    circles.settled, fun pair inside => ?_⟩
  obtain ⟨ping, there, text⟩ := circles.payload (2 * pair) (Nat.mul_lt_mul_of_pos_left inside (by decide))
    (Topology.pairRole_eq.mpr (Nat.mul_mod_right 2 pair))
  change report.component? (Topology.pairPlayer rounds (2 * pair)).name = _ at there
  rw [Topology.pairPlayer_even] at there
  exact ⟨ping, there, text.trans (congrArg some (Topology.spell_pairs positive _ pair))⟩

namespace Simulation

variable {options : Options} {clock moment : Instant} {journal : Journal} {filter : Filter}

/-- A chain with an initiator is built, and its run ends when the last message arrives that initiators wait
for. -/
theorem run_of_relayChain (unlimited : options.limit = .unlimited) {stages : List (Role × Nat)}
    {rounds : Nat} (some : ∃ stage ∈ stages, stage.1 = .initiator)
    (short : ∀ position rank, stages[position]? = Option.some (.initiator, rank) →
      Topology.distance stages rounds position < 1 <<< 64) :
    ∃ simulation, (build Player.registry options (.relayChain stages rounds) clock journal).2 =
        .ok simulation ∧ (∃ fuel, simulation.run fuel filter moment ≠ none) ∧
      ∀ fuel result, simulation.run fuel filter moment = Option.some result → ∃ report,
        result.outcome = .ok report ∧ report.Chains stages rounds := by
  have plays := Topology.plays_chain stages rounds
  have describes := Topology.describes_relayChain stages rounds
  have initiator := Topology.exists_initiator some
  have walk (position : Nat) : Cycle.Walk stages.length (Topology.stageRole stages) rounds position
      (Topology.distance stages rounds position) := Topology.walk_distance some position
  have near (position : Nat) (here : Topology.stageRole stages position = .initiator) :
      Topology.distance stages rounds position < 1 <<< 64 := by
    obtain ⟨rank, there⟩ := Topology.initiator_iff.mp here
    exact short position rank there
  have fits : rounds < 1 <<< 64 := by
    obtain ⟨position, -, here⟩ := initiator
    exact (Nat.le_max_left rounds 1).trans_lt ((walk position).le.trans_lt (near position here))
  obtain ⟨simulation, built⟩ := exists_of_playable (plays.playable describes fits) options clock journal
  have early : ∀ position < stages.length, Topology.stageRole stages position = .initiator →
      (Topology.chain stages rounds).span (Topology.distance stages rounds position) position <
        Instant.max.toNanos := by
    intro position _ here
    rw [Topology.span_chain]
    exact seconds_lt_max (near position here)
  obtain ⟨ends, concludes⟩ : (∃ fuel, simulation.run fuel filter moment ≠ none) ∧ _ :=
    run_of_cycle built describes plays initiator (fun position _ _ => walk position) early fits
      unlimited
  refine ⟨simulation, built, ends, fun fuel result runs => ?_⟩
  obtain ⟨report, ok, circles⟩ := concludes fuel result runs
  exact ⟨report, ok, chains_of_circles circles⟩

/-- A ring of pairs has a rank for each pair. -/
theorem ids_of_relayRing {simulation : Simulation Player} {count rounds : Nat} (positive : 0 < count)
    (built : (build Player.registry options (.relayRing count rounds) clock journal).2 =
      .ok simulation) : simulation.ranks.map Rank.id = List.range count := by
  have components := (Topology.describes_relayRing count rounds).components
  have ranks : (Topology.relayRing count rounds).components.map ComponentSpec.rank =
      (List.range (2 * count)).map (· / 2) := by
    rw [components, List.map_map]
    refine List.map_congr_left fun position _ => ?_
    change (Topology.pairPlayer rounds position).rank = _
    rw [Topology.pairPlayer]
    split <;> rfl
  have some : (List.range (2 * count)).map (· / 2) ≠ [] :=
    List.ne_nil_of_mem (List.mem_map_of_mem (List.mem_range.mpr (Nat.mul_pos (by decide) positive)))
  rw [ids_of_build built, ranks]
  refine (rankIds_ascending _).eq_of_mem_iff List.pairwise_lt_range fun rank => ?_
  rw [mem_rankIds_iff some, List.mem_map, List.mem_range]
  constructor
  · rintro ⟨position, inside, rfl⟩
    have within := List.mem_range.mp inside
    omega
  · intro inside
    exact ⟨2 * rank, List.mem_range.mpr (by omega), Nat.mul_div_cancel_left rank (by decide)⟩

/-- A ring of pairs is built, and its run ends behind three seconds for each message that initiators wait
for. -/
theorem run_of_relayRing (unlimited : options.limit = .unlimited) {count rounds : Nat}
    (positive : 0 < count) (short : 3 * patience rounds < 1 <<< 64) :
    ∃ simulation, (build Player.registry options (.relayRing count rounds) clock journal).2 =
        .ok simulation ∧ simulation.ranks.map Rank.id = List.range count ∧
      (∃ fuel, simulation.run fuel filter moment ≠ none) ∧
      ∀ fuel result, simulation.run fuel filter moment = some result → ∃ report,
        result.outcome = .ok report ∧ report.Pairs count rounds := by
  have plays := Topology.plays_pairs count rounds
  have describes := Topology.describes_relayRing count rounds
  have fits : rounds < 1 <<< 64 := by
    have fewer := Nat.le_max_left rounds 1
    rw [patience] at short
    omega
  obtain ⟨simulation, built⟩ := exists_of_playable (plays.playable describes fits) options clock journal
  have early : ∀ position < 2 * count, Topology.pairRole position = .initiator →
      (Topology.pairs count rounds).span (2 * patience rounds) position < Instant.max.toNanos := by
    intro position _ here
    rw [Topology.span_pairs positive (Topology.pairRole_eq.mp here)]
    exact seconds_lt_max short
  obtain ⟨ends, concludes⟩ : (∃ fuel, simulation.run fuel filter moment ≠ none) ∧ _ :=
    run_of_cycle built describes plays ⟨0, Nat.mul_pos (by decide) positive, rfl⟩
      (fun position _ here => Topology.walk_pairs positive (Topology.pairRole_eq.mp here)) early fits
      unlimited
  refine ⟨simulation, built, ids_of_relayRing positive built, ends, fun fuel result runs => ?_⟩
  obtain ⟨report, ok, circles⟩ := concludes fuel result runs
  exact ⟨report, ok, pairs_of_circles positive circles⟩

/-- The ready made relays are built and run to their end. On a ring of pairs messages go around until each
initiator has received one of each of the pairs before it that it waits for, which takes three seconds for
each. On a chain the last message that an initiator waits for comes from the stage behind which enough
initiators are met, and takes a second for each stage that it comes by. -/
theorem run_of_relays (unlimited : options.limit = .unlimited) :
    (∀ count rounds, 1 ≤ count → 3 * patience rounds < 1 <<< 64 → ∃ simulation,
      (build Player.registry options (.relayRing count rounds) clock journal).2 = .ok simulation ∧
      simulation.ranks.map Rank.id = List.range count ∧
      (∃ fuel, simulation.run fuel filter moment ≠ none) ∧
      ∀ fuel result, simulation.run fuel filter moment = some result → ∃ report,
        result.outcome = .ok report ∧ report.Pairs count rounds) ∧
    ∀ stages rounds, (∃ stage ∈ stages, stage.1 = .initiator) →
      (∀ position rank, stages[position]? = some (.initiator, rank) →
        Topology.distance stages rounds position < 1 <<< 64) → ∃ simulation,
      (build Player.registry options (.relayChain stages rounds) clock journal).2 = .ok simulation ∧
      (∃ fuel, simulation.run fuel filter moment ≠ none) ∧
      ∀ fuel result, simulation.run fuel filter moment = some result → ∃ report,
        result.outcome = .ok report ∧ report.Chains stages rounds :=
  ⟨fun _ _ positive short => run_of_relayRing unlimited positive short,
    fun _ _ some short => run_of_relayChain unlimited some short⟩

/-- Three pairs that wait for two messages, and two initiators and a responder that do. -/
theorem run_of_relays_twice :
    (∃ (simulation : Simulation Player) (fuel : Nat) (result : RunResult Player)
      (report : Report Player) (ping : Ping),
      (build Player.registry {} (.relayRing 3 2) Instant.zero ⟨Filter.off, #[]⟩).2 = .ok simulation ∧
      simulation.ranks.map Rank.id = [0, 1, 2] ∧
      simulation.run fuel Filter.off Instant.zero = some result ∧ result.outcome = .ok report ∧
      report.endTime.secs = 6 ∧ report.events = 12 ∧
      report.component? "PingPong0.Ping" = some (.ping ping) ∧
      ping.last = some "Ping1-Pong1-Ping2-Pong2") ∧
    ∃ (simulation : Simulation Player) (fuel : Nat) (result : RunResult Player)
      (report : Report Player) (ping : Ping),
      (build Player.registry {} (.relayChain [(.initiator, 0), (.responder, 1), (.initiator, 1)] 2)
        Instant.zero ⟨Filter.off, #[]⟩).2 = .ok simulation ∧
      simulation.run fuel Filter.off Instant.zero = some result ∧ result.outcome = .ok report ∧
      report.endTime.secs = 3 ∧ report.component? "Ping0" = some (.ping ping) ∧
      ping.last = some "Ping0-Pong1-Ping1" := by
  obtain ⟨rings, chains⟩ := @run_of_relays {} Instant.zero Instant.zero ⟨Filter.off, #[]⟩ Filter.off rfl
  constructor
  · obtain ⟨simulation, built, ranks, ⟨fuel, ends⟩, concludes⟩ := rings 3 2 (by decide) (by decide)
    obtain ⟨result, runs⟩ := Option.ne_none_iff_exists'.mp ends
    obtain ⟨report, ok, pairs⟩ := concludes fuel result runs
    obtain ⟨ping, there, text⟩ := pairs.payload 0 (by decide)
    exact ⟨simulation, fuel, result, report, ping, built, ranks, runs, ok, pairs.seconds, pairs.events,
      there, text.trans (by decide +kernel)⟩
  · have walks : ∀ position < 3,
        Topology.stageRole [(.initiator, 0), (.responder, 1), (.initiator, 1)] position = .initiator →
          Topology.distance [(.initiator, 0), (.responder, 1), (.initiator, 1)] 2 position = 3 := by
      decide
    have three {position : Nat} {rank : RankId} (there : [(Role.initiator, 0), (.responder, 1),
        (.initiator, 1)][position]? = some (.initiator, rank)) : Topology.distance
          [(.initiator, 0), (.responder, 1), (.initiator, 1)] 2 position = 3 :=
      walks position (List.getElem?_eq_some_iff.mp there).1 (Topology.stage_eq there).1
    obtain ⟨simulation, built, ⟨fuel, ends⟩, concludes⟩ :=
      chains [(.initiator, 0), (.responder, 1), (.initiator, 1)] 2 ⟨_, List.mem_cons_self, rfl⟩
        fun position rank there => by rw [three there]; decide
    obtain ⟨result, runs⟩ := Option.ne_none_iff_exists'.mp ends
    obtain ⟨report, ok, told⟩ := concludes fuel result runs
    obtain ⟨ping, there, text⟩ := told.payload 0 0 rfl
    obtain ⟨position, rank, here, attained⟩ := told.latest.1
    exact ⟨simulation, fuel, result, report, ping, built, runs, ok,
      attained.symm.trans (three here), there, text.trans (by decide +kernel)⟩

end Simulation

end Rally
