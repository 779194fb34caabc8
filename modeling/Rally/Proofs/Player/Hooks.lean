import Rally.Proofs.Player.OtherRanks
import Rally.Proofs.Pool.RunOutcomes
import Rally.Proofs.Pool.TallyCounts
/-!
# What players do

A player that is as it was created says a fixed number of things for what it hears. An initiator says its
word, answers everything but the last message that it waits for, and then votes for the end; a responder
answers everything. What players hear and say are texts at instants, which ways carry between them.
-/

namespace Rally

namespace Way

variable {way : Way} {links : Array Link}

/-- What arrives where a text comes over a way at an instant. -/
def bring (way : Way) (text : Instant × String) : Instant × Delivery :=
  (text.1, ⟨way.link, way.side.opposite, .text text.2⟩)

/-- A text behind the latency of a way. -/
def delay (way : Way) (links : Array Link) (text : Instant × String) : Instant × String :=
  (text.1.saturatingAdd (way.latency links), text.2)

/-- A text is brought over the way that it goes. -/
theorem bears_bring {other : Way} {text : Instant × String} :
    way.bears (other.bring text) = true ↔ way = other := by
  rw [bears_iff, bring, Side.opposite_opposite]

/-- All texts that a way brings go this way. -/
theorem filter_bring (way : Way) (texts : List (Instant × String)) :
    (texts.map way.bring).filter way.bears = texts.map way.bring := by
  refine List.filter_eq_self.mpr fun entry inside => ?_
  obtain ⟨text, -, rfl⟩ := List.mem_map.mp inside
  exact bears_bring.mpr rfl

/-- No text that another way brings does. -/
theorem filter_bring_of_ne {other : Way} (differ : way ≠ other) (texts : List (Instant × String)) :
    (texts.map other.bring).filter way.bears = [] := by
  refine List.filter_eq_nil_iff.mpr fun entry inside => ?_
  obtain ⟨text, -, rfl⟩ := List.mem_map.mp inside
  exact fun carried => differ (bears_bring.mp carried)

end Way

/-- How many messages an initiator waits for: at least one. -/
def patience (rounds : Nat) : Nat := max rounds 1

/-- An initiator waits for some message. -/
theorem patience_pos (rounds : Nat) : 0 < patience rounds := by
  rw [patience]
  omega

namespace Ping

variable {rounds : Nat} {ping : Ping} {texts : List String} {text : String}

/-- The state of an initiator behind some texts. -/
def behind (rounds : Nat) (ping : Ping) (texts : List String) : Ping :=
  { ping with
    roundCount := texts.length
    received := texts.length
    sent := 1 + min texts.length (patience rounds - 1)
    last := texts.getLast?
    voter := if patience rounds ≤ texts.length then .ready else .voting }

/-- An initiator answers every text in front of the last one that it waits for, votes behind this one, and stays
silent from then on. -/
theorem handle_behind (told : ping.maxRounds = rounds) (texts : List String) (text : String) :
    ∃ notes, (ping.behind rounds texts).handle (.text text) =
      { component := ping.behind rounds (texts ++ [text])
        sends := if texts.length + 1 < patience rounds then
          [(ping.play.output, .text (ping.play.answer .initiator ping.rank text))] else []
        votes := if texts.length + 1 = patience rounds then [.ready] else []
        notes } := by
  have waits : (ping.behind rounds texts).maxRounds ≤ (ping.behind rounds texts).roundCount + 1 ↔
      patience rounds ≤ texts.length + 1 := by
    change ping.maxRounds ≤ texts.length + 1 ↔ _
    rw [told, patience]
    omega
  by_cases further : texts.length + 1 < patience rounds
  · have sent : 1 + min (texts.length + 1) (patience rounds - 1) =
        1 + min texts.length (patience rounds - 1) + 1 := by omega
    rw [handle_more _ _ (mt waits.mp (Nat.not_le.mpr further)), if_pos further, if_neg further.ne]
    simp only [behind, List.length_append, List.length_singleton, sent, List.getLast?_concat,
      if_neg (Nat.not_le.mpr further), if_neg (Nat.not_le.mpr (Nat.lt_of_succ_lt further))]
    exact ⟨_, rfl⟩
  · have enough := Nat.not_lt.mp further
    have sent : 1 + min (texts.length + 1) (patience rounds - 1) =
        1 + min texts.length (patience rounds - 1) := by omega
    rw [handle_last _ _ (waits.mpr enough), if_neg further]
    simp only [behind, List.length_append, List.length_singleton, sent, List.getLast?_concat,
      if_pos enough]
    by_cases final : texts.length + 1 = patience rounds
    · rw [if_pos final, if_neg (by omega : ¬ patience rounds ≤ texts.length)]
      exact ⟨_, rfl⟩
    · rw [if_neg final, if_pos (by omega : patience rounds ≤ texts.length)]
      exact ⟨_, rfl⟩

/-- Behind all texts that it waits for an initiator has sent as many, and is ready. -/
theorem behind_patience (full : texts.length = patience rounds) :
    (ping.behind rounds texts).roundCount = patience rounds ∧
      (ping.behind rounds texts).received = patience rounds ∧
      (ping.behind rounds texts).sent = patience rounds ∧
      (ping.behind rounds texts).voter = .ready := by
  have positive := patience_pos rounds
  refine ⟨full, full, ?_, if_pos full.ge⟩
  change 1 + min texts.length (patience rounds - 1) = patience rounds
  omega

end Ping

namespace Player

/-- The voter of a player. -/
def voter : Player → Voter
  | .ping player => player.voter
  | .pong _ => .unregistered

/-- The finish hooks of players do nothing. -/
theorem quiet : Quiet Player := by
  rintro (ping | pong) context <;> rfl

/-- A voter that signals casts its vote. -/
theorem casts_signal (voter : Voter) : voter.Casts voter.signal.2.1 voter.signal.1 := by
  cases voter
  · exact .stays _
  · exact .readies
  · exact .stays _

/-- The hooks of players cast the votes of their voters. -/
theorem ballot : Ballot Player.voter := by
  refine ⟨?_, ?_, ?_⟩
  · rintro (ping | pong) context
    · exact .stays _
    · exact .stays _
  · rintro (ping | pong) context port (text | _)
    · change (Player.voter (.ping ping)).Casts
        ((ping.handle (.text text)).map Player.ping).votes
        (Player.voter ((ping.handle (.text text)).map Player.ping).component)
      by_cases enough : ping.maxRounds ≤ ping.roundCount + 1
      · rw [ping.handle_last text enough]
        exact casts_signal ping.voter
      · rw [ping.handle_more text enough]
        exact .stays _
    · exact .stays _
    · exact .stays _
    · exact .stays _
  · rintro (ping | pong) context
    · exact .stays _
    · exact .stays _

/-- The votes cast while a player is created are those of its voter. -/
theorem Made.casts {part : Part Player} {player : Player} {ports : Ports} {votes : List Vote}
    (made : Made part player ports votes) : Voter.unregistered.Casts votes player.voter := by
  cases made with
  | ping => exact .joins
  | pong => exact .stays _

/-- Whether a player is as it was created, where initiators play so many rounds. -/
inductive Fresh (rounds : Nat) : Player → Prop where
  /-- An initiator. -/
  | ping (play : Play) (rank : RankId) :
      Fresh rounds (.ping { play, rank, maxRounds := rounds, voter := .voting })
  /-- A responder. -/
  | pong (play : Play) (rank : RankId) : Fresh rounds (.pong { play, rank })

/-- Whether a player is an initiator. -/
def initiates : Player → Bool
  | .ping _ => true
  | .pong _ => false

/-- A player that is an initiator is one. -/
theorem eq_ping_of_initiates {player : Player} (begins : player.initiates = true) :
    ∃ self, player = .ping self := by
  cases player with
  | ping self => exact ⟨self, rfl⟩
  | pong => cases begins

/-- The text with which a player answers another one. -/
def reply (player : Player) (received : String) : String :=
  match player with
  | .ping self => self.play.answer .initiator self.rank received
  | .pong self => self.play.answer .responder self.rank received

/-- The state of a player behind some texts. -/
def behind (rounds : Nat) (player : Player) (texts : List String) : Player :=
  match player with
  | .ping self => .ping (self.behind rounds texts)
  | .pong self => .pong { self with
      received := texts.length
      sent := texts.length
      last := texts.getLast? }

/-- What a player says, and when, for texts that arrive at instants. -/
def tells (rounds : Nat) (player : Player) (arrivals : List (Instant × String)) :
    List (Instant × String) :=
  match player with
  | .ping _ => (Instant.zero, player.word) ::
      (arrivals.take (patience rounds - 1)).map fun arrival => (arrival.1, player.reply arrival.2)
  | .pong _ => arrivals.map fun arrival => (arrival.1, player.reply arrival.2)

/-- The voter of an initiator takes part, and is ready behind as many texts as it waits for. -/
theorem voter_behind {rounds : Nat} {player : Player}
    (initiates : player.initiates = true) (texts : List String) :
    (player.behind rounds texts).voter.isParticipant = true ∧
      ((player.behind rounds texts).voter.isReady = true ↔ patience rounds ≤ texts.length) := by
  cases player with
  | pong self => cases initiates
  | ping self =>
    change Voter.isParticipant (if patience rounds ≤ texts.length then .ready else .voting) = true ∧
      (Voter.isReady (if patience rounds ≤ texts.length then .ready else .voting) = true ↔ _)
    split
    · next enough => exact ⟨rfl, fun _ => enough, fun _ => rfl⟩
    · next short => exact ⟨rfl, fun ready => absurd ready (by decide), fun full => absurd full short⟩

/-- Whether a player answers the next text behind so many. -/
def answers (rounds : Nat) (player : Player) (count : Nat) : Bool :=
  !player.initiates || decide (count + 1 < patience rounds)

/-- What a player says behind one more text. -/
theorem tells_concat (rounds : Nat) (player : Player) (arrivals : List (Instant × String))
    (arrival : Instant × String) :
    player.tells rounds (arrivals ++ [arrival]) = player.tells rounds arrivals ++
      if player.answers rounds arrivals.length then [(arrival.1, player.reply arrival.2)] else [] := by
  cases player with
  | pong player => exact List.map_append
  | ping player =>
    have more : [arrival].take (patience rounds - 1 - arrivals.length) =
        if (Player.ping player).answers rounds arrivals.length then [arrival] else [] := by
      rw [answers]
      by_cases further : arrivals.length + 1 < patience rounds
      · rw [if_pos (by simp [further]), List.take_of_length_le]
        simp only [List.length_singleton]
        omega
      · rw [if_neg (by simpa [initiates] using further),
          Nat.sub_eq_zero_of_le (by omega), List.take_zero]
    simp only [tells, List.take_append, more, List.map_append, List.cons_append]
    split <;> rfl

/-- How many messages a player sends behind so many texts, of which an initiator gets no more than it
waits for. -/
def gifts (rounds : Nat) (player : Player) (count : Nat) : Nat :=
  if player.initiates then 1 + min count (patience rounds - 1) else count

/-- A player says as many texts. -/
theorem length_tells (rounds : Nat) (player : Player) (arrivals : List (Instant × String)) :
    (player.tells rounds arrivals).length = player.gifts rounds arrivals.length := by
  cases player with
  | pong player => exact List.length_map _
  | ping player =>
    simp only [tells, gifts, initiates, if_true, List.length_cons, List.length_map,
      List.length_take]
    omega

/-- The votes that a player casts behind its creation for so many texts. -/
def casts (rounds : Nat) (player : Player) (count : Nat) : List Vote :=
  if player.initiates = true ∧ patience rounds ≤ count then [.ready] else []

/-- The votes that it casts for one more text. -/
def castsNext (rounds : Nat) (player : Player) (count : Nat) : List Vote :=
  if player.initiates = true ∧ count + 1 = patience rounds then [.ready] else []

/-- What a player casts for one more text it casts behind the others. -/
theorem casts_succ (rounds : Nat) (player : Player) (count : Nat) :
    player.casts rounds (count + 1) = player.casts rounds count ++ player.castsNext rounds count := by
  rw [casts, casts, castsNext]
  by_cases begins : player.initiates = true
  · simp only [begins, true_and]
    rcases Nat.lt_trichotomy (count + 1) (patience rounds) with less | same | more
    · rw [if_neg (by omega), if_neg (by omega), if_neg (by omega), List.append_nil]
    · rw [if_pos (by omega), if_neg (by omega), if_pos same, List.nil_append]
    · rw [if_pos (by omega), if_pos (by omega), if_neg (by omega), List.append_nil]
  · rw [if_neg fun all => begins all.1, if_neg fun all => begins all.1, if_neg fun all => begins all.1,
      List.append_nil]

/-- How a player reacts to the next text. -/
theorem handle_behind {rounds : Nat} {player : Player} (fresh : player.Fresh rounds)
    (texts : List String) (context : Context) (port : PortId) (text : String) :
    ∃ notes, Component.handle (player.behind rounds texts) context port (.text text) =
      ({ component := player.behind rounds (texts ++ [text])
         sends := if player.answers rounds texts.length then
          [(player.play.output, .text (player.reply text))] else []
         votes := player.castsNext rounds texts.length
         notes := notes } : Reaction Player) := by
  cases fresh with
  | pong play rank =>
    simp only [behind, List.length_append, List.length_singleton, List.getLast?_concat]
    exact ⟨_, rfl⟩
  | ping play rank =>
    obtain ⟨notes, reacts⟩ := @Ping.handle_behind rounds
      { play, rank, maxRounds := rounds, voter := .voting } rfl texts text
    refine ⟨notes, (congrArg (Reaction.map Player.ping) reacts).trans ?_⟩
    simp only [answers, castsNext, initiates, Bool.not_true, Bool.false_or, decide_eq_true_eq, true_and]
    rfl

end Player

namespace Seat

variable {links : Array Link} {seat : Seat Player} {ear mouth : Way} {rounds : Nat}

/-- The place of a component with another state. -/
def hold {C : Type} (seat : Seat C) (component : C) : Seat C :=
  { seat with slot := { seat.slot with component } }

/-- Whether a player hears over one way, and what it says goes another one. -/
structure Tuned (links : Array Link) (ear mouth : Way) (seat : Seat Player) : Prop where
  /-- It hears where the one way ends. -/
  hears : seat.slot.receives (ear.far links).port = true
  /-- It speaks where the other one begins. -/
  speaks : ∃ mode, seat.slot.binding? seat.slot.component.play.output =
    some ⟨mouth.link, mouth.side, mode⟩

/-- A message on a port goes the way that the port is bound to. -/
theorem route?_singleton {C : Type} {slot : Slot C} {port : PortId} {mode : PortMode}
    (bound : slot.binding? port = some ⟨mouth.link, mouth.side, mode⟩) (message : Message) :
    slot.route? [(port, message)] = some [(mouth, message)] := by
  simp only [Slot.route?, List.mapM_cons, bound, Option.map_some, List.mapM_nil]
  rfl

/-- An initiator says its word when it is set up, and a responder says nothing. -/
theorem answer?_setup (tuned : seat.Tuned links ear mouth)
    (fresh : seat.slot.component.Fresh rounds) (id : ComponentId) : ∃ sends,
    seat.answer? links (.setup id) = some (seat.hold (seat.slot.component.behind rounds []), sends) ∧
      sends.map (fun sent => sent.1.post links Instant.zero sent.2) =
        (seat.slot.component.tells rounds []).map fun text => mouth.bring (mouth.delay links text) := by
  obtain ⟨⟨name, player, declared, ports⟩, rank⟩ := seat
  obtain ⟨mode, bound⟩ := tuned.speaks
  cases fresh with
  | pong play rank => exact ⟨[], rfl, rfl⟩
  | ping play rank =>
    have routes := route?_singleton bound (.text (play.opening .initiator rank))
    have waits : ¬ patience rounds ≤ 0 := Nat.not_le.mpr (patience_pos rounds)
    refine ⟨[(mouth, .text (play.opening .initiator rank))], ?_, ?_⟩
    · rw [answer?, reaction?]
      refine (congrArg (Option.map _) routes).trans ?_
      simp only [Player.behind, Ping.behind, List.length_nil, Nat.zero_min, if_neg waits]
      rfl
    · simp only [Player.tells, List.take_nil, List.map_nil]
      rfl

/-- A player answers the next text that it hears, or says nothing. -/
theorem answer?_event (tuned : seat.Tuned links ear mouth)
    (fresh : seat.slot.component.Fresh rounds) (texts : List String)
    (arrival : Instant × String) : ∃ sends,
    (seat.hold (seat.slot.component.behind rounds texts)).answer? links
        (.event (ear.bring arrival)) =
      some (seat.hold (seat.slot.component.behind rounds (texts ++ [arrival.2])), sends) ∧
      sends.map (fun sent => sent.1.post links arrival.1 sent.2) =
        (if seat.slot.component.answers rounds texts.length then
          [(arrival.1, seat.slot.component.reply arrival.2)] else []).map
            fun text => mouth.bring (mouth.delay links text) := by
  obtain ⟨mode, bound⟩ := tuned.speaks
  obtain ⟨notes, reacts⟩ := Player.handle_behind fresh texts
    ⟨seat.slot.name, seat.rank, arrival.1⟩ (ear.far links).port arrival.2
  have hears : (seat.hold (seat.slot.component.behind rounds texts)).slot.receives
      (ear.far links).port = true := tuned.hears
  have reaction : (seat.hold (seat.slot.component.behind rounds texts)).reaction? links
      (.event (ear.bring arrival)) =
        some (Component.handle (seat.slot.component.behind rounds texts)
          ⟨seat.slot.name, seat.rank, arrival.1⟩ (ear.far links).port (.text arrival.2)) := by
    rw [reaction?_event rfl hears]
    split
    · rfl
    · next fails => exact absurd (congrArg Reaction.outcome reacts) fails
  rw [answer?, reaction, reacts]
  split
  · exact ⟨_, congrArg (Option.map _) (route?_singleton bound _), rfl⟩
  · exact ⟨[], rfl, rfl⟩

/-- A player goes through its setup and texts that it hears, and posts what it has to say. -/
theorem follow?_of_fresh (tuned : seat.Tuned links ear mouth)
    (fresh : seat.slot.component.Fresh rounds) (id : ComponentId)
    (arrivals : List (Instant × String)) :
    seat.follow? links (.setup id :: (arrivals.map ear.bring).map .event) =
      some (seat.hold (seat.slot.component.behind rounds (arrivals.map Prod.snd)),
        (seat.slot.component.tells rounds arrivals).map fun text =>
          mouth.bring (mouth.delay links text)) := by
  induction arrivals using List.reverseRecOn with
  | nil =>
    obtain ⟨sends, answers, posts⟩ := answer?_setup tuned fresh id
    rw [List.map_nil, List.map_nil, List.map_nil, follow?_cons_of_answer answers rfl,
      List.append_nil, ← posts]
    rfl
  | append_singleton arrivals arrival before =>
    obtain ⟨sends, answers, posts⟩ := answer?_event tuned fresh (arrivals.map Prod.snd) arrival
    rw [List.length_map] at posts
    rw [List.map_append, List.map_append, List.map_singleton, List.map_singleton,
      ← List.cons_append, follow?_concat before answers, Player.tells_concat, List.map_append,
      List.map_append, ← posts]
    rfl

end Seat

end Rally
