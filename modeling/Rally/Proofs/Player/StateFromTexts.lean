import Mathlib.Data.List.TakeWhile
import Rally.Bench
import Rally.Proofs.Player.Hooks
import Rally.Proofs.Pool.HistoryInvariants
import Rally.Proofs.Pool.RunErrors
/-!
# Players among any components

Whatever components a player is joined to, and whatever they send, its state is a function of the texts that it
has heard: so are the messages that it has said and the votes that it has cast. A message without a text
changes nothing of a player and ends the run with an error.
-/

namespace Rally

namespace Sign

/-- The text that is heard. -/
def text? : Sign → Option String
  | heard _ (.text payload) => some payload
  | _ => none

/-- The message that is said, and the port. -/
def said? : Sign → Option (PortId × Message)
  | said port message => some (port, message)
  | _ => none

end Sign

/-- The texts that a component has heard. -/
def textsOf (tale : List Sign) : List String := tale.filterMap Sign.text?

/-- The messages that a component has said, and their ports. -/
def saidOf (tale : List Sign) : List (PortId × Message) := tale.filterMap Sign.said?

/-- The texts that a component has heard, and more of them. -/
@[simp] theorem textsOf_append (tale more : List Sign) :
    textsOf (tale ++ more) = textsOf tale ++ textsOf more :=
  List.filterMap_append

/-- The messages that a component has said, and more of them. -/
@[simp] theorem saidOf_append (tale more : List Sign) :
    saidOf (tale ++ more) = saidOf tale ++ saidOf more :=
  List.filterMap_append

namespace Response

variable {C : Type} (response : Response C)

/-- What is heard in a response is what the hook is called for. -/
theorem textsOf_tale : textsOf response.tale = textsOf response.occasion.signs := by
  have silent : textsOf (response.said.map fun send => Sign.said send.1 send.2) = [] := by
    simp [textsOf, Sign.text?]
  rw [tale, textsOf_append, silent, List.append_nil]

/-- What is said in a response is what is handed to links. -/
theorem saidOf_tale : saidOf response.tale = response.said := by
  have unsaid : saidOf response.occasion.signs = [] := by cases response.occasion <;> rfl
  have all : saidOf (response.said.map fun send => Sign.said send.1 send.2) = response.said := by
    simp [saidOf, Sign.said?, List.filterMap_map, Function.comp_def]
  rw [tale, saidOf_append, unsaid, all, List.nil_append]

/-- Where an answer has no messages, none is handed to a link. -/
theorem said_of_nil (silent : response.reaction.sends = []) : response.said = [] := by
  rw [said, silent, List.takeWhile_nil]
  split <;> rfl

/-- Where a hook goes well that sends on configured ports alone, all of its messages are handed to links. -/
theorem said_of_completed (completed : response.reaction.outcome = .completed)
    (further : response.occasion ≠ .finish)
    (bound : ∀ send ∈ response.reaction.sends, (response.slot.binding? send.1).isSome) :
    response.said = response.reaction.sends := by
  rw [said, completed]
  split
  · next occasion outcome => cases outcome
  · next occasion outcome => cases outcome
  · next occasion outcome => cases outcome
  · next occasion => exact absurd occasion further
  · exact List.takeWhile_eq_self_iff.mpr bound

end Response

/-- The port on which a player speaks is configured. -/
theorem Play.Configured.isSome_output {wired : PortId → Option (LinkId × Side)} {play : Play}
    {ports : Ports} (configured : Play.Configured wired play ports) :
    (ports[play.output]?.join).isSome := by
  cases configured <;> rfl

namespace Player

/-- Whether components that are players act as these. -/
structure Hosts {C : Type} [Component C] (wrap : Player → C) : Prop where
  /-- Players are told apart. -/
  injective : Function.Injective wrap
  /-- The setup hook is that of the player. -/
  setup : ∀ player context,
    Component.setup (wrap player) context = (Component.setup player context).map wrap
  /-- So is the hook for messages. -/
  handle : ∀ player context port message,
    Component.handle (wrap player) context port message =
      (Component.handle player context port message).map wrap
  /-- So is the finish hook. -/
  finish : ∀ player context,
    Component.finish (wrap player) context = (Component.finish player context).map wrap

variable {rounds : Nat} {player : Player}

/-- A player as it is created is fresh. -/
theorem fresh_created (play : Play) (rank : RankId) (rounds : Nat) (role : Role) :
    (created play rank rounds role).Fresh rounds := by
  cases role with
  | initiator => exact .ping play rank
  | responder => exact .pong play rank

/-- What a player says for texts, one after the other. -/
def words (rounds : Nat) (player : Player) (texts : List String) : List String :=
  (player.tells rounds (texts.map fun text => (Instant.zero, text))).map Prod.snd

/-- What a player says for one more text. -/
theorem words_concat (rounds : Nat) (player : Player) (texts : List String) (text : String) :
    player.words rounds (texts ++ [text]) = player.words rounds texts ++
      if player.answers rounds texts.length then [player.reply text] else [] := by
  rw [words, words, List.map_append, List.map_singleton, tells_concat, List.map_append, List.length_map]
  split <;> rfl

/-- A player says as many texts. -/
theorem length_words (rounds : Nat) (player : Player) (texts : List String) :
    (player.words rounds texts).length = player.gifts rounds texts.length := by
  rw [words, List.length_map, length_tells, List.length_map]

/-- The messages in which a player says texts. -/
def utters (player : Player) (words : List String) : List (PortId × Message) :=
  words.map fun word => (player.play.output, .text word)

/-- How a player reacts to its setup. -/
theorem setup_of_fresh (fresh : player.Fresh rounds) (context : Context) :
    ∃ notes, Component.setup player context =
      ({ component := player.behind rounds []
         sends := player.utters (player.words rounds [])
         notes := notes } : Reaction Player) := by
  cases fresh with
  | pong play rank => exact ⟨_, rfl⟩
  | ping play rank =>
    have waits : ¬ patience rounds ≤ 0 := Nat.not_le.mpr (patience_pos rounds)
    simp only [behind, Ping.behind, List.length_nil, Nat.zero_min, if_neg waits, words, tells, List.map_nil,
      List.take_nil]
    exact ⟨_, rfl⟩

/-- No vote is cast behind the creation of a player until it has heard some text. -/
theorem casts_zero (rounds : Nat) (player : Player) : player.casts rounds 0 = [] :=
  if_neg fun all => Nat.not_le.mpr (patience_pos rounds) all.2

/-- How a player reacts to a message without a text. -/
theorem handle_null (player : Player) (context : Context) (port : PortId) :
    Component.handle player context port .null =
      ({ component := player
         outcome := .violated (.unexpectedKind .text .null) } : Reaction Player) := by
  cases player <;> rfl

/-- A player does nothing in its finish hook. -/
theorem finish_eq (player : Player) (context : Context) :
    Component.finish player context = ({ component := player } : Reaction Player) := by
  cases player <;> rfl

variable {C : Type} {wrap : Player → C} {place : Slot C}

/-- The habit of a player that is created in a place: what it has heard tells its state, what it has said, and the
votes that it has cast. -/
def habit (wrap : Player → C) (place : Slot C) (rounds : Nat) (player : Player) : Habit C where
  fresh slot := slot = place
  living tale votes slot :=
    slot = { place with component := wrap (player.behind rounds (textsOf tale)) } ∧
      saidOf tale = player.utters (player.words rounds (textsOf tale)) ∧
      votes = player.casts rounds (textsOf tale).length

/-- A hook without messages and votes leaves a player as it is. -/
theorem living_silent {response : Response C} {tale : List Sign} {votes : List Vote} {outcome : Outcome}
    (living : (habit wrap place rounds player).living tale votes response.slot)
    (answer : response.reaction =
      { component := wrap (player.behind rounds (textsOf tale)), outcome := outcome })
    (heard : textsOf response.occasion.signs = []) :
    (habit wrap place rounds player).living (tale ++ response.tale) (votes ++ response.reaction.votes)
      response.behind := by
  obtain ⟨same, said, cast⟩ := living
  have unsaid : saidOf response.tale = [] := by
    rw [response.saidOf_tale, response.said_of_nil (by rw [answer])]
  have texts : textsOf (tale ++ response.tale) = textsOf tale := by
    rw [textsOf_append, response.textsOf_tale, heard, List.append_nil]
  refine ⟨?_, ?_, ?_⟩
  · rw [texts, Response.behind, same, answer]
  · rw [texts, saidOf_append, unsaid, List.append_nil, said]
  · rw [texts, answer, List.append_nil, cast]

variable [Component C]

/-- The hook for messages keeps to the habit of a player. -/
theorem living_message (hosts : Hosts wrap) (fresh : player.Fresh rounds)
    (speaks : (place.binding? player.play.output).isSome) {response : Response C} {tale : List Sign}
    {votes : List Vote} {port : PortId} {message : Message} (honest : response.Honest)
    (occasion : response.occasion = .message port message)
    (living : (habit wrap place rounds player).living tale votes response.slot) :
    (habit wrap place rounds player).living (tale ++ response.tale) (votes ++ response.reaction.votes)
      response.behind := by
  obtain ⟨context, honest⟩ := honest
  have same := living.1
  cases message with
  | null =>
    refine @living_silent _ _ _ _ _ _ _ _ (.violated (.unexpectedKind .text .null)) living ?_ ?_
    · rw [honest, occasion, Occasion.answer, same, hosts.handle, handle_null]
      rfl
    · rw [occasion]
      rfl
  | text text =>
    obtain ⟨-, said, cast⟩ := living
    obtain ⟨notes, reacts⟩ := handle_behind fresh (textsOf tale) context port text
    have answer : response.reaction =
        { component := wrap (player.behind rounds (textsOf tale ++ [text]))
          sends := if player.answers rounds (textsOf tale).length then
            [(player.play.output, .text (player.reply text))] else []
          votes := player.castsNext rounds (textsOf tale).length
          notes := notes } := by
      rw [honest, occasion, Occasion.answer, same, hosts.handle, reacts]
      rfl
    have texts : textsOf (tale ++ response.tale) = textsOf tale ++ [text] := by
      rw [textsOf_append, response.textsOf_tale, occasion]
      rfl
    have bound : ∀ send ∈ response.reaction.sends, (response.slot.binding? send.1).isSome := by
      rw [answer, same]
      dsimp only
      split
      · exact List.forall_mem_singleton.mpr speaks
      · exact fun send none => absurd none List.not_mem_nil
    have told : saidOf response.tale = player.utters
        (if player.answers rounds (textsOf tale).length then [player.reply text] else []) := by
      rw [response.saidOf_tale, response.said_of_completed (by rw [answer]) (by rw [occasion]; nofun) bound,
        answer]
      split <;> rfl
    refine ⟨?_, ?_, ?_⟩
    · rw [texts, Response.behind, same, answer]
    · rw [texts, saidOf_append, said, told, words_concat, utters, utters, utters, List.map_append]
    · rw [texts, answer, cast, List.length_append, List.length_singleton, casts_succ]

/-- The hooks of a player keep to its habit. -/
theorem kept_habit (hosts : Hosts wrap) (fresh : player.Fresh rounds)
    (component : place.component = wrap player)
    (speaks : (place.binding? player.play.output).isSome) : (habit wrap place rounds player).Kept := by
  refine ⟨?_, fun response tale votes honest further living => ?_, ?_⟩
  · rintro response ⟨context, honest⟩ occasion same
    obtain rfl : response.slot = place := same
    obtain ⟨notes, reacts⟩ := setup_of_fresh fresh context
    have answer : response.reaction =
        { component := wrap (player.behind rounds []), sends := player.utters (player.words rounds []),
          notes := notes } := by
      rw [honest, occasion, Occasion.answer, component, hosts.setup, reacts]
      rfl
    have heard : textsOf response.tale = [] := by
      rw [response.textsOf_tale, occasion]
      rfl
    have bound : ∀ send ∈ response.reaction.sends, (response.slot.binding? send.1).isSome := by
      rw [answer]
      intro send inside
      obtain ⟨word, -, rfl⟩ := List.mem_map.mp inside
      exact speaks
    have said : saidOf response.tale = player.utters (player.words rounds []) := by
      rw [response.saidOf_tale, response.said_of_completed (by rw [answer]) (by rw [occasion]; nofun) bound,
        answer]
    refine ⟨?_, ?_, ?_⟩
    · rw [Response.behind, answer, heard]
    · rw [said, heard]
    · rw [answer, heard, List.length_nil, casts_zero]
  · cases occasion : response.occasion with
    | setup => exact absurd occasion further
    | message port message => exact living_message hosts fresh speaks honest occasion living
    | finish =>
      obtain ⟨context, honest⟩ := honest
      refine @living_silent _ _ _ _ _ _ _ _ .completed living ?_ ?_
      · rw [honest, occasion, Occasion.answer, living.1, hosts.finish, finish_eq]
        rfl
      · rw [occasion]
        rfl
  · rintro response ⟨context, honest⟩ occasion same
    obtain rfl : response.slot = place := same
    have answer : response.reaction = { component := wrap player } := by
      rw [honest, occasion, Occasion.answer, component, hosts.finish, finish_eq]
      rfl
    refine ⟨by rw [answer], ?_⟩
    change response.behind = response.slot
    rw [Response.behind, answer, ← component]

end Player

/-- What the fields of an initiator and its votes tell behind its setup, for the number of texts that it has heard
and that of messages that it has said. -/
structure Ping.Adds (params : Parameters) (heard said : Nat) (votes : List Vote) (ping : Ping) :
    Prop where
  /-- It plays the rounds that it was told. -/
  told : Player.rounds? params = .ok ping.maxRounds
  /-- It counts what it has heard. -/
  received : ping.received = heard
  /-- It counts rounds in the same way. -/
  roundCount : ping.roundCount = ping.received
  /-- It begins, and answers all but the last text that it waits for and what comes behind. -/
  sent : ping.sent = 1 + min ping.received (max ping.maxRounds 1 - 1)
  /-- It counts what it has said. -/
  said : said = ping.sent
  /-- It is ready behind the last text that it waits for. -/
  ready : ping.voter.isReady = true ↔ max ping.maxRounds 1 ≤ ping.received
  /-- It takes part with one vote, and with one it is ready. -/
  votes : votes = .join :: if ping.voter.isReady then [.ready] else []

/-- What the fields of a responder and its votes tell, for the number of texts that it has heard and that of
messages that it has said. -/
structure Pong.Adds (heard said : Nat) (votes : List Vote) (pong : Pong) : Prop where
  /-- It counts what it has heard. -/
  received : pong.received = heard
  /-- It answers everything. -/
  sent : pong.sent = pong.received
  /-- It counts what it has said. -/
  said : said = pong.sent
  /-- It takes no part in the vote. -/
  votes : votes = []

namespace Player

/-- What the fields of a player and its votes tell behind its setup. -/
def Adds (params : Parameters) (heard said : Nat) (votes : List Vote) : Player → Prop
  | .ping player => player.Adds params heard said votes
  | .pong player => player.Adds heard said votes

/-- A player adds up behind every list of texts. -/
theorem adds_behind (params : Parameters) (play : Play) (rank : RankId) {rounds : Nat} (role : Role)
    (told : role = .initiator → rounds? params = .ok rounds) (texts : List String) :
    ((created play rank rounds role).behind rounds texts).Adds params texts.length
      (((created play rank rounds role).utters
        ((created play rank rounds role).words rounds texts)).length)
      (birthVotes role ++ (created play rank rounds role).casts rounds texts.length) := by
  rw [utters, List.length_map, length_words]
  cases role with
  | initiator =>
    have ready := (@voter_behind rounds (created play rank rounds .initiator) rfl texts).2
    refine ⟨told rfl, rfl, rfl, rfl, rfl, ready, ?_⟩
    refine congrArg (Vote.join :: ·) ?_
    by_cases enough : patience rounds ≤ texts.length
    · exact (if_pos ⟨rfl, enough⟩).trans (if_pos (ready.mpr enough)).symm
    · exact (if_neg fun all => enough all.2).trans (if_neg (mt ready.mp enough)).symm
  | responder => exact ⟨rfl, rfl, rfl, rfl⟩

end Player

/-- Whether a thread takes an event without a text next that is for a component. -/
structure Thread.TakesNull {C : Type} {n : Nat} (plan : Plan n) (id : ComponentId) (thread : Thread C) :
    Prop where
  /-- It dispatches events. -/
  phase : thread.phase = .dispatching
  /-- The next one is for the component and has no text. -/
  turn : ∃ event pending,
    thread.rank.turn (plan.bound thread.start) (plan.byVote thread.round) = .ok (event, pending) ∧
      (thread.rank.receiver event.payload).component = id ∧ event.payload.message = .null

/-- Whether a thread holds a player at a position, behind what happened to it. -/
def Thread.Holds {C : Type} (wrap : Player → C) (id : ComponentId) (player : Player) (tale : List Sign)
    (thread : Thread C) : Prop :=
  ∃ slot, thread.rank.slot? id = some slot ∧ slot.component = wrap player ∧
    taleOf id slot thread.history = tale

namespace Thread

variable {C : Type} [Component C] {n : Nat} {plan : Plan n} {view : View n} {thread next : Thread C}
  {effect : Effect n} {wrap : Player → C} {id : ComponentId} {player : Player} {tale : List Sign}

/-- A message without a text is a fault of the player that it is for. -/
theorem TakesNull.fails (takes : thread.TakesNull plan id) (hosts : Player.Hosts wrap)
    (holds : thread.Holds wrap id player tale) :
    ∃ name violation, thread.Fails plan (.failed (.componentFault name violation)) := by
  obtain ⟨phase, event, pending, turn, rfl, none⟩ := takes
  obtain ⟨slot, owned, component, -⟩ := holds
  cases receives : slot.receives (thread.rank.receiver event.payload).port with
  | false => exact ⟨_, _, .dispatch phase turn (.noHandler owned receives)⟩
  | true =>
    have violates : (thread.rank.answer event slot).outcome =
        .violated (.unexpectedKind .text .null) := by
      rw [Rank.answer, component, none, hosts.handle, Player.handle_null]
      rfl
    exact ⟨_, _, .dispatch phase turn (.violated owned receives violates)⟩

/-- It leaves the player as it is. -/
theorem TakesNull.holds (takes : thread.TakesNull plan id) (hosts : Player.Hosts wrap)
    (holds : thread.Holds wrap id player tale)
    (stepped : thread.step plan view = some (next, effect)) :
    ∃ rest, next.Holds wrap id player rest ∧ textsOf rest = textsOf tale ∧ saidOf rest = saidOf tale := by
  obtain ⟨phase, event, pending, turn, rfl, none⟩ := takes
  obtain ⟨slot, owned, component, rfl⟩ := holds
  obtain ⟨deeds, history, answers⟩ := answers_of_step stepped
  have hook : thread.hook? plan = some (.dispatch event pending) := by
    rw [hook?, phase]
    simp only [turn, Except.toOption, Option.map_some]
  rw [response?, hook, Option.bind_some, Rank.response?] at answers
  simp only [owned, Option.filter_some] at answers
  cases receives : slot.receives (thread.rank.receiver event.payload).port with
  | false =>
    rw [receives] at answers
    cases answers with
    | silent slots tally tale =>
      refine ⟨_, ⟨slot, ?_, component, rfl⟩, ?_, ?_⟩
      · rw [Rank.slot?, slots]
        exact owned
      · rw [history, taleOf_append, tale _ _ owned, List.append_nil]
      · rw [history, taleOf_append, tale _ _ owned, List.append_nil]
  | true =>
    have violates (context : Context) : Component.handle slot.component context
        (thread.rank.receiver event.payload).port event.payload.message =
          { component := wrap player, outcome := .violated (.unexpectedKind .text .null) } := by
      rw [component, none, hosts.handle, Player.handle_null]
      rfl
    simp only [receives, if_true, Option.map_some, violates] at answers
    cases answers with
    | answered context there answer slots tally tale =>
      have told := tale _ _ owned
      rw [if_pos rfl, Response.tale, none] at told
      refine ⟨_, ⟨{ slot with component := wrap player }, ?_, rfl, rfl⟩, ?_, ?_⟩
      · rw [Rank.slot?, slots, Array.getElem?_setIfInBounds_self_of_lt (Rank.lt_size_of_slot? owned)]
        rfl
      · rw [history, taleOf_append, taleOf_with, told, textsOf_append]
        exact List.append_nil _
      · rw [history, taleOf_append, taleOf_with, told, saidOf_append]
        exact List.append_nil _

end Thread

namespace Simulation

variable {C : Type} [Component C] {wrap : Player → C} {registry : Registry C} {options : Options}
  {topology : Topology} {clock : Instant} {journal : Journal} {placed : List (Placed C)}
  {simulation : Simulation C} {filter : Filter} {role : Role} {params : Parameters} {id : ComponentId}
  {index : Fin simulation.ranks.length} {place : Slot C} {rounds : Nat} {player : Player}
  {schedule : List (Fin simulation.ranks.length)} {system : System C simulation.ranks.length}

/-- Whether a player is created in a place of a rank, and keeps to its habit in every state of a run. -/
structure Enrols (wrap : Player → C) (placed : List (Placed C)) (simulation : Simulation C)
    (filter : Filter) (role : Role) (params : Parameters) (id : ComponentId)
    (index : Fin simulation.ranks.length) (place : Slot C) (rounds : Nat) (player : Player) : Prop where
  /-- It is a player of its role, as it is created. -/
  made : ∃ play rank, player = Player.created play rank rounds role
  /-- An initiator plays the rounds that it is told. -/
  told : role = .initiator → Player.rounds? params = .ok rounds
  /-- The votes cast while it is created are those of its role. -/
  birth : votesOf id (founding (simulation.plan.ids index) placed) = Player.birthVotes role
  /-- It is in its place. -/
  seated : place.component = wrap player
  /-- The rank has a component at the position in every state. -/
  owned : ∀ schedule system, (simulation.launch filter).exec simulation.plan schedule = some system →
    ∃ slot, (system.threads index).rank.slot? id = some slot
  /-- This component keeps to the habit of the player. -/
  lives : ∀ schedule system, (simulation.launch filter).exec simulation.plan schedule = some system →
    (system.threads index).Lives (player.habit wrap place rounds) id
      (votesOf id ((simulation.launch filter).ballots simulation.plan schedule index))

/-- The players that a topology describes are created, and keep to their habits. -/
theorem enrols_of_build (hosts : Player.Hosts wrap)
    (built : (build registry options topology clock journal).2 = .ok simulation) {spec : ComponentSpec}
    (there : topology.components[id]? = some spec)
    (offered : registry.get? spec.type = some (Player.type wrap role)) (filter : Filter) :
    ∃ params index place rounds player, Assembly.paramTexts spec = .ok params ∧
      Enrols wrap (created registry topology clock journal) simulation filter role params id index place
        rounds player := by
  obtain ⟨assembly, follows, creates, ranks⟩ := created_of_build built
  obtain ⟨part, known, describes⟩ := related_of_getElem? follows.described.flip there
  obtain ⟨component, found, fitted, makes, same⟩ := related_of_getElem? creates.flip known
  have type : part.type = Player.type wrap role :=
    Option.some.inj (describes.type.symm.trans offered)
  have declared : (site part).declared = Play.ports := by
    change part.type.ports = Play.ports
    rw [type]
    cases role <;> rfl
  rw [type] at makes
  obtain ⟨play, rounds, configured, told, fits, votes⟩ := Player.created_of_type declared makes
  have inside : rankOf assembly.links options.limit (created registry topology clock journal)
      component.rank ∈ simulation.ranks := by
    rw [ranks]
    exact List.mem_map_of_mem (mem_rankIds (List.mem_map_of_mem (List.mem_of_getElem? found)))
  obtain ⟨index, here⟩ := List.mem_iff_get.mp inside
  have owned : ((simulation.launch filter).threads index).rank.slot? id = some component.slot := by
    change (simulation.ranks.get index).slot? id = _
    rw [here]
    exact slot?_rankOf.mpr ⟨component, found, rfl, rfl⟩
  have kept : (Player.habit wrap component.slot rounds
      (Player.created play part.rank rounds role)).Kept := by
    refine Player.kept_habit hosts (Player.fresh_created play part.rank rounds role) ?_ ?_
    · rw [same]
      exact fits
    · have speaks := configured.isSome_output
      rw [same]
      cases role <;> exact speaks
  refine ⟨part.params, index, component.slot, rounds, Player.created play part.rank rounds role,
    describes.params, ⟨play, part.rank, rfl⟩, told, ?_, ?_, fun schedule system reached => ?_,
    fun schedule system reached => lives_of_exec built kept (fun rank among slot own => ?_) reached index⟩
  · have number : simulation.plan.ids index = component.rank := congrArg Rank.id here
    rw [number, votesOf_founding found, same]
    exact votes
  · rw [same]
    exact fits
  · obtain ⟨latter, still, -⟩ := System.exists_behind reached owned
    exact ⟨latter, still⟩
  · rw [ranks] at among
    obtain ⟨number, -, rfl⟩ := List.mem_map.mp among
    obtain ⟨other, also, -, rfl⟩ := slot?_rankOf.mp own
    rw [Option.some.inj (found.symm.trans also)]
    rfl

namespace Enrols

variable (enrols : Enrols wrap placed simulation filter role params id index place rounds player)
  (hosts : Player.Hosts wrap)
  (reached : (simulation.launch filter).exec simulation.plan schedule = some system)

include enrols hosts reached

/-- What is in the place behind the setup is the player behind the texts that it has heard. -/
theorem of_started {current : Player} {tale : List Sign}
    (holds : (system.threads index).Holds wrap id current tale) (started : Sign.started ∈ tale) :
    current = player.behind rounds (textsOf tale) ∧
      saidOf tale = player.utters (player.words rounds (textsOf tale)) ∧
      votesOf id (simulation.ledger placed filter schedule index) =
        Player.birthVotes role ++ player.casts rounds (textsOf tale).length := by
  obtain ⟨slot, owned, component, rfl⟩ := holds
  obtain ⟨same, said, votes⟩ := (enrols.lives schedule system reached).living slot owned started
  refine ⟨hosts.injective ?_, said, ?_⟩
  · rw [← component, congrArg Slot.component same]
  · rw [ledger, votesOf_append, enrols.birth, votes]

/-- What is in the place before is the player as it is created, to which nothing has happened. -/
theorem of_not_started {current : Player} {tale : List Sign}
    (holds : (system.threads index).Holds wrap id current tale) (fresh : Sign.started ∉ tale) :
    current = player ∧ tale = [] ∧
      votesOf id (simulation.ledger placed filter schedule index) = Player.birthVotes role := by
  obtain ⟨slot, owned, component, rfl⟩ := holds
  obtain ⟨same, none, votes⟩ := (enrols.lives schedule system reached).fresh slot owned fresh
  refine ⟨hosts.injective ?_, none, ?_⟩
  · obtain rfl : slot = place := same
    rw [← component, enrols.seated]
  · rw [ledger, votesOf_append, enrols.birth, votes, List.append_nil]

omit hosts in
/-- There is a player in the place. -/
theorem exists_holds : ∃ current tale, (system.threads index).Holds wrap id current tale := by
  obtain ⟨slot, owned⟩ := enrols.owned schedule system reached
  by_cases started : Sign.started ∈ taleOf id slot (system.threads index).history
  · obtain ⟨same, -⟩ := (enrols.lives schedule system reached).living slot owned started
    exact ⟨_, _, slot, owned, congrArg Slot.component same, rfl⟩
  · obtain ⟨same, -⟩ := (enrols.lives schedule system reached).fresh slot owned started
    obtain rfl : slot = place := same
    exact ⟨player, _, slot, owned, enrols.seated, rfl⟩

/-- Behind its setup a player adds up. -/
theorem adds {current : Player} {tale : List Sign}
    (holds : (system.threads index).Holds wrap id current tale) (started : Sign.started ∈ tale) :
    current.Adds params (textsOf tale).length (saidOf tale).length
      (votesOf id (simulation.ledger placed filter schedule index)) := by
  obtain ⟨rfl, said, votes⟩ := enrols.of_started hosts reached holds started
  obtain ⟨play, rank, made⟩ := enrols.made
  rw [said, votes, made]
  exact Player.adds_behind params play rank role enrols.told _

/-- Nothing that happened to a player is undone, and one that is ready stays so and says nothing more. -/
theorem stays {more : List (Fin simulation.ranks.length)} {last : System C simulation.ranks.length}
    (onward : system.exec simulation.plan more = some last) {current next : Player}
    {tale rest : List Sign} (holds : (system.threads index).Holds wrap id current tale)
    (behind : (last.threads index).Holds wrap id next rest) (started : Sign.started ∈ tale) :
    tale <+: rest ∧
      votesOf id (simulation.ledger placed filter schedule index) <+:
        votesOf id (simulation.ledger placed filter (schedule ++ more) index) ∧
      (current.voter.isReady = true → next.voter.isReady = true ∧ saidOf rest = saidOf tale) := by
  have grows : tale <+: rest := by
    obtain ⟨slot, owned, -, rfl⟩ := holds
    obtain ⟨latter, there, -, rfl⟩ := behind
    obtain ⟨other, also, begins⟩ := System.exists_behind onward owned
    cases there.symm.trans also
    exact begins
  have whole : (simulation.launch filter).exec simulation.plan (schedule ++ more) = some last := by
    rw [System.exec_append, reached]
    exact onward
  obtain ⟨rfl, said, -⟩ := enrols.of_started hosts reached holds started
  obtain ⟨rfl, saidToo, -⟩ := enrols.of_started hosts whole behind (grows.subset started)
  refine ⟨grows, ?_, fun ready => ?_⟩
  · rw [ledger_append reached, votesOf_append]
    exact List.prefix_append _ _
  · have texts : textsOf tale <+: textsOf rest := grows.filterMap _
    obtain ⟨play, rank, rfl⟩ := enrols.made
    cases role with
    | responder => cases ready
    | initiator =>
      have enough := (Player.voter_behind rfl _).2.mp ready
      have more := texts.length_le
      refine ⟨(Player.voter_behind rfl _).2.mpr (enough.trans more), ?_⟩
      have same : (saidOf tale).length = (saidOf rest).length := by
        rw [said, saidToo, Player.utters, Player.utters, List.length_map, List.length_map,
          Player.length_words, Player.length_words]
        change 1 + min _ _ = 1 + min _ _
        omega
      exact ((grows.filterMap Sign.said?).eq_of_length same).symm

end Enrols

/-- How a player acts in all runs of a simulation, at a position of a rank. -/
structure Acts (wrap : Player → C) (placed : List (Placed C)) (simulation : Simulation C)
    (filter : Filter) (role : Role) (params : Parameters) (id : ComponentId)
    (index : Fin simulation.ranks.length) : Prop where
  /-- In every state there is a player of its role, which is as it was created before its setup. -/
  holds : ∀ schedule system, (simulation.launch filter).exec simulation.plan schedule = some system →
    (∃ player tale, (system.threads index).Holds wrap id player tale) ∧
      ∀ player tale, (system.threads index).Holds wrap id player tale → player.role = role ∧
        (Sign.started ∉ tale → tale = [] ∧
          (∃ play rank rounds, player = Player.created play rank rounds role) ∧
          votesOf id (simulation.ledger placed filter schedule index) = Player.birthVotes role)
  /-- In every state behind its setup its fields and its votes add up. -/
  adds : ∀ schedule system, (simulation.launch filter).exec simulation.plan schedule = some system →
    ∀ player tale, (system.threads index).Holds wrap id player tale → Sign.started ∈ tale →
      player.Adds params (textsOf tale).length (saidOf tale).length
        (votesOf id (simulation.ledger placed filter schedule index))
  /-- The tally of its rank counts its votes among all others. -/
  counts : ∀ schedule system, (simulation.launch filter).exec simulation.plan schedule = some system →
    (system.threads index).rank.tally = ({} : Tally).countAll
      ((simulation.ledger placed filter schedule index).map Prod.snd)
  /-- No vote is taken back, and a player that is ready stays so and says nothing more. -/
  stays : ∀ schedule system more last,
    (simulation.launch filter).exec simulation.plan schedule = some system →
      system.exec simulation.plan more = some last → ∀ player tale next rest,
        (system.threads index).Holds wrap id player tale → (last.threads index).Holds wrap id next rest →
          Sign.started ∈ tale → tale <+: rest ∧
            votesOf id (simulation.ledger placed filter schedule index) <+:
              votesOf id (simulation.ledger placed filter (schedule ++ more) index) ∧
            (player.voter.isReady = true → next.voter.isReady = true ∧ saidOf rest = saidOf tale)
  /-- A message without a text leaves the player as it is, and every run in which one comes to the player ends with
  an error. -/
  breaks : ∀ schedule system, (simulation.launch filter).exec simulation.plan schedule = some system →
    (system.threads index).TakesNull simulation.plan id →
      (∀ last player tale, system.step simulation.plan index = some last →
        (system.threads index).Holds wrap id player tale → ∃ rest,
          (last.threads index).Holds wrap id player rest ∧ textsOf rest = textsOf tale ∧
            saidOf rest = saidOf tale) ∧
      (∀ rest last, system.exec simulation.plan (index :: rest) = some last → last.Complete →
        ∃ error, last.ending? = some (.error error)) ∧
      ∀ fuel moment result, simulation.run fuel filter moment = some result →
        ∃ error, result.outcome = .error error

/-- A player acts in the same way among any components, whatever they send. -/
theorem acts_of_build (hosts : Player.Hosts wrap)
    (built : (build registry options topology clock journal).2 = .ok simulation) {spec : ComponentSpec}
    (there : topology.components[id]? = some spec)
    (offered : registry.get? spec.type = some (Player.type wrap role)) (filter : Filter) :
    ∃ params index, Assembly.paramTexts spec = .ok params ∧
      Acts wrap (created registry topology clock journal) simulation filter role params id index := by
  obtain ⟨params, index, place, rounds, player, texts, enrols⟩ :=
    enrols_of_build hosts built there offered filter
  have role_eq {schedule : List (Fin simulation.ranks.length)}
      {system : System C simulation.ranks.length}
      (reached : (simulation.launch filter).exec simulation.plan schedule = some system)
      {current : Player} {tale : List Sign}
      (holds : (system.threads index).Holds wrap id current tale) : current.role = role := by
    obtain ⟨play, rank, rfl⟩ := enrols.made
    by_cases started : Sign.started ∈ tale
    · obtain ⟨rfl, -⟩ := enrols.of_started hosts reached holds started
      cases role <;> rfl
    · obtain ⟨rfl, -⟩ := enrols.of_not_started hosts reached holds started
      cases role <;> rfl
  refine ⟨params, index, texts, fun schedule system reached =>
      ⟨enrols.exists_holds reached, fun current tale holds => ⟨role_eq reached holds, fun fresh => ?_⟩⟩,
    fun schedule system reached current tale holds started => enrols.adds hosts reached holds started,
    fun schedule system reached => tally_eq_ledger built reached index,
    fun schedule system more last reached onward current tale next rest holds behind started =>
      enrols.stays hosts reached onward holds behind started,
    fun schedule system reached takes => ⟨fun last current tale stepped holds => ?_, ?_⟩⟩
  · obtain ⟨rfl, none, votes⟩ := enrols.of_not_started hosts reached holds fresh
    obtain ⟨play, rank, made⟩ := enrols.made
    exact ⟨none, ⟨play, rank, rounds, made⟩, votes⟩
  · obtain ⟨⟨thread, effect⟩, moved, rfl⟩ := Option.map_eq_some_iff.mp stepped
    rw [System.threads_withThread_self]
    exact takes.holds hosts holds moved
  · obtain ⟨current, tale, holds⟩ := enrols.exists_holds reached
    obtain ⟨name, violation, fails⟩ := takes.fails hosts holds
    exact ⟨fun rest last onward complete => ends_of_fails built reached fails onward complete,
      fun fuel moment result runs => error_of_fails built reached fails runs⟩

end Simulation

/-- What a talker sends at the start of a run: two texts, and a message without one. -/
def Script.talk : Script := { setup := [.send 0 (.text "once"), .send 0 (.text "again"), .send 0 .null] }

/-- An initiator that waits for one text, joined to a talker, to which another initiator is joined as well. -/
def Topology.talk : Topology :=
  ((({} : Topology).addPlayer "ping" .initiator 0 1).addPlayer "other" .initiator 0 9).addComponent
      "talker" "test.Probe" 0 []
    |>.addLink "line" Binary64.one ⟨"ping", "inout"⟩ ⟨"talker", "p0"⟩
    |>.addLink "side" Binary64.one ⟨"other", "inout"⟩ ⟨"talker", "p1"⟩

namespace Simulation

/-- An initiator is ready behind the first text of a talker, does not answer the second one, and the run ends with an
error for the message without one. -/
theorem acts_of_build_talk :
    ∃ (simulation : Simulation Bench) (result : RunResult Bench) (spec : ComponentSpec)
      (params : Parameters) (index : Fin simulation.ranks.length),
      Player.Hosts Bench.player ∧
      (build (Bench.registry fun _ => .talk) {} .talk Instant.zero ⟨Filter.off, #[]⟩).2 =
        .ok simulation ∧
      Topology.talk.components[0]? = some spec ∧
      (Bench.registry fun _ => .talk).get? spec.type = some (Player.type Bench.player .initiator) ∧
      Acts Bench.player (created (Bench.registry fun _ => .talk) .talk Instant.zero ⟨Filter.off, #[]⟩)
        simulation Filter.off .initiator params 0 index ∧
      Player.rounds? params = .ok 1 ∧
      simulation.run 8 Filter.off Instant.zero = some result ∧
      result.outcome = .error (.failed (.componentFault "ping" (.unexpectedKind .text .null))) := by
  obtain ⟨simulation, result, built, -, runs, outcome⟩ := @exists_error _ _
    (Bench.registry fun _ => .talk) {} .talk Instant.zero Instant.zero ⟨Filter.off, #[]⟩ Filter.off 8
    (.componentFault "ping" (.unexpectedKind .text .null)) 1 (by decide +kernel)
  have hosts : Player.Hosts Bench.player :=
    ⟨fun _ _ same => Bench.player.inj same, fun _ _ => rfl, fun _ _ _ _ => rfl, fun _ _ => rfl⟩
  have offered : (Bench.registry fun _ => .talk).get? "pingpong.Ping" =
      some (Player.type Bench.player .initiator) := rfl
  let spec : ComponentSpec := ⟨"ping", "pingpong.Ping", 0, [("model", .string "1")]⟩
  have there : Topology.talk.components[0]? = some spec := rfl
  obtain ⟨params, index, texts, acts⟩ := acts_of_build hosts built there offered Filter.off
  have told : (Assembly.paramTexts spec).bind Player.rounds? = .ok 1 := by rfl
  rw [texts] at told
  exact ⟨simulation, result, spec, params, index, hosts, built, there, offered, acts, told, runs, outcome⟩

end Simulation

end Rally
