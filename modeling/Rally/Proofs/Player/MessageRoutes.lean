import Rally.Proofs.Player.Cycles
import Rally.Proofs.Player.StateFromTexts
/-!
# Where messages have been

Where all players have one port for each direction, the text of a message spells the walk that it took: the word of
the initiator that began it, and behind it that of each player that answered it, as far as the link on which it is
now or from which it was dispatched. An initiator is met on such a walk again only while it waits for more messages
than the one that it answers.
-/

namespace Rally

/-- The role of the players that a description asks for. -/
def ComponentSpec.role (spec : ComponentSpec) : Role :=
  if spec.type = Role.initiator.type then .initiator else .responder

/-- The role is that of the type. -/
theorem ComponentSpec.role_eq {spec : ComponentSpec} {role : Role} (same : spec.type = role.type) :
    spec.role = role := by
  cases role with
  | initiator => exact if_pos same
  | responder => exact if_neg (by rw [same]; decide)

/-- The word that a player of a topology adds to messages: its role and its rank. -/
def Topology.word (topology : Topology) (id : ComponentId) : String :=
  topology.components[id]?.elim "" fun spec => Play.tag spec.role spec.rank

/-- Whether nothing is attached to the ports for both directions. -/
def Topology.RelaysOnly (topology : Topology) : Prop :=
  ∀ link ∈ topology.links, ∀ side, (link.endAt side).port ≠ "inout"

/-- On rings nothing is. -/
theorem Topology.Rings.relaysOnly {topology : Topology} (rings : topology.Rings) : topology.RelaysOnly := by
  intro link inside side both
  obtain ⟨other, relays⟩ := rings.relays link inside
  by_cases same : side = other
  · rw [same, relays.output] at both
    exact absurd both (by decide)
  · rw [Side.eq_opposite same, relays.input] at both
    exact absurd both (by decide)

namespace System

variable {C : Type} {n : Nat} {plan : Plan n} {system next last : System C n} {id : ComponentId}
  {tale more : List Sign}

/-- Whether what happened to the component of a position first is this. -/
def Begins (system : System C n) (id : ComponentId) (tale : List Sign) : Prop :=
  ∃ index slot, (system.threads index).rank.slot? id = some slot ∧
    tale <+: taleOf id slot (system.threads index).history

/-- What happened first to a component did so for all times. -/
theorem Begins.later [Component C] {schedule : List (Fin n)} (begins : system.Begins id tale)
    (onward : system.exec plan schedule = some last) : last.Begins id tale := by
  obtain ⟨index, slot, owned, first⟩ := begins
  obtain ⟨latter, there, before⟩ := exists_behind onward owned
  exact ⟨index, latter, there, first.trans before⟩

/-- Whether an initiator said a text when it was set up. -/
def Opens (system : System C n) (id : ComponentId) (text : String) : Prop :=
  ∃ port, system.Begins id [.started, .said port (.text text)]

/-- Whether a component heard a text behind so many others, and answered it by another one. -/
def Forwards (system : System C n) (id : ComponentId) (count : Nat) (text answer : String) : Prop :=
  ∃ before port other,
    system.Begins id (before ++ [.heard port (.text text), .said other (.text answer)]) ∧
      (textsOf before).length = count

/-- The walks that messages took over the components of a topology, and where they are. -/
inductive Itinerary (topology : Topology) (system : System C n) : List ComponentId → ComponentId → Prop where
  /-- An initiator says its word. -/
  | begun {id : ComponentId} {spec : ComponentSpec} (there : topology.components[id]? = some spec)
      (initiator : spec.type = Role.initiator.type) (opens : system.Opens id (topology.word id)) :
      Itinerary topology system [] id
  /-- The player behind the link at the output of another one answers what it hears; an initiator does so
  in front of the last message that it waits for. -/
  | onward {route : List ComponentId} {last id : ComponentId} {spec twin : ComponentSpec} {count : Nat}
      (before : Itinerary topology system route last) (here : topology.components[last]? = some spec)
      (there : topology.components[id]? = some twin) (feeds : topology.Feeds spec.name twin.name)
      (forwards : system.Forwards id count (spell topology.word (route ++ [last]))
        (spell topology.word (route ++ [last] ++ [id])))
      (waits : twin.type = Role.initiator.type → ∃ params rounds, Assembly.paramTexts twin = .ok params ∧
        Player.rounds? params = .ok rounds ∧ count < max rounds 1 - 1) :
      Itinerary topology system (route ++ [last]) id

/-- A walk that was taken was taken for all times. -/
theorem Itinerary.later [Component C] {topology : Topology} {route : List ComponentId}
    {schedule : List (Fin n)} (took : Itinerary topology system route id)
    (reached : system.exec plan schedule = some last) : Itinerary topology last route id := by
  induction took with
  | begun there initiator opens =>
    obtain ⟨port, begins⟩ := opens
    exact .begun there initiator ⟨port, begins.later reached⟩
  | onward _ here there feeds forwards waits ih =>
    obtain ⟨before, port, other, begins, count⟩ := forwards
    exact .onward ih here there feeds ⟨before, port, other, begins.later reached, count⟩ waits

/-- Whether the text of a delivery spells a walk to the component at whose output its link is. -/
def Spells (topology : Topology) (system : System C n) (delivery : Delivery) : Prop :=
  ∃ route last spec link, Itinerary topology system route last ∧
    delivery.message = .text (spell topology.word (route ++ [last])) ∧
    topology.components[last]? = some spec ∧ topology.links[delivery.link]? = some link ∧
    link.endAt delivery.arrival.opposite = ⟨spec.name, "output"⟩

/-- What spells a walk does so for all times. -/
theorem Spells.later [Component C] {topology : Topology} {delivery : Delivery} {schedule : List (Fin n)}
    (spells : system.Spells topology delivery) (reached : system.exec plan schedule = some last) :
    last.Spells topology delivery := by
  obtain ⟨route, player, spec, link, took, rest⟩ := spells
  exact ⟨route, player, spec, link, took.later reached, rest⟩

/-- A component that a thread owns was there from the start. -/
theorem exists_before [Component C] {schedule : List (Fin n)} {index : Fin n} {slot : Slot C}
    (reached : system.exec plan schedule = some last)
    (owned : (last.threads index).rank.slot? id = some slot) :
    ∃ former, (system.threads index).rank.slot? id = some former := by
  refine exec_induction (P := fun last => ∀ slot, (last.threads index).rank.slot? id = some slot →
    ∃ former, (system.threads index).rank.slot? id = some former) (fun slot there => ⟨slot, there⟩)
    (fun turns former latter turn _ before stepped slot there => ?_) reached slot owned
  obtain ⟨⟨thread, effect⟩, moved, rfl⟩ := Option.map_eq_some_iff.mp stepped
  by_cases own : turn = index
  · subst own
    rw [threads_withThread_self] at there
    obtain ⟨deeds, -, answers⟩ := Thread.answers_of_step moved
    obtain ⟨place, here, -⟩ := answers.exists_before there
    exact before place here
  · rw [threads_withThread_of_ne (Ne.symm own)] at there
    exact before slot there

end System

/-- A response to a message answers an event that waited for the component. -/
theorem Thread.exists_taken {C : Type} [Component C] {n : Nat} {plan : Plan n} {thread : Thread C}
    {response : Response C} (responds : thread.response? plan = some response) {port : PortId}
    {message : Message} (occasion : response.occasion = .message port message) :
    ∃ event pending, thread.rank.pending.pop? = some (event, pending) ∧
      (thread.rank.receiver event.payload).component = response.id ∧
      (thread.rank.receiver event.payload).port = port ∧ event.payload.message = message ∧
      thread.rank.slot? response.id = some response.slot ∧ response.slot.receives port = true := by
  obtain ⟨hook, calls, answers⟩ := Option.bind_eq_some_iff.mp responds
  cases hook with
  | setup | finish =>
    obtain ⟨slot, -, rfl⟩ := Option.map_eq_some_iff.mp answers
    cases occasion
  | dispatch event pending =>
    obtain ⟨slot, receiver, rfl⟩ := Option.map_eq_some_iff.mp answers
    obtain ⟨owned, receives⟩ := Option.filter_eq_some_iff.mp receiver
    cases occasion
    rw [hook?] at calls
    split at calls
    · cases calls
    · obtain ⟨⟨taken, rest⟩, turn, same⟩ := Option.map_eq_some_iff.mp calls
      cases same
      cases goes : thread.rank.turn (plan.bound thread.start) (plan.byVote thread.round) with
      | error stop =>
        rw [goes] at turn
        cases turn
      | ok found =>
        rw [goes] at turn
        cases turn
        exact ⟨_, _, (Rank.turn_ok goes).1, rfl, rfl, rfl, owned, receives⟩
    · cases calls
    · cases calls

/-- Players act as themselves. -/
theorem Player.hosts_self : Hosts fun player : Player => player :=
  ⟨fun _ _ same => same, fun _ _ => rfl, fun _ _ _ _ => rfl, fun _ _ => rfl⟩

/-- What is said in a response is a part of what it means. -/
theorem Response.said_mem_tale {C : Type} {response : Response C} {port : PortId} {message : Message} :
    Sign.said port message ∈ response.tale ↔ (port, message) ∈ response.said := by
  rw [← response.saidOf_tale, saidOf, List.mem_filterMap]
  constructor
  · exact fun inside => ⟨_, inside, rfl⟩
  · rintro ⟨sign, inside, tells⟩
    cases sign with
    | said =>
      cases tells
      exact inside
    | started | heard => cases tells

/-- What is handed to a link in a step is said in the response of the sending component. -/
theorem Thread.exists_response {C : Type} [Component C] {n : Nat} {plan : Plan n} {view : View n}
    {thread next : Thread C} {effect : Effect n} {link : LinkId} {side : Side} {handing : Handing}
    {slot : Slot C} (stepped : thread.step plan view = some (next, effect))
    (owned : next.rank.slot? handing.component = some slot)
    (inside : Deed.handed link side handing ∈ next.history) :
    Deed.handed link side handing ∈ thread.history ∨
      ∃ former response, thread.rank.slot? handing.component = some former ∧
        thread.response? plan = some response ∧ handing.component = response.id ∧
        (handing.port, handing.message) ∈ response.said ∧
        taleOf handing.component slot next.history =
          taleOf handing.component former thread.history ++ response.tale := by
  obtain ⟨deeds, history, answers⟩ := answers_of_step stepped
  rw [history] at inside
  rcases List.mem_append.mp inside with earlier | now
  · exact Or.inl earlier
  · right
    obtain ⟨former, there, same⟩ := answers.exists_before owned
    have told := answers.taleOf_eq there
    have sign : Sign.said handing.port handing.message ∈ taleOf handing.component former deeds :=
      List.mem_filterMap.mpr ⟨_, now, if_pos rfl⟩
    rw [told] at sign
    cases responds : thread.response? plan with
    | none =>
      rw [responds] at sign
      cases sign
    | some response =>
      rw [responds, Option.elim_some] at sign told
      by_cases own : handing.component = response.id
      · rw [if_pos own] at sign told
        refine ⟨former, response, there, rfl, own, Response.said_mem_tale.mp sign, ?_⟩
        rw [same, history, taleOf_append, told]
      · rw [if_neg own] at sign
        cases sign

/-- Where nothing is attached to its port for both directions, a player has one for each, and hears at its input. -/
theorem Play.Configured.of_relay {C : Type} {slot : Slot C} {wired : PortId → Option (LinkId × Side)}
    {play : Play} (configured : Play.Configured wired play slot.ports) (none : wired 0 = none) :
    play = .relay 1 2 ∧ ∀ port, slot.receives port = true → port = 1 := by
  generalize here : slot.ports = ports at configured
  cases configured with
  | loop inout =>
    rw [none] at inout
    cases inout
  | relay =>
    refine ⟨rfl, fun port hears => ?_⟩
    rw [Slot.receives, Slot.binding?, here] at hears
    rcases port with _ | _ | _ | port
    · simp at hears
    · rfl
    · simp at hears
    · simp at hears

/-- An end of a link that is at a port of a player is the endpoint that names them. -/
theorem Assembly.Follows.exists_endpoint {topology : Topology} {assembly : Assembly Player}
    (follows : assembly.Follows Player.registry topology) {link : LinkId} {side : Side} {name : String}
    {spec : ComponentSpec} (known : link < assembly.links.size)
    (there : topology.components[((assembly.links.getD link default).endAt side).component]? = some spec)
    (declared : portId? Play.ports name =
      some ((assembly.links.getD link default).endAt side).port) :
    ∃ definition, topology.links[link]? = some definition ∧ definition.endAt side = ⟨spec.name, name⟩ := by
  obtain ⟨definition, defined⟩ := follows.exists_link known
  obtain ⟨-, component, found, called, port⟩ := follows.end_of_player defined side
  rw [there, Option.some.injEq] at found
  subst found
  refine ⟨definition, defined, ?_⟩
  rw [called, Assembly.port_eq declared port]

namespace Simulation

section Enrolled

variable {C : Type} [Component C] {wrap : Player → C} {placed : List (Placed C)}
  {simulation : Simulation C} {filter : Filter} {role : Role} {params : Parameters} {id : ComponentId}
  {index : Fin simulation.ranks.length} {place : Slot C} {rounds : Nat} {player : Player}
  {schedule : List (Fin simulation.ranks.length)} {system next : System C simulation.ranks.length}

/-- What a player says in a step is its word, if it is an initiator that is set up, or the answer to what it
hears. -/
theorem Enrols.speaks
    (enrols : Enrols wrap placed simulation filter role params id index place rounds player)
    (hosts : Player.Hosts wrap)
    (reached : (simulation.launch filter).exec simulation.plan schedule = some system)
    (whole : (simulation.launch filter).exec simulation.plan (schedule ++ [index]) = some next)
    {current latter : Player} {tale : List Sign} {response : Response C}
    (holds : (system.threads index).Holds wrap id current tale)
    (behind : (next.threads index).Holds wrap id latter (tale ++ response.tale))
    (some : response.said ≠ []) :
    ∃ word, response.said = player.utters [word] ∧
      (response.occasion = .setup ∧ tale = [] ∧ role = .initiator ∧ word = player.word ∨
        ∃ port text, response.occasion = .message port (.text text) ∧
          player.answers rounds (textsOf tale).length = true ∧ word = player.reply text) := by
  by_cases started : Sign.started ∈ tale
  · obtain ⟨-, said, -⟩ := enrols.of_started hosts reached holds started
    obtain ⟨-, more, -⟩ := enrols.of_started hosts whole behind (List.mem_append_left _ started)
    rw [saidOf_append, textsOf_append, response.saidOf_tale, response.textsOf_tale, said] at more
    -- A player says something new only for one more text.
    have silent (none : textsOf response.occasion.signs = []) : response.said = [] := by
      rw [none, List.append_nil] at more
      exact List.append_right_eq_self.mp more
    cases occasion : response.occasion with
    | setup => exact absurd (silent (by rw [occasion]; rfl)) some
    | finish => exact absurd (silent (by rw [occasion]; rfl)) some
    | message port message =>
      cases message with
      | null => exact absurd (silent (by rw [occasion]; rfl)) some
      | text text =>
        have heard : textsOf response.occasion.signs = [text] := by
          rw [occasion]
          rfl
        rw [heard, Player.words_concat, Player.utters, Player.utters, List.map_append] at more
        have same := List.append_cancel_left more
        by_cases answers : player.answers rounds (textsOf tale).length = true
        · rw [if_pos answers] at same
          exact ⟨_, same, Or.inr ⟨port, text, rfl, answers, rfl⟩⟩
        · rw [if_neg answers] at same
          exact absurd same some
  · obtain ⟨-, none, -⟩ := enrols.of_not_started hosts reached holds started
    rw [none, List.nil_append] at behind
    have setup : response.occasion = .setup := by
      refine Response.started_mem_tale.mp ?_
      by_contra fresh
      obtain ⟨-, nothing, -⟩ := enrols.of_not_started hosts whole behind fresh
      rw [← response.saidOf_tale, nothing] at some
      exact some rfl
    obtain ⟨-, said, -⟩ := enrols.of_started hosts whole behind (Response.started_mem_tale.mpr setup)
    rw [response.saidOf_tale, response.textsOf_tale, setup] at said
    obtain ⟨play, rank, rfl⟩ := enrols.made
    cases role with
    | responder => exact absurd said some
    | initiator =>
      refine ⟨_, said.trans ?_, Or.inl ⟨setup, none, rfl, rfl⟩⟩
      simp only [Occasion.signs, textsOf, List.filterMap_cons, Sign.text?, List.filterMap_nil, Player.words,
        List.map_nil, Player.created, Player.tells, List.take_nil, List.map_cons]

/-- A player keeps the ports at which it hears. -/
theorem Enrols.receives_eq
    (enrols : Enrols wrap placed simulation filter role params id index place rounds player)
    (reached : (simulation.launch filter).exec simulation.plan schedule = some system) {slot : Slot C}
    (owned : (system.threads index).rank.slot? id = some slot) (port : PortId) :
    slot.receives port = place.receives port := by
  have lives := enrols.lives schedule system reached
  by_cases started : Sign.started ∈ taleOf id slot (system.threads index).history
  · obtain ⟨same, -⟩ := lives.living slot owned started
    rw [same]
    rfl
  · obtain ⟨same, -⟩ := lives.fresh slot owned started
    obtain rfl : slot = place := same
    rfl

end Enrolled

variable {options : Options} {topology : Topology} {clock : Instant} {journal : Journal}
  {simulation : Simulation Player} {filter : Filter} {schedule : List (Fin simulation.ranks.length)}
  {system next : System Player simulation.ranks.length} {index : Fin simulation.ranks.length}
  {id : ComponentId}

/-- Whether a player of a topology with one port for each direction is at a position of a rank. -/
structure Relays (topology : Topology) (placed : List (Placed Player)) (simulation : Simulation Player)
    (filter : Filter) (id : ComponentId) (index : Fin simulation.ranks.length) (spec : ComponentSpec)
    (role : Role) (params : Parameters) (place : Slot Player) (rounds : Nat) (player : Player) : Prop where
  /-- The topology has it there. -/
  there : topology.components[id]? = some spec
  /-- Its type is that of its role. -/
  type : spec.type = role.type
  /-- It has its parameters. -/
  texts : Assembly.paramTexts spec = .ok params
  /-- It keeps to the habit of players. -/
  enrols : Enrols (fun player => player) placed simulation filter role params id index place rounds player
  /-- It has one port for each direction. -/
  play : player.play = .relay 1 2
  /-- Its word is that of its place in the topology. -/
  word : player.word = topology.word id
  /-- It hears at its input. -/
  hears : ∀ port, place.receives port = true → port = 1

/-- Where nothing is attached to the ports for both directions, what a rank owns is such a player. -/
theorem exists_relays
    (built : (build Player.registry options topology clock journal).2 = .ok simulation)
    (only : topology.RelaysOnly)
    (reached : (simulation.launch filter).exec simulation.plan schedule = some system)
    {slot : Slot Player} (owned : (system.threads index).rank.slot? id = some slot) :
    ∃ spec role params place rounds player,
      Relays topology (created Player.registry topology clock journal) simulation filter id index spec role
        params place rounds player := by
  obtain ⟨assembly, realizes, made⟩ := made_of_places built
  have apart := (housing_of_build built realizes filter).apart
  -- What the rank owns now is what it had before the run.
  obtain ⟨first, seated⟩ := System.exists_before reached owned
  have seats : ((simulation.launch filter).threads index).rank.seats id =
      some ⟨first, simulation.plan.ids index⟩ := by
    rw [Rank.seats, seated]
    rfl
  have present : simulation.places id = some ⟨first, simulation.plan.ids index⟩ := by
    rw [← seats_launch filter simulation, Pool.seats_ofRanks apart]
    exact ⟨index, seats⟩
  obtain ⟨spec, part, votes, there, extant, describes, -, -, player⟩ := made id _ present
  obtain ⟨role, type, same⟩ := Player.exists_role_of_registry describes.type
  have offered : Player.registry.get? spec.type = some (Player.type (fun player => player) role) :=
    describes.type.trans (congrArg some same)
  obtain ⟨params, home, place, rounds, self, texts, enrols⟩ :=
    enrols_of_build Player.hosts_self built there offered filter
  obtain ⟨own, mine⟩ := enrols.owned [] _ rfl
  have mineToo : (((simulation.launch filter).threads home).rank.seats id).isSome := by
    rw [Rank.seats, mine]
    rfl
  obtain rfl : home = index := apart home index id mineToo (by rw [seats]; rfl)
  cases mine.symm.trans seated
  obtain ⟨same, -⟩ := (enrols.lives [] _ rfl).fresh _ mine List.not_mem_nil
  obtain rfl : first = place := same
  rw [enrols.seated] at player
  have unwired : part.wiring.lookup 0 = none := by
    refine Option.not_isSome_iff_eq_none.mp fun wired => ?_
    obtain ⟨link, inside, side, same⟩ :=
      (realizes.follows.isSome_lookup there extant (show portId? Play.ports "inout" = some 0 from rfl)).mp wired
    exact only link inside side (congrArg Endpoint.port same)
  have play := player.configured.of_relay unwired
  refine ⟨spec, role, params, first, rounds, self, there, type, texts, enrols, play.1, ?_, play.2⟩
  have same : self.role = role := by
    obtain ⟨play, rank, rfl⟩ := enrols.made
    cases role <;> rfl
  rw [player.word_of_relay play.1, Topology.word, there, Option.elim_some, spec.role_eq type, same, describes.rank]

/-- What a player says in a step spells a walk to it, if what it hears spells one. -/
theorem Relays.exists_walk {placed : List (Placed Player)} {spec : ComponentSpec} {role : Role}
    {params : Parameters} {place : Slot Player} {rounds : Nat} {player : Player}
    (relays : Relays topology placed simulation filter id index spec role params place rounds player)
    {tale : List Sign} {response : Response Player} {port : PortId} {word : String}
    (origin : response.occasion = .setup ∧ tale = [] ∧ role = .initiator ∧ word = player.word ∨
        ∃ port text, response.occasion = .message port (.text text) ∧
          player.answers rounds (textsOf tale).length = true ∧ word = player.reply text)
    (begins : next.Begins id (tale ++ response.tale))
    (said : response.said = [(port, .text word)])
    (brings : ∀ ear text, response.occasion = .message ear (.text text) → ∃ route last twin,
      System.Itinerary topology next route last ∧ text = spell topology.word (route ++ [last]) ∧
        topology.components[last]? = some twin ∧ topology.Feeds twin.name spec.name) :
    ∃ route, System.Itinerary topology next route id ∧ word = spell topology.word (route ++ [id]) := by
  rw [Response.tale, said] at begins
  rcases origin with ⟨setup, rfl, initiator, rfl⟩ | ⟨ear, text, message, answers, rfl⟩
  · refine ⟨[], .begun relays.there (relays.type.trans (congrArg Role.type initiator)) ⟨port, ?_⟩, ?_⟩
    · rw [setup, relays.word] at begins
      exact begins
    · rw [relays.word]
      exact (spell_singleton _ _).symm
  · obtain ⟨route, last, twin, took, spelled, here, feeds⟩ := brings ear text message
    have reply : player.reply text = spell topology.word (route ++ [last] ++ [id]) := by
      rw [Player.reply_of_relay (by rw [relays.play]; rfl), relays.word, spelled,
        spell_concat _ (List.append_ne_nil_of_right_ne_nil _ (List.cons_ne_nil _ _))]
    refine ⟨route ++ [last], .onward took here relays.there feeds
      ⟨tale, ear, port, ?_, rfl⟩ (fun type => ⟨params, rounds, relays.texts, ?_, ?_⟩), reply⟩
    · rw [message, reply, spelled] at begins
      exact begins
    · exact relays.enrols.told (Role.type_injective (relays.type.symm.trans type))
    · obtain rfl := Role.type_injective (relays.type.symm.trans type)
      obtain ⟨play, rank, rfl⟩ := relays.enrols.made
      have more : decide ((textsOf tale).length + 1 < patience rounds) = true := answers
      exact Nat.lt_sub_of_add_lt (of_decide_eq_true more)

/-- What a player hears spells a walk to the player at whose output the link to its input is, if all that is on its
way spells walks. -/
theorem Relays.exists_feeding {assembly : Assembly Player} {placed : List (Placed Player)}
    {spec : ComponentSpec} {role : Role} {params : Parameters} {place : Slot Player} {rounds : Nat}
    {player : Player}
    (relays : Relays topology placed simulation filter id index spec role params place rounds player)
    (built : (build Player.registry options topology clock journal).2 = .ok simulation)
    (realizes : simulation.Realizes Player.registry topology assembly)
    (reached : (simulation.launch filter).exec simulation.plan schedule = some system)
    (spells : ∀ delivery, system.Transports delivery → system.Spells topology delivery)
    {response : Response Player} (responds : (system.threads index).response? simulation.plan = some response)
    (own : id = response.id) {ear : PortId} {text : String}
    (occasion : response.occasion = .message ear (.text text)) :
    ∃ route last twin, System.Itinerary topology system route last ∧
      text = spell topology.word (route ++ [last]) ∧ topology.components[last]? = some twin ∧
      topology.Feeds twin.name spec.name := by
  have kept := kept_of_exec built realizes reached
  obtain ⟨event, pending, popped, component, port, message, owned, receives⟩ :=
    Thread.exists_taken responds occasion
  subst own
  have waits := ((kept.steady.threads index).timed.sound.first_of_pop popped).1
  have known := (kept.flowing.addressed.pending index event waits).known
  obtain ⟨route, last, twin, link, took, same, here, defined, leaves⟩ := spells _ (.waits waits)
  rw [Rank.receiver, Rank.link, kept.steady.wired.links] at component port
  -- The player hears at its input alone.
  obtain rfl : ear = 1 := relays.hears ear (by rw [← relays.enrols.receives_eq reached owned]; exact receives)
  obtain ⟨definition, found, enters⟩ := @Assembly.Follows.exists_endpoint _ _ realizes.follows
    event.payload.link event.payload.arrival "input" spec known (by rw [component]; exact relays.there)
    (by rw [port]; rfl)
  rw [defined, Option.some.injEq] at found
  subst found
  refine ⟨route, last, twin, took, ?_, here, link, List.mem_of_getElem? defined, _, leaves, ?_⟩
  · rw [message] at same
    exact Message.text.inj same
  · rw [Side.opposite_opposite]
    exact enters

/-- A rank owns the component that hands a message to a link, at the port to which the end of the link is attached. -/
theorem exists_sender {links : Array Link} {first : Fin simulation.ranks.length → Rank Player} {link : LinkId}
    {side : Side} {handing : Handing} (kept : system.Kept simulation.plan links first)
    (inside : Deed.handed link side handing ∈ (system.threads index).history) :
    link < links.size ∧
      (links.getD link default).endAt side =
        ⟨handing.component, handing.port, simulation.plan.ids index⟩ ∧
      ∃ slot, (system.threads index).rank.slot? handing.component = some slot := by
  have wired := kept.steady.wired
  obtain ⟨known, place⟩ := kept.flowing.addressed.deeds index _ inside
  refine ⟨known, place, ?_⟩
  have owned := (wired.wired index).owned link side (by rw [wired.links]; exact known)
    (by rw [Rank.link, wired.links, place, wired.ids])
  rw [Rank.link, wired.links, place] at owned
  exact owned

/-- Where all messages on their way before a step spell walks, so do those that are handed to links in it. -/
theorem spells_of_step
    (built : (build Player.registry options topology clock journal).2 = .ok simulation)
    (only : topology.RelaysOnly)
    (reached : (simulation.launch filter).exec simulation.plan schedule = some system)
    (spells : ∀ delivery, system.Handed delivery → system.Spells topology delivery)
    (stepped : system.step simulation.plan index = some next) :
    ∀ delivery, next.Handed delivery → next.Spells topology delivery := by
  have onward : system.exec simulation.plan [index] = some next := by
    rw [System.exec, stepped]
    rfl
  have whole : (simulation.launch filter).exec simulation.plan (schedule ++ [index]) = some next := by
    rw [System.exec_append, reached]
    exact onward
  obtain ⟨assembly, realizes⟩ := realizes_of_build built
  have before := kept_of_exec built realizes reached
  have kept := kept_of_exec built realizes whole
  rintro delivery ⟨other, link, side, handing, inside, rfl⟩
  have old (index : Fin simulation.ranks.length)
      (earlier : Deed.handed link side handing ∈ (system.threads index).history) :
      next.Spells topology ⟨link, side.opposite, handing.message⟩ :=
    (spells _ ⟨index, link, side, handing, earlier, rfl⟩).later onward
  obtain ⟨known, source, slot, owned⟩ := exists_sender kept inside
  obtain ⟨⟨thread, effect⟩, moved, same⟩ := Option.map_eq_some_iff.mp stepped
  by_cases own : other = index
  · subst own
    have acted : next.threads other = thread := by
      rw [← same, System.threads_withThread_self]
    rw [← acted] at moved
    rcases Thread.exists_response moved owned inside with
      earlier | ⟨former, response, there, responds, own, said, tale⟩
    · exact old _ earlier
    · obtain ⟨spec, role, params, place, rounds, player, relays⟩ := exists_relays built only reached there
      obtain ⟨word, all, origin⟩ := relays.enrols.speaks Player.hosts_self reached whole ⟨former, there, rfl, rfl⟩
        ⟨slot, owned, rfl, tale⟩ (List.ne_nil_of_mem said)
      rw [all, Player.utters, List.map_singleton, relays.play, Play.output, List.mem_singleton,
        Prod.mk.injEq] at said
      obtain ⟨port, message⟩ := said
      obtain ⟨route, took, spelled⟩ := relays.exists_walk origin
        ⟨other, slot, owned, by rw [tale]⟩ all fun ear text occasion => by
          obtain ⟨route, last, twin, took, rest⟩ := relays.exists_feeding built realizes reached
            (fun delivery transports => spells delivery
              (before.flowing.handed realizes.covers before.steady.carried transports)) responds own occasion
          exact ⟨route, last, twin, took.later onward, rest⟩
      obtain ⟨definition, defined, leaves⟩ := @Assembly.Follows.exists_endpoint _ _ realizes.follows
        link side "output" spec known (by rw [source]; exact relays.there) (by rw [source, port]; rfl)
      refine ⟨route, handing.component, spec, definition, took, ?_, relays.there, defined, ?_⟩
      · rw [← spelled]
        exact message
      · rw [Side.opposite_opposite]
        exact leaves
  · rw [← same, System.threads_withThread_of_ne own] at inside
    exact old _ inside

/-- Where all players have one port for each direction, every message on its way, and every one that was dispatched,
spells a walk of players from the initiator that said it first to the one at whose output its link is. -/
theorem spells_of_exec
    (built : (build Player.registry options topology clock journal).2 = .ok simulation)
    (only : topology.RelaysOnly)
    (reached : (simulation.launch filter).exec simulation.plan schedule = some system) {delivery : Delivery}
    (transports : system.Transports delivery) : system.Spells topology delivery := by
  obtain ⟨assembly, realizes⟩ := realizes_of_build built
  have kept := kept_of_exec built realizes reached
  refine System.exec_induction (P := fun system => ∀ delivery, system.Handed delivery →
      system.Spells topology delivery) ?_ (fun turns former latter index arrives before stepped =>
        spells_of_step built only arrives before stepped) reached delivery
    (kept.flowing.handed realizes.covers kept.steady.carried transports)
  rintro delivery ⟨index, link, side, handing, inside, -⟩
  cases inside

/-- A message that waits behind an initiator, a responder and the initiator again spells them. -/
theorem spells_of_exec_relayChain :
    let chain : Topology := .relayChain [(.initiator, 0), (.responder, 0)] 2
    ∃ (simulation : Simulation Player) (schedule : List (Fin simulation.ranks.length))
      (system : System Player simulation.ranks.length) (delivery : Delivery),
      (build Player.registry {} chain Instant.zero ⟨Filter.off, #[]⟩).2 = .ok simulation ∧
      chain.RelaysOnly ∧
      (simulation.launch Filter.off).exec simulation.plan schedule = some system ∧
      system.Transports delivery ∧ delivery.message = .text "Ping0-Pong0-Ping0" ∧
      system.Spells chain delivery := by
  intro chain
  have computed : ((build Player.registry {} chain Instant.zero ⟨Filter.off, #[]⟩).2.toOption.bind
      fun simulation => if single : 0 < simulation.ranks.length then
        ((simulation.launch Filter.off).exec simulation.plan (List.replicate 6 ⟨0, single⟩)).bind
          fun system => (system.threads ⟨0, single⟩).rank.pending.inOrder.head?.map Scheduled.payload
      else none) = some ⟨0, .b, .text "Ping0-Pong0-Ping0"⟩ := by decide +kernel
  obtain ⟨simulation, made, rest⟩ := Option.bind_eq_some_iff.mp computed
  have built := eq_ok_of_toOption made
  split at rest
  · next single =>
    obtain ⟨system, reached, first⟩ := Option.bind_eq_some_iff.mp rest
    obtain ⟨event, waits, payload⟩ := Option.map_eq_some_iff.mp first
    have only := (Topology.describes_relayChain [(.initiator, 0), (.responder, 0)] 2).rings.relaysOnly
    have transports : system.Transports event.payload := .waits (List.mem_of_head? waits)
    exact ⟨simulation, _, system, event.payload, built, only, reached, transports, by rw [payload],
      spells_of_exec built only reached transports⟩
  · cases rest

end Simulation

end Rally
