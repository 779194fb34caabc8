import Rally.Proofs.Pool.Partition
import Rally.Proofs.Queue.CorrespondingSets
import Rally.Proofs.Topology.Separation
/-!
# A rank among others and the same rank alone

A rank that is built together with others has places for their components too, and knows their links. Alone,
its own components and links have other numbers, in the same order. Where no link leads to another rank, the
two correspond, and keep doing so: hooks are called for the same components in the same order, answer alike,
and fail alike.
-/

namespace Rally

variable {C : Type}

/-- Whether two bindings are to one end of a link, by its old number and by its new one. -/
structure Binding.Corresponds (numbers : Numbering) (binding other : Binding) : Prop where
  /-- The link is the same. -/
  link : numbers.links[other.link]? = some binding.link
  /-- So is its side. -/
  side : binding.side = other.side
  /-- So is the mode. -/
  mode : binding.mode = other.mode

/-- Whether two deliveries bring one message to one end of a link. -/
structure Delivery.Corresponds (numbers : Numbering) (delivery other : Delivery) : Prop where
  /-- The link is the same. -/
  link : numbers.links[other.link]? = some delivery.link
  /-- So is the side of arrival. -/
  arrival : delivery.arrival = other.arrival
  /-- So is the message. -/
  message : delivery.message = other.message

/-- Whether two components are one, bound to the same links. -/
structure Slot.Corresponds (numbers : Numbering) (slot other : Slot C) : Prop where
  /-- The name is the same. -/
  name : slot.name = other.name
  /-- So is the state. -/
  component : slot.component = other.component
  /-- So are the declared ports. -/
  declared : slot.declared = other.declared
  /-- So are their bindings. -/
  bindings : ∀ port, Option.Rel (Binding.Corresponds numbers) (slot.binding? port) (other.binding? port)

/-- Whether a rank among others is what another one is alone. -/
structure Rank.Corresponds (numbers : Numbering) (rank other : Rank C) : Prop where
  /-- It has the same number. -/
  id : rank.id = other.id
  /-- The components with new numbers are its own. -/
  places : (List.range rank.slots.size).filter (fun id => (rank.slot? id).isSome) = numbers.components
  /-- Alone, it has places for these. -/
  size : other.slots.size = numbers.components.length
  /-- What is in its places is the same. -/
  slots : ∀ (id position : ComponentId), numbers.components[id]? = some position →
    Option.Rel (Slot.Corresponds numbers) (rank.slot? position) (other.slot? id)
  /-- The links with new numbers are the same. -/
  links : ∀ (id position : LinkId), numbers.links[id]? = some position →
    (rank.link position).Corresponds numbers (other.link id)
  /-- Both of their ends are on the rank. -/
  inside : ∀ position ∈ numbers.links, ∀ side, ((rank.link position).endAt side).rank = rank.id
  /-- No link has two numbers. -/
  distinct : numbers.links.Nodup
  /-- As many messages are counted on them. -/
  traffic : ∀ (id position : LinkId), numbers.links[id]? = some position →
    rank.traffic[position]? = other.traffic[id]?
  /-- None are counted on others. -/
  unused : ∀ (position : LinkId) traffic, position ∉ numbers.links →
    rank.traffic[position]? = some traffic → traffic = { name := traffic.name }
  /-- Alone, it counts those alone. -/
  counts : other.traffic.size = numbers.links.length
  /-- The same messages are to come. -/
  pending : rank.pending.Corresponds (Delivery.Corresponds numbers) other.pending
  /-- None is for another rank. -/
  outgoing : rank.outgoing = [] ∧ other.outgoing = []
  /-- The votes are the same. -/
  tally : rank.tally = other.tally
  /-- So is the limit. -/
  limit : rank.limit = other.limit
  /-- As many messages were dispatched. -/
  dispatched : rank.dispatched = other.dispatched
  /-- The last one was at the same time. -/
  lastTime : rank.lastTime = other.lastTime
  /-- The simulated time is the same. -/
  now : rank.now = other.now

namespace Rank

variable {numbers : Numbering} {rank other last : Rank C}

/-- What a rank does and what comes of it, among others and alone. -/
structure Matches {α : Type} (numbers : Numbering) (called other : Rank C × α) : Prop where
  /-- The ranks correspond. -/
  rank : called.1.Corresponds numbers other.1
  /-- The same comes of it. -/
  result : called.2 = other.2

/-- A rank of the same outline has the same components. -/
theorem isSome_slot?_of_outline (same : last.outline = rank.outline) (id : ComponentId) :
    (last.slot? id).isSome = (rank.slot? id).isSome := by
  have names := congrArg (fun outline => outline.names[id]?.join.isSome) same
  simpa only [getElem?_names, Option.isSome_map] using names

/-- It has as many places. -/
theorem size_of_outline (same : last.outline = rank.outline) : last.slots.size = rank.slots.size := by
  have names := congrArg (fun outline => outline.names.length) same
  simpa only [outline, List.length_map, Array.length_toList] using names

namespace Corresponds

/-- Components have one old number each. -/
theorem nodup (corresponds : rank.Corresponds numbers other) : numbers.components.Nodup := by
  rw [← corresponds.places]
  exact List.nodup_range.filter _

/-- Log lines do not matter. -/
theorem of_journal (corresponds : rank.Corresponds numbers other) (first second : Journal) :
    Corresponds numbers { rank with journal := first } { other with journal := second } :=
  ⟨corresponds.id, corresponds.places, corresponds.size, corresponds.slots, corresponds.links,
    corresponds.inside, corresponds.distinct, corresponds.traffic, corresponds.unused, corresponds.counts,
    corresponds.pending, corresponds.outgoing, corresponds.tally, corresponds.limit,
    corresponds.dispatched, corresponds.lastTime, corresponds.now⟩

variable (corresponds : rank.Corresponds numbers other)
include corresponds

/-- A place is empty among others and alone, or has the same component. -/
theorem slot?_cases {id position : ComponentId} (there : numbers.components[id]? = some position) :
    rank.slot? position = none ∧ other.slot? id = none ∨ ∃ slot also, rank.slot? position = some slot ∧
      other.slot? id = some also ∧ slot.Corresponds numbers also := by
  have slots := corresponds.slots id position there
  generalize rank.slot? position = slot at slots
  generalize other.slot? id = also at slots
  cases slots with
  | none => exact Or.inl ⟨rfl, rfl⟩
  | some same => exact Or.inr ⟨_, _, rfl, rfl, same⟩

/-- Hooks know the same. -/
theorem context {slot also : Slot C} (same : slot.Corresponds numbers also) :
    rank.context slot = other.context also := by
  rw [Rank.context, Rank.context, same.name, corresponds.id, corresponds.now]

/-- The answer of a hook is taken over alike. -/
theorem absorb {id position : Nat} (there : numbers.components[id]? = some position) {slot also : Slot C}
    (owned : rank.slot? position = some slot) (held : other.slot? id = some also)
    (same : slot.Corresponds numbers also) (reaction : Reaction C) :
    Corresponds numbers (rank.absorb position slot reaction) (other.absorb id also reaction) := by
  have outline := (Act.absorbed rank position slot reaction owned :
    Act (fun _ => True) rank [] (rank.absorb position slot reaction)).outline
  refine { corresponds with
    places := ?_, size := ?_, slots := fun number place found => ?_,
    tally := congrArg (fun tally => tally.countAll reaction.votes) corresponds.tally }
  · rw [size_of_outline outline, ← corresponds.places]
    exact List.filter_congr fun place _ => isSome_slot?_of_outline outline place
  · rw [← corresponds.size, Rank.absorb, Array.size_setIfInBounds]
  · by_cases here : number = id
    · subst here
      obtain rfl := Option.some.inj (there.symm.trans found)
      rw [slot?_absorb reaction owned, slot?_absorb reaction held]
      exact .some ⟨same.name, rfl, same.declared, same.bindings⟩
    · have differ : place ≠ position := by
        rintro rfl
        exact here ((List.getElem?_inj (List.getElem?_eq_some_iff.mp found).1 corresponds.nodup).mp
          (found.trans there.symm))
      rw [slot?_absorb_of_ne rank slot reaction differ, slot?_absorb_of_ne other also reaction here]
      exact corresponds.slots number place found

/-- What is counted on a link is counted alike. -/
theorem modify {id position : Nat} (there : numbers.links[id]? = some position)
    (change : Traffic → Traffic) :
    Corresponds numbers { rank with traffic := rank.traffic.modify position change }
      { other with traffic := other.traffic.modify id change } := by
  refine { corresponds with
    traffic := fun number place found => ?_, unused := fun place traffic foreign found => ?_, counts := ?_ }
  · have same := corresponds.traffic number place found
    rw [Array.getElem?_modify, Array.getElem?_modify, same]
    by_cases here : id = number
    · subst here
      obtain rfl := Option.some.inj (there.symm.trans found)
      rw [if_pos rfl, if_pos rfl]
    · have differ : position ≠ place := by
        rintro rfl
        exact here ((List.getElem?_inj (List.getElem?_eq_some_iff.mp there).1 corresponds.distinct).mp
          (there.trans found.symm))
      rw [if_neg here, if_neg differ]
  · have differ : position ≠ place := by
      rintro rfl
      exact foreign (List.mem_of_getElem? there)
    rw [Array.getElem?_modify, if_neg differ] at found
    exact corresponds.unused place traffic foreign found
  · rw [← corresponds.counts, Array.size_modify]

/-- A message is for the same end of a link. -/
theorem receiver {delivery also : Delivery} (same : delivery.Corresponds numbers also) :
    (rank.receiver delivery).Corresponds numbers (other.receiver also) := by
  rw [Rank.receiver, Rank.receiver, same.arrival]
  exact (corresponds.links _ _ same.link).ends _

/-- A message is handed to a link alike. -/
theorem send {binding also : Binding} (same : binding.Corresponds numbers also) (message : Message) :
    Corresponds numbers (rank.send binding message) (other.send also message) := by
  have sent : (delivery binding message).Corresponds numbers (delivery also message) :=
    ⟨same.link, congrArg Side.opposite same.side, rfl⟩
  have here : (rank.receiver (delivery binding message)).rank = rank.id :=
    corresponds.inside _ (List.mem_of_getElem? same.link) _
  have there : (other.receiver (delivery also message)).rank = other.id := by
    rw [← corresponds.id, ← here, (corresponds.receiver sent).rank]
  have due : rank.due binding = other.due also := by
    rw [Rank.due, Rank.due, corresponds.now, (corresponds.links _ _ same.link).latency]
  have counted := corresponds.modify same.link fun traffic => traffic.send also.side
  rw [send_of_eq here, send_of_eq there, due, countSent, countSent, same.side]
  exact { counted with pending := corresponds.pending.add sent _ }

/-- The messages of a hook are handed to links alike, up to the same failure. -/
theorem flush {slot also : Slot C} (same : slot.Corresponds numbers also)
    (sends : List (PortId × Message)) :
    Matches numbers (Rank.flush slot sends rank) (Rank.flush also sends other) := by
  induction sends generalizing rank other with
  | nil => exact ⟨corresponds, rfl⟩
  | cons first rest ih =>
    obtain ⟨port, message⟩ := first
    have bindings := same.bindings port
    rw [Rank.flush, Rank.flush]
    generalize slot.binding? port = binding at bindings
    generalize also.binding? port = twin at bindings
    cases bindings with
    | some bound => exact ih (corresponds.send bound message)
    | none =>
      have name : slot.portName port = also.portName port := by
        rw [Slot.portName, Slot.portName, same.declared]
      dsimp only
      rw [name, same.name]
      exact ⟨corresponds.of_journal _ _, rfl⟩

end Corresponds

/-- The members of a list have its positions in ascending order. -/
theorem forall₂_range {α : Type} (members : List α) :
    List.Forall₂ (fun member position => members[position]? = some member) members
      (List.range members.length) := by
  refine List.forall₂_iff_get.mpr ⟨List.length_range.symm, fun index inside within => ?_⟩
  rw [List.get_eq_getElem, List.get_eq_getElem, List.getElem_range]
  exact List.getElem?_eq_getElem inside

/-- Calls a hook of some positions, up to the first failure. -/
def callAll (hook : ComponentId → Rank C → Rank C × Option Halt) :
    List ComponentId → Rank C → Rank C × Option Halt
  | [], rank => (rank, none)
  | id :: rest, rank =>
    match hook id rank with
    | (rank, none) => callAll hook rest rank
    | failure => failure

/-- Positions without a component can be left out, if a hook does nothing there. -/
theorem callAll_filter {hook : ComponentId → Rank C → Rank C × Option Halt}
    (idle : ∀ id rank, rank.slot? id = none → hook id rank = (rank, none))
    (keeps : ∀ id rank, (hook id rank).1.outline = rank.outline) (ids : List ComponentId) (rank : Rank C) :
    callAll hook (ids.filter fun id => (rank.slot? id).isSome) rank = callAll hook ids rank := by
  induction ids generalizing rank with
  | nil => rfl
  | cons id rest ih =>
    cases owned : rank.slot? id with
    | none =>
      have missing : ¬ (rank.slot? id).isSome = true := by rw [owned]; exact Bool.false_ne_true
      rw [List.filter_cons, if_neg missing, ih rank, callAll, idle id rank owned]
    | some slot =>
      have present : (rank.slot? id).isSome = true := by rw [owned]; rfl
      rw [List.filter_cons, if_pos present]
      have same := keeps id rank
      rw [callAll, callAll]
      cases called : hook id rank with
      | mk last halt =>
        rw [called] at same
        cases halt with
        | some halt => rfl
        | none =>
          dsimp only
          rw [← ih last]
          exact congrArg (fun ids => callAll hook ids last)
            (List.filter_congr fun other _ => (isSome_slot?_of_outline same other).symm)

/-- Hooks that match one by one match when they are called for all components in the order of their
registration. -/
theorem Corresponds.callAll (corresponds : rank.Corresponds numbers other)
    {hook : ComponentId → Rank C → Rank C × Option Halt}
    (idle : ∀ id rank, rank.slot? id = none → hook id rank = (rank, none))
    (keeps : ∀ id rank, (hook id rank).1.outline = rank.outline)
    (one : ∀ (id position : ComponentId), numbers.components[id]? = some position → ∀ rank other,
      rank.Corresponds numbers other → Matches numbers (hook position rank) (hook id other)) :
    Matches numbers (Rank.callAll hook (List.range rank.slots.size) rank)
      (Rank.callAll hook (List.range other.slots.size) other) := by
  rw [← callAll_filter idle keeps, corresponds.places, corresponds.size]
  have numbered := forall₂_range numbers.components
  generalize List.range numbers.components.length = ids at numbered
  generalize old : numbers.components = positions at numbered
  have one : ∀ (id position : ComponentId), positions[id]? = some position → ∀ rank other,
      rank.Corresponds numbers other → Matches numbers (hook position rank) (hook id other) :=
    old ▸ one
  suffices run : ∀ {few less}, List.Forall₂ (fun position id => positions[id]? = some position) few less →
      ∀ {rank other : Rank C}, rank.Corresponds numbers other →
        Matches numbers (Rank.callAll hook few rank) (Rank.callAll hook less other) from
    run numbered corresponds
  intro few less paired
  induction paired with
  | nil => exact fun corresponds => ⟨corresponds, rfl⟩
  | @cons position id few less here rest ih =>
    intro rank other corresponds
    have both := one id position here rank other corresponds
    rw [Rank.callAll, Rank.callAll]
    cases first : hook position rank with
    | mk last halt =>
      cases second : hook id other with
      | mk twin result =>
        rw [first, second] at both
        obtain ⟨same, rfl⟩ := both
        cases halt with
        | none => exact ih same
        | some halt => exact ⟨same, rfl⟩

variable [Component C]

/-- Setup hooks are called one after the other. -/
theorem setupAll_eq (ids : List ComponentId) (rank : Rank C) :
    setupAll ids rank = callAll setup ids rank := by
  induction ids generalizing rank with
  | nil => rfl
  | cons id rest ih =>
    rw [setupAll, callAll]
    cases setup id rank with
    | mk last halt =>
      cases halt with
      | none => exact ih last
      | some halt => rfl

/-- So are finish hooks. -/
theorem finishAll_eq (ids : List ComponentId) (rank : Rank C) :
    finishAll ids rank = callAll finishOne ids rank := by
  induction ids generalizing rank with
  | nil => rfl
  | cons id rest ih =>
    rw [finishAll, callAll]
    cases finishOne id rank with
    | mk last halt =>
      cases halt with
      | none => exact ih last
      | some halt => rfl

namespace Corresponds

variable (corresponds : rank.Corresponds numbers other)
include corresponds

/-- Setup hooks do the same. -/
theorem setup {id position : ComponentId} (there : numbers.components[id]? = some position) :
    Matches numbers (rank.setup position) (other.setup id) := by
  rw [Rank.setup, Rank.setup]
  rcases corresponds.slot?_cases there with ⟨owned, held⟩ | ⟨slot, also, owned, held, same⟩
  · rw [owned, held]
    exact ⟨corresponds, rfl⟩
  · rw [owned, held]
    dsimp only
    rw [same.component, corresponds.context same]
    have absorbed := corresponds.absorb there owned held same
      (Component.setup also.component (other.context also))
    split
    · exact ⟨absorbed, rfl⟩
    · exact absorbed.flush same _

/-- Finish hooks do the same. -/
theorem finishOne {id position : ComponentId} (there : numbers.components[id]? = some position) :
    Matches numbers (rank.finishOne position) (other.finishOne id) := by
  rw [Rank.finishOne, Rank.finishOne]
  rcases corresponds.slot?_cases there with ⟨owned, held⟩ | ⟨slot, also, owned, held, same⟩
  · rw [owned, held]
    exact ⟨corresponds, rfl⟩
  · rw [owned, held]
    dsimp only
    rw [same.component, corresponds.context same]
    have absorbed := corresponds.absorb there owned held same
      (Component.finish also.component (other.context also))
    split
    · exact ⟨absorbed, rfl⟩
    · split
      · exact ⟨absorbed, rfl⟩
      · exact ⟨absorbed.of_journal _ _, rfl⟩

/-- Messages are handed to their receivers alike. -/
theorem deliver {id position : ComponentId} (there : numbers.components[id]? = some position)
    {slot also : Slot C} (owned : rank.slot? position = some slot) (held : other.slot? id = some also)
    (same : slot.Corresponds numbers also) (port : PortId) (message : Message) :
    Matches numbers (rank.deliver position slot port message) (other.deliver id also port message) := by
  have receives : slot.receives port = also.receives port := by
    have bindings := same.bindings port
    rw [Slot.receives, Slot.receives]
    generalize slot.binding? port = binding at bindings
    generalize also.binding? port = twin at bindings
    cases bindings with
    | none => rfl
    | some bound => rw [Option.any_some, Option.any_some, bound.mode]
  have fails (rank other : Rank C) (corresponds : rank.Corresponds numbers other) (violation : Violation)
      {slot : Slot C} (name : slot.name = also.name) :
      Matches numbers (rank.fail slot violation) (other.fail also violation) := by
    rw [Rank.fail, Rank.fail, name]
    exact ⟨corresponds.of_journal _ _, rfl⟩
  rw [Rank.deliver, Rank.deliver, receives]
  split
  · dsimp only
    rw [same.component, corresponds.context same]
    have absorbed := corresponds.absorb there owned held same
      (Component.handle also.component (other.context also) port message)
    split
    · exact absorbed.flush same _
    · exact fails _ _ absorbed _ same.name
    · exact ⟨absorbed, rfl⟩
  · have name : slot.portName port = also.portName port := by
      rw [Slot.portName, Slot.portName, same.declared]
    rw [name]
    exact fails _ _ corresponds _ same.name

omit [Component C] in
/-- A message is taken out of the future alike. -/
theorem take {event twin : Scheduled Delivery} (time : event.time = twin.time)
    (same : event.payload.Corresponds numbers twin.payload) {rest more : EventSet Delivery}
    (pending : rest.Corresponds (Delivery.Corresponds numbers) more) :
    Corresponds numbers (rank.take event rest) (other.take twin more) := by
  have dispatched := congrArg (· + 1) corresponds.dispatched
  have ends := corresponds.receiver same
  have counted := corresponds.modify same.link
    fun traffic => traffic.deliver twin.payload.arrival.opposite
  rw [Rank.take, Rank.take]
  rcases corresponds.slot?_cases ends.component with ⟨owned, held⟩ | ⟨slot, also, owned, held, -⟩
  · rw [owned, held]
    exact { corresponds with pending := pending, dispatched := dispatched, lastTime := time, now := time }
  · rw [owned, held, same.arrival]
    exact { counted with pending := pending, dispatched := dispatched, lastTime := time, now := time }

/-- Messages are dispatched alike. -/
theorem dispatch {event twin : Scheduled Delivery} (time : event.time = twin.time)
    (same : event.payload.Corresponds numbers twin.payload) {rest more : EventSet Delivery}
    (pending : rest.Corresponds (Delivery.Corresponds numbers) more) :
    Matches numbers (Rank.dispatch event { rank with pending := rest })
      (Rank.dispatch twin { other with pending := more }) := by
  have ends := corresponds.receiver same
  have took := corresponds.take time same pending
  rw [dispatch_eq, dispatch_eq]
  rcases corresponds.slot?_cases ends.component with ⟨owned, held⟩ | ⟨slot, also, owned, held, alike⟩
  · rw [owned, held]
    dsimp only
    rw [(corresponds.links _ _ same.link).name, corresponds.id]
    exact ⟨took, rfl⟩
  · rw [owned, held]
    dsimp only
    rw [ends.port, same.message]
    exact took.deliver ends.component owned held alike _ _

/-- Setup hooks are called alike. -/
theorem start : Matches numbers rank.start other.start := by
  rw [Rank.start, Rank.start, setupAll_eq, setupAll_eq]
  have begun : Corresponds numbers { rank with now := Instant.zero } { other with now := Instant.zero } :=
    { corresponds with now := rfl }
  refine begun.callAll (fun id rank none => ?_) (fun id rank => ?_)
    fun id position there rank other same => same.setup there
  · rw [Rank.setup, none]
  · exact (@setup_course _ (fun _ => True) _ id rank).outline

/-- Finish hooks are called alike. -/
theorem finish : Matches numbers rank.finish other.finish := by
  rw [Rank.finish, Rank.finish, finishAll_eq, finishAll_eq]
  refine corresponds.callAll (fun id rank none => ?_) (fun id rank => ?_)
    fun id position there rank other same => same.finishOne there
  · rw [Rank.finishOne, none]
  · exact (@finishOne_course _ (fun _ => True) _ id rank).outline

omit [Component C] in
/-- Both take the same turn. -/
theorem turn (bound : Option Instant) (byVote : Bool) :
    (∃ stop, rank.turn bound byVote = .error stop ∧ other.turn bound byVote = .error stop) ∨
      ∃ event twin rest more, rank.turn bound byVote = .ok (event, rest) ∧
        other.turn bound byVote = .ok (twin, more) ∧ event.time = twin.time ∧
        event.payload.Corresponds numbers twin.payload ∧
        rest.Corresponds (Delivery.Corresponds numbers) more := by
  rw [Rank.turn, Rank.turn, corresponds.tally, corresponds.pending.nextTime?, corresponds.limit,
    corresponds.dispatched]
  split
  · exact Or.inl ⟨_, rfl, rfl⟩
  · cases other.pending.nextTime? with
    | none => exact Or.inl ⟨_, rfl, rfl⟩
    | some time =>
      dsimp only
      split
      · exact Or.inl ⟨_, rfl, rfl⟩
      · split
        · exact Or.inl ⟨_, rfl, rfl⟩
        · rcases corresponds.pending.pop? with ⟨none, also⟩ | both
          · rw [none, also]
            exact Or.inl ⟨_, rfl, rfl⟩
          · obtain ⟨event, twin, rest, more, taken, gone, due, same, pending⟩ := both
            rw [taken, gone]
            exact Or.inr ⟨event, twin, rest, more, rfl, rfl, due, same, pending⟩

/-- Both dispatch messages until the same end. -/
theorem dispatchUntil (bound : Option Instant) (byVote : Bool) (fuel : Nat) :
    Option.Rel (Matches numbers) (rank.dispatchUntil bound byVote fuel)
      (other.dispatchUntil bound byVote fuel) := by
  induction fuel generalizing rank other with
  | zero => exact .none
  | succ fuel ih =>
    rw [dispatchUntil_succ, dispatchUntil_succ]
    rcases corresponds.turn bound byVote with ⟨stop, stops, also⟩ | goes
    · rw [stops, also]
      exact .some ⟨corresponds, rfl⟩
    · obtain ⟨event, twin, rest, more, goes, also, due, same, pending⟩ := goes
      have called := corresponds.dispatch due same pending
      rw [goes, also]
      dsimp only
      cases first : Rank.dispatch event { rank with pending := rest } with
      | mk last halt =>
        cases second : Rank.dispatch twin { other with pending := more } with
        | mk final result =>
          rw [first, second] at called
          obtain ⟨behind, rfl⟩ := called
          cases halt with
          | none => exact ih behind
          | some halt => exact .some ⟨behind, rfl⟩

end Corresponds

end Rank

end Rally
