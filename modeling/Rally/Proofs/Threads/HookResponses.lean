import Rally.Proofs.Threads.HookCalls
/-!
# Answers of hooks

In a step of its thread a rank calls one hook at most. Its answer replaces the state of the called
component alone, adds its votes to the tally of the rank, and puts the messages that are handed to links
into the history, behind the occasion on which the hook was called. So a history tells of each component
what it heard and said, and the tally of a rank counts the votes of its components one by one.
-/

namespace Rally

/-- What a hook is called for. -/
inductive Occasion where
  /-- The start of the run. -/
  | setup
  /-- A message at a port. -/
  | message (port : PortId) (message : Message)
  /-- The end of the run. -/
  | finish

/-- What happens to a component in front of others. -/
inductive Sign where
  /-- It is set up. -/
  | started
  /-- It hears a message at a port. -/
  | heard (port : PortId) (message : Message)
  /-- It says a message on a port. -/
  | said (port : PortId) (message : Message)
  deriving DecidableEq

/-- What a deed means for a component: a message that comes to a port where none are received is not heard. -/
def Deed.sign? {C : Type} (id : ComponentId) (slot : Slot C) : Deed → Option Sign
  | .started component _ => if component = id then some .started else none
  | .handed _ _ handing =>
    if handing.component = id then some (.said handing.port handing.message) else none
  | .scheduled _ _ => none
  | .dispatched _ arrival =>
    if arrival.component = id ∧ slot.receives arrival.port = true then
      some (.heard arrival.port arrival.message)
    else none

/-- What a history tells of a component. -/
def taleOf {C : Type} (id : ComponentId) (slot : Slot C) (history : List Deed) : List Sign :=
  history.filterMap (Deed.sign? id slot)

/-- What a history tells of a component, and more of it. -/
@[simp] theorem taleOf_append {C : Type} (id : ComponentId) (slot : Slot C) (history deeds : List Deed) :
    taleOf id slot (history ++ deeds) = taleOf id slot history ++ taleOf id slot deeds :=
  List.filterMap_append

/-- The state of a component means nothing for what it hears. -/
theorem taleOf_with {C : Type} (id : ComponentId) (slot : Slot C) (component : C) :
    taleOf id { slot with component } = taleOf id slot :=
  rfl

/-- The sign of an occasion. -/
def Occasion.signs : Occasion → List Sign
  | .setup => [.started]
  | .message port told => [.heard port told]
  | .finish => []

/-- A hook that is called, and its answer. -/
structure Response (C : Type) where
  /-- The called component. -/
  id : ComponentId
  /-- Its place before. -/
  slot : Slot C
  /-- What the hook is called for. -/
  occasion : Occasion
  /-- The answer. -/
  reaction : Reaction C

namespace Response

variable {C : Type} (response : Response C)

/-- The place of the component behind the answer. -/
def behind : Slot C := { response.slot with component := response.reaction.component }

/-- The votes of an answer. -/
def ballot : List (ComponentId × Vote) := response.reaction.votes.map fun vote => (response.id, vote)

/-- The messages of an answer that are handed to links: those in front of the first one on a port that is not
configured, if the hook does not fail. -/
def said : List (PortId × Message) :=
  match response.occasion, response.reaction.outcome with
  | .setup, .panicked _ | .message _ _, .violated _ | .message _ _, .panicked _ | .finish, _ => []
  | _, _ => response.reaction.sends.takeWhile fun send => (response.slot.binding? send.1).isSome

/-- What a response means for its component. -/
def tale : List Sign :=
  response.occasion.signs ++ response.said.map fun send => .said send.1 send.2

end Response

section Hooks

variable {C : Type} [Component C]

/-- The answer of a hook. -/
def Occasion.answer (component : C) (context : Context) : Occasion → Reaction C
  | .setup => Component.setup component context
  | .message port told => Component.handle component context port told
  | .finish => Component.finish component context

namespace Rank

/-- What becomes of a rank where a hook is called, or none, and what happens then. -/
inductive Answers (rank : Rank C) : Option (Response C) → Rank C → List Deed → Prop where
  /-- No hook is called. -/
  | silent {last : Rank C} {deeds : List Deed} (slots : last.slots = rank.slots)
      (tally : last.tally = rank.tally)
      (tale : ∀ id slot, rank.slot? id = some slot → taleOf id slot deeds = []) :
      Answers rank none last deeds
  /-- A hook is called, and answers. -/
  | answered {last : Rank C} {deeds : List Deed} {response : Response C} (context : Context)
      (owned : rank.slot? response.id = some response.slot)
      (answer : response.reaction = response.occasion.answer response.slot.component context)
      (slots : last.slots = rank.slots.setIfInBounds response.id (some response.behind))
      (tally : last.tally = rank.tally.countAll response.reaction.votes)
      (tale : ∀ id slot, rank.slot? id = some slot →
        taleOf id slot deeds = if id = response.id then response.tale else []) :
      Answers rank (some response) last deeds

/-- The response of a hook, if the rank owns the component and, where a message is dispatched to it, it receives
messages at the port. -/
def response? (rank : Rank C) : Hook → Option (Response C)
  | .setup id => (rank.slot? id).map fun slot =>
    ⟨id, slot, .setup, Component.setup slot.component (rank.context slot)⟩
  | .dispatch event pending =>
    let receiver := rank.receiver event.payload
    let message := event.payload.message
    ((rank.slot? receiver.component).filter fun slot => slot.receives receiver.port).map fun slot =>
      ⟨receiver.component, slot, .message receiver.port message, Component.handle slot.component
        ((rank.take event pending).context slot) receiver.port message⟩
  | .finish id => (rank.slot? id).map fun slot =>
    ⟨id, slot, .finish, Component.finish slot.component (rank.context slot)⟩

omit [Component C] in
/-- The messages that are handed to links are those of one component, up to the first one on a port that is not
configured. -/
theorem taleOf_flushDeeds (id other : ComponentId) (slot place : Slot C)
    (sends : List (PortId × Message)) (rank : Rank C) :
    taleOf other place (flushDeeds id slot sends rank) =
      if other = id then (sends.takeWhile fun send => (slot.binding? send.1).isSome).map fun send =>
        .said send.1 send.2
      else [] := by
  induction sends generalizing rank with
  | nil => exact (ite_self _).symm
  | cons first rest ih =>
    obtain ⟨port, message⟩ := first
    rw [flushDeeds]
    cases bound : slot.binding? port with
    | none => simp [bound, taleOf]
    | some binding =>
      have own : taleOf other place (rank.sendDeeds id port binding message) =
          if other = id then [.said port message] else [] := by
        rw [sendDeeds]
        by_cases same : other = id
        · subst same
          split <;> simp [taleOf, Deed.sign?]
        · split <;> simp [taleOf, Deed.sign?, Ne.symm same]
      simp only [taleOf_append, own, ih, List.takeWhile_cons, bound, Option.isSome_some, if_true]
      split <;> rfl

/-- A setup hook answers. -/
theorem answers_setup (id : ComponentId) (rank : Rank C) :
    rank.Answers (rank.response? (.setup id)) (rank.setup id).1 (rank.setupDeeds id) := by
  rw [response?, setup, setupDeeds]
  cases owned : rank.slot? id with
  | none => exact .silent rfl rfl fun _ _ _ => rfl
  | some slot =>
    have started (other : ComponentId) (place : Slot C) (deeds : List Deed) :
        taleOf other place (.started id (rank.context slot).now :: deeds) =
          (if other = id then [.started] else []) ++ taleOf other place deeds := by
      by_cases same : other = id
      · simp [taleOf, Deed.sign?, same]
      · simp [taleOf, Deed.sign?, same, Ne.symm same]
    simp only [Option.map_some]
    cases outcome : (Component.setup slot.component (rank.context slot)).outcome with
    | panicked panic =>
      dsimp only
      refine .answered (rank.context slot) owned rfl rfl rfl fun other place there => ?_
      simp only [started]
      split <;> simp [Response.tale, Occasion.signs, Response.said, outcome, taleOf]
    | completed | violated =>
      dsimp only
      refine .answered (rank.context slot) owned rfl (slots_flush _ _ _)
        (tally_flush _ _ _) fun other place there => ?_
      simp only [started, reactionDeeds, taleOf_flushDeeds]
      split <;> simp [Response.tale, Occasion.signs, Response.said, outcome]

/-- The receiver of an event answers, if it receives messages at the port. -/
theorem answers_dispatch (event : Scheduled Delivery) (pending : EventSet Delivery) (rank : Rank C) :
    rank.Answers (rank.response? (.dispatch event pending))
      (dispatch event { rank with pending }).1 (rank.dispatchDeeds event pending) := by
  rw [response?, dispatch_eq, dispatchDeeds, takeDeeds]
  cases owned : rank.slot? (rank.receiver event.payload).component with
  | none => exact .silent rfl rfl fun _ _ _ => rfl
  | some slot =>
    have took (other : ComponentId) (place : Slot C) (deeds : List Deed)
        (there : rank.slot? other = some place) :
        taleOf other place ([.dispatched event ⟨(rank.receiver event.payload).component,
            (rank.receiver event.payload).port, ((rank.take event pending).context slot).now,
            event.payload.message⟩] ++ deeds) =
          (if other = (rank.receiver event.payload).component ∧
            slot.receives (rank.receiver event.payload).port = true then
              [.heard (rank.receiver event.payload).port event.payload.message] else []) ++
            taleOf other place deeds := by
      rw [taleOf_append]
      by_cases same : other = (rank.receiver event.payload).component
      · obtain rfl : slot = place := by
          rw [same, owned] at there
          exact Option.some.inj there
        by_cases receives : slot.receives (rank.receiver event.payload).port <;>
          simp [taleOf, Deed.sign?, same, receives]
      · simp [taleOf, Deed.sign?, same, Ne.symm same]
    simp only [deliver, deliverDeeds]
    cases receives : slot.receives (rank.receiver event.payload).port with
    | false =>
      simp only [Option.filter_some, receives, Bool.false_eq_true, if_false, Option.map_none]
      refine .silent rfl rfl fun other place there => ?_
      rw [took other place [] there, receives]
      simp [taleOf]
    | true =>
      simp only [Option.filter_some, receives, if_true, Option.map_some]
      cases outcome : (Component.handle slot.component ((rank.take event pending).context slot)
          (rank.receiver event.payload).port event.payload.message).outcome with
      | completed =>
        dsimp only
        refine .answered ((rank.take event pending).context slot) owned rfl (slots_flush _ _ _)
          (tally_flush _ _ _) fun other place there => ?_
        simp only [took other place _ there, receives, and_true, reactionDeeds, taleOf_flushDeeds]
        split <;> simp [Response.tale, Occasion.signs, Response.said, outcome]
      | violated | panicked =>
        dsimp only
        refine .answered ((rank.take event pending).context slot) owned rfl rfl rfl
          fun other place there => ?_
        simp only [took other place _ there, receives, and_true]
        split <;> simp [Response.tale, Occasion.signs, Response.said, outcome, taleOf]

/-- A finish hook answers. -/
theorem answers_finishOne (id : ComponentId) (rank : Rank C) :
    rank.Answers (rank.response? (.finish id)) (rank.finishOne id).1 [] := by
  rw [response?, finishOne]
  cases owned : rank.slot? id with
  | none => exact .silent rfl rfl fun _ _ _ => rfl
  | some slot =>
    have called (last : Rank C)
        (slots : last.slots = rank.slots.setIfInBounds id
          (some { slot with component := (Component.finish slot.component (rank.context slot)).component }))
        (tally : last.tally = rank.tally.countAll
          (Component.finish slot.component (rank.context slot)).votes) :
        rank.Answers (some ⟨id, slot, .finish, Component.finish slot.component (rank.context slot)⟩)
          last [] := by
      refine .answered (rank.context slot) owned rfl slots tally fun other place there => ?_
      simp [Response.tale, Occasion.signs, Response.said, taleOf]
    simp only [Option.map_some]
    split
    · exact called _ rfl rfl
    · split <;> exact called _ rfl rfl

end Rank

namespace Thread

variable {n : Nat} {plan : Plan n} {view : View n} {thread next : Thread C} {effect : Effect n}

/-- The response of the hook that a thread calls in its next step, if it calls one. -/
def response? (plan : Plan n) (thread : Thread C) : Option (Response C) :=
  (thread.hook? plan).bind thread.rank.response?

/-- What becomes of the rank of a thread in a step is what its response tells. -/
theorem answers_of_step (stepped : thread.step plan view = some (next, effect)) :
    ∃ deeds, next.history = thread.history ++ deeds ∧
      thread.rank.Answers (thread.response? plan) next.rank deeds := by
  obtain ⟨deeds, history, behaves⟩ := behaves_of_step stepped
  refine ⟨deeds, history, ?_⟩
  generalize next.rank = last at behaves ⊢
  rw [response?]
  cases behaves with
  | @setup id rest before =>
    have hook : thread.hook? plan = some (.setup id) := by rw [hook?, before]
    rw [hook]
    exact thread.rank.answers_setup id
  | @dispatch event pending before turn =>
    have hook : thread.hook? plan = some (.dispatch event pending) := by
      rw [hook?, before]
      simp only [turn, Except.toOption, Option.map_some]
    rw [hook]
    exact thread.rank.answers_dispatch event pending
  | @finish reason id rest before =>
    have hook : thread.hook? plan = some (.finish id) := by rw [hook?, before]
    rw [hook]
    exact thread.rank.answers_finishOne id
  | quiet none slots tally dispatched now still =>
    rw [none]
    refine .silent slots tally fun id slot owned => List.filterMap_eq_nil_iff.mpr fun deed inside => ?_
    obtain ⟨time, last, rfl⟩ := still deed inside
    rfl

end Thread

namespace System

variable {n : Nat} {plan : Plan n} {first system : System C n} {schedule : List (Fin n)}

/-- The votes that components cast on each thread along a schedule. -/
def ballots (plan : Plan n) : List (Fin n) → System C n → Fin n → List (ComponentId × Vote)
  | [], _, _ => []
  | turn :: rest, system, index =>
    (if turn = index then ((system.threads turn).response? plan).elim [] Response.ballot else []) ++
      (system.step plan turn).elim [] fun next => ballots plan rest next index

/-- The votes along a schedule, and those along another one behind it. -/
theorem ballots_append (reached : first.exec plan schedule = some system) (more : List (Fin n))
    (index : Fin n) :
    first.ballots plan (schedule ++ more) index =
      first.ballots plan schedule index ++ system.ballots plan more index := by
  induction schedule generalizing first with
  | nil =>
    cases reached
    rfl
  | cons turn rest ih =>
    obtain ⟨next, stepped, onward⟩ := Option.bind_eq_some_iff.mp reached
    simp only [List.cons_append, ballots, stepped, Option.elim_some, ih onward, List.append_assoc]

/-- The votes of a turn behind a schedule. -/
theorem ballots_concat (reached : first.exec plan schedule = some system) {turn : Fin n} {next : System C n}
    (stepped : system.step plan turn = some next) (index : Fin n) :
    first.ballots plan (schedule ++ [turn]) index = first.ballots plan schedule index ++
      if turn = index then ((system.threads turn).response? plan).elim [] Response.ballot else [] := by
  rw [ballots_append reached, ballots, stepped, Option.elim_some, ballots, List.append_nil]

/-- The tally of a rank counts the votes of its components on top of those that it counted before. -/
theorem tally_of_exec (reached : first.exec plan schedule = some system) (index : Fin n) :
    (system.threads index).rank.tally =
      (first.threads index).rank.tally.countAll
        ((first.ballots plan schedule index).map Prod.snd) := by
  refine exec_concat (P := fun schedule system => (system.threads index).rank.tally =
    (first.threads index).rank.tally.countAll ((first.ballots plan schedule index).map Prod.snd))
    rfl (fun turns former latter turn arrives counted stepped => ?_) reached
  rw [ballots_concat arrives stepped, List.map_append, Tally.countAll, List.foldl_append]
  rw [Tally.countAll] at counted
  obtain ⟨⟨thread, effect⟩, moved, rfl⟩ := Option.map_eq_some_iff.mp stepped
  by_cases own : turn = index
  · subst own
    obtain ⟨deeds, -, answers⟩ := Thread.answers_of_step moved
    rw [threads_withThread_self, if_pos rfl, ← counted]
    generalize (former.threads turn).response? plan = response at answers
    cases answers with
    | silent _ tally => exact tally
    | @answered _ _ response _ _ _ _ tally =>
      have votes : response.ballot.map Prod.snd = response.reaction.votes := by
        rw [Response.ballot, List.map_map]
        exact List.map_id' _
      rw [Option.elim_some, votes]
      exact tally
  · rw [threads_withThread_of_ne (Ne.symm own), if_neg own]
    exact counted

end System

end Hooks

end Rally
