import Rally.Proofs.Pool.HookVisits
import Rally.Proofs.Threads.MessageOrder
/-!
# Counters of links

The counters of a rank tell how many messages it handed to each link and how many it dispatched from
it. What a report tells is the sum of these over the ranks; a pool counts the same by itself.
-/

namespace Rally

/-- The traffic of some links, given the flow along each way. -/
def tallied (links : Array Link) (flow : Way → Flow) : List Traffic :=
  links.toList.mapIdx fun id link => ⟨link.name, flow ⟨id, .a⟩, flow ⟨id, .b⟩⟩

/-- How many of some messages go a way that are posted, and how many that are taken. -/
def flowOf (posted taken : List (Instant × Delivery)) (way : Way) : Flow :=
  ⟨posted.countP way.bears, taken.countP way.bears⟩

variable {links : Array Link} {flow : Way → Flow}

/-- The traffic of a link. -/
theorem getElem?_tallied (id : LinkId) :
    (tallied links flow)[id]? =
      links[id]?.map fun link => ⟨link.name, flow ⟨id, .a⟩, flow ⟨id, .b⟩⟩ := by
  rw [tallied, List.getElem?_mapIdx, Array.getElem?_toList]

/-- What leaves an end of a link that is there. -/
theorem exists_leaving_tallied {way : Way} (known : way.link < links.size) :
    ∃ traffic, (tallied links flow)[way.link]? = some traffic ∧
      traffic.leaving way.side = flow way := by
  rw [getElem?_tallied, Array.getElem?_eq_getElem known]
  refine ⟨_, rfl, ?_⟩
  obtain ⟨link, side⟩ := way
  cases side <;> rfl

/-- A change of the traffic along one way. -/
theorem modify_tallied (way : Way) (change : Flow → Flow) :
    (tallied links flow).modify way.link (fun traffic => traffic.modify way.side change) =
      tallied links fun other => if other = way then change (flow other) else flow other := by
  obtain ⟨link, side⟩ := way
  refine List.ext_getElem? fun id => ?_
  rw [List.getElem?_modify, getElem?_tallied, getElem?_tallied]
  cases links[id]? with
  | none => rfl
  | some found =>
    by_cases same : link = id
    · subst same
      cases side <;> simp [Traffic.modify]
    · have differ : ¬ id = link := fun equal => same equal.symm
      simp [same, differ]

/-- Traffic behind a message that is sent along a way. -/
theorem send_tallied (sent : Way) (now : Instant) (message : Message)
    (posted taken : List (Instant × Delivery)) :
    (tallied links (flowOf posted taken)).modify sent.link (fun traffic => traffic.send sent.side) =
      tallied links (flowOf (posted ++ [sent.post links now message]) taken) := by
  refine (modify_tallied sent _).trans (congrArg _ (funext fun way => ?_))
  rw [flowOf, flowOf, List.countP_append, List.countP_singleton]
  by_cases same : way = sent
  · rw [if_pos same, if_pos (way.bears_post links |>.mpr same)]
  · rw [if_neg same, if_neg fun carried => same ((way.bears_post links).mp carried)]
    rfl

/-- Traffic behind a message that is handed over. -/
theorem deliver_tallied (entry : Instant × Delivery) (posted taken : List (Instant × Delivery)) :
    (tallied links (flowOf posted taken)).modify entry.2.link
        (fun traffic => traffic.deliver entry.2.arrival.opposite) =
      tallied links (flowOf posted (taken ++ [entry])) := by
  refine (modify_tallied ⟨entry.2.link, entry.2.arrival.opposite⟩ _).trans
    (congrArg _ (funext fun way => ?_))
  rw [flowOf, flowOf, List.countP_append, List.countP_singleton]
  have goes : way.bears entry = true ↔ way = ⟨entry.2.link, entry.2.arrival.opposite⟩ :=
    way.bears_iff
  by_cases same : way = ⟨entry.2.link, entry.2.arrival.opposite⟩
  · rw [if_pos same, if_pos (goes.mpr same)]
  · rw [if_neg same, if_neg fun carried => same (goes.mp carried)]
    rfl

/-- The order of messages does not count. -/
theorem flowOf_perm {posted taken others more : List (Instant × Delivery)}
    (first : posted.Perm others) (second : taken.Perm more) : flowOf posted taken = flowOf others more := by
  funext way
  rw [flowOf, flowOf, first.countP_eq, second.countP_eq]

/-- The traffic of two ranks together is that of all their messages. -/
theorem merge_tallied (posted taken others more : List (Instant × Delivery)) :
    Report.mergeTraffic (tallied links (flowOf posted taken)) (tallied links (flowOf others more)) =
      tallied links (flowOf (posted ++ others) (taken ++ more)) := by
  have sum : ∀ id : LinkId,
      (List.zipWith Traffic.add (tallied links (flowOf posted taken))
        (tallied links (flowOf others more)))[id]? =
          (tallied links (flowOf (posted ++ others) (taken ++ more)))[id]? := by
    intro id
    rw [List.getElem?_zipWith, getElem?_tallied, getElem?_tallied, getElem?_tallied]
    cases links[id]? with
    | none => rfl
    | some link => simp [flowOf, Traffic.add, Flow.add]
  rw [Report.mergeTraffic]
  split
  · next empty =>
    -- Without links there is nothing to count.
    have none : links.toList = [] := by
      rw [List.isEmpty_iff, tallied, List.mapIdx_eq_nil_iff] at empty
      exact empty
    rw [tallied, tallied, none]
    rfl
  · exact List.ext_getElem? sum

/-- The traffic that a report tells is that of the messages of all ranks. -/
theorem foldl_tallied {α : Type} (posted taken : α → List (Instant × Delivery)) (first : α)
    (rest : List α) :
    (first :: rest).foldl (fun sum member =>
        Report.mergeTraffic sum (tallied links (flowOf (posted member) (taken member)))) [] =
      tallied links
        (flowOf ((first :: rest).flatMap posted) ((first :: rest).flatMap taken)) := by
  have behind : ∀ (before former : List (Instant × Delivery)),
      rest.foldl (fun sum member =>
          Report.mergeTraffic sum (tallied links (flowOf (posted member) (taken member))))
          (tallied links (flowOf before former)) =
        tallied links (flowOf (before ++ rest.flatMap posted) (former ++ rest.flatMap taken)) := by
    induction rest with
    | nil => simp
    | cons second rest ih =>
      intro before former
      rw [List.foldl_cons, merge_tallied, ih, List.flatMap_cons, List.flatMap_cons,
        List.append_assoc, List.append_assoc]
  exact behind _ _

/-- Messages that are sent join the pool and are counted. -/
theorem Pool.foldl_send {C : Type} (now : Instant) (sends : List (Way × Message))
    {pool : Pool C} {posted taken : List (Instant × Delivery)} (known : pool.links = links)
    (counted : pool.traffic = tallied links (flowOf posted taken)) :
    let last := sends.foldl (send now) pool
    let more := sends.map fun sent => sent.1.post links now sent.2
    last.seats = pool.seats ∧ last.links = links ∧ last.waiting = pool.waiting ++ more ∧
      last.traffic = tallied links (flowOf (posted ++ more) taken) := by
  induction sends generalizing pool posted with
  | nil =>
    refine ⟨rfl, known, (List.append_nil _).symm, ?_⟩
    rw [List.map_nil, List.append_nil]
    exact counted
  | cons sent rest ih =>
    have traffic : (pool.send now sent).traffic =
        tallied links (flowOf (posted ++ [sent.1.post links now sent.2]) taken) := by
      rw [send, counted]
      exact send_tallied sent.1 now sent.2 posted taken
    have waiting : (pool.send now sent).waiting =
        pool.waiting ++ [sent.1.post links now sent.2] := by
      rw [send, known]
    obtain ⟨seats, links, more, counted⟩ := @ih (pool.send now sent) _ known traffic
    refine ⟨seats, links, ?_, ?_⟩
    · rw [List.foldl_cons, more, waiting, List.append_assoc]
      rfl
    · rw [List.foldl_cons, counted, List.append_assoc]
      rfl

namespace Rank

variable {C : Type} {within : Instant → Prop}

/-- Whether the counters of a rank are those of its history. -/
def Counted (links : Array Link) (history : List Deed) (rank : Rank C) : Prop :=
  rank.traffic.toList = tallied links (flowOf (postedOf links history) (takenOf history))

/-- An act counts what it hands to links and what it dispatches. -/
theorem Counted.act {first last : Rank C} {deeds history : List Deed}
    (counted : first.Counted links history) (act : Act within first deeds last) :
    last.Counted links (history ++ deeds) := by
  rw [Counted, postedOf_append, takenOf_append]
  cases act with
  | wrote | absorbed | started =>
    simp only [postedOf, takenOf, Deed.posted?, Deed.event?, List.filterMap_nil, List.filterMap_cons,
      List.map_nil, List.append_nil]
    exact counted
  | took event pending =>
    rw [takeDeeds, take]
    cases owned : first.slot? (first.receiver event.payload).component with
    | none =>
      simp only [postedOf, takenOf, List.filterMap_nil, List.map_nil, List.append_nil]
      exact counted
    | some slot =>
      have plain : ∀ arrival, postedOf links [.dispatched event arrival] = [] ∧
          takenOf [.dispatched event arrival] = [event.entry] := fun arrival => ⟨rfl, rfl⟩
      simp only [(plain _).1, (plain _).2, List.append_nil, Array.toList_modify]
      rw [counted]
      exact deliver_tallied event.entry _ _
  | sent id slot port binding message =>
    obtain ⟨posted, taken⟩ := @sendDeeds_posted _ links first id port binding message
    have traffic : (first.send binding message).traffic = (first.countSent binding).traffic := by
      by_cases here : (first.receiver (delivery binding message)).rank = first.id
      · rw [send_of_eq here]
      · rw [send_of_ne here]
    rw [posted, taken, List.append_nil, traffic, countSent, Array.toList_modify, counted]
    exact send_tallied ⟨binding.link, binding.side⟩ _ _ _ _

end Rank

namespace System

variable {C : Type} {n : Nat} {plan : Plan n} {system next : System C n} {index : Fin n}

/-- Whether the counters of all ranks are those of their histories. -/
def Counted (links : Array Link) (system : System C n) : Prop :=
  ∀ index, (system.threads index).rank.Counted links (system.threads index).history

/-- Behind a step the counters of all ranks are still those of their histories. -/
theorem Counted.step [Component C] (counted : system.Counted links)
    (stepped : system.step plan index = some next) : next.Counted links := by
  obtain ⟨thread, effect, move, rfl⟩ := moves_of_step stepped
  have former := counted index
  have latter : thread.rank.Counted links thread.history := by
    cases move.carries with
    | acted course history =>
      rw [history]
      exact course.preserves (fun rank deeds => rank.Counted links deeds)
        (fun _ _ _ _ counted act => counted.act act) former
    | posted _ _ rank _ history | lost _ _ rank _ history | took _ _ rank _ history
    | kept _ _ rank _ history =>
      rw [rank, history]
      exact former
    | scheduled _ _ rank _ history =>
      obtain ⟨posted, taken⟩ := @Rank.addDeeds_posted links
        ((system.threads index).taken.mergeSort Parcel.le) (system.threads index).rank.pending
      rw [rank, history, Rank.Counted, postedOf_append, takenOf_append, Rank.receiveDeeds, posted,
        taken, List.append_nil, List.append_nil]
      exact former
  exact forall_withThread (P := fun _ thread => thread.rank.Counted links thread.history) latter
    counted

end System

end Rally
