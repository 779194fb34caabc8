import Rally.Proofs.Simulation.PortBindings
import Rally.Proofs.Threads.Parcels
/-!
# What a rank does in a step of its thread

Within a window a step of a thread calls one setup hook, dispatches one event, or does nothing to
its rank but write log lines. What ties ranks to the links of a topology stays throughout a run.
-/

namespace Rally

namespace Rank

variable {C : Type} {within : Instant → Prop}

/-- An act leaves the ports of a rank as they are. -/
theorem Act.keeps_wired {first last : Rank C} {deeds : List Deed}
    (act : Act within first deeds last) (wired : first.Wired) : last.Wired := by
  cases act with
  | wrote | started | took => exact ⟨wired.bound, wired.owned⟩
  | sent id slot port binding message =>
    have slots : (first.send binding message).slots = first.slots := slots_send _ _ _
    obtain ⟨ids, links⟩ := (Act.sent first id slot port binding message ‹_› ‹_› :
      Act within first _ _).keeps_links
    refine ⟨?_, ?_⟩
    · simp only [slot?, link, slots, ids, links]
      exact wired.bound
    · simp only [slot?, link, slots, ids, links]
      exact wired.owned
  | absorbed id slot reaction owned =>
    have own := slot?_absorb reaction owned
    refine ⟨fun other present port binding there bound => ?_, fun link side inside here => ?_⟩
    · by_cases same : other = id
      · subst same
        rw [own, Option.some.injEq] at there
        subst there
        exact wired.bound other slot port binding owned bound
      · rw [slot?_absorb_of_ne first slot reaction same] at there
        exact wired.bound other present port binding there bound
    · obtain ⟨present, there⟩ := wired.owned link side inside here
      by_cases same : ((first.link link).endAt side).component = id
      · subst same
        exact ⟨_, own⟩
      · exact ⟨present, (slot?_absorb_of_ne first slot reaction same).trans there⟩

/-- A course leaves the ports of a rank as they are. -/
theorem Course.keeps_wired {first last : Rank C} {deeds : List Deed}
    (course : Course within first deeds last) (wired : first.Wired) : last.Wired :=
  course.keeps Rank.Wired (fun _ _ _ wired act => act.keeps_wired wired) wired

end Rank

namespace Thread

variable {C : Type} [Component C] {n : Nat} {plan : Plan n} {view : View n}
  {thread next : Thread C} {effect : Effect n}

/-- What the rank of a thread does in a step within a window, with its deeds. -/
inductive Does (plan : Plan n) (thread : Thread C) : List Deed → Rank C → Prop where
  /-- It writes log lines. -/
  | noted (journal : Journal) : Does plan thread [] { thread.rank with journal }
  /-- It calls a setup hook. -/
  | started {id : ComponentId} {rest : List ComponentId}
      (before : thread.phase = .starting (id :: rest)) :
      Does plan thread (thread.rank.setupDeeds id) (thread.rank.setup id).1
  /-- It dispatches its next event, which is due before the end of the window. -/
  | dispatched {event : Scheduled Delivery} {pending : EventSet Delivery}
      (before : thread.phase = .dispatching)
      (taken : thread.rank.pending.pop? = some (event, pending))
      (early : ∀ bound, plan.bound thread.start = some bound → event.time < bound) :
      Does plan thread (thread.rank.dispatchDeeds event pending)
        (Rank.dispatch event { thread.rank with pending }).1

/-- A thread whose rank does nothing. -/
theorem does_nothing (plan : Plan n) (thread : Thread C) : thread.Does plan [] thread.rank :=
  .noted thread.rank.journal

/-- What the rank of a thread that calls a setup hook does. -/
theorem does_startNext {rest : List ComponentId} (before : thread.phase = .starting rest)
    (alone : Bool) : ∃ deeds, (thread.startNext alone rest).history = thread.history ++ deeds ∧
      thread.Does plan deeds (thread.startNext alone rest).rank := by
  cases rest with
  | nil => exact ⟨[], (List.append_nil _).symm, does_nothing plan thread⟩
  | cons id rest =>
    have does : thread.Does plan _ _ := .started before
    rw [startNext]
    cases called : thread.rank.setup id with
    | mk rank halt =>
      rw [called] at does
      cases halt with
      | none => exact ⟨_, rfl, does⟩
      | some halt =>
        cases alone with
        | true => exact ⟨_, rfl, does⟩
        | false => exact ⟨_, rfl, does⟩

/-- What the rank of a thread that opens a window does. -/
theorem does_openWindow : ∃ deeds, (thread.openWindow plan).history = thread.history ++ deeds ∧
    thread.Does plan deeds (thread.openWindow plan).rank := by
  refine ⟨[], ?_⟩
  rw [openWindow, List.append_nil]
  split
  · exact ⟨rfl, does_nothing plan thread⟩
  · split
    · exact ⟨rfl, does_nothing plan thread⟩
    · exact ⟨rfl, .noted _⟩

/-- What the rank of a thread that dispatches does, unless the window ends. -/
theorem does_dispatchNext (before : thread.phase = .dispatching)
    (stays : ∀ rest, (thread.dispatchNext plan).phase ≠ .posting rest) :
    ∃ deeds, (thread.dispatchNext plan).history = thread.history ++ deeds ∧
      thread.Does plan deeds (thread.dispatchNext plan).rank := by
  rw [dispatchNext] at stays ⊢
  cases turn : thread.rank.turn (plan.bound thread.start) (plan.byVote thread.round) with
  | error stop =>
    simp only [turn, stopped] at stays ⊢
    cases alone : plan.alone with
    | true => exact ⟨[], (List.append_nil _).symm, does_nothing plan thread⟩
    | false =>
      rw [alone, if_neg Bool.false_ne_true] at stays
      exact absurd rfl (stays _)
  | ok taken =>
    obtain ⟨event, pending⟩ := taken
    obtain ⟨popped, early⟩ := Rank.turn_ok turn
    have does : thread.Does plan _ _ := .dispatched before popped early
    simp only
    cases called : Rank.dispatch event { thread.rank with pending } with
    | mk rank halt =>
      rw [called] at does
      cases halt with
      | none => exact ⟨_, rfl, does⟩
      | some halt =>
        simp only [halted]
        cases plan.alone <;> exact ⟨_, rfl, does⟩

/-- What the rank of a thread does in a step within a window, unless the window ends. -/
theorem does_of_step (window : thread.phase.inWindow)
    (stepped : thread.step plan view = some (next, effect))
    (stays : ∀ rest, next.phase ≠ .posting rest) :
    ∃ deeds, next.history = thread.history ++ deeds ∧ thread.Does plan deeds next.rank := by
  cases steps_of_step stepped with
  | starts before => exact does_startNext before _
  | opens => exact does_openWindow
  | dispatches before => exact does_dispatchNext before stays
  | posts before | postsAll before | loses before | arrives before | passes before | takes before
  | schedules before | publishes before | reads before | decides before | finishes before =>
    rw [before] at window
    exact window.elim

end Thread

namespace Thread

variable {C : Type} {n : Nat} {plan : Plan n} {view : View n} {thread next : Thread C}
  {effect : Effect n}

/-- A step changes neither the number of a rank nor the links, nor what its ports are bound to. -/
theorem Carries.keeps_wired (carries : Carries plan view thread next effect) :
    next.rank.id = thread.rank.id ∧ next.rank.links = thread.rank.links ∧
      (thread.rank.Wired → next.rank.Wired) := by
  cases carries with
  | acted course =>
    exact ⟨course.keeps_links.1, course.keeps_links.2, course.keeps_wired⟩
  | posted known unsent rank => exact ⟨by rw [rank], by rw [rank], by rw [rank]; exact id⟩
  | lost unknown unsent rank => exact ⟨by rw [rank], by rw [rank], by rw [rank]; exact id⟩
  | took inbox unsent rank => exact ⟨by rw [rank], by rw [rank], by rw [rank]; exact id⟩
  | scheduled inbox unsent rank =>
    rw [rank]
    exact ⟨rfl, rfl, fun wired => ⟨wired.bound, wired.owned⟩⟩
  | kept quiet unsent rank =>
    rw [rank]
    exact ⟨rfl, rfl, fun wired => ⟨wired.bound, wired.owned⟩⟩

end Thread

/-- Whether the threads of a run know the links of a topology. -/
structure Plan.Covers {n : Nat} (plan : Plan n) (links : Array Link) : Prop where
  /-- No link between two ranks takes less time than a window. -/
  crossing : ∀ link ∈ links.toList, link.crossesRanks = true → plan.alone = false ∧
    ∃ lookahead, plan.lookahead = some lookahead ∧ lookahead ≤ link.latency
  /-- Every end of a link is placed on a rank with a thread. -/
  placed : ∀ link ∈ links.toList, ∀ side, ∃ index, plan.ids index = (link.endAt side).rank

namespace System

variable {C : Type} {n : Nat} {plan : Plan n} {links : Array Link} {system next : System C n}
  {index : Fin n}

/-- What ties the ranks of a run to the links of a topology. -/
structure Wired (plan : Plan n) (links : Array Link) (system : System C n) : Prop where
  /-- The ranks have the numbers that are known. -/
  ids : ∀ index, (system.threads index).rank.id = plan.ids index
  /-- All ranks know the links. -/
  links : ∀ index, (system.threads index).rank.links = links
  /-- Their ports fit the links. -/
  wired : ∀ index, (system.threads index).rank.Wired

variable [Component C]

/-- A step leaves the links and ports of all ranks as they are. -/
theorem Wired.step (wired : system.Wired plan links)
    (stepped : system.step plan index = some next) : next.Wired plan links := by
  obtain ⟨thread, effect, move, rfl⟩ := moves_of_step stepped
  obtain ⟨id, same, keeps⟩ := move.carries.keeps_wired
  exact ⟨forall_withThread (P := fun other thread => thread.rank.id = plan.ids other)
      (id.trans (wired.ids index)) wired.ids,
    forall_withThread (P := fun _ thread => thread.rank.links = links)
      (same.trans (wired.links index)) wired.links,
    forall_withThread (P := fun _ thread => thread.rank.Wired) (keeps (wired.wired index))
      wired.wired⟩

end System

namespace Simulation

variable {C : Type} {registry : Registry C} {topology : Topology} {assembly : Assembly C}
  {simulation : Simulation C}

/-- A link between two ranks takes at least as long as the lookahead. -/
theorem lookaheadOf_le {links : List Link} {link : Link} (inside : link ∈ links)
    (crosses : link.crossesRanks = true) :
    ∃ lookahead, lookaheadOf links = some lookahead ∧ lookahead ≤ link.latency := by
  have among : link.latency ∈ (links.filter Link.crossesRanks).map Link.latency :=
    List.mem_map_of_mem (List.mem_filter.mpr ⟨inside, crosses⟩)
  obtain ⟨lookahead, known⟩ := Option.isSome_iff_exists.mp (List.isSome_min?_of_mem among)
  exact ⟨lookahead, known, (List.min?_eq_some_iff.mp known).2 _ among⟩

/-- The threads of a simulation know the links of the topology that it takes over. -/
theorem Realizes.covers (realizes : simulation.Realizes registry topology assembly) :
    simulation.plan.Covers assembly.links := by
  have placed : ∀ link ∈ assembly.links.toList, ∀ side, ∃ index,
      simulation.plan.ids index = (link.endAt side).rank := by
    intro link inside side
    obtain ⟨rank, there, same⟩ := realizes.placed link inside side
    obtain ⟨index, found⟩ := List.get_of_mem there
    exact ⟨index, by rw [← same, ← found]; rfl⟩
  refine ⟨fun link inside crosses => ⟨?_, ?_⟩, placed⟩
  · -- A link that joins two ranks is not that of a single one.
    rw [Plan.alone, decide_eq_false_iff_not]
    intro single
    obtain ⟨a, atA⟩ := placed link inside .a
    obtain ⟨b, atB⟩ := placed link inside .b
    have same : a = b := Fin.ext (by omega)
    rw [Link.crossesRanks, bne_iff_ne] at crosses
    exact crosses (by rw [← same, atA] at atB; exact atB)
  · obtain ⟨lookahead, known, least⟩ := lookaheadOf_le inside crosses
    exact ⟨lookahead, by rw [← known]; exact realizes.lookahead, least⟩

/-- The ranks of a simulation are tied to the links before they start. -/
theorem Realizes.wired_launch (realizes : simulation.Realizes registry topology assembly)
    (filter : Filter) : (simulation.launch filter).Wired simulation.plan assembly.links := by
  refine ⟨fun index => rfl, fun index => ?_, fun index => ?_⟩
  · exact realizes.links (simulation.ranks.get index) (List.get_mem _ _)
  · have wired := realizes.wired (simulation.ranks.get index) (List.get_mem _ _)
    exact ⟨wired.bound, wired.owned⟩

end Simulation

end Rally
