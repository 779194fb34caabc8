import Mathlib.Algebra.GroupWithZero.Nat
import Rally.Proofs.Threads.Convergence
import Rally.Proofs.Threads.EventTimes
/-!
# Windows end before what is sent beyond them

Between two windows all ranks go on from the earliest event that any of them has to come. So no
event is due before the window, nothing is sent before its start, and what is posted to another rank
is due at its end or later. On one rank there are no windows, and nothing is posted.
-/

namespace Rally

/-- Whether ranks tell that somebody takes part in the vote and everybody who does is ready. -/
def AllVoted (statuses : List RankStatus) : Prop :=
  0 < (statuses.map RankStatus.participants).sum ∧
    (statuses.map RankStatus.ready).sum = (statuses.map RankStatus.participants).sum

/-- What ranks decide, and why. -/
inductive Decides (statuses : List RankStatus) : Decision → Prop where
  /-- They give up since one of them has failed. -/
  | aborts (failed : ∃ status ∈ statuses, status.failed = true) : Decides statuses .abort
  /-- They stop since all voters are ready. -/
  | voted (healthy : ∀ status ∈ statuses, status.failed = false) (voted : AllVoted statuses) :
      Decides statuses (.stop .allVotersReady)
  /-- They stop since none of them has an event to come. -/
  | idle (healthy : ∀ status ∈ statuses, status.failed = false) (waits : ¬ AllVoted statuses)
      (none : ∀ status ∈ statuses, status.next = none) : Decides statuses (.stop .eventsExhausted)
  /-- They stop since one of them has reached its limit. -/
  | limited (healthy : ∀ status ∈ statuses, status.failed = false) (waits : ¬ AllVoted statuses)
      (marked : ∃ status ∈ statuses, status.limitHit = true) : Decides statuses (.stop .limitReached)
  /-- They go on at the earliest event to come. -/
  | proceeds (healthy : ∀ status ∈ statuses, status.failed = false) (waits : ¬ AllVoted statuses)
      (free : ∀ status ∈ statuses, status.limitHit = false) {later : Instant}
      (due : ∃ status ∈ statuses, status.next = some later)
      (least : ∀ status ∈ statuses, ∀ next, status.next = some next → later ≤ next) :
      Decides statuses (.proceed later)

/-- Ranks have one of these reasons for what they decide. -/
theorem decides_decision (statuses : List RankStatus) : Decides statuses (decision statuses) := by
  have none_of_not_any {flag : RankStatus → Bool} (none : ¬ statuses.any flag = true) :
      ∀ status ∈ statuses, flag status = false := fun status inside =>
    Bool.not_eq_true _ ▸ fun marked => none (List.any_eq_true.mpr ⟨status, inside, marked⟩)
  simp only [decision, ← List.sum_eq_foldl_nat]
  split
  · next failed => exact .aborts (List.any_eq_true.mp failed)
  · next fine =>
    have healthy := none_of_not_any fine
    split
    · next voted => exact .voted healthy voted
    · next waits =>
      split
      · next none =>
        exact .idle healthy waits (List.filterMap_eq_nil_iff.mp (List.min?_eq_none_iff.mp none))
      · next time first =>
        split
        · next marked => exact .limited healthy waits (List.any_eq_true.mp marked)
        · next free =>
          obtain ⟨inside, least⟩ := List.min?_eq_some_iff.mp first
          exact .proceeds healthy waits (none_of_not_any free) (List.mem_filterMap.mp inside)
            fun status among next same => least next (List.mem_filterMap.mpr ⟨status, among, same⟩)

/-- Where the ranks go on, none has failed, and they go on at the earliest event to come. -/
theorem decision_eq_proceed {statuses : List RankStatus} {later : Instant}
    (decided : decision statuses = .proceed later) :
    (∀ status ∈ statuses, status.failed = false) ∧
      (∃ status ∈ statuses, status.next = some later) ∧
      ∀ status ∈ statuses, ∀ next, status.next = some next → later ≤ next := by
  have decides := decides_decision statuses
  rw [decided] at decides
  cases decides with
  | proceeds healthy _ _ due least => exact ⟨healthy, due, least⟩

/-- Where no rank has failed, all stop for the votes just where all votes are cast. -/
theorem decision_eq_voted_iff {statuses : List RankStatus}
    (healthy : ∀ status ∈ statuses, status.failed = false) :
    decision statuses = .stop .allVotersReady ↔ AllVoted statuses := by
  have decides := decides_decision statuses
  generalize decision statuses = decided at decides
  cases decides with
  | aborts failed =>
    obtain ⟨status, inside, failed⟩ := failed
    rw [healthy status inside] at failed
    cases failed
  | voted _ voted => exact iff_of_true rfl voted
  | idle _ waits _ => exact iff_of_false (by rintro ⟨⟩) waits
  | limited _ waits _ => exact iff_of_false (by rintro ⟨⟩) waits
  | proceeds _ waits => exact iff_of_false (by rintro ⟨⟩) waits

namespace Plan

variable {n : Nat} {plan : Plan n} {links : Array Link}

/-- What is sent to another rank from the start of a window on is due at its end or later. -/
theorem Covers.beyond (covers : plan.Covers links) (start : Instant) :
    Beyond start (plan.bound start) links := by
  intro link inside crosses
  obtain ⟨among, lookahead, known, least⟩ := covers.crossing link inside crosses
  refine ⟨start.saturatingAdd lookahead, ?_,
    Duration.saturatingAdd_le_saturatingAdd (le_refl _) least⟩
  rw [Plan.bound, among, if_neg Bool.false_ne_true, known, Option.map_some]

end Plan

namespace System

variable {C : Type} {n : Nat} {plan : Plan n} {links : Array Link} {system next : System C n}
  {index : Fin n} {ledger : List (List RankStatus)}

/-- The window of a thread starts where the ledger tells. -/
theorem Recorded.start_eq (recorded : system.Recorded ledger) (index : Fin n) :
    (system.threads index).start = startBehind (ledger.take (system.threads index).round) := by
  have minuted := recorded.minuted index
  obtain ⟨rest, whole⟩ := (recorded.reads index).shared
  have enough : (system.threads index).round ≤ (system.threads index).minutes.length := by
    rw [minuted.length]
    exact Nat.le_add_right _ _
  rw [minuted.start, ← whole, List.take_append_of_le_length enough]

/-- What time tells about the threads of a run and what they post, given the ledger. -/
structure Punctual (plan : Plan n) (ledger : List (List RankStatus)) (system : System C n) :
    Prop where
  /-- Every thread is in time. -/
  threads : ∀ index, (system.threads index).OnTime plan
  /-- What was posted in a round is due at the end of its window or later. -/
  posted : ∀ index, ∀ entry ∈ system.posted index, entry.1 ≤ ledger.length ∧
    Thread.IsFor plan (startBehind (ledger.take entry.1)) entry.2
  /-- What a thread has taken was posted in its round. -/
  taken : ∀ index, ∀ parcel ∈ (system.threads index).taken,
    ((system.threads index).round, parcel) ∈ system.posted index
  /-- No rank published a next event that is due before the window. -/
  rising : ∀ round read, ledger[round]? = some read → ∀ status ∈ read, ∀ next,
    status.next = some next → startBehind (ledger.take round) ≤ next

/-- What is posted stays so, and a step posts in the round of its thread. -/
theorem posted_withThread (thread : Thread C) (effect : Effect n) (target : Fin n) :
    ((system.apply index effect).withThread index thread).posted target =
      system.posted target ++
        (effect.parcelsTo target).map (Prod.mk (system.threads index).round) := by
  cases effect with
  | post place parcel =>
    by_cases here : target = place
    · subst here
      simp [withThread, apply, Effect.parcelsTo]
    · simp [withThread, apply, Effect.parcelsTo, here]
  | arrive =>
    rw [Effect.parcelsTo_of_ne fun _ _ => by simp, List.map_nil, List.append_nil]
    simp only [withThread, apply]
    split <;> rfl
  | _ =>
    rw [Effect.parcelsTo_of_ne fun _ _ => by simp, List.map_nil, List.append_nil]
    rfl

/-- What a thread has taken behind a step. -/
theorem taken_step {view : View n} {thread last : Thread C} {effect : Effect n}
    (move : Thread.Moves plan view thread last effect) :
    last.taken = [] ∨ last.round = thread.round ∧ ∃ taken, thread.phase = .draining taken ∧
      ∃ parcel rest, view.inbox = parcel :: rest ∧ last.taken = taken ++ [parcel] := by
  cases move with
  | worked worker phase before course leads => exact Or.inl (leads.taken _)
  | @took taken parcel rest before inbox =>
    exact Or.inr ⟨rfl, taken, before, parcel, rest, inbox, rfl⟩
  | concluded before all decided course gone => exact Or.inl (Thread.taken_of_isOver gone)
  | finished worker before course gone => exact Or.inl (Thread.taken_of_isOver gone)
  | passed => exact Or.inl (by cases ‹Gate› <;> rfl)
  | _ => exact Or.inl rfl

/-- A thread that reads the status of all ranks reads the last entry of the ledger. -/
theorem Recorded.read_eq (recorded : system.Recorded ledger) (lockstep : system.Lockstep)
    {read : List RankStatus} (reading : (system.threads index).phase = .reading read)
    (all : n ≤ read.length) : read = List.ofFn system.board ∧
      ledger[(system.threads index).round]? = some read ∧
      system.board index = (system.threads index).worker.status := by
  have whole := (recorded.reads index).complete reading all
  have length : (system.threads index).minutes.length = (system.threads index).round := by
    rw [(recorded.minuted index).length, reading]
    rfl
  refine ⟨whole, ?_, (recorded.reads index).published (by rw [reading]; trivial)⟩
  rw [recorded.ledger_eq lockstep reading, ← length, List.getElem?_concat_length, whole]

/-- What a thread finds in a decision to go on. -/
theorem Punctual.goes (punctual : system.Punctual plan ledger) (recorded : system.Recorded ledger)
    (lockstep : system.Lockstep) {read : List RankStatus} {later : Instant}
    (reading : (system.threads index).phase = .reading read) (all : n ≤ read.length)
    (decided : decision read = .proceed later) :
    (system.threads index).worker.failure = none ∧ (system.threads index).start ≤ later ∧
      ∀ event ∈ (system.threads index).rank.pending.inOrder, later ≤ event.time := by
  obtain ⟨whole, entry, shown⟩ := recorded.read_eq lockstep reading all
  obtain ⟨healthy, ⟨first, among, next⟩, least⟩ := decision_eq_proceed decided
  have own : (system.threads index).worker.status ∈ read := by
    rw [whole, ← shown]
    exact List.mem_ofFn.mpr ⟨index, rfl⟩
  refine ⟨?_, ?_, fun event inside => ?_⟩
  · have failed := healthy _ own
    rw [Worker.status] at failed
    exact Option.isNone_iff_eq_none.mp (Option.isSome_eq_false_iff.mp failed)
  · rw [recorded.start_eq index]
    exact punctual.rising _ read entry first among later next
  · have sound := (punctual.threads index).timed.sound
    cases found : (system.threads index).rank.pending.nextTime? with
    | none =>
      rw [EventSet.nextTime?_eq, Option.map_eq_none_iff, EventSet.pop?_eq_none_iff] at found
      rw [found] at inside
      cases inside
    | some time => exact le_trans (least _ own time found) (sound.nextTime?_le found event inside)

/-- What holds of time in every state of a run. -/
structure Causal (plan : Plan n) (system : System C n) : Prop where
  /-- The deeds of each rank are in the order of time. -/
  chronicle : ∀ index,
    Chronicle (system.threads index).history (system.threads index).rank.pending.last
  /-- Events are dispatched before the end of the window alone. -/
  early : ∀ index, ∀ event ∈ (system.threads index).history.filterMap Deed.event?, ∀ bound,
    plan.bound (system.threads index).start = some bound → event.time < bound
  /-- What is exchanged behind a window is due at its end or later. -/
  posted : ∀ index other, ∀ entry ∈ system.posted other,
    entry.1 = (system.threads index).round →
      Thread.IsFor plan (system.threads index).start entry.2

variable [Component C]

/-- Every thread stays in time in a step. -/
theorem Punctual.threads_step (punctual : system.Punctual plan ledger)
    (recorded : system.Recorded ledger) (lockstep : system.Lockstep)
    (wired : system.Wired plan links) (covers : plan.Covers links)
    (stepped : system.step plan index = some next) (other : Fin n) :
    (next.threads other).OnTime plan := by
  obtain ⟨⟨thread, effect⟩, moved, rfl⟩ := Option.map_eq_some_iff.mp stepped
  by_cases here : other = index
  · subst here
    rw [threads_withThread_self]
    refine (punctual.threads other).step (wired.wired other) ?_ moved ?_ ?_
    · rw [wired.links other]
      exact covers.beyond _
    · intro taken draining parcel inside
      have held : parcel ∈ (system.threads other).taken := by
        rw [Thread.taken, draining]
        exact inside
      rw [recorded.start_eq other]
      exact (punctual.posted other _ (punctual.taken other parcel held)).2
    · exact fun read later reading all decided =>
        punctual.goes recorded lockstep reading all decided
  · rw [threads_withThread_of_ne here]
    exact punctual.threads other

/-- What is posted in a step is due at the end of the window or later. -/
theorem Punctual.posted_step (punctual : system.Punctual plan ledger)
    (recorded : system.Recorded ledger) (lockstep : system.Lockstep)
    (stepped : system.step plan index = some next) (more : List (List RankStatus)) :
    ∀ other, ∀ entry ∈ next.posted other, entry.1 ≤ (ledger ++ more).length ∧
      Thread.IsFor plan (startBehind ((ledger ++ more).take entry.1)) entry.2 := by
  obtain ⟨thread, effect, move, rfl⟩ := moves_of_step stepped
  -- Neither the number of rounds nor a start is changed by entries that come behind.
  have still : ∀ entry : Nat × Parcel, entry.1 ≤ ledger.length ∧
      Thread.IsFor plan (startBehind (ledger.take entry.1)) entry.2 →
        entry.1 ≤ (ledger ++ more).length ∧
          Thread.IsFor plan (startBehind ((ledger ++ more).take entry.1)) entry.2 := by
    rintro entry ⟨inside, due⟩
    refine ⟨by rw [List.length_append]; omega, ?_⟩
    rw [List.take_append_of_le_length inside]
    exact due
  intro other entry inside
  rw [posted_withThread, List.mem_append] at inside
  rcases inside with old | new
  · exact still entry (punctual.posted other entry old)
  · obtain ⟨parcel, posts, rfl⟩ := List.mem_map.mp new
    refine still _ ?_
    cases move with
    | @posted first rest place before known =>
      have inside : parcel ∈ first :: rest := by
        simp only [Effect.parcelsTo] at posts
        split at posts
        · rw [List.mem_singleton.mp posts]
          exact List.mem_cons_self
        · cases posts
      have round : 2 * (system.threads index).round = system.generation := by
        rw [← (lockstep.synchronous index).epoch_eq (by rw [before]; exact id), Thread.epoch,
          before]
        rfl
      refine ⟨by rw [recorded.count]; omega, ?_⟩
      rw [← recorded.start_eq index]
      exact (punctual.threads index).posting _ before parcel inside
    | _ => cases posts

/-- What a thread has taken behind a step was posted in its round. -/
theorem Punctual.taken_step (punctual : system.Punctual plan ledger) (tracked : system.Tracked)
    (lockstep : system.Lockstep) (stepped : system.step plan index = some next) :
    ∀ other, ∀ parcel ∈ (next.threads other).taken,
      ((next.threads other).round, parcel) ∈ next.posted other := by
  obtain ⟨thread, effect, move, rfl⟩ := moves_of_step stepped
  intro other parcel inside
  rw [posted_withThread]
  refine List.mem_append_left _ ?_
  by_cases here : other = index
  · subst here
    rw [threads_withThread_self] at inside ⊢
    rcases System.taken_step move with none | ⟨round, taken, draining, first, rest, inbox, holds⟩
    · rw [none] at inside
      cases inside
    · have epoch : 2 * (system.threads other).round + 1 = system.generation := by
        rw [← (lockstep.synchronous other).epoch_eq (by rw [draining]; exact id), Thread.epoch,
          draining]
        rfl
      have half : system.generation / 2 = (system.threads other).round := by omega
      rw [round]
      rw [holds, List.mem_append, List.mem_singleton] at inside
      rcases inside with old | rfl
      · refine punctual.taken other parcel ?_
        rw [Thread.taken, draining]
        exact old
      · rw [tracked.posted other, half]
        refine List.mem_append_right _ (List.mem_map_of_mem ?_)
        rw [show system.channels other = parcel :: rest from inbox]
        exact List.mem_cons_self
  · rw [threads_withThread_of_ne here] at inside ⊢
    exact punctual.taken other parcel inside

/-- Where the ledger grows, what it records was published by ranks in the same window. -/
theorem Punctual.rising_step (punctual : system.Punctual plan ledger)
    (recorded : system.Recorded ledger) (lockstep : system.Lockstep) (among : plan.alone = false)
    (stepped : system.step plan index = some next) {more : List (List RankStatus)}
    (records : next.Recorded (ledger ++ more)) (threads : ∀ other, (next.threads other).OnTime plan) :
    ∀ round read, (ledger ++ more)[round]? = some read → ∀ status ∈ read, ∀ time,
      status.next = some time → startBehind ((ledger ++ more).take round) ≤ time := by
  intro round read entry status inside time shown
  by_cases old : round < ledger.length
  · rw [List.getElem?_append_left old] at entry
    rw [List.take_append_of_le_length (Nat.le_of_lt old)]
    exact punctual.rising round read entry status inside time shown
  · obtain ⟨bound, rfl⟩ := List.getElem?_eq_some_iff.mp entry
    have count := recorded.count
    have grown := records.count
    obtain ⟨thread, effect, move, rfl⟩ := moves_of_step stepped
    have opens : ((system.apply index effect).withThread index thread).generation ≠
        system.generation := by
      intro same
      rw [same] at grown
      omega
    obtain ⟨opened, -, waits⟩ := lockstep.opens among move opens
    have odd : system.generation % 2 = 1 := by
      rw [opened] at grown
      omega
    have whole : round + 1 = (ledger ++ more).length := by
      rw [opened] at grown
      omega
    -- The new entry is what is published, and all threads wait to read it.
    have last := records.last (by rw [opened]; omega) (by rw [opened]; omega)
    rw [List.getLast?_eq_getElem?, ← whole, Nat.add_sub_cancel, List.getElem?_eq_getElem bound,
      Option.some.injEq] at last
    rw [last] at inside
    obtain ⟨place, same⟩ := List.mem_ofFn.mp inside
    have sync := lockstep.synchronous_step among move place
    obtain ⟨gate, waiting⟩ := Thread.waitsAt_iff.mp (waits place)
    have stamped := sync.stamped gate _ waiting
    have decides : gate = .decision := by
      cases gate with
      | decision => rfl
      | exchange =>
        rw [Thread.epoch, waiting] at stamped
        simp only [Phase.lag] at stamped
        omega
    subst decides
    have published := (records.reads place).published (by rw [waiting]; trivial)
    rw [Thread.epoch, waiting] at stamped
    simp only [Phase.lag] at stamped
    have here : (((system.apply index effect).withThread index thread).threads place).round =
        round := by omega
    have next : (((system.apply index effect).withThread index
        thread).threads place).rank.pending.nextTime? = some time := by
      rw [← shown, ← same, published]
      rfl
    rw [← here, ← records.start_eq place]
    rw [EventSet.nextTime?_eq] at next
    obtain ⟨⟨event, rest⟩, taken, rfl⟩ := Option.map_eq_some_iff.mp next
    obtain ⟨-, ahead, -, -⟩ := (threads place).timed.take taken
    exact ahead

/-- A step keeps all threads and all parcels in time. -/
theorem Punctual.step (punctual : system.Punctual plan ledger) (recorded : system.Recorded ledger)
    (lockstep : system.Lockstep) (tracked : system.Tracked) (wired : system.Wired plan links)
    (covers : plan.Covers links) (among : plan.alone = false)
    (stepped : system.step plan index = some next) {more : List (List RankStatus)}
    (records : next.Recorded (ledger ++ more)) : next.Punctual plan (ledger ++ more) := by
  have threads := punctual.threads_step recorded lockstep wired covers stepped
  exact ⟨threads, punctual.posted_step recorded lockstep stepped more,
    punctual.taken_step tracked lockstep stepped,
    punctual.rising_step recorded lockstep among stepped records threads⟩

/-- The threads of a regular run are in time. -/
structure Timely (plan : Plan n) (links : Array Link) (system : System C n) : Prop where
  /-- The run is regular. -/
  regular : system.Regular plan
  /-- Its ranks are tied to the links. -/
  wired : system.Wired plan links
  /-- Its threads and parcels are in time. -/
  punctual : ∃ ledger, system.Recorded ledger ∧ system.Punctual plan ledger

/-- A step keeps a regular run in time. -/
theorem Timely.step (timely : system.Timely plan links) (covers : plan.Covers links)
    (among : plan.alone = false) (distinct : Function.Injective plan.ids)
    (stepped : system.step plan index = some next) : next.Timely plan links := by
  obtain ⟨ledger, recorded, punctual⟩ := timely.punctual
  have lockstep := timely.regular.lockstep
  obtain ⟨more, records⟩ := recorded.step lockstep among stepped
  exact ⟨timely.regular.step among distinct stepped, timely.wired.step stepped, _, records,
    punctual.step recorded lockstep timely.regular.tracked timely.wired covers among stepped
      records⟩

/-- A single thread that is in time, with nothing posted. -/
structure Solo (plan : Plan n) (links : Array Link) (system : System C n) : Prop where
  /-- Its rank is tied to the links. -/
  wired : system.Wired plan links
  /-- It is in time. -/
  threads : ∀ index, (system.threads index).OnTime plan
  /-- It has no round to take part in. -/
  phases : ∀ index, (system.threads index).phase.inWindow ∨ (system.threads index).phase.isOver
  /-- It posts nothing. -/
  posted : ∀ index, system.posted index = []

/-- A step of a single thread keeps it in time. -/
theorem Solo.step (solo : system.Solo plan links) (covers : plan.Covers links)
    (alone : plan.alone = true) (stepped : system.step plan index = some next) :
    next.Solo plan links := by
  have phases := solo.phases index
  have bound : plan.bound (system.threads index).start = none := if_pos alone
  have wired := solo.wired.step stepped
  obtain ⟨⟨thread, effect⟩, moved, rfl⟩ := Option.map_eq_some_iff.mp stepped
  have onTime : thread.OnTime plan := by
    refine (solo.threads index).step (solo.wired.wired index) ?_ moved ?_ ?_
    · rw [solo.wired.links index]
      exact covers.beyond _
    · intro taken draining
      rw [draining] at phases
      exact phases.elim False.elim False.elim
    · intro read later reading
      rw [reading] at phases
      exact phases.elim False.elim False.elim
  have outcome : (thread.phase.inWindow ∨ thread.phase.isOver) ∧
      ∀ place parcel, effect ≠ .post place parcel := by
    cases Thread.moves_of_step moved with
    | worked worker phase before course leads =>
      refine ⟨?_, fun _ _ => by simp⟩
      rcases leads.target with inside | ⟨among, -⟩ | ⟨-, gone⟩
      · exact Or.inl inside
      · rw [alone] at among
        cases among
      · exact Or.inr gone
    | stopped limitHit before among =>
      rw [alone] at among
      cases among
    | finished worker before course gone => exact ⟨Or.inr gone, fun _ _ => by simp⟩
    | concluded before | posted before | postedAll before | lost before | arrived before
    | passed before | took before | scheduled before | published before | read before
    | proceeded before =>
      rw [before] at phases
      exact phases.elim False.elim False.elim
  refine ⟨wired, forall_withThread (P := fun _ thread => thread.OnTime plan) onTime solo.threads,
    forall_withThread (P := fun _ thread => thread.phase.inWindow ∨ thread.phase.isOver) outcome.1
      solo.phases, fun other => ?_⟩
  rw [posted_withThread, solo.posted, Effect.parcelsTo_of_ne outcome.2]
  rfl

end System

namespace Simulation

variable {C : Type} {registry : Registry C} {options : Options} {topology : Topology}
  {clock : Instant} {journal : Journal} {simulation : Simulation C}

/-- The threads of a simulation start in time. -/
theorem onTime_launch
    (built : (build registry options topology clock journal).2 = .ok simulation)
    (filter : Filter) (index : Fin simulation.ranks.length) :
    ((simulation.launch filter).threads index).OnTime simulation.plan := by
  have fresh : Fresh (simulation.ranks.get index) := fresh_of_build built (List.get_mem _ _)
  have pending : ((simulation.launch filter).threads index).rank.pending = {} := fresh.pending
  have outgoing : ((simulation.launch filter).threads index).rank.outgoing = [] := fresh.outgoing
  refine ⟨⟨?_, ?_, ?_, ?_⟩, ?_, ?_, ?_, ?_, ?_, fun _ _ _ => outgoing⟩
  · rw [pending]
    exact EventSet.sound_empty
  · rw [pending]
    rfl
  · rw [pending, EventSet.inOrder_empty]
    exact fun event inside => (List.not_mem_nil inside).elim
  · rw [outgoing]
    exact fun parcel inside => (List.not_mem_nil inside).elim
  · exact ⟨fun _ _ inside => (List.not_mem_nil inside).elim,
      fun _ _ inside => (List.not_mem_nil inside).elim,
      fun _ _ inside => (List.not_mem_nil inside).elim, .nil,
      fun _ inside => (List.not_mem_nil inside).elim⟩
  · exact fun event inside => (List.not_mem_nil inside).elim
  · rw [pending]
    exact fun bound _ => Duration.zero_le bound
  · exact fun rest posting => by cases posting
  · exact fun _ => ⟨rfl, rfl⟩

/-- Several threads of a simulation start in time. -/
theorem timely_launch
    (built : (build registry options topology clock journal).2 = .ok simulation)
    (several : 2 ≤ simulation.ranks.length) (filter : Filter) {assembly : Assembly C}
    (realizes : simulation.Realizes registry topology assembly) :
    (simulation.launch filter).Timely simulation.plan assembly.links := by
  refine ⟨regular_launch built several filter, realizes.wired_launch filter, [], ?_, ?_⟩
  · exact System.recorded_of_starting rfl (fun index => trivial) fun index => ⟨rfl, rfl, rfl⟩
  · exact ⟨onTime_launch built filter, fun _ _ inside => (List.not_mem_nil inside).elim,
      fun _ _ inside => (List.not_mem_nil inside).elim, fun round read entry => by cases entry⟩

/-- A single thread of a simulation starts in time. -/
theorem solo_launch
    (built : (build registry options topology clock journal).2 = .ok simulation)
    (filter : Filter) {assembly : Assembly C}
    (realizes : simulation.Realizes registry topology assembly) :
    (simulation.launch filter).Solo simulation.plan assembly.links :=
  ⟨realizes.wired_launch filter, onTime_launch built filter, fun _ => Or.inl trivial,
    fun _ => rfl⟩

variable [Component C]

/-- In every run on several ranks the threads are in time. -/
theorem timely_of_exec
    (built : (build registry options topology clock journal).2 = .ok simulation)
    (several : 2 ≤ simulation.ranks.length) {assembly : Assembly C}
    (realizes : simulation.Realizes registry topology assembly) {filter : Filter}
    {schedule : List (Fin simulation.ranks.length)} {system : System C simulation.ranks.length}
    (reached : (simulation.launch filter).exec simulation.plan schedule = some system) :
    system.Timely simulation.plan assembly.links :=
  System.exec_preserves (fun _ _ _ timely stepped =>
    timely.step realizes.covers (alone_plan several) (ids_injective built) stepped) reached
    (timely_launch built several filter realizes)

/-- In every run on a single rank its thread is. -/
theorem solo_of_exec
    (built : (build registry options topology clock journal).2 = .ok simulation)
    (alone : simulation.plan.alone = true) {assembly : Assembly C}
    (realizes : simulation.Realizes registry topology assembly) {filter : Filter}
    {schedule : List (Fin simulation.ranks.length)} {system : System C simulation.ranks.length}
    (reached : (simulation.launch filter).exec simulation.plan schedule = some system) :
    system.Solo simulation.plan assembly.links :=
  System.exec_preserves (fun _ _ _ solo stepped => solo.step realizes.covers alone stepped) reached
    (solo_launch built filter realizes)

/-- In every run of a simulation that was built, on one rank or on several, no event is scheduled in
the past: events are dispatched in the order of time within their windows, what is exchanged is due
behind them, and the hooks read the time of what they handle. -/
theorem causal_of_exec
    (built : (build registry options topology clock journal).2 = .ok simulation)
    {filter : Filter} {schedule : List (Fin simulation.ranks.length)}
    {system : System C simulation.ranks.length}
    (reached : (simulation.launch filter).exec simulation.plan schedule = some system) :
    system.Causal simulation.plan := by
  obtain ⟨assembly, realizes⟩ := realizes_of_build built
  have covers := realizes.covers
  cases alone : simulation.plan.alone with
  | true =>
    have solo : system.Solo simulation.plan assembly.links :=
      System.exec_preserves (fun _ _ _ solo stepped => solo.step covers alone stepped) reached
        (solo_launch built filter realizes)
    refine ⟨fun index => (solo.threads index).chronicle, fun index => (solo.threads index).early,
      fun index other entry inside => ?_⟩
    rw [solo.posted other] at inside
    cases inside
  | false =>
    have several : 2 ≤ simulation.ranks.length := by
      rw [Plan.alone, decide_eq_false_iff_not] at alone
      omega
    have timely : system.Timely simulation.plan assembly.links :=
      System.exec_preserves
        (fun _ _ _ timely stepped => timely.step covers alone (ids_injective built) stepped) reached
        (timely_launch built several filter realizes)
    obtain ⟨ledger, recorded, punctual⟩ := timely.punctual
    refine ⟨fun index => (punctual.threads index).chronicle,
      fun index => (punctual.threads index).early, fun index other entry inside same => ?_⟩
    rw [recorded.start_eq index, ← same]
    exact (punctual.posted other entry inside).2

/-- Time in a whole run of two players on a rank each. -/
theorem causal_of_exec_relayChain :
    ∃ (simulation : Simulation Player) (schedule : List (Fin simulation.ranks.length))
      (system : System Player simulation.ranks.length),
      (build (Registry.builtin id) {} (.relayChain [(.initiator, 0), (.responder, 1)] 1)
        Instant.zero ⟨Filter.off, #[]⟩).2 = .ok simulation ∧
      (simulation.launch Filter.off).exec simulation.plan schedule = some system ∧
      system.Complete ∧ system.Causal simulation.plan := by
  obtain ⟨simulation, built, two, runs⟩ := built_relayChain
  obtain ⟨system, count, ⟨schedule, -, reached⟩, ends⟩ := reaches_ends built two.ge runs
  exact ⟨simulation, schedule, system, built, reached, ends.complete, causal_of_exec built reached⟩

end Simulation

end Rally
