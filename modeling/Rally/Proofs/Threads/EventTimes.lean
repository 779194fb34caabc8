import Rally.Player
import Rally.Proofs.Threads.Launch
import Rally.Proofs.Threads.RankClock
import Rally.Topology.Readymade
/-!
# No event in the past

In every run, on one rank or on several, no event is scheduled before the last one taken. On each
rank events are dispatched in the order of their times, and the hooks read these times. On several
ranks, events are dispatched before the end of the window alone, and what ranks post to each other
is due at that end or later.
-/

namespace Rally

/-- What the deeds of a rank tell about time. -/
structure Chronicle (deeds : List Deed) (last : Instant) : Prop where
  /-- A setup hook reads the time of the start. -/
  started : ∀ id now, .started id now ∈ deeds → now = Instant.zero
  /-- No event is scheduled before the last one taken. -/
  scheduled : ∀ time before, .scheduled time before ∈ deeds → before ≤ time
  /-- The receiver of an event reads the time at which it is due. -/
  handled : ∀ event arrival, .dispatched event arrival ∈ deeds → arrival.now = event.time
  /-- Events are dispatched in the order of their times. -/
  ascending : (deeds.filterMap Deed.event?).Pairwise fun x y => x.time ≤ y.time
  /-- None of them is due behind the last one taken. -/
  passed : ∀ event ∈ deeds.filterMap Deed.event?, event.time ≤ last

namespace Chronicle

variable {deeds more : List Deed} {last : Instant}

/-- Deeds that dispatch nothing follow others. -/
theorem append (chronicle : Chronicle deeds last) (still : more.filterMap Deed.event? = [])
    (started : ∀ id now, .started id now ∈ more → now = Instant.zero)
    (scheduled : ∀ time before, .scheduled time before ∈ more → before ≤ time) :
    Chronicle (deeds ++ more) last := by
  have events : (deeds ++ more).filterMap Deed.event? = deeds.filterMap Deed.event? := by
    rw [List.filterMap_append, still, List.append_nil]
  refine ⟨fun id now inside => ?_, fun time before inside => ?_, fun event arrival inside => ?_,
    by rw [events]; exact chronicle.ascending, by rw [events]; exact chronicle.passed⟩
  · rcases List.mem_append.mp inside with old | new
    · exact chronicle.started id now old
    · exact started id now new
  · rcases List.mem_append.mp inside with old | new
    · exact chronicle.scheduled time before old
    · exact scheduled time before new
  · rcases List.mem_append.mp inside with old | new
    · exact chronicle.handled event arrival old
    · have there : event ∈ more.filterMap Deed.event? := List.mem_filterMap.mpr ⟨_, new, rfl⟩
      rw [still] at there
      cases there

/-- An event that is not due before the last one taken follows others. -/
theorem dispatch (chronicle : Chronicle deeds last) {event : Scheduled Delivery} {arrival : Arrival}
    (later : last ≤ event.time) (reads : arrival.now = event.time) :
    Chronicle (deeds ++ [.dispatched event arrival]) event.time := by
  have events : (deeds ++ [Deed.dispatched event arrival]).filterMap Deed.event? =
      deeds.filterMap Deed.event? ++ [event] := List.filterMap_append
  have passed : ∀ other ∈ deeds.filterMap Deed.event?, other.time ≤ event.time :=
    fun other inside => le_trans (chronicle.passed other inside) later
  refine ⟨fun id now inside => ?_, fun time before inside => ?_, fun other reading inside => ?_,
    ?_, ?_⟩
  · rw [List.mem_append, List.mem_singleton] at inside
    exact chronicle.started id now (inside.resolve_right (by rintro ⟨⟩))
  · rw [List.mem_append, List.mem_singleton] at inside
    exact chronicle.scheduled time before (inside.resolve_right (by rintro ⟨⟩))
  · rw [List.mem_append, List.mem_singleton] at inside
    rcases inside with old | same
    · exact chronicle.handled other reading old
    · cases same
      exact reads
  · rw [events, List.pairwise_append]
    refine ⟨chronicle.ascending, List.pairwise_singleton _ _, fun other inside final same => ?_⟩
    rw [List.mem_singleton] at same
    subst same
    exact passed other inside
  · rw [events]
    intro other inside
    rw [List.mem_append, List.mem_singleton] at inside
    rcases inside with old | rfl
    · exact passed other old
    · exact le_refl _

/-- A chronicle up to an instant is one up to any later one. -/
theorem later (chronicle : Chronicle deeds last) {more : Instant} (later : last ≤ more) :
    Chronicle deeds more :=
  ⟨chronicle.started, chronicle.scheduled, chronicle.handled, chronicle.ascending,
    fun event inside => le_trans (chronicle.passed event inside) later⟩

end Chronicle

namespace Plan

variable {n : Nat} {plan : Plan n}

/-- A window does not end before it starts. -/
theorem le_of_bound {start bound : Instant} (ends : plan.bound start = some bound) :
    start ≤ bound := by
  rw [Plan.bound] at ends
  split at ends
  · cases ends
  · obtain ⟨lookahead, -, rfl⟩ := Option.map_eq_some_iff.mp ends
    exact Duration.le_saturatingAdd _ _

/-- A window that starts later does not end earlier. -/
theorem bound_mono {start later bound : Instant} (after : start ≤ later)
    (ends : plan.bound later = some bound) :
    ∃ former, plan.bound start = some former ∧ former ≤ bound := by
  rw [Plan.bound] at ends ⊢
  split at ends
  · cases ends
  · next among =>
    obtain ⟨lookahead, known, rfl⟩ := Option.map_eq_some_iff.mp ends
    rw [if_neg among, known]
    exact ⟨_, rfl, Duration.saturatingAdd_le_saturatingAdd after (le_refl _)⟩

end Plan

namespace Thread

variable {C : Type} {n : Nat} {plan : Plan n} {view : View n} {thread next : Thread C}
  {effect : Effect n}

/-- Whether a parcel is due at the end of the window of a thread or later. -/
def IsFor (plan : Plan n) (start : Instant) (parcel : Parcel) : Prop :=
  ∃ bound, plan.bound start = some bound ∧ bound ≤ parcel.time

/-- What time tells about a thread. -/
structure OnTime (plan : Plan n) (thread : Thread C) : Prop where
  /-- The clock of its rank is in order. -/
  timed : thread.rank.Timed thread.start (plan.bound thread.start)
  /-- So are its deeds. -/
  chronicle : Chronicle thread.history thread.rank.pending.last
  /-- Events are dispatched before the end of the window alone. -/
  early : ∀ event ∈ thread.history.filterMap Deed.event?, ∀ bound,
    plan.bound thread.start = some bound → event.time < bound
  /-- The last event taken is not due behind the end of the window. -/
  reached : ∀ bound, plan.bound thread.start = some bound → thread.rank.pending.last ≤ bound
  /-- Parcels that are to be posted are due at the end of the window or later. -/
  posting : ∀ rest, thread.phase = .posting rest →
    ∀ parcel ∈ rest, IsFor plan thread.start parcel
  /-- The time is that of the start until all setup hooks are called. -/
  began : thread.phase.isStarting → thread.rank.now = Instant.zero ∧ thread.start = Instant.zero
  /-- Behind its window a thread has posted all parcels, unless its rank failed. -/
  emptied : ¬ thread.phase.inWindow → ¬ thread.phase.isOver → thread.worker.failure = none →
    thread.rank.outgoing = []

/-- A thread whose rank takes and dispatches nothing stays in time. -/
theorem OnTime.of_same (onTime : thread.OnTime plan) (start : next.start = thread.start)
    (history : next.history = thread.history) (pending : next.rank.pending = thread.rank.pending)
    (now : next.rank.now = thread.rank.now)
    (laid : ∀ parcel ∈ next.rank.outgoing, parcel ∈ thread.rank.outgoing)
    (posting : ∀ rest, next.phase = .posting rest →
      ∀ parcel ∈ rest, IsFor plan thread.start parcel)
    (began : ¬ next.phase.isStarting)
    (emptied : ¬ next.phase.inWindow → ¬ next.phase.isOver → next.worker.failure = none →
      next.rank.outgoing = []) : next.OnTime plan := by
  refine ⟨?_, ?_, ?_, ?_, ?_, fun starting => absurd starting began, emptied⟩
  · rw [start]
    exact ⟨by rw [pending]; exact onTime.timed.sound,
      by rw [now, pending]; exact onTime.timed.clock,
      by rw [pending]; exact onTime.timed.ahead,
      fun parcel inside => onTime.timed.laid parcel (laid parcel inside)⟩
  · rw [history, pending]
    exact onTime.chronicle
  · rw [history, start]
    exact onTime.early
  · rw [pending, start]
    exact onTime.reached
  · rw [start]
    exact posting

/-- A thread that has left its rounds stays in time. -/
theorem OnTime.of_over (onTime : thread.OnTime plan) (gone : next.phase.isOver)
    (start : next.start = thread.start) (history : next.history = thread.history)
    (pending : next.rank.pending = thread.rank.pending) (now : next.rank.now = thread.rank.now)
    (outgoing : next.rank.outgoing = thread.rank.outgoing) : next.OnTime plan := by
  refine onTime.of_same start history pending now (fun parcel inside => by rwa [outgoing] at inside)
    (fun rest posting => ?_) (fun starting => ?_) fun _ going => absurd gone going
  · rw [posting] at gone
    exact gone.elim
  · cases phase : next.phase with
    | starting rest =>
      rw [phase] at gone
      exact gone
    | _ =>
      rw [phase] at starting
      exact starting

/-- Behind a quiet course a rank has the same events, parcels and time. -/
theorem quiet_of_course {first last : Rank C}
    (course : Rank.Course (fun _ => False) first [] last) :
    last.pending = first.pending ∧ last.now = first.now ∧ last.outgoing = first.outgoing := by
  rw [course.quiet rfl]
  exact ⟨rfl, rfl, rfl⟩

/-- A thread in a round that goes on to another phase of it stays in time. -/
theorem OnTime.goTo (onTime : thread.OnTime plan) {phase later : Phase}
    (before : thread.phase = phase) (round : ¬ phase.inWindow ∧ ¬ phase.isOver)
    (posting : ∀ rest, later = .posting rest → ∀ parcel ∈ rest, IsFor plan thread.start parcel)
    (began : ¬ later.isStarting) : (thread.goTo later).OnTime plan :=
  onTime.of_same rfl rfl rfl rfl (fun _ inside => inside) posting began fun _ _ =>
    onTime.emptied (by rw [before]; exact round.1) (by rw [before]; exact round.2)

/-- A thread that schedules parcels stays in time where they are due behind its window. -/
theorem OnTime.schedule (onTime : thread.OnTime plan) {taken : List Parcel}
    (before : thread.phase = .draining taken)
    (arrives : ∀ parcel ∈ taken, IsFor plan thread.start parcel) :
    (thread.schedule taken).OnTime plan := by
  have due : ∀ parcel ∈ taken,
      thread.rank.pending.last ≤ parcel.time ∧ thread.start ≤ parcel.time := by
    intro parcel inside
    obtain ⟨bound, ends, behind⟩ := arrives parcel inside
    exact ⟨le_trans (onTime.reached bound ends) behind, le_trans (Plan.le_of_bound ends) behind⟩
  obtain ⟨timed, last, scheduled⟩ := onTime.timed.receive due
  obtain ⟨still, unstarted⟩ :=
    Rank.addDeeds_still (taken.mergeSort Parcel.le) thread.rank.pending
  refine ⟨timed, ?_, ?_, ?_, (fun rest same => by cases same), fun starting => starting.elim,
    fun _ _ => onTime.emptied (by rw [before]; exact id) (by rw [before]; exact id)⟩
  · have chronicle := onTime.chronicle.append still
      (fun id now inside => (unstarted id now inside).elim) scheduled
    rw [← last] at chronicle
    exact chronicle
  · change ∀ event ∈ (thread.history ++ thread.rank.receiveDeeds taken).filterMap Deed.event?, _
    rw [List.filterMap_append, Rank.receiveDeeds, still, List.append_nil]
    exact onTime.early
  · intro bound ends
    exact le_trans (le_of_eq last) (onTime.reached bound ends)

/-- A thread that goes on to a later window stays in time where no event is due before. -/
theorem OnTime.proceeds (onTime : thread.OnTime plan) {read : List RankStatus} {later : Instant}
    (before : thread.phase = .reading read) (healthy : thread.worker.failure = none)
    (after : thread.start ≤ later)
    (ahead : ∀ event ∈ thread.rank.pending.inOrder, later ≤ event.time) :
    OnTime plan
      { thread with
        start := later
        round := thread.round + 1
        phase := .opening
        minutes := thread.minutes ++ [read] } := by
  have empty : thread.rank.outgoing = [] :=
    onTime.emptied (by rw [before]; exact id) (by rw [before]; exact id) healthy
  refine ⟨⟨onTime.timed.sound, onTime.timed.clock, ahead, fun parcel inside => ?_⟩,
    onTime.chronicle, fun event inside bound ends => ?_, fun bound ends => ?_,
    (fun rest same => by cases same), fun starting => starting.elim,
    fun outside => absurd trivial outside⟩
  · change parcel ∈ thread.rank.outgoing at inside
    rw [empty] at inside
    cases inside
  · obtain ⟨former, ended, before⟩ := Plan.bound_mono after ends
    exact lt_of_lt_of_le (onTime.early event inside former ended) before
  · obtain ⟨former, ended, before⟩ := Plan.bound_mono after ends
    exact le_trans (onTime.reached former ended) before

section Hooks

variable [Component C]

/-- What a rank does within a window is in time. -/
theorem Does.onTime {deeds : List Deed} {rank : Rank C} (does : thread.Does plan deeds rank)
    (onTime : thread.OnTime plan) (wired : thread.rank.Wired)
    (beyond : Beyond thread.start (plan.bound thread.start) thread.rank.links) :
    rank.Timed thread.start (plan.bound thread.start) ∧
      Chronicle (thread.history ++ deeds) rank.pending.last ∧
      (∀ event ∈ (thread.history ++ deeds).filterMap Deed.event?, ∀ bound,
        plan.bound thread.start = some bound → event.time < bound) ∧
      (∀ bound, plan.bound thread.start = some bound → rank.pending.last ≤ bound) ∧
      (thread.phase.isStarting → rank.now = Instant.zero) := by
  cases does with
  | noted journal =>
    rw [List.append_nil]
    exact ⟨⟨onTime.timed.sound, onTime.timed.clock, onTime.timed.ahead, onTime.timed.laid⟩,
      onTime.chronicle, onTime.early, onTime.reached, fun starting => (onTime.began starting).1⟩
  | @started id rest before =>
    obtain ⟨now, start⟩ := onTime.began (by rw [before]; trivial)
    have course : Rank.Course (fun _ => False) thread.rank _ _ :=
      Rank.setup_course id thread.rank
    obtain ⟨timed, clock, scheduled⟩ := onTime.timed.course course wired beyond
      (by rw [start]; exact Duration.zero_le _)
    obtain ⟨-, still, started⟩ := course.deeds_still
    have same : (thread.rank.setup id).1.pending.last = thread.rank.pending.last := by
      rw [← timed.clock, clock, onTime.timed.clock]
    rw [same]
    refine ⟨timed, onTime.chronicle.append still ?_ scheduled, ?_, onTime.reached,
      fun _ => clock.trans now⟩
    · intro other time inside
      rw [started other time inside, now]
    · rw [List.filterMap_append, still, List.append_nil]
      exact onTime.early
  | @dispatched event pending before taken early =>
    obtain ⟨took, ahead, later, last⟩ := onTime.timed.take taken
    obtain ⟨more, deeds, course, unstarted⟩ :=
      Rank.dispatch_behind_take event pending thread.rank
    obtain ⟨timed, clock, scheduled⟩ := took.course course
      ((Rank.Act.took thread.rank event pending taken trivial :
        Rank.Act (fun _ => True) _ _ _).keeps_wired wired) beyond ahead
    obtain ⟨-, still, -⟩ := course.deeds_still
    have same : (Rank.dispatch event { thread.rank with pending }).1.pending.last = event.time := by
      rw [← timed.clock, clock]
      rfl
    rw [same, deeds, ← List.append_assoc]
    have former : Chronicle (thread.history ++ thread.rank.takeDeeds event pending) event.time ∧
        ∀ other ∈ (thread.history ++ thread.rank.takeDeeds event pending).filterMap Deed.event?,
          ∀ bound, plan.bound thread.start = some bound → other.time < bound := by
      rcases Rank.takeDeeds_eq event pending thread.rank with none | ⟨arrival, one, reads⟩
      · rw [none, List.append_nil]
        exact ⟨onTime.chronicle.later later, onTime.early⟩
      · rw [one]
        refine ⟨onTime.chronicle.dispatch later reads, fun other inside => ?_⟩
        rw [List.filterMap_append, List.mem_append] at inside
        rcases inside with old | new
        · exact onTime.early other old
        · obtain rfl : other = event := List.mem_singleton.mp new
          exact early
    refine ⟨timed, former.1.append still (fun id now inside => (unstarted id now inside).elim)
      scheduled, ?_, fun bound ends => le_of_lt (early bound ends), fun starting => ?_⟩
    · rw [List.filterMap_append, still, List.append_nil]
      exact former.2
    · rw [before] at starting
      exact starting.elim

/-- A step keeps a thread in time, where the parcels that it schedules are due behind its window and
no event is due before the window that it goes on to. -/
theorem OnTime.step (onTime : thread.OnTime plan) (wired : thread.rank.Wired)
    (beyond : Beyond thread.start (plan.bound thread.start) thread.rank.links)
    (stepped : thread.step plan view = some (next, effect))
    (arrives : ∀ taken, thread.phase = .draining taken →
      ∀ parcel ∈ taken, IsFor plan thread.start parcel)
    (goes : ∀ read later, thread.phase = .reading read → n ≤ read.length →
      decision read = .proceed later → thread.worker.failure = none ∧ thread.start ≤ later ∧
        ∀ event ∈ thread.rank.pending.inOrder, later ≤ event.time) :
    next.OnTime plan := by
  cases moves_of_step stepped with
  | @worked worker phase deeds before course leads =>
    have stays : ∀ rest, phase ≠ .posting rest := by
      rintro rest rfl
      rcases leads.target with inside | ⟨-, same, -⟩ | ⟨-, gone⟩
      · exact inside
      · cases same
      · exact gone
    obtain ⟨done, same, does⟩ := does_of_step before stepped stays
    obtain ⟨timed, chronicle, early, reached, clock⟩ := does.onTime onTime wired beyond
    rw [← same] at chronicle early
    refine ⟨timed, chronicle, early, reached, fun rest posting => absurd posting (stays rest),
      fun starting => ?_, fun outside going healthy => ?_⟩
    · have former := leads.forward starting
      exact ⟨clock former, (onTime.began former).2⟩
    · rcases leads.target with inside | ⟨-, -, failed⟩ | ⟨-, gone⟩
      · exact absurd inside outside
      · have healthy : worker.failure = none := healthy
        rw [healthy] at failed
        cases failed
      · exact absurd gone going
  | stopped limitHit before among =>
    refine onTime.of_same rfl rfl rfl rfl (fun parcel inside => by cases inside) ?_ id
      fun _ _ _ => rfl
    intro rest same parcel inside
    cases same
    exact onTime.timed.laid parcel (List.mem_reverse.mp inside)
  | posted before known =>
    refine onTime.goTo before ⟨id, id⟩ (fun rest same parcel inside => ?_) id
    cases same
    exact onTime.posting _ before parcel (List.mem_cons_of_mem _ inside)
  | postedAll before | arrived before | took before | published before | read before =>
    exact onTime.goTo before ⟨id, id⟩ (fun rest same => by cases same) id
  | @passed gate stamp before opened =>
    cases gate <;> exact onTime.goTo before ⟨id, id⟩ (fun rest same => by cases same) id
  | lost before unknown =>
    exact onTime.of_same rfl rfl rfl rfl (fun parcel inside => inside)
      (fun rest same => by cases same) id fun _ _ healthy => by cases healthy
  | @scheduled taken before inbox => exact onTime.schedule before (arrives taken before)
  | @proceeded read later before all decided =>
    obtain ⟨healthy, after, ahead⟩ := goes read later before all decided
    exact onTime.proceeds before healthy after ahead
  | @concluded read worker phase before all decided course gone =>
    obtain ⟨pending, now, outgoing⟩ := quiet_of_course course
    exact onTime.of_over gone rfl rfl pending now outgoing
  | finished worker before course gone =>
    obtain ⟨pending, now, outgoing⟩ := quiet_of_course course
    exact onTime.of_over gone rfl rfl pending now outgoing

end Hooks

end Thread

end Rally
