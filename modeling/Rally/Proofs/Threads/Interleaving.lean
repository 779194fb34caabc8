import Rally.Proofs.Threads.Exchange
/-!
# The order of steps does not matter

Two runs are alike where they differ only in the order in which parcels arrived that are not yet
scheduled. Steps of different threads can be exchanged up to this difference, since no thread posts
while another one takes, and none publishes while another one reads. So all schedules that end have
the same length and the same end, whatever the order of their steps, and none is longer.
-/

namespace Rally

namespace Thread

variable {C : Type} {n : Nat} {thread next : Thread C} {plan : Plan n} {effect : Effect n}

/-- A thread without the parcels that it has taken and not scheduled. -/
def unladen (thread : Thread C) : Thread C :=
  match thread.phase with
  | .draining _ => thread.goTo (.draining [])
  | _ => thread

/-- A thread that does not take parcels is without any. -/
theorem unladen_of_ne (away : ∀ taken, thread.phase ≠ .draining taken) :
    thread.unladen = thread := by
  unfold unladen
  cases phase : thread.phase with
  | draining taken => exact absurd phase (away taken)
  | _ => rfl

/-- A thread that does not take parcels has taken none. -/
theorem taken_of_ne (away : ∀ taken, thread.phase ≠ .draining taken) : thread.taken = [] := by
  unfold taken
  cases phase : thread.phase with
  | draining taken => exact absurd phase (away taken)
  | _ => rfl

/-- Two threads without parcels are the same where one of them does not take any. -/
theorem eq_of_unladen {other : Thread C} (same : thread.unladen = other.unladen)
    (away : ∀ taken, thread.phase ≠ .draining taken) : other = thread := by
  rw [unladen_of_ne away] at same
  by_cases takes : ∃ taken, other.phase = .draining taken
  · obtain ⟨taken, takes⟩ := takes
    have phase : thread.phase = .draining [] := by
      rw [same, unladen, takes]
      rfl
    exact absurd phase (away [])
  · rw [unladen_of_ne (fun taken draining => takes ⟨taken, draining⟩)] at same
    exact same.symm

/-- Two threads without parcels that take some differ in these alone. -/
theorem goTo_of_unladen {other : Thread C} (same : thread.unladen = other.unladen)
    {taken : List Parcel} (takes : thread.phase = .draining taken) :
    ∃ others, other.phase = .draining others ∧ other = thread.goTo (.draining others) := by
  by_cases draining : ∃ others, other.phase = .draining others
  · obtain ⟨others, draining⟩ := draining
    refine ⟨others, draining, ?_⟩
    rw [unladen, unladen, takes, draining] at same
    have back := congrArg (fun thread => thread.goTo (.draining others)) same
    simp only [goTo] at back
    rw [goTo, ← draining] at *
    exact back.symm
  · have same := eq_of_unladen same.symm fun others phase => draining ⟨others, phase⟩
    rw [same] at takes
    exact absurd ⟨taken, takes⟩ draining

/-- What a thread schedules does not depend on what it has to do next. -/
theorem schedule_goTo (phase : Phase) (taken : List Parcel) :
    (thread.goTo phase).schedule taken = thread.schedule taken := rfl

variable [Component C]

/-- A thread that does not take parcels does not look into its channel. -/
theorem step_congr {first second : View n} (away : ∀ taken, thread.phase ≠ .draining taken)
    (generation : first.generation = second.generation) (board : first.board = second.board) :
    thread.step plan first = thread.step plan second := by
  unfold step
  cases phase : thread.phase with
  | draining taken => exact absurd phase (away taken)
  | _ => simp only [generation, board]

/-- A thread that takes no parcel with a step has none behind it, unless it took some before. -/
theorem taken_of_step {view : View n} (stepped : thread.step plan view = some (next, effect))
    (away : ∀ taken, thread.phase ≠ .draining taken) : next.taken = [] ∧ effect ≠ .take := by
  have move := moves_of_step stepped
  have none := taken_of_ne away
  have quiet : effect ≠ .take := by
    rintro rfl
    cases move
    exact absurd ‹_› (away _)
  refine ⟨?_, quiet⟩
  cases move.carries with
  | acted _ _ _ _ taken | posted _ _ _ taken | lost _ _ _ taken | kept _ _ _ taken =>
    rw [taken, none]
  | scheduled _ _ _ taken => exact taken
  | took => exact absurd rfl quiet

end Thread

namespace System

variable {C : Type} {n : Nat} {plan : Plan n} {system other next : System C n} {index : Fin n}

/-- Whether two runs differ only in the order in which parcels arrived that are not scheduled. -/
structure Alike (system other : System C n) : Prop where
  /-- The threads are the same up to what they have taken. -/
  threads : ∀ index, (system.threads index).unladen = (other.threads index).unladen
  /-- They have taken as much. -/
  count : ∀ index, (system.threads index).taken.length = (other.threads index).taken.length
  /-- The same parcels are on their way. -/
  inbound : ∀ index, (system.inbound index).Perm (other.inbound index)
  /-- The same is published. -/
  board : system.board = other.board
  /-- As many threads are at the barrier. -/
  arrived : system.arrived = other.arrived
  /-- The barrier has opened as often. -/
  generation : system.generation = other.generation

namespace Alike

/-- Every run is like itself. -/
theorem refl (system : System C n) : system.Alike system :=
  ⟨fun _ => rfl, fun _ => rfl, fun _ => List.Perm.refl _, rfl, rfl, rfl⟩

/-- The order of two runs that are alike does not matter. -/
theorem symm (alike : system.Alike other) : other.Alike system :=
  ⟨fun index => (alike.threads index).symm, fun index => (alike.count index).symm,
    fun index => (alike.inbound index).symm, alike.board.symm, alike.arrived.symm,
    alike.generation.symm⟩

/-- Runs that are like the same one are alike. -/
theorem trans (first : system.Alike other) (second : other.Alike next) : system.Alike next :=
  ⟨fun index => (first.threads index).trans (second.threads index),
    fun index => (first.count index).trans (second.count index),
    fun index => (first.inbound index).trans (second.inbound index),
    first.board.trans second.board, first.arrived.trans second.arrived,
    first.generation.trans second.generation⟩

/-- Channels to threads that have taken as much are as long. -/
theorem channels_length (alike : system.Alike other) (index : Fin n) :
    (system.channels index).length = (other.channels index).length := by
  have total := (alike.inbound index).length_eq
  have count := alike.count index
  rw [System.inbound, System.inbound, List.length_append, List.length_append] at total
  omega

end Alike

/-- What is published behind a step. -/
theorem board_withThread (thread : Thread C) (effect : Effect n) :
    ((system.apply index effect).withThread index thread).board =
      match effect with
      | .publish status => Function.update system.board index status
      | _ => system.board := by
  cases effect with
  | arrive =>
    simp only [apply, withThread]
    split <;> rfl
  | _ => rfl

/-- The number of threads at the barrier behind a step. -/
theorem arrived_withThread (thread : Thread C) (effect : Effect n) :
    ((system.apply index effect).withThread index thread).arrived =
      match effect with
      | .arrive => if system.arrived + 1 < n then system.arrived + 1 else 0
      | _ => system.arrived := by
  cases effect with
  | arrive =>
    simp only [apply, withThread]
    split <;> rfl
  | _ => rfl

/-- How often the barrier has opened behind a step. -/
theorem generation_withThread (thread : Thread C) (effect : Effect n) :
    ((system.apply index effect).withThread index thread).generation =
      match effect with
      | .arrive => if system.arrived + 1 < n then system.generation else system.generation + 1
      | _ => system.generation := by
  cases effect with
  | arrive =>
    simp only [apply, withThread]
    split <;> rfl
  | _ => rfl

/-- Runs that are alike stay so where the same thread does the same and ends up alike. -/
theorem Alike.replace (alike : system.Alike other) {thread last : Thread C} {effect : Effect n}
    (same : thread.unladen = last.unladen) (count : thread.taken.length = last.taken.length)
    (inbound : (((system.apply index effect).withThread index thread).inbound index).Perm
      (((other.apply index effect).withThread index last).inbound index)) :
    ((system.apply index effect).withThread index thread).Alike
      ((other.apply index effect).withThread index last) := by
  refine ⟨fun place => ?_, fun place => ?_, fun place => ?_, ?_, ?_, ?_⟩
  · by_cases here : place = index
    · rw [here, threads_withThread_self, threads_withThread_self]
      exact same
    · rw [threads_withThread_of_ne here, threads_withThread_of_ne here]
      exact alike.threads place
  · by_cases here : place = index
    · rw [here, threads_withThread_self, threads_withThread_self]
      exact count
    · rw [threads_withThread_of_ne here, threads_withThread_of_ne here]
      exact alike.count place
  · by_cases here : place = index
    · rw [here]
      exact inbound
    · rw [inbound_of_ne here, inbound_of_ne here]
      exact (alike.inbound place).append_right _
  · rw [board_withThread, board_withThread, alike.board]
  · rw [arrived_withThread, arrived_withThread, alike.arrived]
  · rw [generation_withThread, generation_withThread, alike.arrived, alike.generation]

/-- Runs that are alike stay so under the same step of a thread that takes nothing. -/
theorem Alike.apply (alike : system.Alike other) {thread : Thread C} {effect : Effect n}
    (before : (system.threads index).taken = []) (behind : thread.taken = [])
    (quiet : effect ≠ .take) :
    ((system.apply index effect).withThread index thread).Alike
      ((other.apply index effect).withThread index thread) := by
  have empty : (other.threads index).taken = [] := by
    rw [← List.length_eq_zero_iff, ← alike.count index, before, List.length_nil]
  refine alike.replace rfl rfl ?_
  rw [inbound_of_taken (behind.trans before.symm) quiet,
    inbound_of_taken (behind.trans empty.symm) quiet]
  exact (alike.inbound index).append_right _

/-- A thread that is to move stands where the generation of the barriers says. -/
theorem Lockstep.stands (lockstep : system.Lockstep) {phase : Phase}
    (here : (system.threads index).phase = phase) (moving : ¬ phase.isWaiting) :
    2 * (system.threads index).round + phase.lag = system.generation := by
  subst here
  exact (lockstep.synchronous index).epoch_eq moving

/-- No thread posts while another one takes what was posted. -/
theorem Lockstep.not_post_draining (lockstep : system.Lockstep) {place : Fin n} {moved : Thread C}
    {target : Fin n} {parcel : Parcel} {taken : List Parcel}
    (post : Thread.Moves plan (system.view index) (system.threads index) moved
      (.post target parcel))
    (draining : (system.threads place).phase = .draining taken) : False := by
  have odd : 2 * (system.threads place).round + 1 = system.generation :=
    lockstep.stands draining id
  have even : 2 * (system.threads index).round + 0 = system.generation := by
    cases post with
    | posted posting => exact lockstep.stands posting id
  omega

/-- No thread publishes while another one reads what was published. -/
theorem Lockstep.not_publish_reading (lockstep : system.Lockstep) {place : Fin n} {moved : Thread C}
    {status : RankStatus} {read : List RankStatus}
    (publish : Thread.Moves plan (system.view index) (system.threads index) moved
      (.publish status))
    (reading : (system.threads place).phase = .reading read) : False := by
  have even : 2 * (system.threads place).round + 2 = system.generation :=
    lockstep.stands reading id
  have odd : 2 * (system.threads index).round + 1 = system.generation := by
    cases publish with
    | published publishing => exact lockstep.stands publishing id
  omega

/-- No thread posts in front of the barrier where another one takes. -/
theorem Lockstep.not_post_take (lockstep : system.Lockstep) {place : Fin n}
    {moved thread : Thread C} {target : Fin n} {parcel : Parcel}
    (first : Thread.Moves plan (system.view index) (system.threads index) moved
      (.post target parcel))
    (second : Thread.Moves plan (system.view place) (system.threads place) thread .take) : False := by
  cases second with
  | took draining => exact lockstep.not_post_draining first draining

/-- The channels behind two steps of different threads are the same up to the order of arrival. -/
theorem Lockstep.channels_comm (lockstep : system.Lockstep) {place : Fin n} (differ : place ≠ index)
    {moved thread : Thread C} {change effect : Effect n}
    (first : Thread.Moves plan (system.view index) (system.threads index) moved change)
    (second : Thread.Moves plan (system.view place) (system.threads place) thread effect)
    (target : Fin n) :
    ((((system.apply index change).withThread index moved).apply place effect).withThread place
        thread |>.channels target).Perm
      ((((system.apply place effect).withThread place thread).apply index change).withThread index
        moved |>.channels target) := by
  rw [channels_withThread, channels_withThread, channels_withThread, channels_withThread]
  cases change with
  | post one parcel =>
    cases effect with
    | post two other =>
      by_cases here : target = one
      · by_cases there : target = two
        · simp only [if_pos here, if_pos there, List.append_assoc]
          exact (List.Perm.swap _ _ _).append_left _
        · simp only [if_neg there]
          exact List.Perm.refl _
      · simp only [if_neg here]
        exact List.Perm.refl _
    | take => exact (lockstep.not_post_take first second).elim
    | _ => exact List.Perm.refl _
  | take =>
    cases effect with
    | post two other => exact (lockstep.not_post_take second first).elim
    | take =>
      by_cases here : target = index
      · have there : target ≠ place := fun same => differ (same.symm.trans here)
        simp only [if_neg there]
        exact List.Perm.refl _
      · simp only [if_neg here]
        exact List.Perm.refl _
    | _ => exact List.Perm.refl _
  | _ => cases effect <;> exact List.Perm.refl _

variable [Component C]

/-- Where a thread takes what was posted, or has taken all, it does so in a run that is alike. -/
theorem Alike.drain (alike : system.Alike other) (carried : system.Carried plan) {taken : List Parcel}
    (takes : (system.threads index).phase = .draining taken)
    (stepped : system.step plan index = some next) :
    ∃ last, other.step plan index = some last ∧ next.Alike last := by
  obtain ⟨⟨thread, effect⟩, moved, rfl⟩ := Option.map_eq_some_iff.mp stepped
  obtain ⟨others, takesToo, same⟩ := Thread.goTo_of_unladen (alike.threads index) takes
  have length := alike.channels_length index
  have mine : (system.threads index).taken = taken := by simp [Thread.taken, takes]
  have theirs : (other.threads index).taken = others := by simp [Thread.taken, takesToo]
  have count : taken.length = others.length := by
    rw [← mine, ← theirs]
    exact alike.count index
  have perm := alike.inbound index
  rw [System.inbound, System.inbound, mine, theirs] at perm
  simp only [Thread.step, takes, view] at moved
  cases inbox : system.channels index with
  | nil =>
    rw [inbox, List.length_nil, eq_comm, List.length_eq_zero_iff] at length
    simp only [inbox, Option.some.injEq, Prod.mk.injEq] at moved
    obtain ⟨rfl, rfl⟩ := moved
    rw [inbox, length, List.append_nil, List.append_nil] at perm
    have apart := carried.apart index
    rw [System.inbound, mine, inbox, List.append_nil] at apart
    obtain ⟨received, deeds⟩ := Rank.receive_of_perm perm apart (system.threads index).rank
    have schedules : (other.threads index).schedule others =
        (system.threads index).schedule taken := by
      rw [same, Thread.schedule_goTo, Thread.schedule, Thread.schedule, received, deeds]
    refine ⟨(other.apply index .idle).withThread index ((system.threads index).schedule taken),
      ?_, alike.replace rfl rfl ?_⟩
    · rw [← schedules]
      simp only [step, Thread.step, takesToo, view, length, Option.map_some]
    · rw [System.inbound, System.inbound, channels_withThread, channels_withThread,
        threads_withThread_self, threads_withThread_self]
      exact (List.Perm.of_eq (by rw [inbox, length]))
  | cons parcel rest =>
    simp only [inbox, Option.some.injEq, Prod.mk.injEq] at moved
    obtain ⟨rfl, rfl⟩ := moved
    obtain ⟨first, more, content⟩ : ∃ first more, other.channels index = first :: more := by
      refine List.exists_cons_of_length_pos ?_
      rw [← length, inbox, List.length_cons]
      exact Nat.succ_pos _
    refine ⟨(other.apply index .take).withThread index
      ((other.threads index).goTo (.draining (others ++ [first]))), ?_, alike.replace ?_ ?_ ?_⟩
    · simp only [step, Thread.step, takesToo, view, content, Option.map_some]
    · rw [same]
      rfl
    · simp only [Thread.taken, Thread.goTo, List.length_append, count, List.length_singleton]
    · rw [System.inbound, System.inbound, channels_withThread, channels_withThread,
        threads_withThread_self, threads_withThread_self]
      simp only [Thread.taken, Thread.goTo, if_pos, inbox, content, List.tail_cons,
        List.append_assoc, List.singleton_append]
      rw [← inbox, ← content]
      exact perm

/-- What one of two runs that are alike does, the other one does as well. -/
theorem Alike.step (alike : system.Alike other) (carried : system.Carried plan)
    (stepped : system.step plan index = some next) :
    ∃ last, other.step plan index = some last ∧ next.Alike last := by
  by_cases takes : ∃ taken, (system.threads index).phase = .draining taken
  · obtain ⟨taken, takes⟩ := takes
    exact alike.drain carried takes stepped
  · obtain ⟨⟨thread, effect⟩, moved, rfl⟩ := Option.map_eq_some_iff.mp stepped
    have away : ∀ taken, (system.threads index).phase ≠ .draining taken :=
      fun taken phase => takes ⟨taken, phase⟩
    have same := Thread.eq_of_unladen (alike.threads index) away
    obtain ⟨behind, quiet⟩ := Thread.taken_of_step moved away
    refine ⟨(other.apply index effect).withThread index thread, ?_,
      alike.apply (Thread.taken_of_ne away) behind quiet⟩
    have moves : (other.threads index).step plan (other.view index) = some (thread, effect) := by
      rw [same, ← moved]
      exact Thread.step_congr away alike.generation.symm alike.board.symm
    rw [step, moves]
    rfl

/-- A step of another thread changes nothing that a thread with a step looks at. -/
theorem Lockstep.undisturbed (lockstep : system.Lockstep) (among : plan.alone = false)
    {place : Fin n} (differ : place ≠ index) {moved : Thread C} {change : Effect n}
    (move : Thread.Moves plan (system.view index) (system.threads index) moved change)
    {thread : Thread C} {effect : Effect n}
    (steps : (system.threads place).step plan (system.view place) = some (thread, effect)) :
    let next := (system.apply index change).withThread index moved
    (next.threads place).step plan (next.view place) = some (thread, effect) := by
  have sync := lockstep.synchronous place
  simp only
  rw [threads_withThread_of_ne differ, ← steps]
  cases phase : (system.threads place).phase with
  | waiting gate stamp =>
    have opened : system.generation ≠ stamp := by
      intro closed
      simp [Thread.step, phase, view, closed] at steps
    have late : stamp < system.generation := by
      have stamped := sync.stamped gate stamp phase
      rcases sync.current with same | ⟨more, _⟩
      · omega
      · omega
    have still : ((system.apply index change).withThread index moved).generation ≠ stamp := by
      rw [generation_withThread]
      cases change with
      | arrive =>
        simp only
        split <;> omega
      | _ => exact opened
    simp only [Thread.step, phase]
    exact (if_neg still).trans (if_neg opened).symm
  | arriving gate =>
    have closed : ((system.apply index change).withThread index moved).generation =
        system.generation := by
      by_contra opens
      have waits := (lockstep.opens among move opens).2.2 place
      rw [threads_withThread_of_ne differ, Thread.waitsAt_iff] at waits
      obtain ⟨other, waits⟩ := waits
      cases phase.symm.trans waits
    simp only [Thread.step, phase, view, closed]
  | draining taken =>
    have inbox : ((system.apply index change).withThread index moved).channels place =
        system.channels place := by
      rw [channels_withThread]
      cases change with
      | post target parcel => exact (lockstep.not_post_draining move phase).elim
      | take => simp only [if_neg differ]
      | _ => rfl
    simp only [Thread.step, phase, view, inbox]
  | reading read =>
    have board : ((system.apply index change).withThread index moved).board = system.board := by
      rw [board_withThread]
      cases change with
      | publish status => exact (lockstep.not_publish_reading move phase).elim
      | _ => rfl
    simp only [Thread.step, phase, view, board]
  | _ => simp only [Thread.step, phase]

/-- Two steps of different threads lead to runs that are alike, whichever comes first. -/
theorem Lockstep.diamond (lockstep : system.Lockstep) (among : plan.alone = false)
    {place : Fin n} (differ : place ≠ index) (first : system.step plan index = some next)
    (second : system.step plan place = some other) :
    ∃ left right, next.step plan place = some left ∧ other.step plan index = some right ∧
      left.Alike right := by
  obtain ⟨⟨moved, change⟩, firstSteps, rfl⟩ := Option.map_eq_some_iff.mp first
  obtain ⟨⟨thread, effect⟩, secondSteps, rfl⟩ := Option.map_eq_some_iff.mp second
  have firstMove := Thread.moves_of_step firstSteps
  have secondMove := Thread.moves_of_step secondSteps
  refine ⟨_, _, Option.map_eq_some_iff.mpr
      ⟨_, lockstep.undisturbed among differ firstMove secondSteps, rfl⟩,
    Option.map_eq_some_iff.mpr
      ⟨_, lockstep.undisturbed among differ.symm secondMove firstSteps, rfl⟩, ?_⟩
  have threads : ((((system.apply index change).withThread index moved).apply place
      effect).withThread place thread).threads =
        ((((system.apply place effect).withThread place thread).apply index change).withThread
          index moved).threads := by
    rw [threads_withThread, threads_withThread, threads_withThread, threads_withThread]
    exact Function.update_comm differ.symm _ _ _
  refine ⟨fun target => congrArg Thread.unladen (congrFun threads target),
    fun target => congrArg (fun thread => thread.taken.length) (congrFun threads target),
    fun target => ?_, ?_, ?_, ?_⟩
  · simp only [inbound, threads]
    exact (lockstep.channels_comm differ firstMove secondMove target).append_left _
  · simp only [board_withThread]
    cases change with
    | publish status =>
      cases effect with
      | publish other => exact Function.update_comm differ.symm _ _ _
      | _ => rfl
    | _ => cases effect <;> rfl
  · simp only [arrived_withThread]
    cases change <;> cases effect <;> rfl
  · simp only [generation_withThread, arrived_withThread]
    cases change <;> cases effect <;> rfl

end System

end Rally
