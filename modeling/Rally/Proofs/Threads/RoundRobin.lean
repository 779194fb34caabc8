import Rally.Proofs.Threads.BetweenBarriers
/-!
# Threads in turn

One schedule lets the threads take turns between the barriers: in each window one after the other
dispatches and posts, then one after the other takes its parcels and publishes, then one after the
other reads and decides. Under it the threads do what a run in windows does with their ranks.
-/

namespace Rally

namespace System

variable {C : Type} {n : Nat} {plan : Plan n} {system middle next : System C n} {index : Fin n}

/-- Among others there is some thread. -/
theorem pos_of_among (among : plan.alone = false) : 0 < n := by
  rw [Plan.alone, decide_eq_false_iff_not] at among
  omega

/-- Replacing a thread by itself changes nothing. -/
theorem withThread_self (system : System C n) (index : Fin n) :
    system.withThread index (system.threads index) = system := by
  rw [withThread, Function.update_eq_self]

/-- Of two replacements of a thread the last one counts. -/
theorem withThread_withThread (system : System C n) (index : Fin n) (thread last : Thread C) :
    (system.withThread index thread).withThread index last = system.withThread index last := by
  rw [withThread, withThread, withThread, Function.update_idem]

/-- What a thread and its posted parcels change. -/
structure Posts (system next : System C n) (index : Fin n) (thread : Thread C)
    (parcels : List Parcel) (plan : Plan n) : Prop where
  /-- The thread is replaced. -/
  threads : next.threads = Function.update system.threads index thread
  /-- The parcels are in the channels of the threads that they are for. -/
  channels : ∀ target, next.channels target = system.channels target ++
    parcels.filter fun parcel => parcel.target == plan.ids target
  /-- Nothing is published. -/
  board : next.board = system.board
  /-- Nobody arrives. -/
  arrived : next.arrived = system.arrived
  /-- The barrier stays as it is. -/
  generation : next.generation = system.generation

/-- A thread that changes alone posts nothing. -/
theorem posts_withThread (system : System C n) (index : Fin n) (thread : Thread C) :
    system.Posts (system.withThread index thread) index thread [] plan :=
  ⟨rfl, fun _ => (List.append_nil _).symm, rfl, rfl, rfl⟩

/-- Posting parcels behind others. -/
theorem Posts.trans {thread last : Thread C} {parcels more : List Parcel}
    (former : system.Posts middle index thread parcels plan)
    (latter : middle.Posts next index last more plan) :
    system.Posts next index last (parcels ++ more) plan := by
  refine ⟨?_, fun target => ?_, latter.board.trans former.board,
    latter.arrived.trans former.arrived, latter.generation.trans former.generation⟩
  · rw [latter.threads, former.threads, Function.update_idem]
  · rw [latter.channels, former.channels, List.filter_append, List.append_assoc]

/-- How far the threads have come to a barrier of which some have arrived in turn. -/
structure Gathered (generation : Nat) (done : List (Fin n)) (system : System C n) : Prop where
  /-- The barrier stays closed until all have arrived. -/
  closed : done.length < n → system.generation = generation ∧ system.arrived = done.length
  /-- It opens then. -/
  opened : n ≤ done.length → system.generation = generation + 1 ∧ system.arrived = 0

/-- No thread has arrived before the first turn. -/
theorem gathered_nil (among : plan.alone = false) {generation : Nat}
    (barrier : system.generation = generation ∧ system.arrived = 0) :
    system.Gathered generation [] :=
  ⟨fun _ => barrier, fun none => absurd (pos_of_among among) (Nat.not_lt.mpr none)⟩

/-- Nothing but an arrival changes how far the threads have come. -/
theorem Gathered.of_same {generation : Nat} {done : List (Fin n)}
    (gathered : system.Gathered generation done) (same : next.generation = system.generation)
    (still : next.arrived = system.arrived) : next.Gathered generation done := by
  obtain ⟨closed, opened⟩ := gathered
  exact ⟨by rw [same, still]; exact closed, by rw [same, still]; exact opened⟩

/-- In a turn the thread has not had one before, and not all threads have. -/
theorem fresh_of_split {done rest : List (Fin n)} (split : List.finRange n = done ++ index :: rest) :
    index ∉ done ∧ done.length < n := by
  constructor
  · have distinct := List.nodup_finRange n
    rw [split, List.nodup_append] at distinct
    exact fun inside => distinct.2.2 index inside index List.mem_cons_self rfl
  · have length := congrArg List.length split
    rw [List.length_finRange, List.length_append, List.length_cons] at length
    omega

/-- What those have who had their turn, and all others had before. -/
def turned {α : Type} (done : List (Fin n)) (behind before : Fin n → α) (place : Fin n) : α :=
  if place ∈ done then behind place else before place

section Turned

variable {α : Type} {done : List (Fin n)} {behind before : Fin n → α}

/-- Before the first turn. -/
@[simp] theorem turned_nil : turned [] behind before = before :=
  funext fun _ => if_neg List.not_mem_nil

/-- Behind the last turn. -/
@[simp] theorem turned_finRange : turned (List.finRange n) behind before = behind :=
  funext fun place => if_pos (List.mem_finRange place)

/-- In front of a turn. -/
theorem turned_of_not_mem (fresh : index ∉ done) : turned done behind before index = before index :=
  if_neg fresh

/-- A turn is one of those that have been. -/
theorem update_turned (done : List (Fin n)) (index : Fin n) (behind before : Fin n → α) :
    Function.update (turned done behind before) index (behind index) =
      turned (done ++ [index]) behind before := by
  funext place
  by_cases here : place = index
  · subst here
    simp [turned]
  · simp [turned, here]

end Turned

variable [Component C]

/-- Whether a run gets from one state to another with so many steps. -/
def Reaches (plan : Plan n) (system next : System C n) (count : Nat) : Prop :=
  ∃ schedule : List (Fin n), schedule.length = count ∧ system.exec plan schedule = some next

namespace Reaches

/-- Without a step a run stays where it is. -/
theorem refl (system : System C n) : Reaches plan system system 0 := ⟨[], rfl, rfl⟩

/-- A step gets to where it leads. -/
theorem single (stepped : system.step plan index = some next) : Reaches plan system next 1 :=
  ⟨[index], rfl, Option.bind_eq_some_iff.mpr ⟨next, stepped, rfl⟩⟩

/-- A run that gets from one state to another one, and from there to a third. -/
theorem trans {count more : Nat} (former : Reaches plan system middle count)
    (latter : Reaches plan middle next more) : Reaches plan system next (count + more) := by
  obtain ⟨schedule, length, reached⟩ := former
  obtain ⟨rest, more, onward⟩ := latter
  refine ⟨schedule ++ rest, by rw [List.length_append, length, more], ?_⟩
  rw [exec_append, reached]
  exact onward

end Reaches

/-- A thread on its own gets on without the others. -/
theorem reaches_of_strides {first last : Thread C} {count : Nat}
    (strides : Thread.Strides plan first last count) (system : System C n) (index : Fin n)
    (here : system.threads index = first) :
    Reaches plan system (system.withThread index last) count := by
  induction strides generalizing system with
  | refl =>
    rw [← here, withThread_self]
    exact .refl system
  | @before first middle last count step _ ih =>
    have stepped : system.step plan index = some (system.withThread index middle) := by
      rw [System.step, here, step]
      rfl
    have onward := ih (system.withThread index middle) (Function.update_self _ _ _)
    rw [withThread_withThread] at onward
    rw [Nat.add_comm]
    exact (Reaches.single stepped).trans onward

/-- The thread of a known rank is found. -/
theorem index?_of_contains {target : RankId}
    (known : (List.ofFn plan.ids).contains target = true) :
    ∃ index, plan.index? target = some index := by
  rw [List.contains_iff_mem, List.mem_ofFn] at known
  obtain ⟨index, same⟩ := known
  cases found : plan.index? target with
  | some other => exact ⟨other, rfl⟩
  | none =>
    have absent := List.find?_eq_none.mp found index (List.mem_finRange index)
    simp [same] at absent

/-- The thread of an unknown rank is not found. -/
theorem index?_of_not_contains {target : RankId}
    (unknown : ¬ (List.ofFn plan.ids).contains target = true) : plan.index? target = none := by
  rw [List.contains_iff_mem, List.mem_ofFn] at unknown
  cases found : plan.index? target with
  | none => rfl
  | some other => exact absurd ⟨other, ids_of_index? found⟩ unknown

omit [Component C] in
/-- A thread that posts a parcel for a known rank posts it there. -/
theorem posts_withThread_apply (distinct : Function.Injective plan.ids) (system : System C n)
    (index : Fin n) (thread : Thread C) {parcel : Parcel} {target : Fin n}
    (found : plan.index? parcel.target = some target) :
    system.Posts ((system.apply index (.post target parcel)).withThread index thread) index thread
      [parcel] plan := by
  refine ⟨threads_withThread _ _, fun place => ?_, rfl, rfl, rfl⟩
  rw [channels_withThread]
  have own := ids_of_index? found
  by_cases here : place = target
  · simp [here, own]
  · have differ : ¬ parcel.target = plan.ids place := by
      rw [← own]
      exact fun same => here (distinct same).symm
    simp [here, differ]

/-- A thread posts what its rank may ship, and fails where a parcel is for no rank. -/
theorem reaches_posting (distinct : Function.Injective plan.ids) (rest : List Parcel)
    (system : System C n) (index : Fin n)
    (phase : (system.threads index).phase = .posting rest)
    (healthy : (system.threads index).worker.failure = none) :
    let shipped := Worker.shippable (List.ofFn plan.ids) rest
    ∃ next count, Reaches plan system next count ∧ system.Posts next index
      { system.threads index with
        worker := { (system.threads index).worker with
          failure := shipped.2.map RunError.unknownRank }
        phase := .arriving .exchange } shipped.1 plan := by
  induction rest generalizing system with
  | nil =>
    have stepped : system.step plan index = some (system.withThread index
        ((system.threads index).goTo (.arriving .exchange))) := by
      simp only [step, Thread.step, phase, Thread.postNext, Option.map_some]
      rfl
    refine ⟨_, 1, .single stepped, ?_⟩
    have same : ({ system.threads index with
        worker := { (system.threads index).worker with failure := none }
        phase := .arriving .exchange } : Thread C) =
          (system.threads index).goTo (.arriving .exchange) := by
      rw [← healthy]
      rfl
    simp only [Worker.shippable, Option.map_none, same]
    exact posts_withThread system index _
  | cons parcel rest ih =>
    rw [Worker.shippable]
    by_cases known : (List.ofFn plan.ids).contains parcel.target = true
    · obtain ⟨target, found⟩ := index?_of_contains known
      have stepped : system.step plan index = some ((system.apply index (.post target parcel)).withThread
          index ((system.threads index).goTo (.posting rest))) := by
        simp only [step, Thread.step, phase, Thread.postNext, found, Option.map_some]
      have posts := posts_withThread_apply distinct system index
        ((system.threads index).goTo (.posting rest)) found
      have there : ((system.apply index (.post target parcel)).withThread index
          ((system.threads index).goTo (.posting rest))).threads index =
            (system.threads index).goTo (.posting rest) := threads_withThread_self _ _
      obtain ⟨last, count, reached, more⟩ := ih _ (by rw [there]; rfl) (by rw [there]; exact healthy)
      rw [there] at more
      rw [if_pos known]
      exact ⟨last, 1 + count, (Reaches.single stepped).trans reached, posts.trans more⟩
    · have found := index?_of_not_contains known
      rw [if_neg known]
      have stepped : system.step plan index = some (system.withThread index
          { system.threads index with
            worker := { (system.threads index).worker with
              failure := some (.unknownRank parcel.target) }
            phase := .arriving .exchange }) := by
        simp only [step, Thread.step, phase, Thread.postNext, found, Option.map_some]
        rfl
      exact ⟨_, 1, .single stepped, posts_withThread system index _⟩

/-- A thread that is to open a window gets to the barrier behind it. -/
theorem reaches_window (among : plan.alone = false) (distinct : Function.Injective plan.ids)
    {fuel : Nat} {system : System C n} {index : Fin n}
    (phase : (system.threads index).phase = .opening) {worker : Worker C}
    (advances : (system.threads index).advance plan fuel = some worker) :
    ∃ next count, Reaches plan system next count ∧ system.Posts next index
      { system.threads index with
        worker := (worker.ship (List.ofFn plan.ids)).1
        phase := .arriving .exchange
        history := (system.threads index).history ++ (system.threads index).advanceDeeds plan fuel }
      (worker.ship (List.ofFn plan.ids)).2 plan := by
  obtain ⟨count, strides⟩ := Thread.strides_window among phase advances
  have arrives := reaches_of_strides strides system index rfl
  rw [Thread.behindWindow] at arrives
  rw [Worker.ship]
  cases failed : worker.failure with
  | some error =>
    simp only [failed, Option.isSome_some, if_true] at arrives ⊢
    exact ⟨_, count, arrives, posts_withThread system index _⟩
  | none =>
    simp only [failed, Option.isSome_none, Bool.false_eq_true, if_false] at arrives ⊢
    obtain ⟨next, more, posts, changes⟩ := reaches_posting distinct worker.rank.outgoing.reverse
      (system.withThread index { system.threads index with
        worker := { worker with rank := { worker.rank with outgoing := [] }, failure := none }
        phase := .posting worker.rank.outgoing.reverse
        history := (system.threads index).history ++
          (system.threads index).advanceDeeds plan fuel }) index
      (by simp [withThread]) (by simp [withThread])
    have whole := (posts_withThread system index _).trans changes
    simp only [withThread, Function.update_self, List.nil_append] at whole
    exact ⟨next, count + more, arrives.trans posts, whole⟩

/-- A thread arrives in its turn. -/
theorem Gathered.arrive (plan : Plan n) {generation : Nat} {done : List (Fin n)}
    (gathered : system.Gathered generation done) (room : done.length < n) {gate : Gate}
    (phase : (system.threads index).phase = .arriving gate) :
    ∃ next, Reaches plan system next 1 ∧
      next.threads = Function.update system.threads index
        ((system.threads index).goTo (.waiting gate generation)) ∧
      next.channels = system.channels ∧ next.board = system.board ∧
      next.Gathered generation (done ++ [index]) := by
  obtain ⟨closed, count⟩ := gathered.closed room
  let thread := (system.threads index).goTo (.waiting gate generation)
  have stepped : system.step plan index =
      some ((system.apply index .arrive).withThread index thread) := by
    simp only [step, Thread.step, phase, view, closed, Option.map_some]
    rfl
  refine ⟨_, .single stepped, threads_withThread _ _, ?_, ?_, ?_, ?_⟩
  · funext target
    rw [channels_withThread]
  · rw [board_withThread]
  · intro more
    rw [List.length_append, List.length_singleton] at more
    rw [generation_withThread, arrived_withThread]
    simp only [count, closed, List.length_append, List.length_singleton, if_pos more, and_self]
  · intro full
    rw [List.length_append, List.length_singleton] at full
    have last : ¬ done.length + 1 < n := by omega
    rw [generation_withThread, arrived_withThread]
    simp only [count, closed, if_neg last, and_self]

/-- What each thread achieves in its turn, all achieve. -/
theorem sweep (P : List (Fin n) → System C n → Prop)
    (turn : ∀ done index rest system, List.finRange n = done ++ index :: rest → P done system →
      ∃ next count, 0 < count ∧ Reaches plan system next count ∧ P (done ++ [index]) next)
    (start : P [] system) :
    ∃ next count, n ≤ count ∧ Reaches plan system next count ∧ P (List.finRange n) next := by
  have go (rest done : List (Fin n)) (system : System C n)
      (split : List.finRange n = done ++ rest) (holds : P done system) :
      ∃ next count, rest.length ≤ count ∧ Reaches plan system next count ∧
        P (List.finRange n) next := by
    induction rest generalizing done system with
    | nil =>
      rw [List.append_nil] at split
      exact ⟨system, 0, Nat.le_refl _, .refl system, by rw [split]; exact holds⟩
    | cons index rest ih =>
      obtain ⟨middle, count, positive, reached, holds⟩ := turn done index rest system split holds
      obtain ⟨next, more, long, onward, holds⟩ :=
        ih (done ++ [index]) middle (by rw [split, List.append_assoc]; rfl) holds
      refine ⟨next, count + more, ?_, reached.trans onward, holds⟩
      rw [List.length_cons]
      omega
  obtain ⟨next, count, long, reached, holds⟩ := go (List.finRange n) [] system rfl start
  rw [List.length_finRange] at long
  exact ⟨next, count, long, reached, holds⟩

/-- Where each thread gets on without the others, all of them do. -/
theorem sweep_threads {behind : Fin n → Thread C}
    (turn : ∀ index (threads : Fin n → Thread C), threads index = system.threads index →
      ∃ count, 0 < count ∧ Reaches plan { system with threads }
        ({ system with threads }.withThread index (behind index)) count) :
    ∃ count, Reaches plan system { system with threads := behind } count := by
  obtain ⟨next, count, -, reached, rfl⟩ := @sweep _ _ plan system _
    (fun done state => state = { system with threads := turned done behind system.threads })
    (by
      rintro done index rest _ split rfl
      obtain ⟨count, positive, reached⟩ := turn index _ (turned_of_not_mem (fresh_of_split split).1)
      refine ⟨_, count, positive, reached, ?_⟩
      rw [withThread, update_turned])
    (by rw [turned_nil])
  rw [turned_finRange] at reached
  exact ⟨count, reached⟩

/-- How far the threads are that take turns through a window, given what each of them is behind it and the
parcels that it posts. -/
structure Ships (plan : Plan n) (round : Nat) (behind : Fin n → Thread C)
    (parcels : Fin n → List Parcel) (system : System C n) (done : List (Fin n))
    (state : System C n) : Prop where
  /-- Some threads have arrived behind their windows. -/
  threads : state.threads = turned done behind system.threads
  /-- Their parcels are in the channels of the threads that they are for. -/
  channels : ∀ target, state.channels target =
    (done.flatMap parcels).filter fun parcel => parcel.target == plan.ids target
  /-- Nobody else has arrived. -/
  gathered : state.Gathered (2 * round) done

/-- One more thread takes its turn through the window. -/
theorem Ships.turn {round : Nat} {behind : Fin n → Thread C} {parcels : Fin n → List Parcel}
    {done rest : List (Fin n)} {state : System C n}
    (ships : Ships plan round behind parcels system done state) (among : plan.alone = false)
    (distinct : Function.Injective plan.ids) (split : List.finRange n = done ++ index :: rest)
    {fuel : Nat} {worker : Worker C} (opening : (system.threads index).phase = .opening)
    (advances : (system.threads index).advance plan fuel = some worker)
    (leads : behind index = { system.threads index with
      worker := (worker.ship (List.ofFn plan.ids)).1
      phase := .waiting .exchange (2 * round)
      history := (system.threads index).history ++ (system.threads index).advanceDeeds plan fuel })
    (lays : parcels index = (worker.ship (List.ofFn plan.ids)).2) :
    ∃ next count, 0 < count ∧ Reaches plan state next count ∧
      Ships plan round behind parcels system (done ++ [index]) next := by
  obtain ⟨fresh, room⟩ := fresh_of_split split
  have mine : state.threads index = system.threads index := by
    rw [ships.threads, turned_of_not_mem fresh]
  obtain ⟨middle, count, reached, posts⟩ := reaches_window among distinct
    (by rw [mine]; exact opening) (by rw [mine]; exact advances)
  have there := congrFun posts.threads index
  rw [Function.update_self] at there
  have arriving : (middle.threads index).phase = .arriving .exchange := by rw [there]
  obtain ⟨next, arrives, final, same, -, more⟩ :=
    (ships.gathered.of_same posts.generation posts.arrived).arrive plan room arriving
  refine ⟨next, count + 1, Nat.succ_pos _, reached.trans arrives, ?_, fun target => ?_, more⟩
  · rw [final, there, posts.threads, Function.update_idem, mine, ships.threads, ← update_turned, leads]
    rfl
  · rw [same, posts.channels, ships.channels, List.flatMap_append, List.filter_append,
      List.flatMap_singleton, lays]

/-- The threads take turns through a window. -/
theorem reaches_windows (among : plan.alone = false) (distinct : Function.Injective plan.ids)
    {fuel round : Nat} (opening : ∀ index, (system.threads index).phase = .opening)
    (barrier : system.generation = 2 * round ∧ system.arrived = 0)
    (empty : ∀ target, system.channels target = []) {advanced : Fin n → Worker C}
    (advances : ∀ index, (system.threads index).advance plan fuel = some (advanced index)) :
    ∃ next count, n ≤ count ∧ Reaches plan system next count ∧
      (next.threads = fun index => { system.threads index with
        worker := ((advanced index).ship (List.ofFn plan.ids)).1
        phase := .waiting .exchange (2 * round)
        history := (system.threads index).history ++
          (system.threads index).advanceDeeds plan fuel }) ∧
      (∀ target, next.channels target =
        ((List.finRange n).flatMap fun index => ((advanced index).ship (List.ofFn plan.ids)).2).filter
          fun parcel => parcel.target == plan.ids target) ∧
      next.Gathered (2 * round) (List.finRange n) := by
  obtain ⟨next, count, long, reached, ships⟩ := sweep
    (Ships plan round (fun index => { system.threads index with
        worker := ((advanced index).ship (List.ofFn plan.ids)).1
        phase := .waiting .exchange (2 * round)
        history := (system.threads index).history ++ (system.threads index).advanceDeeds plan fuel })
      (fun index => ((advanced index).ship (List.ofFn plan.ids)).2) system)
    (fun done index rest state split ships =>
      ships.turn among distinct split (opening index) (advances index) rfl rfl)
    ⟨turned_nil.symm, empty, gathered_nil among barrier⟩
  exact ⟨next, count, long, reached, ships.threads.trans turned_finRange, ships.channels,
    ships.gathered⟩

/-- A thread takes all parcels in its channel. -/
theorem reaches_taking (taken rest : List Parcel) (system : System C n) (index : Fin n)
    (phase : (system.threads index).phase = .draining taken)
    (inbox : system.channels index = rest) :
    ∃ next count, Reaches plan system next count ∧
      next.threads = Function.update system.threads index
        ((system.threads index).goTo (.draining (taken ++ rest))) ∧
      next.channels = Function.update system.channels index [] ∧ next.board = system.board ∧
      next.generation = system.generation ∧ next.arrived = system.arrived := by
  induction rest generalizing taken system with
  | nil =>
    refine ⟨system, 0, .refl system, ?_, ?_, rfl, rfl, rfl⟩
    · rw [List.append_nil, ← phase]
      exact (Function.update_eq_self index system.threads).symm
    · rw [← inbox, Function.update_eq_self]
  | cons parcel rest ih =>
    have stepped : system.step plan index = some ((system.apply index .take).withThread index
        ((system.threads index).goTo (.draining (taken ++ [parcel])))) := by
      simp only [step, Thread.step, phase, view, inbox, Option.map_some]
    have there := @threads_withThread_self _ _ system index
      ((system.threads index).goTo (.draining (taken ++ [parcel]))) .take
    obtain ⟨next, count, reached, threads, channels, board, generation, arrived⟩ :=
      ih (taken ++ [parcel]) _ (by rw [there]; rfl) (by rw [channels_withThread]; simp [inbox])
    refine ⟨next, 1 + count, (Reaches.single stepped).trans reached, ?_, ?_, board, generation,
      arrived⟩
    · rw [threads, there, threads_withThread, Function.update_idem, List.append_assoc]
      rfl
    · rw [channels]
      exact Function.update_idem _ _ _

/-- What a rank is behind the exchange of parcels of which some are for it. -/
def collected (parcels : List Parcel) (thread : Thread C) : Thread C :=
  let own := parcels.filter fun parcel => parcel.target == thread.rank.id
  { thread with
    worker := thread.worker.collect parcels
    history := thread.history ++ thread.rank.receiveDeeds own }

/-- A thread passes a barrier that has opened. -/
theorem step_passing {gate : Gate} {stamp : Nat}
    (phase : (system.threads index).phase = .waiting gate stamp)
    (opened : system.generation ≠ stamp) :
    system.step plan index =
      some (system.withThread index ((system.threads index).goTo gate.behind)) := by
  have passes : (system.threads index).step plan (system.view index) =
      some ((system.threads index).goTo gate.behind, .idle) := by
    simp only [Thread.step, phase]
    exact if_neg opened
  rw [System.step, passes]
  rfl

/-- A thread takes what is for its rank, schedules it and publishes its status. -/
theorem reaches_collecting {stamp : Nat} {parcels : List Parcel}
    (phase : (system.threads index).phase = .waiting .exchange stamp)
    (opened : system.generation ≠ stamp)
    (inbox : system.channels index =
      parcels.filter fun parcel => parcel.target == (system.threads index).rank.id) :
    ∃ next count, Reaches plan system next count ∧
      next.threads = Function.update system.threads index
        ((collected parcels (system.threads index)).goTo (.arriving .decision)) ∧
      next.channels = Function.update system.channels index [] ∧
      next.board = Function.update system.board index
        ((system.threads index).worker.collect parcels).status ∧
      next.generation = system.generation ∧ next.arrived = system.arrived := by
  let thread := system.threads index
  let own := parcels.filter fun parcel => parcel.target == thread.rank.id
  obtain ⟨laden, count, taking, threads, channels, board, generation, arrived⟩ :=
    @reaches_taking _ _ plan _ [] own (system.withThread index (thread.goTo (.draining [])))
      index (by simp [withThread, Thread.goTo]) inbox
  have there : laden.threads index = thread.goTo (.draining own) := by
    simp [threads, withThread, Thread.goTo]
  have empty : laden.channels index = [] := by simp [channels]
  -- What was taken is scheduled, and then the status is published.
  have schedules : laden.step plan index =
      some (laden.withThread index ((collected parcels thread).goTo .publishing)) := by
    rw [System.step, there]
    simp only [Thread.step, Thread.goTo, view, empty, Option.map_some]
    rfl
  let status := (thread.worker.collect parcels).status
  have publishes : (laden.withThread index ((collected parcels thread).goTo .publishing)).step plan
      index = some (((laden.withThread index ((collected parcels thread).goTo .publishing)).apply
        index (.publish status)).withThread index
          ((collected parcels thread).goTo (.arriving .decision))) := by
    rw [System.step, show (laden.withThread index ((collected parcels thread).goTo
      .publishing)).threads index = (collected parcels thread).goTo .publishing from
        Function.update_self _ _ _]
    rfl
  refine ⟨_, 1 + count + 1 + 1, (((Reaches.single (step_passing phase opened)).trans taking).trans
    (.single schedules)).trans (.single publishes), ?_, ?_, ?_, generation, arrived⟩
  · rw [threads_withThread]
    simp only [withThread, threads, Function.update_idem]
    rfl
  · funext target
    rw [channels_withThread]
    exact congrFun channels target
  · rw [board_withThread]
    simp only [withThread, board]
    rfl

/-- How far the threads are that take turns through an exchange of parcels. -/
structure Exchanges (round : Nat) (parcels : List Parcel) (system : System C n)
    (done : List (Fin n)) (state : System C n) : Prop where
  /-- Some threads have scheduled their parcels. -/
  threads : state.threads = turned done (fun index => (collected parcels (system.threads index)).goTo
    (.waiting .decision (2 * round + 1))) system.threads
  /-- They have left none in their channels. -/
  channels : state.channels = turned done (fun _ => []) system.channels
  /-- They have published their status. -/
  board : state.board = turned done
    (fun index => ((system.threads index).worker.collect parcels).status) system.board
  /-- Nobody else has arrived. -/
  gathered : state.Gathered (2 * round + 1) done

/-- One more thread takes its turn through the exchange. -/
theorem Exchanges.turn {round : Nat} {parcels : List Parcel} {done rest : List (Fin n)}
    {state : System C n} (exchanges : Exchanges round parcels system done state)
    (split : List.finRange n = done ++ index :: rest)
    (waiting : (system.threads index).phase = .waiting .exchange (2 * round))
    (full : system.channels index =
      parcels.filter fun parcel => parcel.target == (system.threads index).rank.id) :
    ∃ next count, 0 < count ∧ Reaches plan state next count ∧
      Exchanges round parcels system (done ++ [index]) next := by
  obtain ⟨fresh, room⟩ := fresh_of_split split
  have mine : state.threads index = system.threads index := by
    rw [exchanges.threads, turned_of_not_mem fresh]
  have opened : state.generation ≠ 2 * round := by
    rw [(exchanges.gathered.closed room).1]
    omega
  have inbox : state.channels index = parcels.filter fun parcel =>
      parcel.target == (state.threads index).rank.id := by
    rw [exchanges.channels, turned_of_not_mem fresh, full, mine]
  obtain ⟨middle, count, reached, moved, emptied, published, generation, arrived⟩ :=
    reaches_collecting (by rw [mine]; exact waiting) opened inbox
  have there : middle.threads index =
      (collected parcels (system.threads index)).goTo (.arriving .decision) := by
    rw [moved, Function.update_self, mine]
  have arriving : (middle.threads index).phase = .arriving .decision := by
    rw [there]
    rfl
  obtain ⟨next, arrives, final, same, shown, more⟩ :=
    (exchanges.gathered.of_same generation arrived).arrive plan room arriving
  refine ⟨next, count + 1, Nat.succ_pos _, reached.trans arrives, ?_, ?_, ?_, more⟩
  · rw [final, there, moved, Function.update_idem, exchanges.threads, ← update_turned]
    rfl
  · rw [same, emptied, exchanges.channels, ← update_turned]
  · rw [shown, published, exchanges.board, mine, ← update_turned]

/-- The threads take turns through an exchange. -/
theorem reaches_exchange (among : plan.alone = false) {round : Nat} {parcels : List Parcel}
    (waiting : ∀ index, (system.threads index).phase = .waiting .exchange (2 * round))
    (named : ∀ index, (system.threads index).rank.id = plan.ids index)
    (barrier : system.generation = 2 * round + 1 ∧ system.arrived = 0)
    (full : ∀ target, system.channels target =
      parcels.filter fun parcel => parcel.target == plan.ids target) :
    ∃ next count, Reaches plan system next count ∧
      (next.threads = fun index => (collected parcels (system.threads index)).goTo
        (.waiting .decision (2 * round + 1))) ∧
      (∀ target, next.channels target = []) ∧
      (∀ index, next.board index = ((system.threads index).worker.collect parcels).status) ∧
      next.Gathered (2 * round + 1) (List.finRange n) := by
  obtain ⟨next, count, -, reached, exchanges⟩ := @sweep _ _ plan system _
    (Exchanges round parcels system)
    (fun done index rest state split exchanges =>
      exchanges.turn split (waiting index) (by rw [full, named]))
    ⟨turned_nil.symm, turned_nil.symm, turned_nil.symm, gathered_nil among barrier⟩
  exact ⟨next, count, reached, exchanges.threads.trans turned_finRange,
    congrFun (exchanges.channels.trans turned_finRange),
    congrFun (exchanges.board.trans turned_finRange), exchanges.gathered⟩

/-- A thread reads the status of all ranks and decides. -/
theorem reaches_reading (left : Nat) (read : List RankStatus) (system : System C n) (index : Fin n)
    (phase : (system.threads index).phase = .reading read)
    (length : read.length + left = n) (former : read <+: List.ofFn system.board) :
    ∃ count, Reaches plan system
      (system.withThread index ((system.threads index).decide (List.ofFn system.board))) count := by
  induction left generalizing read system with
  | zero =>
    have all : ¬ read.length < n := by omega
    have whole : read = List.ofFn system.board :=
      former.eq_of_length_le (by rw [List.length_ofFn]; omega)
    have decides : (system.threads index).step plan (system.view index) =
        some ((system.threads index).decide (List.ofFn system.board), .idle) := by
      simp only [Thread.step, phase, Thread.readNext, dif_neg all, ← whole]
    have stepped : system.step plan index = some (system.withThread index
        ((system.threads index).decide (List.ofFn system.board))) := by
      rw [System.step, decides]
      rfl
    exact ⟨1, .single stepped⟩
  | succ left ih =>
    have more : read.length < n := by omega
    have reads : (system.threads index).step plan (system.view index) =
        some ((system.threads index).goTo
          (.reading (read ++ [system.board ⟨read.length, more⟩])), .idle) := by
      simp only [Thread.step, phase, Thread.readNext, dif_pos more]
      rfl
    have stepped : system.step plan index = some (system.withThread index
        ((system.threads index).goTo
          (.reading (read ++ [system.board ⟨read.length, more⟩])))) := by
      rw [System.step, reads]
      rfl
    have inside : read.length < (List.ofFn system.board).length := by
      rw [List.length_ofFn]
      exact more
    have longer := List.take_concat_get' (List.ofFn system.board) read.length inside
    rw [← List.prefix_iff_eq_take.mp former, List.getElem_ofFn] at longer
    obtain ⟨count, onward⟩ := ih (read ++ [system.board ⟨read.length, more⟩])
      (system.withThread index ((system.threads index).goTo
        (.reading (read ++ [system.board ⟨read.length, more⟩]))))
      (by simp [withThread, Thread.goTo]) (by simp; omega)
      (by
        rw [longer]
        exact List.take_prefix _ _)
    rw [withThread_withThread] at onward
    simp only [withThread, Function.update_self] at onward
    exact ⟨1 + count, (Reaches.single stepped).trans onward⟩

/-- A thread behind its decision, and behind its end where the ranks do not go on. -/
def resolved (read : List RankStatus) (thread : Thread C) : Thread C :=
  match decision read with
  | .stop reason => (thread.decide read).closed reason (thread.decide read).rank.finish
  | _ => thread.decide read

/-- A thread reads the status of all ranks and does what follows from it. -/
theorem reaches_resolved {stamp : Nat}
    (phase : (system.threads index).phase = .waiting .decision stamp)
    (opened : system.generation ≠ stamp) :
    ∃ count, 0 < count ∧ Reaches plan system (system.withThread index
      (resolved (List.ofFn system.board) (system.threads index))) count := by
  let thread := system.threads index
  obtain ⟨count, reading⟩ := @reaches_reading _ _ plan _ n []
    (system.withThread index (thread.goTo (.reading []))) index
    (by simp [withThread, Thread.goTo]) (Nat.zero_add n) List.nil_prefix
  rw [withThread_withThread] at reading
  have there : (system.withThread index (thread.goTo (.reading []))).threads index =
      thread.goTo (.reading []) := Function.update_self _ _ _
  rw [there] at reading
  have same : (thread.goTo (.reading [])).decide (List.ofFn system.board) =
      thread.decide (List.ofFn system.board) := by
    simp only [Thread.decide, Thread.goTo]
    split <;> rfl
  have decides : Reaches plan system
      (system.withThread index (thread.decide (List.ofFn system.board))) (1 + count) := by
    rw [← same]
    exact (Reaches.single (step_passing phase opened)).trans reading
  rw [resolved]
  cases decided : decision (List.ofFn system.board) with
  | stop reason =>
    have finishing : (thread.decide (List.ofFn system.board)).phase =
        .finishing reason thread.positions := by
      simp only [Thread.decide, decided]
      rfl
    obtain ⟨more, strides⟩ := @Thread.strides_finish _ _ plan _ reason thread.positions _ finishing
    have finishes := reaches_of_strides strides
      (system.withThread index (thread.decide (List.ofFn system.board))) index
      (Function.update_self _ _ _)
    rw [withThread_withThread] at finishes
    have positions : Rank.finishAll thread.positions
        (thread.decide (List.ofFn system.board)).rank =
          (thread.decide (List.ofFn system.board)).rank.finish := by
      simp only [Thread.decide, decided, Rank.finish]
      rfl
    rw [positions] at finishes
    exact ⟨1 + count + more, by omega, decides.trans finishes⟩
  | _ => exact ⟨1 + count, by omega, decides⟩

/-- The threads take turns through a decision. -/
theorem reaches_decision {round : Nat}
    (waiting : ∀ index, (system.threads index).phase = .waiting .decision (2 * round + 1))
    (barrier : system.generation = 2 * round + 2) :
    ∃ next count, Reaches plan system next count ∧
      (next.threads = fun index =>
        resolved (List.ofFn system.board) (system.threads index)) ∧
      next.channels = system.channels ∧ next.generation = system.generation ∧
      next.arrived = system.arrived := by
  obtain ⟨count, reached⟩ := @sweep_threads _ _ plan system _
    (fun index => resolved (List.ofFn system.board) (system.threads index))
    (fun index threads mine => by
      have opened : system.generation ≠ 2 * round + 1 := by
        rw [barrier]
        omega
      rw [← mine]
      exact @reaches_resolved _ _ plan { system with threads } index _ _
        ((congrArg Thread.phase mine).trans (waiting index)) opened)
  exact ⟨_, count, reached, rfl, rfl, rfl, rfl⟩

end System

end Rally
