import Rally.Proofs.Threads.RoundRobin
import Rally.Proofs.Threads.Schedule
/-!
# Windows and threads

A run in windows and the run of the threads in turn go together, round by round: the ranks and the
deeds are the same at the start of each window and at the end. So where the run in windows has a
result, the threads come to the same one; and where fuel does not suffice for it, the threads run
for as many steps.
-/

namespace Rally

/-- A function that succeeds for all members of a list succeeds for the list. -/
theorem mapM_of_some {α β : Type} {f : α → Option β} {g : α → β} (members : List α)
    (all : ∀ member ∈ members, f member = some (g member)) :
    members.mapM f = some (members.map g) := by
  induction members with
  | nil => rfl
  | cons first rest ih =>
    rw [List.mapM_cons, all first List.mem_cons_self,
      ih fun member inside => all member (List.mem_cons_of_mem first inside)]
    rfl

/-- A function that fails for a member of a list fails for the list. -/
theorem mapM_of_none {α β : Type} {f : α → Option β} {members : List α} {member : α}
    (inside : member ∈ members) (fails : f member = none) : members.mapM f = none := by
  induction members with
  | nil => cases inside
  | cons first rest ih =>
    rw [List.mapM_cons]
    rcases List.mem_cons.mp inside with rfl | inside
    · rw [fails]
      rfl
    · rw [ih inside]
      cases f first <;> rfl

/-- Where a function succeeds for a list, it does so for each member, in the same order. -/
theorem related_of_mapM {α β : Type} {f : α → Option β} {members : List α} {results : List β}
    (succeeds : members.mapM f = some results) :
    List.Forall₂ (fun member result => f member = some result) members results := by
  induction members generalizing results with
  | nil =>
    cases succeeds
    exact .nil
  | cons first rest ih =>
    rw [List.mapM_cons] at succeeds
    obtain ⟨result, here, others⟩ := Option.bind_eq_some_iff.mp succeeds
    obtain ⟨more, behind, same⟩ := Option.bind_eq_some_iff.mp others
    cases same
    exact .cons here (ih behind)

/-- Two lists told by functions are combined place by place. -/
theorem zipWith_ofFn {α β γ : Type} {n : Nat} (f : α → β → γ) (former : Fin n → α)
    (latter : Fin n → β) :
    List.zipWith f (List.ofFn former) (List.ofFn latter) =
      List.ofFn fun index => f (former index) (latter index) :=
  List.ext_getElem (by simp) (by simp)

/-- It does not matter which of three lists are joined first, place by place. -/
theorem zipWith_append_assoc {α : Type} (first second third : List (List α)) :
    List.zipWith (· ++ ·) (List.zipWith (· ++ ·) first second) third =
      List.zipWith (· ++ ·) first (List.zipWith (· ++ ·) second third) :=
  List.ext_getElem (by simp [Nat.min_assoc]) (by simp)

namespace Worker

variable {C : Type}

/-- A rank keeps its number where its parcels are taken out. -/
theorem id_ship (known : List RankId) (worker : Worker C) :
    (worker.ship known).1.rank.id = worker.rank.id := by
  rw [ship]
  split <;> rfl

end Worker

namespace System

variable {C : Type} {n : Nat} {plan : Plan n} {system next : System C n}

/-- All threads are to open a window, and nothing is on its way. -/
structure Opened (plan : Plan n) (round : Nat) (start : Instant) (system : System C n) : Prop where
  /-- The run is regular. -/
  regular : system.Regular plan
  /-- Every thread is to open a window. -/
  phase : ∀ index, (system.threads index).phase = .opening
  /-- The window is the same for all. -/
  rounds : ∀ index, (system.threads index).round = round
  /-- It begins at the same instant for all. -/
  starts : ∀ index, (system.threads index).start = start
  /-- The channels are empty. -/
  channels : ∀ target, system.channels target = []
  /-- Nobody is at the barrier. -/
  barrier : system.generation = 2 * round ∧ system.arrived = 0

/-- The ranks of the threads, as they run in windows. -/
def workers (system : System C n) : List (Worker C) :=
  List.ofFn fun index => (system.threads index).worker

/-- The deeds of the threads. -/
def histories (system : System C n) : List (List Deed) :=
  List.ofFn fun index => (system.threads index).history

/-- The parcels that all ranks ship behind a window. -/
def shipment (plan : Plan n) (advanced : Fin n → Worker C) : List Parcel :=
  (List.finRange n).flatMap fun index => ((advanced index).ship (List.ofFn plan.ids)).2

/-- The exchange between the ranks of threads. -/
theorem exchange_ofFn {advanced : Fin n → Worker C}
    (named : ∀ index, (advanced index).rank.id = plan.ids index) :
    Windows.exchange (List.ofFn advanced) = List.ofFn fun index =>
      ((advanced index).ship (List.ofFn plan.ids)).1.collect (shipment plan advanced) := by
  have known : (List.ofFn advanced).map (fun worker => worker.rank.id) = List.ofFn plan.ids := by
    rw [List.map_ofFn]
    exact congrArg List.ofFn (funext named)
  rw [Windows.exchange, known]
  simp only [shipment, List.ofFn_eq_map, List.map_map, List.flatMap_map]
  rfl

/-- The deeds of the exchange between the ranks of threads. -/
theorem exchangeDeeds_ofFn {advanced : Fin n → Worker C}
    (named : ∀ index, (advanced index).rank.id = plan.ids index) :
    Windows.exchangeDeeds (List.ofFn advanced) = List.ofFn fun index =>
      ((advanced index).ship (List.ofFn plan.ids)).1.rank.receiveDeeds
        ((shipment plan advanced).filter fun parcel => parcel.target ==
          ((advanced index).ship (List.ofFn plan.ids)).1.rank.id) := by
  have known : (List.ofFn advanced).map (fun worker => worker.rank.id) = List.ofFn plan.ids := by
    rw [List.map_ofFn]
    exact congrArg List.ofFn (funext named)
  rw [Windows.exchangeDeeds, known]
  simp only [shipment, List.ofFn_eq_map, List.map_map, List.flatMap_map]
  rfl

section Windows

variable [Component C] {fuel round : Nat} {start : Instant}

/-- Behind the start of a window the threads use the same bound and count votes alike. -/
theorem Opened.advance_eq (opened : system.Opened plan round start) (among : plan.alone = false)
    (index : Fin n) :
    let bound := plan.lookahead.map start.saturatingAdd
    (system.threads index).advance plan fuel =
      (system.threads index).worker.advance fuel start bound (bound.isNone && round == 0) ∧
    (system.threads index).advanceDeeds plan fuel =
      (system.threads index).worker.advanceDeeds fuel start bound
        (bound.isNone && round == 0) := by
  have bound : plan.bound start = plan.lookahead.map start.saturatingAdd := by
    rw [Plan.bound, among, if_neg Bool.false_ne_true]
  have byVote : plan.byVote round =
      ((plan.lookahead.map start.saturatingAdd).isNone && round == 0) := by
    rw [Plan.byVote, Plan.bound, among, if_neg Bool.false_ne_true, if_neg Bool.false_ne_true]
    cases plan.lookahead <;> rfl
  rw [Thread.advance, Thread.advanceDeeds, opened.starts, opened.rounds, bound, byVote]
  exact ⟨rfl, rfl⟩

/-- Where each thread gets through a window, so do the ranks in windows. -/
theorem Opened.window_eq_some (opened : system.Opened plan round start)
    (among : plan.alone = false) {advanced : Fin n → Worker C}
    (advances : ∀ index, (system.threads index).advance plan fuel = some (advanced index)) :
    let bound := plan.lookahead.map start.saturatingAdd
    system.workers.mapM (Worker.advance fuel start bound (bound.isNone && round == 0)) =
      some (List.ofFn advanced) := by
  intro bound
  rw [workers, List.ofFn_eq_map, List.ofFn_eq_map, List.mapM_map]
  refine mapM_of_some _ fun index _ => ?_
  rw [← advances index]
  exact (opened.advance_eq among index).1.symm

/-- Where some thread does not get through a window, nor do the ranks in windows. -/
theorem Opened.window_eq_none (opened : system.Opened plan round start)
    (among : plan.alone = false) {index : Fin n}
    (stuck : (system.threads index).advance plan fuel = none) :
    Windows.window fuel plan.lookahead round start system.workers = none := by
  rw [Windows.window, Option.map_eq_none_iff, workers]
  refine mapM_of_none (List.mem_ofFn.mpr ⟨index, rfl⟩) ?_
  rw [← stuck]
  exact (opened.advance_eq among index).1.symm

/-- The deeds of the ranks in a window are those of the threads. -/
theorem Opened.windowDeeds_eq (opened : system.Opened plan round start)
    (among : plan.alone = false) {advanced : Fin n → Worker C}
    (advances : ∀ index, (system.threads index).advance plan fuel = some (advanced index))
    (named : ∀ index, (advanced index).rank.id = plan.ids index) :
    Windows.windowDeeds fuel plan.lookahead round start system.workers =
      List.ofFn fun index => (system.threads index).advanceDeeds plan fuel ++
        ((advanced index).ship (List.ofFn plan.ids)).1.rank.receiveDeeds
          ((shipment plan advanced).filter fun parcel => parcel.target ==
            ((advanced index).ship (List.ofFn plan.ids)).1.rank.id) := by
  rw [Windows.windowDeeds, opened.window_eq_some among advances, Option.map_some,
    Option.getD_some, exchangeDeeds_ofFn named, workers, List.map_ofFn, zipWith_ofFn]
  refine congrArg List.ofFn (funext fun index => ?_)
  rw [(opened.advance_eq among index).2]
  rfl

/-- All threads wait for the decision behind a window, and nothing is on its way. -/
structure Settled (round : Nat) (ranks : List (Worker C)) (deeds : List (List Deed))
    (system : System C n) : Prop where
  /-- Every thread waits for the decision. -/
  phase : ∀ index, (system.threads index).phase = .waiting .decision (2 * round + 1)
  /-- The window is the same for all. -/
  rounds : ∀ index, (system.threads index).round = round
  /-- The channels are empty. -/
  channels : ∀ target, system.channels target = []
  /-- The barrier has opened. -/
  barrier : system.generation = 2 * round + 2 ∧ system.arrived = 0
  /-- The status of all ranks is published. -/
  board : List.ofFn system.board = ranks.map Worker.status
  /-- The ranks are those that ran in windows. -/
  workers : system.workers = ranks
  /-- So are their deeds. -/
  histories : system.histories = deeds

omit [Component C] in
/-- The rank of each thread is one of those that ran in windows. -/
theorem Settled.mem_workers {ranks : List (Worker C)} {deeds : List (List Deed)}
    (settled : system.Settled round ranks deeds) (index : Fin n) :
    (system.threads index).worker ∈ ranks := by
  rw [← settled.workers]
  exact List.mem_ofFn.mpr ⟨index, rfl⟩

omit [Component C] in
/-- Where no published status tells of a failure, no rank has failed. -/
theorem Settled.healthy {ranks : List (Worker C)} {deeds : List (List Deed)}
    (settled : system.Settled round ranks deeds)
    (free : ∀ status ∈ ranks.map Worker.status, status.failed = false) (index : Fin n) :
    (system.threads index).worker.failure = none :=
  Option.not_isSome_iff_eq_none.mp
    (Bool.not_eq_true _ ▸ free _ (List.mem_map_of_mem (settled.mem_workers index)))

/-- The threads take turns through a window and the exchange behind it. -/
theorem Opened.settles (opened : system.Opened plan round start) (among : plan.alone = false)
    (distinct : Function.Injective plan.ids) {advanced : Fin n → Worker C}
    (advances : ∀ index, (system.threads index).advance plan fuel = some (advanced index)) :
    ∃ next count, n ≤ count ∧ Reaches plan system next count ∧
      next.Settled round (Windows.exchange (List.ofFn advanced))
        (List.zipWith (· ++ ·) system.histories
          (Windows.windowDeeds fuel plan.lookahead round start system.workers)) := by
  obtain ⟨middle, count, long, windows, threads, channels, gathered⟩ :=
    reaches_windows among distinct opened.phase opened.barrier opened.channels advances
  have regular : middle.Regular plan := by
    obtain ⟨schedule, -, reached⟩ := windows
    exact opened.regular.exec among distinct reached
  have ids := regular.carried.identified
  have named : ∀ index, (advanced index).rank.id = plan.ids index := by
    intro index
    rw [← ids index, threads]
    exact (Worker.id_ship _ _).symm
  have all : n ≤ (List.finRange n).length := Nat.le_of_eq (List.length_finRange).symm
  obtain ⟨next, more, exchange, moved, emptied, board, gatheredToo⟩ :=
    reaches_exchange among (fun index => by rw [threads]) ids (gathered.opened all) channels
  refine ⟨next, count + more, by omega, windows.trans exchange, fun index => by rw [moved]; rfl,
    fun index => ?_, emptied, gatheredToo.opened all, ?_, ?_, ?_⟩
  · rw [moved, threads]
    exact opened.rounds index
  · rw [exchange_ofFn named, List.map_ofFn]
    refine congrArg List.ofFn (funext fun index => ?_)
    rw [board, threads]
    rfl
  · rw [workers, moved, threads, exchange_ofFn named]
    rfl
  · rw [histories, histories, moved, threads, opened.windowDeeds_eq among advances named,
      zipWith_ofFn]
    exact congrArg List.ofFn (funext fun index => List.append_assoc _ _ _)

variable {ranks : List (Worker C)} {deeds : List (List Deed)}

/-- Where the threads of a run are settled and go on, all of them are to open the next window. -/
theorem Settled.proceeds (settled : system.Settled round ranks deeds)
    (regular : system.Regular plan) (among : plan.alone = false)
    (distinct : Function.Injective plan.ids) {later : Instant}
    (decided : decision (ranks.map Worker.status) = .proceed later) :
    ∃ next count, Reaches plan system next count ∧ next.Opened plan (round + 1) later ∧
      next.workers = ranks ∧ next.histories = deeds := by
  obtain ⟨next, count, reached, threads, channels, generation, arrived⟩ :=
    @reaches_decision _ _ plan system _ round settled.phase settled.barrier.1
  have goes : ∀ thread : Thread C, resolved (List.ofFn system.board) thread =
      { thread with
        minutes := thread.minutes ++ [List.ofFn system.board]
        start := later, round := thread.round + 1, phase := .opening } := by
    intro thread
    rw [settled.board] at *
    rw [resolved, Thread.decide, decided]
  simp only [goes] at threads
  refine ⟨next, count, reached, ⟨?_, ?_, ?_, ?_, ?_, ?_⟩, ?_, ?_⟩
  · obtain ⟨schedule, -, executed⟩ := reached
    exact regular.exec among distinct executed
  · intro index
    rw [threads]
  · intro index
    rw [threads]
    exact congrArg (· + 1) (settled.rounds index)
  · intro index
    rw [threads]
  · intro target
    rw [channels, settled.channels]
  · rw [generation, arrived]
    exact settled.barrier
  · rw [System.workers, threads]
    exact settled.workers
  · rw [System.histories, threads]
    exact settled.histories

/-- How a rank ends that ran in windows. -/
def ending (decision : Decision) (windows : Nat) (worker : Worker C) :
    Rank C × Option (Except RunError Termination) :=
  let concluded := Windows.conclude decision windows worker
  (concluded.1.rank, some concluded.2)

/-- Where the ranks do not go on, a thread ends as its rank does. -/
theorem ending_resolved {read : List RankStatus} {thread : Thread C}
    (leaves : ∀ later, decision read ≠ .proceed later) :
    let ended := resolved read thread
    (∃ result, ended.phase = .ended result) ∧ ended.history = thread.history ∧
      (ended.rank, ended.result?) = ending (decision read) thread.round thread.worker := by
  simp only [resolved, Thread.decide, ending, Windows.conclude]
  cases decided : decision read with
  | proceed later => exact (leaves later decided).elim
  | abort => exact ⟨⟨_, rfl⟩, rfl, rfl⟩
  | stop reason =>
    refine ⟨⟨_, rfl⟩, rfl, ?_⟩
    simp only [Worker.finish, Thread.closed, Thread.rank, Thread.withRank, Thread.goTo,
      Thread.result?]
    cases (thread.worker.note .debug
      ["stopping after ", toString thread.round, " windows: ", reason.message]).rank.finish with
    | mk rank halt => cases halt <;> rfl

/-- All threads have ended, each like the rank that ran in windows. -/
structure Concluded (workers : List (Worker C)) (decision : Decision) (windows : Nat)
    (deeds : List (List Deed)) (system : System C n) : Prop where
  /-- All threads have ended. -/
  complete : system.Complete
  /-- With the ranks and the results of a run in windows. -/
  endings : (List.ofFn fun index =>
      ((system.threads index).rank, (system.threads index).result?)) =
    workers.map (ending decision windows)
  /-- With its deeds. -/
  histories : system.histories = deeds

/-- Where the threads of a run are settled and do not go on, all of them end. -/
theorem Settled.concludes (settled : system.Settled round ranks deeds)
    (leaves : ∀ later, decision (ranks.map Worker.status) ≠ .proceed later) :
    ∃ next count, Reaches plan system next count ∧
      next.Concluded ranks (decision (ranks.map Worker.status)) round deeds := by
  obtain ⟨next, count, reached, threads, -, -, -⟩ :=
    @reaches_decision _ _ plan system _ round settled.phase settled.barrier.1
  rw [settled.board] at threads
  have ended := fun index => @ending_resolved _ _ _ (system.threads index) leaves
  refine ⟨next, count, reached, ?_, ?_, ?_⟩
  · intro index
    rw [threads]
    exact (ended index).1
  · rw [threads]
    simp only [fun index => (ended index).2.2, settled.rounds]
    have same : ranks = List.ofFn fun index => (system.threads index).worker :=
      settled.workers.symm
    generalize decision (ranks.map Worker.status) = common
    rw [same, List.map_ofFn]
    rfl
  · rw [System.histories, threads]
    simp only [fun index => (ended index).2.1]
    exact settled.histories

/-- Where the ranks come to an end, the threads settle like them for the last time. -/
theorem Opened.reaches_settled (opened : system.Opened plan round start)
    (among : plan.alone = false) (distinct : Function.Injective plan.ids)
    {common : Decision} {windows : Nat}
    (runs : Windows.run plan.lookahead fuel round start system.workers =
      some (ranks, common, windows)) :
    ∃ next count, Reaches plan system next count ∧
      next.Settled windows ranks (List.zipWith (· ++ ·) system.histories
        (Windows.runDeeds plan.lookahead fuel round start system.workers)) ∧
      common = decision (ranks.map Worker.status) ∧ ∀ later, common ≠ .proceed later := by
  induction fuel generalizing system round start with
  | zero => cases runs
  | succ fuel ih =>
    by_cases stuck : ∃ index, (system.threads index).advance plan fuel = none
    · obtain ⟨index, stuck⟩ := stuck
      rw [Windows.run, opened.window_eq_none among stuck] at runs
      cases runs
    · have advances : ∀ index, ∃ worker, (system.threads index).advance plan fuel = some worker :=
        fun index => Option.ne_none_iff_exists'.mp fun none => stuck ⟨index, none⟩
      choose advanced advances using advances
      have window : Windows.window fuel plan.lookahead round start system.workers =
          some (Windows.exchange (List.ofFn advanced)) := by
        rw [Windows.window, opened.window_eq_some among advances, Option.map_some]
      obtain ⟨middle, count, -, reached, settled⟩ := opened.settles among distinct advances
      by_cases goes : ∃ later,
          decision ((Windows.exchange (List.ofFn advanced)).map Worker.status) = .proceed later
      · obtain ⟨later, decided⟩ := goes
        obtain ⟨run, deeds⟩ := Windows.run_of_proceed window decided
        have regular : middle.Regular plan := by
          obtain ⟨schedule, -, executed⟩ := reached
          exact opened.regular.exec among distinct executed
        obtain ⟨begun, more, onward, openedToo, same, former⟩ :=
          settled.proceeds regular among distinct decided
        rw [run, ← same] at runs
        obtain ⟨next, last, further, ended⟩ := ih openedToo runs
        refine ⟨next, count + more + last, (reached.trans onward).trans further, ?_⟩
        rw [former, same, zipWith_append_assoc] at ended
        rw [deeds]
        exact ended
      · have leaves := not_exists.mp goes
        obtain ⟨run, deeds⟩ := Windows.run_of_leaves window leaves
        rw [run] at runs
        simp only [Option.some.injEq, Prod.mk.injEq] at runs
        obtain ⟨rfl, rfl, rfl⟩ := runs
        exact ⟨middle, count, reached, by rw [deeds]; exact settled, rfl, leaves⟩

/-- Where the ranks come to an end, the threads come to the same one. -/
theorem Opened.reaches_end (opened : system.Opened plan round start)
    (among : plan.alone = false) (distinct : Function.Injective plan.ids)
    {common : Decision} {windows : Nat}
    (runs : Windows.run plan.lookahead fuel round start system.workers =
      some (ranks, common, windows)) :
    ∃ next count, Reaches plan system next count ∧
      next.Concluded ranks common windows (List.zipWith (· ++ ·) system.histories
        (Windows.runDeeds plan.lookahead fuel round start system.workers)) := by
  obtain ⟨middle, count, reached, settled, rfl, leaves⟩ :=
    opened.reaches_settled among distinct runs
  obtain ⟨next, more, onward, concluded⟩ := settled.concludes leaves
  exact ⟨next, count + more, reached.trans onward, concluded⟩

/-- Where the ranks do not come to an end for want of fuel, the threads run on for as many steps. -/
theorem Opened.reaches_beyond (opened : system.Opened plan round start)
    (among : plan.alone = false) (distinct : Function.Injective plan.ids)
    (runs : Windows.run plan.lookahead fuel round start system.workers = none) :
    ∃ next count, fuel ≤ count ∧ Reaches plan system next count := by
  induction fuel generalizing system round start with
  | zero => exact ⟨system, 0, Nat.le_refl 0, .refl system⟩
  | succ fuel ih =>
    by_cases stuck : ∃ index, (system.threads index).advance plan fuel = none
    · obtain ⟨index, stuck⟩ := stuck
      obtain ⟨last, strides⟩ := Thread.strides_beyond among (opened.phase index) stuck
      exact ⟨_, fuel + 1, Nat.le_refl _, reaches_of_strides strides system index rfl⟩
    · have advances : ∀ index, ∃ worker, (system.threads index).advance plan fuel = some worker :=
        fun index => Option.ne_none_iff_exists'.mp fun none => stuck ⟨index, none⟩
      choose advanced advances using advances
      have window : Windows.window fuel plan.lookahead round start system.workers =
          some (Windows.exchange (List.ofFn advanced)) := by
        rw [Windows.window, opened.window_eq_some among advances, Option.map_some]
      obtain ⟨middle, count, long, reached, settled⟩ := opened.settles among distinct advances
      by_cases goes : ∃ later,
          decision ((Windows.exchange (List.ofFn advanced)).map Worker.status) = .proceed later
      · obtain ⟨later, decided⟩ := goes
        have regular : middle.Regular plan := by
          obtain ⟨schedule, -, executed⟩ := reached
          exact opened.regular.exec among distinct executed
        obtain ⟨begun, more, onward, openedToo, same, -⟩ :=
          settled.proceeds regular among distinct decided
        rw [(Windows.run_of_proceed window decided).1, ← same] at runs
        obtain ⟨last, rest, enough, further⟩ := ih openedToo runs
        have positive := pos_of_among among
        exact ⟨last, count + more + rest, by omega, (reached.trans onward).trans further⟩
      · have leaves := not_exists.mp goes
        rw [(Windows.run_of_leaves window leaves).1] at runs
        cases runs

end Windows

end System

end Rally
