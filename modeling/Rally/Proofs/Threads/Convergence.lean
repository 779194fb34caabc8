import Rally.Player
import Rally.Proofs.Simulation.RunEndings
import Rally.Proofs.Threads.Launch
import Rally.Topology.Readymade
/-!
# All schedules lead to one end

However the steps of the threads are mixed, the threads read the same status of all ranks behind
each window and decide alike, and each of them takes what was posted to it in the round in which it
was posted. Some thread has a step until all have ended, and then their ranks, their result and
their deeds are those of the run in windows, whatever the schedule was.
-/

namespace Rally

/-- A function that succeeds for each member of a list does so for the list. -/
theorem mapM_of_map_eq {α β : Type} {f : α → Option β} {members : List α} {results : List β}
    (each : members.map f = results.map some) : members.mapM f = some results := by
  have through : members.mapM f = (members.map f).mapM id := by rw [List.mapM_map]; rfl
  have back : (results.map some).mapM id = results.mapM some := by rw [List.mapM_map]; rfl
  rw [through, each, back, mapM_of_some results fun _ _ => rfl]
  exact congrArg some (List.map_id' results)

namespace Thread

variable {C : Type}

/-- Whether a thread has emptied its channel in a round. -/
def HasTaken (round : Nat) (thread : Thread C) : Prop :=
  round < thread.round ∨
    round = thread.round ∧ (thread.phase.hasDrained ∨ thread.phase.lag = 2)

end Thread

namespace System

variable {C : Type} {n : Nat} {plan : Plan n} {system next : System C n} {index : Fin n}

/-- What the threads of a run agree on. -/
structure Unanimous (system : System C n) : Prop where
  /-- Behind a window, two threads read the same status of all ranks. -/
  read : ∀ (first second : Fin n) (round : Nat) (status other : List RankStatus),
    (system.threads first).minutes[round]? = some status →
      (system.threads second).minutes[round]? = some other → status = other
  /-- Behind every former window, a thread went on as decided. -/
  went : ∀ index, ∀ round < (system.threads index).round, ∃ (status : List RankStatus) (later : Instant),
    (system.threads index).minutes[round]? = some status ∧ decision status = .proceed later ∧
      (round + 1 = (system.threads index).round → (system.threads index).start = later)
  /-- A thread that has left its rounds did so as decided. -/
  left : ∀ index, (system.threads index).phase.isOver → ∃ status,
    (system.threads index).minutes[(system.threads index).round]? = some status ∧
      (system.threads index).Heeds (decision status)
  /-- Behind that decision, no other thread goes on. -/
  together : ∀ index, (system.threads index).phase.isOver →
    ∀ other, (system.threads other).round ≤ (system.threads index).round

/-- In a regular run the threads agree. -/
theorem Regular.unanimous (regular : system.Regular plan) : system.Unanimous := by
  obtain ⟨ledger, recorded⟩ := regular.recorded
  refine ⟨fun first second round status other mine theirs => ?_, fun index round former => ?_,
    fun index gone => (recorded.minuted index).left gone,
    fun index gone other => regular.round_le gone other⟩
  · exact Option.some.inj ((recorded.entry mine).symm.trans (recorded.entry theirs))
  · have minuted := recorded.minuted index
    have inside : round < (system.threads index).minutes.length := by
      rw [minuted.length]
      omega
    have among : (system.threads index).minutes[round] ∈
        (system.threads index).minutes.take (system.threads index).round :=
      List.mem_take_iff_getElem.mpr ⟨round, by omega, rfl⟩
    obtain ⟨later, proceeds⟩ := minuted.went _ among
    refine ⟨_, later, List.getElem?_eq_getElem inside, proceeds, fun last => ?_⟩
    rw [minuted.start, startBehind, ← last, List.take_add_one, List.getElem?_eq_getElem inside]
    simp only [Option.toList_some, List.getLast?_append, List.getLast?_singleton,
      proceeds, Option.some_or]

/-- How parcels get from their senders to their receivers. -/
structure Delivers (plan : Plan n) (system : System C n) : Prop where
  /-- What is posted to a thread is for its rank. -/
  addressed : ∀ index, ∀ entry ∈ system.posted index, entry.2.target = plan.ids index
  /-- A thread takes what is posted to it in that order, each in the round of the sender. -/
  ordered : ∀ index, system.drained index <+: system.posted index
  /-- A thread that has emptied its channel in a round has taken all that is posted in it. -/
  whole : ∀ index round, (system.threads index).HasTaken round →
    (system.drained index).filter (fun entry => entry.1 ≤ round) =
      (system.posted index).filter fun entry => entry.1 ≤ round

/-- A thread that has emptied its channel in a round leaves nothing of it there. -/
theorem Regular.rest_of_hasTaken (regular : system.Regular plan) {round : Nat}
    (taken : (system.threads index).HasTaken round) :
    system.channels index = [] ∨ round < system.generation / 2 := by
  have sync := regular.lockstep.synchronous index
  have epoch : (system.threads index).epoch ≤ system.generation := by
    rcases sync.current with same | ⟨more, -⟩ <;> omega
  rw [Thread.epoch] at epoch
  rcases taken with before | ⟨same, drained | gone⟩
  · right
    omega
  · rw [Phase.lag_of_hasDrained drained] at epoch
    rcases Nat.mod_two_eq_zero_or_one system.generation with even | odd
    · right
      omega
    · exact Or.inl (regular.tracked.emptied odd index drained)
  · right
    omega

/-- In a regular run every parcel is taken in the round in which it was posted. -/
theorem Regular.delivers (regular : system.Regular plan)
    (addressed : ∀ index, ∀ entry ∈ system.posted index, entry.2.target = plan.ids index) :
    system.Delivers plan := by
  refine ⟨addressed, fun index => ?_, fun index round taken => ?_⟩
  · rw [regular.tracked.posted index]
    exact List.prefix_append _ _
  · rw [regular.tracked.posted index, List.filter_append]
    refine (List.append_right_eq_self.mpr (List.filter_eq_nil_iff.mpr ?_)).symm
    intro entry inside
    obtain ⟨parcel, held, rfl⟩ := List.mem_map.mp inside
    rcases regular.rest_of_hasTaken taken with empty | later
    · rw [empty] at held
      cases held
    · rw [decide_eq_true_eq]
      omega

/-- Of two runs that are alike, both have ended with the same threads where one has. -/
theorem Alike.threads_eq {other : System C n} (alike : system.Alike other)
    (complete : system.Complete) : system.threads = other.threads := by
  funext index
  obtain ⟨result, ended⟩ := complete index
  have same := alike.threads index
  rw [Thread.unladen_of_ne fun taken draining => by cases ended.symm.trans draining] at same
  rw [same]
  refine Thread.unladen_of_ne fun taken draining => ?_
  rw [Thread.unladen, draining] at same
  rw [same] at ended
  cases ended

variable [Component C]

/-- A step posts a parcel to the thread that it is for alone. -/
theorem addressed_step (stepped : system.step plan index = some next)
    (addressed : ∀ index, ∀ entry ∈ system.posted index, entry.2.target = plan.ids index) :
    ∀ index, ∀ entry ∈ next.posted index, entry.2.target = plan.ids index := by
  obtain ⟨thread, effect, move, rfl⟩ := moves_of_step stepped
  intro other entry inside
  cases move with
  | @posted parcel rest target before known =>
    by_cases here : other = target
    · subst here
      simp only [withThread, apply, Function.update_self, List.mem_append,
        List.mem_singleton] at inside
      rcases inside with old | rfl
      · exact addressed other entry old
      · exact (ids_of_index? known).symm
    · simp only [withThread, apply, Function.update_of_ne here] at inside
      exact addressed other entry inside
  | arrived =>
    simp only [withThread, apply] at inside
    split at inside <;> exact addressed other entry inside
  | _ => exact addressed other entry inside

/-- Where all threads have ended, none has a step. -/
theorem Complete.final (complete : system.Complete) (plan : Plan n) (index : Fin n) :
    system.step plan index = none :=
  stuck_iff.mpr (Or.inl (complete index))

/-- The end of a run of the threads is that of the ranks in windows. -/
structure Ends (fuel : Nat) (plan : Plan n) (ranks : List (Rank C)) (system : System C n) :
    Prop where
  /-- All threads have ended. -/
  complete : system.Complete
  /-- The ranks and the result are the same. -/
  outcome : ∃ verdict, system.verdict? = some verdict ∧
    Simulation.runWindows fuel plan.lookahead ranks =
      some (List.ofFn fun index => (system.threads index).rank, verdict)
  /-- The same happened on each rank, in the same order. -/
  histories : system.histories = Simulation.account fuel plan.lookahead ranks

/-- The end of a run depends on its threads alone. -/
theorem Ends.of_threads_eq {other : System C n} {fuel : Nat} {ranks : List (Rank C)}
    (ends : system.Ends fuel plan ranks) (same : system.threads = other.threads) :
    other.Ends fuel plan ranks := by
  obtain ⟨complete, outcome, histories⟩ := ends
  rw [Complete, same] at complete
  rw [verdict?, same] at outcome
  rw [System.histories, same] at histories
  exact ⟨complete, outcome, histories⟩

/-- Threads that have ended like the ranks in windows have their result. -/
theorem Concluded.ends {fuel windows : Nat} {ranks : List (Rank C)} {workers : List (Worker C)}
    {decision : Decision} {deeds : List (List Deed)}
    (concluded : system.Concluded workers decision windows deeds)
    (runs : Windows.run plan.lookahead fuel 0 Instant.zero (ranks.map Worker.ofRank) =
      some (workers, decision, windows))
    (told : deeds = Simulation.account fuel plan.lookahead ranks) :
    system.Ends fuel plan ranks := by
  have endings := concluded.endings
  let ended := workers.map (Windows.conclude decision windows)
  have results : (List.ofFn system.threads).map Thread.result? = (ended.map Prod.snd).map some := by
    have second := congrArg (List.map Prod.snd) endings
    rw [List.map_ofFn, List.map_map] at second
    rw [List.map_ofFn, List.map_map, List.map_map]
    exact second
  have last : (List.ofFn fun index => (system.threads index).rank) =
      ended.map fun result => result.1.rank := by
    have first := congrArg (List.map Prod.fst) endings
    rw [List.map_ofFn, List.map_map] at first
    rw [List.map_map]
    exact first
  refine ⟨concluded.complete, ⟨Windows.verdict (ended.map Prod.snd), ?_, ?_⟩,
    concluded.histories.trans told⟩
  · rw [verdict?, mapM_of_map_eq results]
    rfl
  · rw [Simulation.runWindows, runs, last]

end System

namespace Simulation

variable {C : Type} [Component C] {registry : Registry C} {options : Options}
  {topology : Topology} {clock : Instant} {journal : Journal} {simulation : Simulation C}

/-- Where the ranks in windows come to an end, so do the threads in turn. -/
theorem reaches_ends
    (built : (build registry options topology clock journal).2 = .ok simulation)
    (several : 2 ≤ simulation.ranks.length) {filter : Filter} {fuel : Nat}
    (runs : runWindows fuel simulation.lookahead (simulation.ranks.map (logged filter)) ≠ none) :
    ∃ next count, System.Reaches simulation.plan (simulation.launch filter) next count ∧
      next.Ends fuel simulation.plan (simulation.ranks.map (logged filter)) := by
  obtain ⟨begun, count, starts, opened, workers, histories⟩ := reaches_opened built several filter
  rw [runWindows, ← workers] at runs
  cases result : Windows.run simulation.lookahead fuel 0 Instant.zero begun.workers with
  | none =>
    rw [result] at runs
    exact absurd rfl runs
  | some ended =>
    obtain ⟨ranks, decision, windows⟩ := ended
    obtain ⟨next, more, onward, concluded⟩ :=
      opened.reaches_end (alone_plan several) (ids_injective built) result
    refine ⟨next, count + more, starts.trans onward, concluded.ends ?_ ?_⟩
    · rw [← workers]
      exact result
    · rw [histories, workers]
      rfl

/-- Where the ranks in windows come to no end for want of fuel, the threads in turn run on for as
many steps. -/
theorem reaches_beyond
    (built : (build registry options topology clock journal).2 = .ok simulation)
    (several : 2 ≤ simulation.ranks.length) {filter : Filter} {fuel : Nat}
    (runs : runWindows fuel simulation.lookahead (simulation.ranks.map (logged filter)) = none) :
    ∃ next count, fuel ≤ count ∧
      System.Reaches simulation.plan (simulation.launch filter) next count := by
  obtain ⟨begun, count, starts, opened, workers, -⟩ := reaches_opened built several filter
  rw [runWindows, ← workers] at runs
  cases result : Windows.run simulation.lookahead fuel 0 Instant.zero begun.workers with
  | some ended =>
    rw [result] at runs
    cases runs
  | none =>
    obtain ⟨next, more, enough, onward⟩ :=
      opened.reaches_beyond (alone_plan several) (ids_injective built) result
    exact ⟨next, count + more, by omega, starts.trans onward⟩

/-- Every schedule is regular. -/
theorem regular_of_exec
    (built : (build registry options topology clock journal).2 = .ok simulation)
    (several : 2 ≤ simulation.ranks.length) {filter : Filter}
    {schedule : List (Fin simulation.ranks.length)} {system : System C simulation.ranks.length}
    (reached : (simulation.launch filter).exec simulation.plan schedule = some system) :
    system.Regular simulation.plan ∧ system.Delivers simulation.plan := by
  have regular := (regular_launch built several filter).exec (alone_plan several)
    (ids_injective built) reached
  have addressed : ∀ index, ∀ entry ∈ system.posted index,
      entry.2.target = simulation.plan.ids index :=
    System.exec_preserves (fun _ _ _ addressed stepped => System.addressed_step stepped addressed)
      reached fun index entry inside => (List.not_mem_nil inside).elim
  exact ⟨regular, regular.delivers addressed⟩

/-- Where the ranks in windows come to an end, every schedule leads there, always after as many
steps. -/
theorem exec_ends
    (built : (build registry options topology clock journal).2 = .ok simulation)
    (several : 2 ≤ simulation.ranks.length) {filter : Filter} {fuel : Nat}
    (runs : runWindows fuel simulation.lookahead (simulation.ranks.map (logged filter)) ≠ none) :
    ∃ total, ∀ schedule system,
      (simulation.launch filter).exec simulation.plan schedule = some system →
        ∃ rest last, system.exec simulation.plan rest = some last ∧
          last.Ends fuel simulation.plan (simulation.ranks.map (logged filter)) ∧
          schedule.length + rest.length = total := by
  obtain ⟨final, total, ⟨turns, length, arrives⟩, ends⟩ := reaches_ends built several runs
  refine ⟨total, fun schedule system reached => ?_⟩
  obtain ⟨rest, last, onward, alike, steps⟩ := (regular_launch built several filter).descent
    (alone_plan several) (ids_injective built) arrives (ends.complete.final _) reached
  exact ⟨rest, last, onward, ends.of_threads_eq (alike.threads_eq ends.complete),
    steps.trans length⟩

/-- Two schedules under which all threads end lead to the same threads. -/
theorem threads_eq_of_complete
    (built : (build registry options topology clock journal).2 = .ok simulation)
    (several : 2 ≤ simulation.ranks.length) {filter : Filter}
    {schedule other : List (Fin simulation.ranks.length)}
    {system last : System C simulation.ranks.length}
    (reached : (simulation.launch filter).exec simulation.plan schedule = some system)
    (complete : system.Complete)
    (reachedToo : (simulation.launch filter).exec simulation.plan other = some last)
    (completeToo : last.Complete) : last.threads = system.threads := by
  obtain ⟨rest, fellow, onward, alike, -⟩ := (regular_launch built several filter).descent
    (alone_plan several) (ids_injective built) reached (complete.final _) reachedToo
  cases rest with
  | nil =>
    cases onward
    exact (alike.threads_eq complete).symm
  | cons index rest =>
    obtain ⟨middle, stepped, -⟩ := Option.bind_eq_some_iff.mp onward
    cases (completeToo.final _ index).symm.trans stepped

/-- Where all threads have ended, so have the ranks in windows, with enough fuel. -/
theorem ends_of_complete
    (built : (build registry options topology clock journal).2 = .ok simulation)
    (several : 2 ≤ simulation.ranks.length) {filter : Filter}
    {schedule : List (Fin simulation.ranks.length)} {system : System C simulation.ranks.length}
    (reached : (simulation.launch filter).exec simulation.plan schedule = some system)
    (complete : system.Complete) :
    system.Ends (schedule.length + 1) simulation.plan
      (simulation.ranks.map (logged filter)) := by
  by_cases runs : runWindows (schedule.length + 1) simulation.lookahead
      (simulation.ranks.map (logged filter)) = none
  · obtain ⟨far, count, enough, ⟨turns, length, arrives⟩⟩ := reaches_beyond built several runs
    obtain ⟨rest, -, -, -, steps⟩ := (regular_launch built several filter).descent
      (alone_plan several) (ids_injective built) reached (complete.final _) arrives
    omega
  · obtain ⟨last, count, ⟨turns, -, arrives⟩, ends⟩ := reaches_ends built several runs
    exact ends.of_threads_eq
      (threads_eq_of_complete built several reached complete arrives ends.complete)

/-- Where the schedules of the threads of a simulation lead. -/
structure Converges (filter : Filter) (simulation : Simulation C) : Prop where
  /-- The threads agree, and take what is posted to them in the round in which it is posted. -/
  agrees : ∀ schedule system,
    (simulation.launch filter).exec simulation.plan schedule = some system →
      system.Unanimous ∧ system.Delivers simulation.plan
  /-- Some thread has a step until all have ended. -/
  progresses : ∀ schedule system,
    (simulation.launch filter).exec simulation.plan schedule = some system → ¬ system.Complete →
      ∃ index, system.step simulation.plan index ≠ none
  /-- Where all have ended, their end is that of the ranks in windows. -/
  ends : ∀ schedule system,
    (simulation.launch filter).exec simulation.plan schedule = some system → system.Complete →
      ∃ fuel, system.Ends fuel simulation.plan (simulation.ranks.map (logged filter))
  /-- It is the same for any two schedules. -/
  unique : ∀ schedule system other last,
    (simulation.launch filter).exec simulation.plan schedule = some system → system.Complete →
      (simulation.launch filter).exec simulation.plan other = some last → last.Complete →
        last.threads = system.threads
  /-- Where the ranks in windows come to an end, every schedule can be continued to it, always to
  the same number of steps. -/
  bounded : ∀ fuel,
    runWindows fuel simulation.lookahead (simulation.ranks.map (logged filter)) ≠ none →
      ∃ total, ∀ schedule system,
        (simulation.launch filter).exec simulation.plan schedule = some system →
          ∃ rest last, system.exec simulation.plan rest = some last ∧
            last.Ends fuel simulation.plan (simulation.ranks.map (logged filter)) ∧
            schedule.length + rest.length = total

/-- The schedules of the threads of a simulation that was built all lead to the end of the run in
windows. -/
theorem schedules_converge
    (built : (build registry options topology clock journal).2 = .ok simulation)
    (several : 2 ≤ simulation.ranks.length) (filter : Filter) : simulation.Converges filter where
  agrees schedule system reached := by
    obtain ⟨regular, delivers⟩ := regular_of_exec built several reached
    exact ⟨regular.unanimous, delivers⟩
  progresses schedule system reached :=
    (regular_of_exec built several reached).1.progress
  ends schedule system reached complete :=
    ⟨_, ends_of_complete built several reached complete⟩
  unique schedule system other last reached complete reachedToo completeToo :=
    threads_eq_of_complete built several reached complete reachedToo completeToo
  bounded fuel runs := exec_ends built several runs

/-- Two players on a rank each can be built, and come to an end in windows. -/
theorem built_relayChain :
    ∃ simulation : Simulation Player,
      (build (Registry.builtin id) {} (.relayChain [(.initiator, 0), (.responder, 1)] 1)
        Instant.zero ⟨Filter.off, #[]⟩).2 = .ok simulation ∧
      simulation.ranks.length = 2 ∧
      runWindows 8 simulation.lookahead (simulation.ranks.map (logged Filter.off)) ≠ none := by
  have ends : ((build (Registry.builtin id : Registry Player) {}
      (.relayChain [(.initiator, 0), (.responder, 1)] 1) Instant.zero
      ⟨Filter.off, #[]⟩).2.toOption.map fun simulation => (simulation.ranks.length,
        (runWindows 8 simulation.lookahead
          (simulation.ranks.map (logged Filter.off))).isSome)) = some (2, true) := by
    decide +kernel
  cases built : (build (Registry.builtin id : Registry Player) {}
      (.relayChain [(.initiator, 0), (.responder, 1)] 1) Instant.zero ⟨Filter.off, #[]⟩).2 with
  | error problem =>
    rw [built] at ends
    cases ends
  | ok simulation =>
    rw [built] at ends
    simp only [Except.toOption, Option.map_some, Option.some.injEq, Prod.mk.injEq] at ends
    refine ⟨simulation, rfl, ends.1, fun none => ?_⟩
    rw [none] at ends
    cases ends.2

/-- The schedules of two players on a rank each. -/
theorem schedules_converge_relayChain :
    ∃ simulation : Simulation Player,
      (build (Registry.builtin id) {} (.relayChain [(.initiator, 0), (.responder, 1)] 1)
        Instant.zero ⟨Filter.off, #[]⟩).2 = .ok simulation ∧
      2 ≤ simulation.ranks.length ∧
      runWindows 8 simulation.lookahead (simulation.ranks.map (logged Filter.off)) ≠ none ∧
      simulation.Converges Filter.off := by
  obtain ⟨simulation, built, two, runs⟩ := built_relayChain
  exact ⟨simulation, built, two.ge, runs, schedules_converge built two.ge Filter.off⟩

end Simulation

end Rally
