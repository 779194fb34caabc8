import Rally.Proofs.Player.Rings
import Rally.Proofs.Pool.BeforeFinish
/-!
# When votes end a run

A single rank stops behind the first event that leaves all of its voters ready. Several ranks decide behind
a window, and go on to its end first. But the window in which they find all voters ready begins no later
than the last vote: otherwise all votes would have been cast before, and the ranks would have found them
behind the window before. So with links between ranks all that they dispatch is due less than a window
behind the last vote.
-/

namespace Rally

variable {C : Type} [Component C]

namespace Rank

/-- The dispatch of a number of events, one after the other, whatever votes are cast. -/
inductive Plays : Nat → Rank C → Rank C → Prop where
  /-- Nothing is dispatched. -/
  | none (rank : Rank C) : Plays 0 rank rank
  /-- The next event is dispatched, and others behind it. -/
  | next {count : Nat} {rank next last : Rank C} {event : Scheduled Delivery}
      {pending : EventSet Delivery} (taken : rank.pending.pop? = some (event, pending))
      (called : dispatch event { rank with pending } = (next, .none)) (behind : Plays count next last) :
      Plays (count + 1) rank last

/-- Setup hooks dispatch nothing. -/
theorem dispatched_start {rank started : Rank C} {halt : Option Halt}
    (starts : rank.start = (started, halt)) : started.dispatched = rank.dispatched := by
  have same : rank.start.1.dispatched = rank.dispatched :=
    start_keeps (fun id middle same => (dispatched_setup middle id).trans same) rfl
  rwa [starts] at same

/-- As many events are counted. -/
theorem Plays.dispatched {count : Nat} {rank last : Rank C} (plays : Plays count rank last) :
    last.dispatched = rank.dispatched + count := by
  induction plays with
  | none => rfl
  | @next count rank next last event pending taken called behind ih =>
    have counted := dispatched_dispatch rank event pending
    rw [called] at counted
    rw [ih, counted]
    omega

omit [Component C] in
/-- A rank that stops by vote finds all of its voters ready. -/
theorem allReady_of_turn {rank : Rank C} {bound : Option Instant} {byVote : Bool}
    (turn : rank.turn bound byVote = .error .voted) : rank.tally.allReady = true := by
  have turns := rank.turns_turn bound byVote
  rw [turn] at turns
  cases turns with
  | voted _ ready => exact ready

omit [Component C] in
/-- A rank that may stop by vote and goes on does not. -/
theorem not_allReady_of_turn {rank : Rank C} {bound : Option Instant}
    {taken : Scheduled Delivery × EventSet Delivery} (turn : rank.turn bound true = .ok taken) :
    rank.tally.allReady = false := by
  have turns := rank.turns_turn bound true
  rw [turn] at turns
  cases turns with
  | goes waits => exact waits rfl

/-- A rank that is ended by vote has dispatched events until all of its voters were ready, and none of them
behind the first one that left them so. -/
theorem plays_of_voted {rank last : Rank C} {fuel : Nat}
    (runs : rank.dispatchUntil none true fuel = some (last, .ok .voted)) :
    ∃ count, Plays count rank last ∧ last.tally.allReady = true ∧
      ∀ earlier < count, ∀ former, Plays earlier rank former → former.tally.allReady = false := by
  induction fuel generalizing rank with
  | zero => cases runs
  | succ fuel ih =>
    rw [dispatchUntil_succ] at runs
    cases turn : rank.turn none true with
    | error stop =>
      simp only [turn, Option.some.injEq, Prod.mk.injEq, Except.ok.injEq] at runs
      obtain ⟨rfl, rfl⟩ := runs
      exact ⟨0, .none rank, allReady_of_turn turn, fun earlier before =>
        absurd before (Nat.not_lt_zero _)⟩
    | ok taken =>
      obtain ⟨event, pending⟩ := taken
      simp only [turn] at runs
      cases called : dispatch event { rank with pending } with
      | mk next halt =>
        rw [called] at runs
        cases halt with
        | some halt => cases runs
        | none =>
          obtain ⟨count, plays, ready, first⟩ := ih runs
          have popped := (turn_ok turn).1
          refine ⟨count + 1, .next popped called plays, ready, fun earlier before former behind => ?_⟩
          cases behind with
          | none => exact not_allReady_of_turn turn
          | @next earlier _ other _ _ _ taken also behind =>
            obtain ⟨rfl, rfl⟩ := Prod.mk.inj (Option.some.inj (popped.symm.trans taken))
            obtain rfl := (Prod.mk.inj (called.symm.trans also)).1
            exact first earlier (Nat.lt_of_succ_lt_succ before) former behind

end Rank

/-- The votes that a rank has published. -/
def RankStatus.tally (status : RankStatus) : Tally := ⟨status.participants, status.ready⟩

/-- Where ranks find all voters ready, they do not go on with the same votes. -/
theorem not_proceed_of_tallies {before read : List RankStatus}
    (same : before.map RankStatus.tally = read.map RankStatus.tally)
    (voted : decision read = .stop .allVotersReady) (later : Instant) :
    decision before ≠ .proceed later := by
  have participants : (before.map RankStatus.participants).sum = (read.map RankStatus.participants).sum := by
    have sums := congrArg List.sum (congrArg (List.map Tally.participants) same)
    rwa [List.map_map, List.map_map] at sums
  have ready : (before.map RankStatus.ready).sum = (read.map RankStatus.ready).sum := by
    have sums := congrArg List.sum (congrArg (List.map Tally.ready) same)
    rwa [List.map_map, List.map_map] at sums
  intro goes
  have behind := decides_decision read
  have former := decides_decision before
  rw [voted] at behind
  rw [goes] at former
  cases behind with
  | voted _ found =>
    cases former with
    | proceeds _ waits =>
      rw [AllVoted, participants, ready] at waits
      exact waits found

namespace Thread

variable {n : Nat} {plan : Plan n} {view : View n} {index : Fin n} {last : Instant}
  {thread next : Thread C} {effect : Effect n}

/-- What a thread whose window begins behind an instant has read of its own rank behind each window, where
no votes were cast behind that instant. -/
structure Unmoved (last : Instant) (index : Fin n) (thread : Thread C) : Prop where
  /-- Before the first window is over, it begins at the start. -/
  first : thread.phase.isStarting → thread.start = Instant.zero
  /-- It has read the status of all ranks. -/
  whole : ∀ read ∈ thread.minutes, read.length = n
  /-- Its votes are those that it read last. -/
  inside : ¬ thread.phase.isOver → last < thread.start →
    ∃ former before, thread.minutes = former ++ [before] ∧
      before[index.val]?.map RankStatus.tally = some thread.rank.tally
  /-- Those that it read behind the last window are those that it read before. -/
  gone : thread.phase.isOver → last < thread.start →
    ∃ former before read, thread.minutes = former ++ [before, read] ∧
      before[index.val]?.map RankStatus.tally = read[index.val]?.map RankStatus.tally

/-- A thread whose window begins behind an instant casts no vote in it, where it casts none behind the
instant. -/
theorem Calls.tally_eq {rank : Rank C} (calls : thread.Calls plan rank) (onTime : thread.OnTime plan)
    (first : thread.phase.isStarting → thread.start = Instant.zero) (inside : ¬ thread.phase.isOver)
    (late : last < thread.start) (votes : rank.tally ≠ thread.rank.tally → rank.now ≤ last) :
    rank.tally = thread.rank.tally := by
  cases calls with
  | setup before =>
    rw [first (by rw [before]; trivial)] at late
    exact absurd late (not_lt.mpr (Duration.zero_le _))
  | @dispatch event pending before turn =>
    have due := onTime.timed.ahead event
      (onTime.timed.sound.first_of_pop (Rank.turn_ok turn).1).1
    by_contra changed
    have voted := votes changed
    rw [Rank.now_dispatch] at voted
    exact absurd (due.trans voted) (not_le.mpr late)
  | finish before =>
    rw [before] at inside
    exact absurd trivial inside
  | none _ tally => exact tally

omit [Component C] in
/-- A thread that neither begins nor ends a window stays unmoved where it casts no vote. -/
theorem Unmoved.of_same (unmoved : thread.Unmoved last index) (minutes : next.minutes = thread.minutes)
    (start : next.start = thread.start) (starting : next.phase.isStarting → thread.phase.isStarting)
    (inside : ¬ next.phase.isOver)
    (before : ¬ thread.phase.isOver)
    (tally : last < thread.start → next.rank.tally = thread.rank.tally) :
    next.Unmoved last index := by
  refine ⟨fun starts => ?_, ?_, fun _ late => ?_, fun gone => absurd gone inside⟩
  · rw [start]
    exact unmoved.first (starting starts)
  · rw [minutes]
    exact unmoved.whole
  · rw [start] at late
    rw [minutes, tally late]
    exact unmoved.inside before late

/-- A step leaves a thread unmoved. -/
theorem Unmoved.step (unmoved : thread.Unmoved last index) (among : plan.alone = false)
    (onTime : thread.OnTime plan)
    (reads : ∀ read, thread.phase = .reading read → n ≤ read.length →
      read.length = n ∧ read[index.val]? = some thread.worker.status)
    (votes : ¬ thread.phase.isOver → next.rank.tally ≠ thread.rank.tally → next.rank.now ≤ last)
    (stepped : thread.step plan view = some (next, effect)) : next.Unmoved last index := by
  have calls := calls_of_step stepped
  have still (inside : ¬ thread.phase.isOver) (late : last < thread.start) :
      next.rank.tally = thread.rank.tally :=
    calls.tally_eq onTime unmoved.first inside late (votes inside)
  cases moves_of_step stepped with
  | worked worker phase before course leads =>
    have inside : ¬ thread.phase.isOver := fun gone => by
      cases (Phase.decisions_of_inWindow before).symm.trans (Phase.decisions_of_isOver gone)
    refine unmoved.of_same rfl rfl leads.forward (fun gone => ?_) inside (still inside)
    rcases leads.target with window | ⟨-, rfl, -⟩ | ⟨alone, -⟩
    · cases (Phase.decisions_of_inWindow window).symm.trans (Phase.decisions_of_isOver gone)
    · exact gone
    · rw [among] at alone
      cases alone
  | @proceeded read later before all decided =>
    obtain ⟨length, own⟩ := reads read before all
    refine ⟨False.elim, fun other inside => ?_, fun _ _ => ?_, False.elim⟩
    · rcases List.mem_append.mp inside with old | new
      · exact unmoved.whole other old
      · rw [List.mem_singleton.mp new]
        exact length
    · exact ⟨thread.minutes, read, rfl, by rw [own]; rfl⟩
  | @concluded read worker phase before all decided course gone heeds =>
    obtain ⟨length, own⟩ := reads read before all
    have inside : ¬ thread.phase.isOver := by
      rw [before]
      exact id
    refine ⟨fun starts => ?_, fun other inside => ?_, fun inside => absurd gone inside,
      fun _ late => ?_⟩
    · cases phase with
      | starting => exact gone.elim
      | _ => exact starts.elim
    · rcases List.mem_append.mp inside with old | new
      · exact unmoved.whole other old
      · rw [List.mem_singleton.mp new]
        exact length
    · obtain ⟨former, minute, same, tally⟩ := unmoved.inside inside late
      refine ⟨former, minute, read, ?_, ?_⟩
      · change thread.minutes ++ [read] = _
        rw [same, List.append_assoc]
        rfl
      · rw [tally, own]
        rfl
  | @finished worker phase before course gone heeds =>
    refine ⟨fun starts => ?_, unmoved.whole, fun inside => absurd gone inside,
      fun _ late => unmoved.gone before late⟩
    cases phase with
    | starting => exact gone.elim
    | _ => exact starts.elim
  | @passed gate generation before opened =>
    have inside : ¬ thread.phase.isOver := by
      rw [before]
      exact id
    cases gate <;> exact unmoved.of_same rfl rfl False.elim id inside (still inside)
  | stopped _ before | posted before | postedAll before | lost before | arrived before
  | took before | scheduled before | published before | read before =>
    have inside : ¬ thread.phase.isOver := by
      rw [before]
      exact id
    exact unmoved.of_same rfl rfl False.elim id inside (still inside)

omit [Component C] in
/-- A thread that has ended for a reason has left its rounds since all ranks decided to stop for it. -/
theorem Heeds.eq_stop {decision : Decision} {reason : Termination} (heeds : thread.Heeds decision)
    (ended : thread.phase = .ended (.ok reason)) : decision = .stop reason := by
  cases decision with
  | proceed => exact heeds.elim
  | stop common =>
    rcases heeds with ⟨rest, phase⟩ | phase | ⟨panic, phase⟩ <;> cases ended.symm.trans phase
    rfl
  | abort => cases ended.symm.trans heeds

end Thread

namespace System

variable {n : Nat} {plan : Plan n} {system : System C n} {reason : Termination}

omit [Component C] in
/-- Where all ranks agree and come to a good end, each of them ends for the common reason. -/
theorem Unanimous.ended (unanimous : system.Unanimous) (ok : system.verdict? = some (.ok reason))
    (index : Fin n) : (system.threads index).phase = .ended (.ok reason) := by
  obtain ⟨common, here⟩ := ended_of_verdict ok index
  have gone {other : Fin n} {last : Termination}
      (there : (system.threads other).phase = .ended (.ok last)) :
      (system.threads other).phase.isOver := by
    rw [there]
    trivial
  obtain ⟨status, read, heeds⟩ := unanimous.left index (gone here)
  have all (other : Fin n) : (system.threads other).phase = .ended (.ok common) := by
    obtain ⟨last, there⟩ := ended_of_verdict ok other
    obtain ⟨also, readToo, heedsToo⟩ := unanimous.left other (gone there)
    have rounds := le_antisymm (unanimous.together index (gone here) other)
      (unanimous.together other (gone there) index)
    rw [rounds] at readToo
    obtain rfl := unanimous.read index other _ status also read readToo
    obtain rfl := Decision.stop.inj ((heeds.eq_stop here).symm.trans (heedsToo.eq_stop there))
    exact there
  obtain ⟨count, rfl⟩ : ∃ count, n = count + 1 := ⟨n - 1, by have := index.isLt; omega⟩
  have results : (List.ofFn system.threads).map Thread.result? =
      (List.replicate (count + 1) (Except.ok common)).map some := by
    rw [List.map_replicate, List.eq_replicate_iff, List.length_map, List.length_ofFn]
    refine ⟨rfl, fun result inside => ?_⟩
    obtain ⟨thread, there, rfl⟩ := List.mem_map.mp inside
    obtain ⟨other, rfl⟩ := List.mem_ofFn.mp there
    rw [Thread.result?, all other]
    rfl
  rw [verdict?, mapM_of_map_eq results, Option.map_some, Windows.verdict_replicate] at ok
  obtain rfl := Except.ok.inj (Option.some.inj ok)
  exact here

/-- Whether a vote is cast at a time in a schedule, outside of the finish hooks: some step changes the tally
of its rank. -/
def Casts (plan : Plan n) (schedule : List (Fin n)) (system : System C n) (time : Instant) : Prop :=
  ∃ turns index rest former latter, schedule = turns ++ index :: rest ∧
    system.exec plan turns = some former ∧ former.step plan index = some latter ∧
    (∀ reason left, (former.threads index).phase ≠ .finishing reason left) ∧
    (latter.threads index).rank.tally ≠ (former.threads index).rank.tally ∧
    (latter.threads index).rank.now = time

end System

namespace Simulation

variable {registry : Registry C} {options : Options} {topology : Topology}
  {clock moment last : Instant} {journal : Journal} {simulation : Simulation C}
  {assembly : Assembly C} {filter : Filter} {fuel : Nat}
  {schedule : List (Fin simulation.ranks.length)} {system : System C simulation.ranks.length}

section Last

variable (built : (build registry options topology clock journal).2 = .ok simulation)
  (several : 2 ≤ simulation.ranks.length)
  (reached : (simulation.launch filter).exec simulation.plan schedule = some system)
  (votes : ∀ time, (simulation.launch filter).Casts simulation.plan schedule time → time ≤ last)

include built several reached votes

/-- Behind the last vote all threads stay unmoved. -/
theorem unmoved_of_exec (index : Fin simulation.ranks.length) :
    (system.threads index).Unmoved last index := by
  obtain ⟨assembly, realizes⟩ := realizes_of_build built
  revert index
  refine System.exec_along (P := fun system => ∀ index, (system.threads index).Unmoved last index)
    (fun index => ?_) (fun turns index rest former latter split arrives unmoved stepped => ?_) reached
  · refine ⟨fun _ => rfl, fun read inside => ?_,
      fun _ late => absurd late (not_lt.mpr (Duration.zero_le last)), fun gone => gone.elim⟩
    cases inside
  · obtain ⟨timely, -⟩ := leaves_of_exec built several realizes arrives
    obtain ⟨ledger, recorded, punctual⟩ := timely.punctual
    have cast (inside : ¬ (former.threads index).phase.isOver)
        (changed : (latter.threads index).rank.tally ≠ (former.threads index).rank.tally) :
        (latter.threads index).rank.now ≤ last := by
      refine votes _ ⟨turns, index, rest, former, latter, split, arrives, stepped, ?_, changed, rfl⟩
      intro reason left finishing
      rw [finishing] at inside
      exact inside trivial
    obtain ⟨⟨thread, effect⟩, moved, rfl⟩ := Option.map_eq_some_iff.mp stepped
    intro other
    by_cases same : other = index
    · subst same
      rw [System.threads_withThread_self] at cast ⊢
      refine (unmoved other).step (alone_plan several) (punctual.threads other)
        (fun read reading all => ?_) cast moved
      obtain ⟨rfl, -, own⟩ := recorded.read_eq timely.regular.lockstep reading all
      rw [List.length_ofFn, List.getElem?_ofFn, dif_pos other.isLt]
      exact ⟨rfl, congrArg some own⟩
    · rw [System.threads_withThread_of_ne same]
      exact unmoved other

/-- Several ranks that find all voters ready do so behind a window that begins no later than the last
vote. -/
theorem start_le_of_votes
    (ok : system.verdict? = some (.ok .allVotersReady)) (index : Fin simulation.ranks.length) :
    (system.threads index).start ≤ last := by
  have regular := (regular_of_exec built several reached).1
  have unanimous := regular.unanimous
  have phase := unanimous.ended ok
  have gone (other : Fin simulation.ranks.length) : (system.threads other).phase.isOver := by
    rw [phase other]
    trivial
  have rounds (other : Fin simulation.ranks.length) :
      (system.threads other).round = (system.threads index).round :=
    le_antisymm (unanimous.together index (gone index) other)
      (unanimous.together other (gone other) index)
  obtain ⟨ledger, recorded⟩ := regular.recorded
  have minuted := recorded.minuted
  by_contra early
  have late (other : Fin simulation.ranks.length) : last < (system.threads other).start := by
    rw [recorded.start_eq, rounds other, ← recorded.start_eq]
    exact not_le.mp early
  have unmoved := unmoved_of_exec built several reached votes
  obtain ⟨former, before, read, minutes, -⟩ := (unmoved index).gone (gone index) (late index)
  have length (other : Fin simulation.ranks.length) :
      (system.threads other).minutes.length = (system.threads other).round + 1 := by
    rw [(minuted other).length, Phase.decisions_of_isOver (gone other)]
  have columns (other : Fin simulation.ranks.length) :
      before[other.val]?.map RankStatus.tally = read[other.val]?.map RankStatus.tally := by
    obtain ⟨rest, first, second, there, tally⟩ := (unmoved other).gone (gone other) (late other)
    rw [recorded.minutes_eq ((length other).trans ((congrArg (· + 1) (rounds other)).trans
      (length index).symm)), minutes] at there
    have tails := (List.append_inj' there rfl).2
    obtain ⟨rfl, rest⟩ := List.cons.inj tails
    obtain ⟨rfl, -⟩ := List.cons.inj rest
    exact tally
  rw [List.append_cons] at minutes
  have ends : (former ++ [before]).length = (system.threads index).round := by
    have whole := length index
    rw [minutes, List.length_append, List.length_singleton] at whole
    exact Nat.succ.inj whole
  obtain ⟨later, goes⟩ := (minuted index).went before (by
    rw [minutes, List.take_left' ends]
    exact List.mem_append_right _ List.mem_cons_self)
  obtain ⟨other, found, heeds⟩ := (minuted index).left (gone index)
  rw [minutes, ← ends, List.getElem?_concat_length, Option.some.injEq] at found
  subst found
  refine not_proceed_of_tallies (List.ext_getElem? fun position => ?_)
    (heeds.eq_stop (phase index)) later goes
  rw [List.getElem?_map, List.getElem?_map]
  by_cases inside : position < simulation.ranks.length
  · exact columns ⟨position, inside⟩
  · have whole {minute : List RankStatus} (among : minute ∈ (system.threads index).minutes) :
        minute[position]? = none :=
      List.getElem?_eq_none (((unmoved index).whole minute among).le.trans (not_lt.mp inside))
    rw [whole (minutes ▸ by simp), whole (minutes ▸ by simp)]

end Last

/-- Where messages are due at instants of a kind, and the start is one, ranks read such instants alone. -/
theorem now_of_due {kind : Instant → Prop}
    (built : (build registry options topology clock journal).2 = .ok simulation)
    (due : simulation.Due filter kind) (start : kind Instant.zero)
    (reached : (simulation.launch filter).exec simulation.plan schedule = some system)
    (index : Fin simulation.ranks.length) : kind (system.threads index).rank.now := by
  obtain ⟨assembly, realizes⟩ := realizes_of_build built
  revert index
  refine System.exec_induction (P := fun system => ∀ index, kind (system.threads index).rank.now)
    (fun _ => ?_) (fun turns former latter index arrives before stepped => ?_) reached
  · exact start
  obtain ⟨⟨thread, effect⟩, moved, rfl⟩ := Option.map_eq_some_iff.mp stepped
  intro other
  by_cases same : other = index
  · subst same
    rw [System.threads_withThread_self]
    have calls := Thread.calls_of_step moved
    have sound := ((kept_of_exec built realizes arrives).steady.threads other).timed.sound
    generalize thread.rank = last at calls
    cases calls with
    | setup =>
      rw [Rank.now_setup]
      exact before other
    | dispatch _ turn =>
      rw [Rank.now_dispatch]
      exact due _ ⟨turns, arrives⟩ other _ (sound.first_of_pop (Rank.turn_ok turn).1).1
    | finish =>
      rw [Rank.now_finishOne]
      exact before other
    | none _ _ _ now =>
      rw [now]
      exact before other
  · rw [System.threads_withThread_of_ne same]
    exact before other

/-- So votes are cast at such instants alone. -/
theorem time_of_casts {kind : Instant → Prop}
    (built : (build registry options topology clock journal).2 = .ok simulation)
    (due : simulation.Due filter kind) (start : kind Instant.zero) {time : Instant}
    (cast : (simulation.launch filter).Casts simulation.plan schedule time) : kind time := by
  obtain ⟨turns, index, rest, former, latter, -, arrives, stepped, -, -, rfl⟩ := cast
  have reached : (simulation.launch filter).exec simulation.plan (turns ++ [index]) = some latter := by
    rw [System.exec_append, arrives, Option.bind_some, System.exec, stepped]
    rfl
  exact now_of_due built due start reached index

/-- A single rank whose run ends by vote has dispatched events up to the first one that left all of its
voters ready. -/
theorem plays_of_runSingle {rank final : Rank C}
    (runs : runSingle fuel rank = some (final, .ok .allVotersReady)) :
    ∃ started count last, rank.start = (started, none) ∧ Rank.Plays count started last ∧
      last.tally.allReady = true ∧
      (∀ earlier < count, ∀ former, Rank.Plays earlier started former →
        former.tally.allReady = false) ∧ last.finish = (final, none) := by
  generalize ended : Except.ok Termination.allVotersReady = ending at runs
  cases singly_of_runSingle runs with
  | @finished started last _ stop start dispatched finish =>
    cases stop with
    | voted =>
      obtain ⟨count, plays, ready, first⟩ := Rank.plays_of_voted dispatched
      exact ⟨started, count, last, start, plays, ready, first, finish⟩
    | idle | limitReached => cases ended
  | unready | broken | unfinished => cases ended

/-- How votes end a run. A single rank stops behind the first event that leaves all of its voters ready. On
several ranks with links between them all events are due less than a window behind the last vote. -/
theorem votes_end_run (built : (build registry options topology clock journal).2 = .ok simulation)
    (filter : Filter) :
    (∀ {fuel moment rank result report}, simulation.ranks.map (logged filter) = [rank] →
      simulation.run fuel filter moment = some result → result.outcome = .ok report →
      report.reason = .allVotersReady →
        ∃ started count last, rank.start = (started, none) ∧ Rank.Plays count started last ∧
          last.tally.allReady = true ∧
          (∀ earlier < count, ∀ former, Rank.Plays earlier started former →
            former.tally.allReady = false) ∧
          report.events = count ∧ report = Report.ofRanks .allVotersReady [last.finish.1]) ∧
    ∀ {schedule system lookahead last}, 2 ≤ simulation.ranks.length →
      simulation.lookahead = some lookahead →
      (simulation.launch filter).exec simulation.plan schedule = some system →
      system.verdict? = some (.ok .allVotersReady) →
      (∀ time, (simulation.launch filter).Casts simulation.plan schedule time → time ≤ last) →
        ∀ index, ∀ event ∈ (system.threads index).history.filterMap Deed.event?,
          event.time < last.saturatingAdd lookahead := by
  refine ⟨fun {fuel moment rank result report} ranks runs ok voted => ?_,
    fun {schedule system lookahead last} several linked reached ok votes index event inside => ?_⟩
  · have fresh : rank.dispatched = 0 := by
      obtain ⟨former, inside, rfl⟩ := List.mem_map.mp (ranks ▸ List.mem_singleton_self rank)
      exact (fresh_of_build built inside).dispatched
    rw [run, ranks] at runs
    obtain ⟨⟨final, outcome⟩, alone, rfl⟩ := Option.map_eq_some_iff.mp runs
    cases outcome with
    | error halt => cases ok
    | ok reason =>
      obtain rfl := Except.ok.inj ok
      obtain rfl : reason = .allVotersReady := voted
      obtain ⟨started, count, last, starts, plays, ready, first, finishes⟩ :=
        plays_of_runSingle alone
      have kept : final.dispatched = last.dispatched := by
        have same := congrArg Rank.dispatched (Rank.finishes_finish last)
        rwa [finishes] at same
      refine ⟨started, count, last, starts, plays, ready, first, ?_, by rw [finishes]⟩
      calc (Report.ofRanks .allVotersReady [final]).events = final.dispatched := by
            rw [Report.events_ofRanks, List.map_singleton, List.sum_singleton]
        _ = started.dispatched + count := kept.trans plays.dispatched
        _ = count := by rw [Rank.dispatched_start starts, fresh, Nat.zero_add]
  · have window : simulation.plan.bound (system.threads index).start =
        some ((system.threads index).start.saturatingAdd lookahead) := by
      have linked : simulation.plan.lookahead = some lookahead := linked
      rw [Plan.bound, alone_plan several, if_neg Bool.false_ne_true, linked]
      rfl
    exact ((causal_of_exec built reached).early index event inside _ window).trans_le
      (Duration.saturatingAdd_le_saturatingAdd
        (start_le_of_votes built several reached votes ok index) (le_refl _))

/-- Two players on one rank stop behind two events. On a rank each, all of their votes are cast within four
seconds, and no event is due five seconds behind the start or later. -/
theorem votes_end_run_relayChain :
    (∃ (simulation : Simulation Player) (result : RunResult Player) (report : Report Player)
      (rank started last : Rank Player),
      (build Player.registry {} (.relayChain [(.initiator, 0), (.responder, 0)] 1) Instant.zero
        ⟨Filter.off, #[]⟩).2 = .ok simulation ∧
      simulation.ranks.map (logged Filter.off) = [rank] ∧
      simulation.run 8 Filter.off Instant.zero = some result ∧ result.outcome = .ok report ∧
      report.reason = .allVotersReady ∧ rank.start = (started, none) ∧
      Rank.Plays 2 started last ∧ last.tally.allReady = true ∧
      ∀ earlier < 2, ∀ former, Rank.Plays earlier started former →
        former.tally.allReady = false) ∧
    ∃ (simulation : Simulation Player) (schedule : List (Fin simulation.ranks.length))
      (system : System Player simulation.ranks.length),
      (build Player.registry {} (.relayChain [(.initiator, 0), (.responder, 1)] 2) Instant.zero
        ⟨Filter.off, #[]⟩).2 = .ok simulation ∧
      simulation.ranks.length = 2 ∧ simulation.lookahead = some { secs := 1, nanos := 0 } ∧
      (simulation.launch Filter.off).exec simulation.plan schedule = some system ∧
      system.verdict? = some (.ok .allVotersReady) ∧
      (∀ time, (simulation.launch Filter.off).Casts simulation.plan schedule time →
        time ≤ { secs := 4, nanos := 0 }) ∧
      ∀ index, ∀ event ∈ (system.threads index).history.filterMap Deed.event?,
        event.time < { secs := 5, nanos := 0 } := by
  refine ⟨?_, ?_⟩
  · obtain ⟨simulation, result, report, built, runs, ok, seen⟩ := @exists_run _ _ Player.registry {}
      (.relayChain [(.initiator, 0), (.responder, 0)] 1) Instant.zero Instant.zero ⟨Filter.off, #[]⟩
      Filter.off 8 _ (fun simulation report => (simulation.ranks.length, report.reason, report.events))
      (1, .allVotersReady, 2) (by decide +kernel)
    simp only [Prod.mk.injEq] at seen
    obtain ⟨single, voted, events⟩ := seen
    obtain ⟨rank, ranks⟩ : ∃ rank, simulation.ranks.map (logged Filter.off) = [rank] :=
      List.length_eq_one_iff.mp (by rw [List.length_map, single])
    obtain ⟨started, count, last, starts, plays, ready, first, counted, -⟩ :=
      (votes_end_run built Filter.off).1 ranks runs ok voted
    obtain rfl : count = 2 := counted.symm.trans events
    exact ⟨simulation, result, report, rank, started, last, built, ranks, runs, ok, voted, starts,
      plays, ready, first⟩
  · obtain ⟨simulation, result, report, built, runs, ok, seen⟩ := @exists_run _ _ Player.registry {}
      (.relayChain [(.initiator, 0), (.responder, 1)] 2) Instant.zero Instant.zero ⟨Filter.off, #[]⟩
      Filter.off 8 _ (fun simulation report => (simulation.ranks.length, simulation.lookahead,
        report.reason)) (2, some { secs := 1, nanos := 0 }, .allVotersReady) (by decide +kernel)
    simp only [Prod.mk.injEq] at seen
    obtain ⟨several, linked, voted⟩ := seen
    obtain ⟨schedule, system, reached, verdict, -⟩ := exec_of_run built runs ok
    rw [voted] at verdict
    have votes (time : Instant)
        (cast : (simulation.launch Filter.off).Casts simulation.plan schedule time) :
        time ≤ { secs := 4, nanos := 0 } := by
      rw [Duration.le_iff_toNanos_le]
      exact time_of_casts built (due_of_relayChain Filter.off built (by decide)) (Nat.zero_le _) cast
    refine ⟨simulation, schedule, system, built, several, linked, reached, verdict, votes,
      fun index event inside => ?_⟩
    exact (votes_end_run built Filter.off).2 several.ge linked reached verdict votes index event inside

end Simulation

end Rally
