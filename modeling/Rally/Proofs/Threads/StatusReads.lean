import Mathlib.Data.List.OfFn
import Rally.Proofs.Threads.Lockstep
/-!
# What the threads read behind each window

The status of all ranks stays as it is published from one decision barrier until all threads have
passed the next exchange barrier. So every thread reads the same status of all ranks behind a
window, which a ledger of the run records: all decide alike, and leave their rounds together.
-/

namespace Rally

namespace Phase

/-- Whether the published status of a rank is that of its thread. -/
def hasPublished : Phase → Prop
  | arriving .decision | waiting .decision _ | reading _ => True
  | _ => False

/-- How many decisions a thread has made in its round. -/
def decisions : Phase → Nat
  | finishing _ _ | ended _ => 1
  | _ => 0

/-- A thread with hooks to call before the exchange has made no decision in its round. -/
theorem decisions_of_inWindow {phase : Phase} (window : phase.inWindow) : phase.decisions = 0 := by
  cases phase with
  | finishing | ended => exact window.elim
  | _ => rfl

/-- A thread has left its rounds exactly where it has made a decision in its round. -/
theorem isOver_iff {phase : Phase} : phase.isOver ↔ phase.decisions = 1 := by
  cases phase <;> simp [isOver, decisions]

/-- A thread that has left its rounds has made one decision in the last one. -/
theorem decisions_of_isOver {phase : Phase} (gone : phase.isOver) : phase.decisions = 1 :=
  isOver_iff.mp gone

/-- A thread with hooks to call before the exchange has not published its status. -/
theorem not_hasPublished_of_inWindow {phase : Phase} (window : phase.inWindow) :
    ¬ phase.hasPublished := by
  cases phase with
  | starting | opening | dispatching => exact id
  | _ => exact window.elim

/-- A thread that has left its rounds no longer publishes. -/
theorem not_hasPublished_of_isOver {phase : Phase} (gone : phase.isOver) :
    ¬ phase.hasPublished := by
  cases phase with
  | finishing | ended => exact id
  | _ => exact gone.elim

end Phase

/-- The start of the window behind some decisions. -/
def startBehind (minutes : List (List RankStatus)) : Instant :=
  match minutes.getLast? with
  | none => Instant.zero
  | some read =>
    match decision read with
    | .proceed next => next
    | _ => Instant.zero

namespace Thread

variable {C : Type} {n : Nat} {thread next : Thread C} {plan : Plan n} {view : View n}
  {effect : Effect n}

/-- What the minutes of a thread tell about it. -/
structure Minuted (thread : Thread C) : Prop where
  /-- There are minutes of every decision. -/
  length : thread.minutes.length = thread.round + thread.phase.decisions
  /-- Behind every former window the thread went on. -/
  went : ∀ read ∈ thread.minutes.take thread.round, ∃ next, decision read = .proceed next
  /-- Where it has left, it did so as decided. -/
  left : thread.phase.isOver →
    ∃ read, thread.minutes[thread.round]? = some read ∧ thread.Heeds (decision read)
  /-- Its window starts where it was decided. -/
  start : thread.start = startBehind (thread.minutes.take thread.round)

/-- A move that decides nothing changes neither the minutes nor what they tell. -/
theorem Minuted.of_same (minuted : thread.Minuted) (round : next.round = thread.round)
    (minutes : next.minutes = thread.minutes) (start : next.start = thread.start)
    (decisions : next.phase.decisions = thread.phase.decisions)
    (heeds : next.phase.isOver → ∀ decision, thread.Heeds decision → next.Heeds decision) :
    next.Minuted := by
  refine ⟨?_, ?_, fun gone => ?_, ?_⟩
  · rw [minutes, round, decisions]
    exact minuted.length
  · rw [minutes, round]
    exact minuted.went
  · have before : thread.phase.isOver := by
      rw [Phase.isOver_iff] at gone ⊢
      rw [← decisions]
      exact gone
    obtain ⟨read, minute, former⟩ := minuted.left before
    rw [minutes, round]
    exact ⟨read, minute, heeds gone _ former⟩
  · rw [start, minutes, round]
    exact minuted.start

/-- A move keeps the minutes of a thread among others in order. -/
theorem Moves.minuted (move : Moves plan view thread next effect) (among : plan.alone = false)
    (minuted : thread.Minuted) : next.Minuted := by
  cases move with
  | worked _ _ before course leads =>
    have window := Phase.decisions_of_inWindow before
    rcases leads.target with inside | ⟨_, rfl, _⟩ | ⟨alone, _⟩
    · refine minuted.of_same rfl rfl rfl ?_ fun gone => ?_
      · rw [window]
        exact Phase.decisions_of_inWindow inside
      · cases (Phase.decisions_of_inWindow inside).symm.trans (Phase.decisions_of_isOver gone)
    · exact minuted.of_same rfl rfl rfl window.symm fun gone => gone.elim
    · rw [among] at alone
      cases alone
  | @passed gate stamp before opened =>
    cases gate <;>
      exact minuted.of_same rfl rfl rfl (by rw [before]; rfl) fun gone => gone.elim
  | @proceeded read start before all decided =>
    have length : thread.minutes.length = thread.round := by
      rw [minuted.length, before]
      rfl
    have whole : thread.minutes.take thread.round = thread.minutes :=
      List.take_of_length_le (Nat.le_of_eq length)
    have taken : (thread.minutes ++ [read]).take (thread.round + 1) = thread.minutes ++ [read] :=
      List.take_of_length_le (by simp [length])
    refine ⟨by simp [length, Phase.decisions], ?_, fun gone => gone.elim, ?_⟩
    · rw [taken]
      intro other inside
      rcases List.mem_append.mp inside with old | new
      · exact minuted.went other (by rw [whole]; exact old)
      · rw [List.mem_singleton] at new
        subst new
        exact ⟨start, decided⟩
    · rw [taken, startBehind, List.getLast?_append]
      simp [decided]
  | @concluded read worker phase before all decided course gone heeds =>
    have length : thread.minutes.length = thread.round := by
      rw [minuted.length, before]
      rfl
    have taken : (thread.minutes ++ [read]).take thread.round =
        thread.minutes.take thread.round :=
      List.take_append_of_le_length (Nat.le_of_eq length.symm)
    refine ⟨by simp [length, Phase.decisions_of_isOver gone], ?_, fun _ => ?_, ?_⟩
    · rw [taken]
      exact minuted.went
    · refine ⟨read, ?_, heeds⟩
      rw [← length, List.getElem?_concat_length]
    · rw [taken]
      exact minuted.start
  | finished _ before course gone heeds =>
    refine minuted.of_same rfl rfl rfl ?_ fun _ => heeds
    rw [Phase.decisions_of_isOver before, Phase.decisions_of_isOver gone]
  | stopped _ before | posted before | postedAll before | lost before | arrived before
  | took before | scheduled before | published before | read before =>
    refine minuted.of_same rfl rfl rfl ?_ fun gone => gone.elim
    rw [before]
    rfl

/-- What a thread has read and published, given the ledger and the published status of all ranks. -/
structure Reads (ledger : List (List RankStatus)) (board : Fin n → RankStatus) (index : Fin n)
    (thread : Thread C) : Prop where
  /-- Its minutes are the first entries of the ledger. -/
  shared : thread.minutes <+: ledger
  /-- What it has published is its status. -/
  published : thread.phase.hasPublished → board index = thread.worker.status
  /-- What it reads is published. -/
  reading : ∀ read, thread.phase = .reading read → read <+: List.ofFn board

/-- A thread that has read the status of all ranks has read all that is published. -/
theorem Reads.complete {ledger : List (List RankStatus)} {board : Fin n → RankStatus}
    {index : Fin n} (reads : thread.Reads ledger board index) {read : List RankStatus}
    (before : thread.phase = .reading read) (all : n ≤ read.length) : read = List.ofFn board :=
  (reads.reading read before).eq_of_length_le (by rw [List.length_ofFn]; exact all)

/-- A thread that neither reads nor publishes needs its minutes alone. -/
theorem Reads.of_same {ledger : List (List RankStatus)} {board : Fin n → RankStatus}
    {index : Fin n} (reads : thread.Reads ledger board index)
    (minutes : next.minutes = thread.minutes) (away : ¬ next.phase.hasPublished) :
    next.Reads ledger board index := by
  refine ⟨by rw [minutes]; exact reads.shared, fun published => absurd published away, ?_⟩
  intro read reading
  rw [reading] at away
  exact absurd trivial away

/-- A move keeps what a thread has read and published. -/
theorem Moves.reads {ledger : List (List RankStatus)} {index : Fin n}
    (move : Moves plan view thread next effect) (among : plan.alone = false)
    (last : ∀ read, thread.phase = .reading read →
      ledger = thread.minutes ++ [List.ofFn view.board])
    (reads : thread.Reads ledger view.board index) (other : ∀ status, effect ≠ .publish status) :
    next.Reads ledger view.board index := by
  cases move with
  | worked _ _ before course leads =>
    refine reads.of_same rfl ?_
    rcases leads.target with inside | ⟨_, rfl, _⟩ | ⟨alone, _⟩
    · exact Phase.not_hasPublished_of_inWindow inside
    · exact id
    · rw [among] at alone
      cases alone
  | @arrived gate before =>
    refine ⟨reads.shared, fun published => reads.published ?_, fun read reading => by cases reading⟩
    rw [before]
    cases gate with
    | exchange => exact published.elim
    | decision => exact published
  | @passed gate stamp before opened =>
    cases gate with
    | exchange => exact reads.of_same rfl id
    | decision =>
      refine ⟨reads.shared, fun _ => reads.published (by rw [before]; trivial), ?_⟩
      intro read reading
      cases reading
      exact List.nil_prefix
  | published before => exact absurd rfl (other _)
  | @read read before left =>
    refine ⟨reads.shared, fun _ => reads.published (by rw [before]; trivial), ?_⟩
    intro more reading
    cases reading
    have former := reads.reading read before
    have length : read.length < (List.ofFn view.board).length := by
      rw [List.length_ofFn]
      exact left
    have whole := List.take_concat_get' (List.ofFn view.board) read.length length
    rw [← List.prefix_iff_eq_take.mp former, List.getElem_ofFn] at whole
    rw [whole]
    exact List.take_prefix _ _
  | proceeded before all decided =>
    refine ⟨?_, fun published => published.elim, fun read reading => by cases reading⟩
    rw [reads.complete before all, ← last _ before]
  | concluded before all decided course gone =>
    refine ⟨?_, fun published => absurd published (Phase.not_hasPublished_of_isOver gone), ?_⟩
    · rw [reads.complete before all, ← last _ before]
    · intro read reading
      obtain rfl : _ = Phase.reading read := reading
      exact gone.elim
  | finished _ before course gone => exact reads.of_same rfl (Phase.not_hasPublished_of_isOver gone)
  | stopped _ before | posted before | postedAll before | lost before | took before
  | scheduled before => exact reads.of_same rfl id

end Thread

namespace System

variable {C : Type} {n : Nat} {plan : Plan n} {system next : System C n} {index : Fin n}

/-- What the ledger of a run tells about it. -/
structure Recorded (system : System C n) (ledger : List (List RankStatus)) : Prop where
  /-- The ledger has an entry for each decision barrier that has opened. -/
  count : ledger.length = system.generation / 2
  /-- The last entry is what is published, until the next exchange. -/
  last : system.generation % 2 = 0 → 0 < system.generation →
    ledger.getLast? = some (List.ofFn system.board)
  /-- Every thread has read what is recorded. -/
  reads : ∀ index, (system.threads index).Reads ledger system.board index
  /-- The minutes of every thread are in order. -/
  minuted : ∀ index, (system.threads index).Minuted

/-- Only a publication changes what is published. -/
theorem board_of_ne {effect : Effect n} (other : ∀ status, effect ≠ .publish status)
    (system : System C n) (index : Fin n) (thread : Thread C) :
    ((system.apply index effect).withThread index thread).board = system.board := by
  cases effect with
  | publish status => exact absurd rfl (other status)
  | arrive =>
    simp only [apply, withThread]
    split <;> rfl
  | _ => rfl

/-- A thread reads what is recorded. -/
theorem Recorded.entry {ledger : List (List RankStatus)} (recorded : system.Recorded ledger)
    {round : Nat} {status : List RankStatus}
    (minute : (system.threads index).minutes[round]? = some status) : ledger[round]? = some status := by
  obtain ⟨inside, rfl⟩ := List.getElem?_eq_some_iff.mp minute
  exact List.prefix_iff_getElem?.mp (recorded.reads index).shared round inside

/-- Threads whose minutes have one length have the same minutes. -/
theorem Recorded.minutes_eq {ledger : List (List RankStatus)} (recorded : system.Recorded ledger)
    {other : Fin n}
    (length : (system.threads index).minutes.length = (system.threads other).minutes.length) :
    (system.threads index).minutes = (system.threads other).minutes :=
  (List.prefix_of_prefix_length_le (recorded.reads index).shared (recorded.reads other).shared
    length.le).eq_of_length length

/-- A thread that reads finds the last entry of the ledger behind its own minutes. -/
theorem Recorded.ledger_eq {ledger : List (List RankStatus)} (recorded : system.Recorded ledger)
    (lockstep : system.Lockstep) {read : List RankStatus}
    (reading : (system.threads index).phase = .reading read) :
    ledger = (system.threads index).minutes ++ [List.ofFn system.board] := by
  have epoch : 2 * (system.threads index).round + 2 = system.generation := by
    rw [← (lockstep.synchronous index).epoch_eq (by rw [reading]; exact id), Thread.epoch, reading]
    rfl
  have length : (system.threads index).minutes.length = (system.threads index).round := by
    rw [(recorded.minuted index).length, reading]
    rfl
  have last := recorded.last (by omega) (by omega)
  have count := recorded.count
  obtain ⟨rest, whole⟩ := (recorded.reads index).shared
  have single : rest.length = 1 := by
    have total := congrArg List.length whole
    rw [List.length_append] at total
    omega
  obtain ⟨entry, rfl⟩ := List.length_eq_one_iff.mp single
  rw [← whole, List.getLast?_concat, Option.some.injEq] at last
  rw [← whole, last]

/-- Before the first steps nothing is recorded. -/
theorem recorded_of_starting (fresh : system.generation = 0)
    (starting : ∀ index, (system.threads index).phase.isStarting)
    (blank : ∀ index, (system.threads index).minutes = [] ∧ (system.threads index).round = 0 ∧
      (system.threads index).start = Instant.zero) : system.Recorded [] := by
  refine ⟨by rw [fresh]; rfl, fun _ some => by omega, fun index => ?_, fun index => ?_⟩
  · have start := starting index
    cases phase : (system.threads index).phase with
    | starting rest =>
      refine ⟨by rw [(blank index).1], fun published => ?_, fun read reading => ?_⟩
      · rw [phase] at published
        exact published.elim
      · cases phase.symm.trans reading
    | _ =>
      rw [phase] at start
      exact start.elim
  · obtain ⟨minutes, round, first⟩ := blank index
    have start := starting index
    cases phase : (system.threads index).phase with
    | starting rest =>
      refine ⟨by rw [minutes, round, phase]; rfl, ?_, fun gone => ?_,
        by rw [minutes, first, List.take_nil]; rfl⟩
      · rw [minutes, List.take_nil]
        intro read inside
        cases inside
      · rw [phase] at gone
        exact gone.elim
    | _ =>
      rw [phase] at start
      exact start.elim

/-- A thread that publishes its status keeps the run as recorded. -/
theorem Recorded.publish {ledger : List (List RankStatus)} (recorded : system.Recorded ledger)
    (lockstep : system.Lockstep) (among : plan.alone = false) {thread : Thread C} {status : RankStatus}
    (move : Thread.Moves plan (system.view index) (system.threads index) thread (.publish status)) :
    ((system.apply index (.publish status)).withThread index thread).Recorded ledger := by
  have minuted : ∀ other, (((system.apply index (.publish status)).withThread index thread).threads
      other).Minuted :=
    forall_withThread (P := fun _ thread => thread.Minuted)
      (move.minuted among (recorded.minuted index)) recorded.minuted
  obtain ⟨before, rfl, rfl⟩ : (system.threads index).phase = .publishing ∧
      thread = (system.threads index).goTo (.arriving .decision) ∧
      status = (system.threads index).worker.status := by
    cases move
    exact ⟨‹_›, rfl, rfl⟩
  have epoch : 2 * (system.threads index).round + 1 = system.generation := by
    rw [← (lockstep.synchronous index).epoch_eq (by rw [before]; exact id), Thread.epoch, before]
    rfl
  refine ⟨recorded.count, fun even _ => ?_, fun other => ?_, minuted⟩
  · change system.generation % 2 = 0 at even
    omega
  · have reads := recorded.reads other
    by_cases here : other = index
    · subst here
      rw [threads_withThread_self]
      refine ⟨(recorded.reads other).shared, fun _ => ?_, fun read reading => by cases reading⟩
      exact Function.update_self _ _ _
    · rw [threads_withThread_of_ne here]
      refine ⟨reads.shared, fun published => ?_, fun read reading => ?_⟩
      · rw [← reads.published published]
        exact Function.update_of_ne here _ _
      · -- Nobody reads in front of a decision barrier.
        have late : 2 * (system.threads other).round + 2 = system.generation := by
          rw [← (lockstep.synchronous other).epoch_eq (by rw [reading]; exact id), Thread.epoch,
            reading]
          rfl
        omega

/-- Without a publication the run stays as recorded, in a ledger that grows where a decision barrier opens. -/
theorem Recorded.silent {ledger : List (List RankStatus)} (recorded : system.Recorded ledger)
    (lockstep : system.Lockstep) (among : plan.alone = false) {thread : Thread C} {effect : Effect n}
    (other : ∀ status, effect ≠ .publish status)
    (move : Thread.Moves plan (system.view index) (system.threads index) thread effect) :
    ∃ more, ((system.apply index effect).withThread index thread).Recorded (ledger ++ more) := by
  have minuted : ∀ other, (((system.apply index effect).withThread index thread).threads
      other).Minuted :=
    forall_withThread (P := fun _ thread => thread.Minuted)
      (move.minuted among (recorded.minuted index)) recorded.minuted
  have board := board_of_ne other system index thread
  have last : ∀ read, (system.threads index).phase = .reading read →
      ledger = (system.threads index).minutes ++ [List.ofFn system.board] :=
    fun read reading => recorded.ledger_eq lockstep reading
  have reads : ∀ place, (((system.apply index effect).withThread index thread).threads place).Reads
      ledger system.board place :=
    forall_withThread (P := fun place thread => thread.Reads ledger system.board place)
      (move.reads among last (recorded.reads index) other) recorded.reads
  by_cases opens : ((system.apply index effect).withThread index thread).generation =
      system.generation
  · refine ⟨[], ?_⟩
    rw [List.append_nil]
    refine ⟨by rw [opens]; exact recorded.count, ?_, by rw [board]; exact reads, minuted⟩
    rw [opens, board]
    exact recorded.last
  · have opened := (lockstep.opens among move opens).1
    have count := recorded.count
    rcases Nat.mod_two_eq_zero_or_one system.generation with even | odd
    · refine ⟨[], ?_⟩
      rw [List.append_nil]
      refine ⟨by rw [opened]; omega, ?_, by rw [board]; exact reads, minuted⟩
      rw [opened]
      intro even _
      omega
    · refine ⟨[List.ofFn system.board], ?_, ?_, ?_, minuted⟩
      · rw [opened, List.length_append, count, List.length_singleton]
        omega
      · rw [board]
        intro _ _
        exact List.getLast?_concat
      · rw [board]
        intro place
        have reads := reads place
        exact ⟨reads.shared.trans (List.prefix_append _ _), reads.published, reads.reading⟩

variable [Component C]

/-- A step keeps the run as recorded, in a ledger that grows where a decision barrier opens. -/
theorem Recorded.step {ledger : List (List RankStatus)} (recorded : system.Recorded ledger)
    (lockstep : system.Lockstep) (among : plan.alone = false)
    (stepped : system.step plan index = some next) :
    ∃ more, next.Recorded (ledger ++ more) := by
  obtain ⟨thread, effect, move, rfl⟩ := moves_of_step stepped
  by_cases publishing : ∃ status, effect = .publish status
  · obtain ⟨status, rfl⟩ := publishing
    exact ⟨[], by rw [List.append_nil]; exact recorded.publish lockstep among move⟩
  · exact recorded.silent lockstep among (fun status same => publishing ⟨status, same⟩) move

end System

end Rally
