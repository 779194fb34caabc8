import Rally.Proofs.Pool.HistoryVisits
import Rally.Proofs.Pool.LinkCounters
/-!
# What holds throughout a run

In every state of a run, on one rank or on several, messages flow along the links, the history of
each rank that has not failed is that of visits, and what it counts is what its history tells. Ranks
that finish have not failed.
-/

namespace Rally

/-- Where all ranks stop, none has failed. -/
theorem decision_eq_stop {statuses : List RankStatus} {reason : Termination}
    (decided : decision statuses = .stop reason) : ∀ status ∈ statuses, status.failed = false := by
  have decides := decides_decision statuses
  rw [decided] at decides
  cases decides with
  | voted healthy | idle healthy | limited healthy => exact healthy

/-- Ranks that give up have a reason to. -/
theorem decision_eq_abort {statuses : List RankStatus} (decided : decision statuses = .abort) :
    ∃ status ∈ statuses, status.failed = true := by
  have decides := decides_decision statuses
  rw [decided] at decides
  cases decides with
  | aborts failed => exact failed

namespace Phase

/-- Whether a thread calls finish hooks or has called all of them. -/
def succeeds : Phase → Prop
  | finishing _ _ | ended (.ok _) => True
  | _ => False

/-- A thread that succeeds has left its rounds. -/
theorem isOver_of_succeeds {phase : Phase} (succeeds : phase.succeeds) : phase.isOver := by
  cases phase with
  | finishing => trivial
  | ended => trivial
  | _ => exact succeeds.elim

end Phase

variable {C : Type} [Component C] {n : Nat} {plan : Plan n} {links : Array Link}

namespace Thread

variable {view : View n} {thread next : Thread C} {effect : Effect n}

/-- Whether the rank of a thread that is single or succeeds has not failed. -/
def Upright (plan : Plan n) (thread : Thread C) : Prop :=
  plan.alone = true ∨ thread.phase.succeeds → thread.worker.failure = none

/-- The failure of a single rank is told by its end alone. -/
theorem failure_of_alone (alone : plan.alone = true)
    (phase : thread.phase.inWindow ∨ thread.phase.isOver)
    (stepped : thread.step plan view = some (next, effect)) :
    next.worker.failure = thread.worker.failure := by
  by_cases window : thread.phase.inWindow
  · cases steps_of_step stepped with
    | @starts rest =>
      cases rest with
      | nil => rfl
      | cons id rest =>
        rw [startNext]
        cases called : thread.rank.setup id with
        | mk rank halt =>
          cases halt with
          | none => rfl
          | some halt =>
            simp only [if_pos alone]
            rfl
    | opens =>
      rw [openWindow, if_pos alone]
      rfl
    | dispatches =>
      rw [dispatchNext]
      cases turn : thread.rank.turn (plan.bound thread.start) (plan.byVote thread.round) with
      | error stop =>
        simp only [stopped, if_pos alone]
        rfl
      | ok taken =>
        obtain ⟨event, pending⟩ := taken
        cases called : Rank.dispatch event { thread.rank with pending } with
        | mk rank halt =>
          cases halt with
          | none =>
            simp only [called]
            rfl
          | some halt =>
            simp only [called, halted, if_pos alone]
            rfl
    | posts before | postsAll before | loses before | arrives before | passes before | takes before
    | schedules before | publishes before | reads before | decides before | finishes before =>
      rw [before] at window
      exact window.elim
  · rcases failure_of_step window stepped with same | ⟨-, rest, posting⟩
    · exact same
    · rw [posting] at phase
      exact phase.elim False.elim False.elim

end Thread

namespace System

variable {system next : System C n} {index : Fin n}

/-- A single rank has not failed behind a step. -/
theorem Solo.upright_step (solo : system.Solo plan links) (alone : plan.alone = true)
    (upright : ∀ index, (system.threads index).Upright plan)
    (stepped : system.step plan index = some next) :
    ∀ index, (next.threads index).Upright plan := by
  obtain ⟨⟨thread, effect⟩, moved, rfl⟩ := Option.map_eq_some_iff.mp stepped
  refine forall_withThread (P := fun _ thread => thread.Upright plan) (fun _ => ?_) upright
  rw [Thread.failure_of_alone alone (solo.phases index) moved]
  exact upright index (Or.inl alone)

omit [Component C] in
/-- A rank that decides to stop has not failed. -/
theorem Timely.healthy_of_stop (timely : system.Timely plan links) {read : List RankStatus}
    (reading : (system.threads index).phase = .reading read) (all : n ≤ read.length)
    {reason : Termination} (decided : decision read = .stop reason) :
    (system.threads index).worker.failure = none := by
  obtain ⟨ledger, recorded⟩ := timely.regular.recorded
  obtain ⟨same, -, published⟩ := recorded.read_eq timely.regular.lockstep reading all
  have inside : (system.threads index).worker.status ∈ read := by
    rw [← published, same]
    exact List.mem_ofFn.mpr ⟨index, rfl⟩
  exact Option.not_isSome_iff_eq_none.mp
    (Bool.not_eq_true _ ▸ decision_eq_stop decided _ inside)

/-- Ranks that finish behind a step have not failed. -/
theorem Timely.upright_step (timely : system.Timely plan links) (among : plan.alone = false)
    (upright : ∀ index, (system.threads index).Upright plan)
    (stepped : system.step plan index = some next) :
    ∀ index, (next.threads index).Upright plan := by
  obtain ⟨⟨thread, effect⟩, moved, rfl⟩ := Option.map_eq_some_iff.mp stepped
  intro other
  by_cases here : other = index
  · rw [here, threads_withThread_self]
    rintro (alone | succeeds)
    · rw [among] at alone
      cases alone
    have same (outside : ¬ (system.threads index).phase.inWindow)
        (away : ∀ rest, (system.threads index).phase ≠ .posting rest) :
        thread.worker.failure = (system.threads index).worker.failure :=
      (Thread.failure_of_step outside moved).resolve_right fun posts =>
        posts.2.elim fun rest posting => away rest posting
    have gone := Phase.isOver_of_succeeds succeeds
    cases Thread.moves_of_step moved with
    | worked worker phase before course leads =>
      rcases leads.target with inside | ⟨-, arriving, -⟩ | ⟨alone, -⟩
      · have first : phase.lag = 0 := Phase.lag_of_inWindow inside
        have second : phase.lag = 2 := Phase.lag_of_isOver gone
        omega
      · have arriving : phase = .arriving .exchange := arriving
        subst arriving
        exact gone.elim
      · rw [among] at alone
        cases alone
    | @passed gate => cases gate <;> exact gone.elim
    | @concluded read worker phase before all decided course gone heeds =>
      rw [same (by rw [before]; exact not_false) (by rw [before]; rintro _ ⟨⟩)]
      cases stops : decision read with
      | proceed later => exact absurd stops (decided later)
      | stop reason => exact timely.healthy_of_stop before all stops
      | abort =>
        rw [stops] at heeds
        have ended : phase = .ended _ := heeds
        have fails : phase.succeeds := succeeds
        rw [ended] at fails
        exact fails.elim
    | @finished worker phase before =>
      cases former : (system.threads index).phase with
      | finishing reason rest =>
        rw [same (by rw [former]; exact not_false) (by rw [former]; rintro _ ⟨⟩)]
        exact upright index (Or.inr (by rw [former]; trivial))
      | ended result => exact absurd former (Thread.not_ended_of_step moved result)
      | _ =>
        rw [former] at before
        exact before.elim
    | _ => exact gone.elim
  · rw [threads_withThread_of_ne here]
    exact upright other

/-- What holds in every state of a run, given the ranks before it. -/
structure Kept (plan : Plan n) (links : Array Link) (first : Fin n → Rank C)
    (system : System C n) : Prop where
  /-- The threads are in time. -/
  steady : system.Steady plan links
  /-- Messages flow along the links. -/
  flowing : system.Flowing plan links
  /-- The histories of ranks that have not failed are those of visits. -/
  replayed : system.Replayed plan links first
  /-- The counters are those of the histories. -/
  counted : system.Counted links
  /-- Ranks that succeed have not failed. -/
  upright : ∀ index, (system.threads index).Upright plan

end System

namespace Thread

/-- A thread before its first step has no visits behind it. -/
theorem replays_launch (links : Array Link) (id : RankId) (rank : Rank C) :
    (launch rank).Replays links id (launch rank).rank [] := by
  refine ⟨⟨_, .refl _, fun _ => rfl⟩, rfl, rfl, ⟨[], [], rfl, fun further => ?_, ?_⟩, ?_⟩
  · exact absurd trivial further
  · rintro rest ⟨⟩
    exact ⟨rfl, rfl⟩
  · intro former visit latter entry none
    cases former <;> cases none

end Thread

namespace Simulation

variable {registry : Registry C} {options : Options} {topology : Topology} {clock : Instant}
  {journal : Journal} {simulation : Simulation C} {assembly : Assembly C}

omit [Component C] in
/-- The threads of a simulation before their first steps have nothing to count. -/
theorem counted_launch
    (built : (build registry options topology clock journal).2 = .ok simulation)
    (realizes : simulation.Realizes registry topology assembly) (filter : Filter) :
    (simulation.launch filter).Counted assembly.links := by
  intro index
  have inside := List.get_mem simulation.ranks index
  change (simulation.ranks.get index).traffic.toList = _
  rw [(spreads_of_build built).traffic _ inside, realizes.links _ inside, Array.toList_map]
  refine List.ext_getElem? fun id => ?_
  rw [getElem?_tallied, List.getElem?_map, Array.getElem?_toList]
  rfl

/-- In every run of a simulation that was built, on one rank or on several, what ranks did is told by
their visits and counted. -/
theorem kept_of_exec
    (built : (build registry options topology clock journal).2 = .ok simulation)
    (realizes : simulation.Realizes registry topology assembly) {filter : Filter}
    {schedule : List (Fin simulation.ranks.length)}
    {system : System C simulation.ranks.length}
    (reached : (simulation.launch filter).exec simulation.plan schedule = some system) :
    system.Kept simulation.plan assembly.links fun index =>
      ((simulation.launch filter).threads index).rank := by
  let first : Fin simulation.ranks.length → Rank C := fun index =>
    ((simulation.launch filter).threads index).rank
  have covers := realizes.covers
  have distinct := ids_injective built
  have flowing := flowing_launch built filter assembly.links
  have counted := counted_launch built realizes filter
  have replayed : (simulation.launch filter).Replayed simulation.plan assembly.links first :=
    fun index _ => ⟨[], Thread.replays_launch _ _ _⟩
  have upright (index : Fin simulation.ranks.length) :
      ((simulation.launch filter).threads index).Upright simulation.plan := fun _ => rfl
  cases alone : simulation.plan.alone with
  | true =>
    have step : ∀ (former next : System C simulation.ranks.length) index,
        (former.Solo simulation.plan assembly.links ∧ former.Carried simulation.plan) ∧
        former.Kept simulation.plan assembly.links first →
        former.step simulation.plan index = some next →
          (next.Solo simulation.plan assembly.links ∧ next.Carried simulation.plan) ∧
            next.Kept simulation.plan assembly.links first := by
      rintro former next index ⟨⟨solo, carried⟩, kept⟩ stepped
      have latter := solo.step covers alone stepped
      have onward := carried.step distinct stepped
      exact ⟨⟨latter, onward⟩, latter.steady onward,
        kept.flowing.step covers distinct kept.steady stepped,
        kept.replayed.step kept.flowing covers distinct kept.steady stepped,
        kept.counted.step stepped, solo.upright_step alone kept.upright stepped⟩
    have solo := solo_launch built filter realizes
    have carried := carried_launch built filter
    exact (System.exec_preserves step reached
      ⟨⟨solo, carried⟩, solo.steady carried, flowing, replayed, counted, upright⟩).2
  | false =>
    have several : 2 ≤ simulation.ranks.length := by
      rw [Plan.alone, decide_eq_false_iff_not] at alone
      omega
    have step : ∀ (former next : System C simulation.ranks.length) index,
        former.Timely simulation.plan assembly.links ∧
        former.Kept simulation.plan assembly.links first →
        former.step simulation.plan index = some next →
          next.Timely simulation.plan assembly.links ∧
            next.Kept simulation.plan assembly.links first := by
      rintro former next index ⟨timely, kept⟩ stepped
      have latter := timely.step covers alone distinct stepped
      exact ⟨latter, latter.steady, kept.flowing.step covers distinct kept.steady stepped,
        kept.replayed.step kept.flowing covers distinct kept.steady stepped,
        kept.counted.step stepped, timely.upright_step alone kept.upright stepped⟩
    have timely := timely_launch built several filter realizes
    exact (System.exec_preserves step reached
      ⟨timely, timely.steady, flowing, replayed, counted, upright⟩).2

end Simulation

end Rally
