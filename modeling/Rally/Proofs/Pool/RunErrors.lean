import Mathlib.Order.WellFounded
import Rally.Proofs.Pool.Failure
/-!
# Which error a run ends with

A single rank ends with the fault of the first call of a hook that fails, behind which nothing happens any
more. Several ranks end with the failure of the lowest rank that fails in the first window in which one does;
where none does, they end with that of the lowest rank a finish hook of which breaks off, and well if there is
none. That a rank gave up for the failure of another one is never what a run ends with.
-/

namespace Rally

/-- The first error among results that does not only tell of another one is what a run on several ranks ends
with. -/
theorem Windows.verdict_ofFn {n : Nat} {results : Fin n → Except RunError Termination} {index : Fin n}
    {error : RunError} (fails : results index = .error error) (primary : isSecondary error = false)
    (before : ∀ other < index, ∀ problem, results other = .error problem → isSecondary problem = true) :
    verdict (List.ofFn results) = .error error := by
  have inside : index.val < (List.ofFn results).length := by
    rw [List.length_ofFn]
    exact index.isLt
  have here : (List.ofFn results)[index.val] = .error error := by
    rw [List.getElem_ofFn]
    exact fails
  have split : List.ofFn results =
      (List.ofFn results).take index ++ .error error :: (List.ofFn results).drop (index + 1) := by
    rw [← here, ← List.drop_eq_getElem_cons inside, List.take_append_drop]
  refine verdict_of_first split primary fun other among => ?_
  obtain ⟨place, less, same⟩ := List.mem_take_iff_getElem.mp among
  rw [List.getElem_ofFn] at same
  exact before _ (Fin.mk_lt_of_lt_val (by omega)) other same

variable {C : Type} [Component C] {n : Nat} {plan : Plan n} {links : Array Link}

namespace Thread

variable {thread : Thread C}

/-- A call that fails with an error does so for a fault of a component. -/
theorem Fails.exists_fault {error : RunError} (fails : thread.Fails plan (.failed error)) :
    ∃ name violation, error = .componentFault name violation := by
  cases fails with
  | setup before fails => cases fails with | unconfigured => exact ⟨_, _, rfl⟩
  | dispatch before turn fails => cases fails <;> exact ⟨_, _, rfl⟩

/-- Why a call fails does not only tell of another failure. -/
theorem Fails.primary {halt : Halt} (fails : thread.Fails plan halt) (id : RankId) :
    Windows.isSecondary (Worker.errorOf id halt) = false := by
  cases halt with
  | failed error =>
    obtain ⟨name, violation, rfl⟩ := fails.exists_fault
    rfl
  | panicked panic => rfl

end Thread

namespace System

variable {first system : System C n} {schedule turns others : List (Fin n)} {index other : Fin n}
  {round window : Nat} {halt another : Halt}

/-- A step fails for one reason alone. -/
theorem FailsAt.unique (fails : first.FailsAt plan schedule turns index round halt)
    (also : first.FailsAt plan schedule turns index window another) : round = window ∧ halt = another := by
  obtain ⟨-, former, -, arrives, rfl, failing⟩ := fails
  obtain ⟨-, twin, -, arrivesToo, rfl, failingToo⟩ := also
  cases arrives.symm.trans arrivesToo
  exact ⟨rfl, failing.unique failingToo⟩

/-- Why a call fails that a schedule comes to does not only tell of another failure. -/
theorem FailsAt.primary (fails : first.FailsAt plan schedule turns index round halt) (id : RankId) :
    Windows.isSecondary (Worker.errorOf id halt) = false := by
  obtain ⟨-, former, -, -, -, failing⟩ := fails
  exact failing.primary id

/-- A thread that may call hooks before the exchange takes a step. -/
theorem exists_step (system : System C n) {index : Fin n} (calls : (system.threads index).phase.calls)
    (plan : Plan n) : ∃ next, system.step plan index = some next := by
  rw [step, Thread.step]
  cases phase : (system.threads index).phase with
  | starting | dispatching => exact ⟨_, rfl⟩
  | _ =>
    rw [phase] at calls
    exact calls.elim

/-- Every schedule of a single thread is the beginning of one that leads to the end. -/
theorem exists_rest_of_single (single : n = 1) {latter : System C n}
    (reached : first.exec plan schedule = some system) (complete : system.Complete)
    (reachedToo : first.exec plan turns = some latter) : ∃ rest, schedule = turns ++ rest := by
  subst single
  -- Schedules of one thread differ in their lengths alone.
  have begins {former latter : List (Fin 1)} (fewer : former.length ≤ latter.length) :
      latter = former ++ latter.drop former.length :=
    List.ext_getElem (by simp [fewer]) fun _ _ _ => Subsingleton.elim _ _
  rcases Nat.lt_or_ge schedule.length turns.length with more | fewer
  · have split := begins more.le
    cases rest : turns.drop schedule.length with
    | nil =>
      have none := congrArg List.length rest
      rw [List.length_drop, List.length_nil] at none
      omega
    | cons index rest' =>
      rw [split, rest, exec_append, reached, Option.bind_some, exec, complete.final] at reachedToo
      cases reachedToo
  · exact ⟨_, begins fewer⟩

/-- Whether a call that fails is to blame: it is the first one of the lowest rank that fails in the first
window in which some rank does. -/
structure IsCulprit (plan : Plan n) (first : System C n) (schedule turns : List (Fin n)) (index : Fin n)
    (round : Nat) (halt : Halt) : Prop where
  /-- The call fails. -/
  fails : first.FailsAt plan schedule turns index round halt
  /-- No rank fails in a window before. -/
  window : ∀ others other round' halt', first.FailsAt plan schedule others other round' halt' →
    round ≤ round'
  /-- No lower rank fails in the window. -/
  lowest : ∀ others other halt', first.FailsAt plan schedule others other round halt' →
    plan.ids index ≤ plan.ids other
  /-- The rank does not fail before. -/
  earliest : ∀ others round' halt', first.FailsAt plan schedule others index round' halt' →
    turns.length ≤ others.length

/-- What the end of a run on a single rank is blamed on. -/
structure BlamesCall (plan : Plan n) (first : System C n) (schedule : List (Fin n))
    (system : System C n) : Prop where
  /-- A call that fails is the last step of the run, which ends for its reason. -/
  last : ∀ turns index round halt, first.FailsAt plan schedule turns index round halt →
    schedule = turns ++ [index] ∧ system.Complete ∧ system.ending? = some (.error halt)
  /-- The run ends with an error for such a call alone. -/
  failed : ∀ error, system.ending? = some (.error (.failed error)) ↔
    ∃ turns index round, first.FailsAt plan schedule turns index round (.failed error)
  /-- The error is the fault of a component. -/
  fault : ∀ error, system.ending? = some (.error (.failed error)) →
    ∃ name violation, error = .componentFault name violation
  /-- It breaks off where a call or a finish hook does. -/
  panicked : ∀ panic, system.ending? = some (.error (.panicked panic)) →
    (∃ turns index round, first.FailsAt plan schedule turns index round (.panicked panic)) ∨
      ∃ turns index, first.BreaksAt plan schedule turns index panic

/-- What the end of a run on several ranks is blamed on. -/
structure BlamesRank (plan : Plan n) (first : System C n) (schedule : List (Fin n))
    (system : System C n) : Prop where
  /-- No rank starts another window behind one in which some rank fails. -/
  last : ∀ turns index round halt, first.FailsAt plan schedule turns index round halt →
    ∀ other, (system.threads other).round ≤ round
  /-- Where some rank fails, the run ends with the failure of the one that is to blame. -/
  failed : system.Complete → ∀ turns index round halt,
    first.FailsAt plan schedule turns index round halt →
      ∃ turns index round halt, first.IsCulprit plan schedule turns index round halt ∧
        system.ending? = some (.error (.failed (Worker.errorOf (plan.ids index) halt)))
  /-- Where none fails, it ends with the panic of the lowest rank a finish hook of which breaks off. -/
  broken : system.Complete →
    (∀ turns index round halt, ¬ first.FailsAt plan schedule turns index round halt) →
    ∀ turns index panic, first.BreaksAt plan schedule turns index panic →
      ∃ turns index panic, first.BreaksAt plan schedule turns index panic ∧
        (∀ others other panic', first.BreaksAt plan schedule others other panic' →
          plan.ids index ≤ plan.ids other) ∧
        system.ending? = some (.error (.failed (.rankPanicked (plan.ids index) panic.message)))
  /-- Where none breaks off either, it ends well. -/
  fine : system.Complete →
    (∀ turns index round halt, ¬ first.FailsAt plan schedule turns index round halt) →
    (∀ turns index panic, ¬ first.BreaksAt plan schedule turns index panic) →
      ∃ reason, system.ending? = some (.ok reason)

/-- Whether a thread of a run calls a hook next for which the run may end with an error. -/
inductive Yields (plan : Plan n) (system : System C n) : Halt → Prop where
  /-- A call of a hook fails, and the run ends as its rank does. -/
  | own {index : Fin n} {halt : Halt} (fails : (system.threads index).Fails plan halt) :
      Yields plan system halt
  /-- A call of a hook fails, and the run passes its error on. -/
  | passed {index : Fin n} {halt : Halt} (fails : (system.threads index).Fails plan halt) :
      Yields plan system (.failed (Worker.errorOf (plan.ids index) halt))
  /-- A finish hook breaks off. -/
  | broken {index : Fin n} {panic : Panic} {error : Halt} (breaks : (system.threads index).Breaks panic) :
      Yields plan system error

/-- An error that a run on a single rank ends with does not only tell of another one. -/
theorem BlamesCall.primary (blames : first.BlamesCall plan schedule system) {error : RunError}
    (ends : system.ending? = some (.error (.failed error))) : Windows.isSecondary error = false := by
  obtain ⟨name, violation, rfl⟩ := blames.fault error ends
  rfl

/-- How a run on several ranks ends: with the failure of the rank that is to blame, for a finish hook that
breaks off, or well. -/
theorem BlamesRank.cases (blames : first.BlamesRank plan schedule system)
    (complete : system.Complete) :
    (∃ turns index round halt, first.IsCulprit plan schedule turns index round halt ∧
      system.ending? = some (.error (.failed (Worker.errorOf (plan.ids index) halt)))) ∨
    (∃ turns index panic, first.BreaksAt plan schedule turns index panic ∧
      system.ending? = some (.error (.failed (.rankPanicked (plan.ids index) panic.message)))) ∨
    ∃ reason, system.ending? = some (.ok reason) := by
  by_cases fails : ∃ turns index round halt, first.FailsAt plan schedule turns index round halt
  · obtain ⟨turns, index, round, halt, fails⟩ := fails
    exact Or.inl (blames.failed complete turns index round halt fails)
  have none : ∀ turns index round halt, ¬ first.FailsAt plan schedule turns index round halt :=
    fun turns index round halt failing => fails ⟨turns, index, round, halt, failing⟩
  by_cases breaks : ∃ turns index panic, first.BreaksAt plan schedule turns index panic
  · obtain ⟨turns, index, panic, breaks⟩ := breaks
    obtain ⟨turns, index, panic, broke, -, same⟩ := blames.broken complete none turns index panic breaks
    exact Or.inr (Or.inl ⟨turns, index, panic, broke, same⟩)
  · exact Or.inr (Or.inr (blames.fine complete none fun turns index panic breaking =>
      breaks ⟨turns, index, panic, breaking⟩))

/-- Nor does one that a run on several ranks ends with. -/
theorem BlamesRank.primary (blames : first.BlamesRank plan schedule system)
    (complete : system.Complete) {error : RunError}
    (ends : system.ending? = some (.error (.failed error))) : Windows.isSecondary error = false := by
  rcases blames.cases complete with ⟨_, _, _, _, culprit, same⟩ | ⟨_, _, _, _, same⟩ | ⟨_, good⟩
  · cases ends.symm.trans same
    exact culprit.fails.primary _
  · cases ends.symm.trans same
    rfl
  · cases ends.symm.trans good

omit [Component C] in
/-- Where all threads have ended, they have done so for one decision, in one window. -/
theorem Unanimous.common (unanimous : system.Unanimous) (complete : system.Complete) (index : Fin n) :
    ∃ common, ∀ other, (system.threads other).Heeds common ∧
      (system.threads other).round = (system.threads index).round := by
  have gone (other : Fin n) : (system.threads other).phase.isOver := by
    obtain ⟨result, ended⟩ := complete other
    rw [ended]
    trivial
  obtain ⟨status, read, -⟩ := unanimous.left index (gone index)
  refine ⟨decision status, fun other => ?_⟩
  have rounds := le_antisymm (unanimous.together index (gone index) other)
    (unanimous.together other (gone other) index)
  obtain ⟨also, readToo, heeds⟩ := unanimous.left other (gone other)
  rw [rounds] at readToo
  obtain rfl := unanimous.read index other _ status also read readToo
  exact ⟨heeds, rounds⟩

omit [Component C] in
/-- The first rank that ends with an error of its own decides how a run on several ranks ends. -/
theorem Complete.ending_of_first (complete : system.Complete) (several : n ≠ 1)
    (ended : (system.threads index).phase = .ended (.error halt))
    (primary : Windows.isSecondary (Worker.errorOf (system.threads index).rank.id halt) = false)
    (before : ∀ other < index, ∀ another, (system.threads other).phase = .ended (.error another) →
      Windows.isSecondary (Worker.errorOf (system.threads other).rank.id another) = true) :
    system.ending? =
      some (.error (.failed (Worker.errorOf (system.threads index).rank.id halt))) := by
  obtain ⟨results, ends, -, among⟩ := complete.exists_results
  have own : results index = .error halt := Phase.ended.inj ((ends index).symm.trans ended)
  rw [among several, @Windows.verdict_ofFn _ _ index _ (by rw [own]; rfl) primary]
  · rfl
  · intro other less problem same
    cases result : results other with
    | ok reason =>
      rw [result] at same
      cases same
    | error another =>
      rw [result] at same
      cases same
      exact before other less another ((ends other).trans (congrArg _ result))

variable (told : first.Told plan schedule system)
include told

/-- A rank of which a call fails has failed, in the window in which the call did. -/
theorem Told.of_failsAt (fails : first.FailsAt plan schedule turns index round halt) :
    (system.threads index).worker.failure = some (Worker.errorOf (plan.ids index) halt) ∧
      (system.threads index).round = round ∧
      ∀ others window another, first.FailsAt plan schedule others index window another →
        others = turns := by
  cases failure : (system.threads index).worker.failure with
  | none => exact absurd fails ((told.threads index).fine failure _ _ _)
  | some error =>
    obtain ⟨others, another, called, rfl, once⟩ := (told.threads index).failed error failure
    obtain rfl := once _ _ _ fails
    obtain ⟨same, rfl⟩ := called.unique fails
    exact ⟨rfl, same, once⟩

/-- Where some rank has failed and all threads have ended, each of them gave up. -/
theorem Told.gives_up (unanimous : system.Unanimous) (complete : system.Complete)
    (upright : ∀ index, (system.threads index).Upright plan)
    (failed : (system.threads index).worker.failure ≠ none) (other : Fin n) :
    (system.threads other).phase = .ended (.error (.failed
      ((system.threads other).worker.failure.getD (.peerAborted (plan.ids other))))) := by
  obtain ⟨common, heeds⟩ := unanimous.common complete index
  obtain rfl : common = .abort := by
    have own := (heeds index).1
    cases common with
    | proceed later => exact own.elim
    | abort => rfl
    | stop reason =>
      refine absurd ?_ failed
      rcases own with ⟨rest, finishing⟩ | good | ⟨panic, broke⟩
      · exact upright index (Or.inr (by rw [finishing]; trivial))
      · exact upright index (Or.inr (by rw [good]; trivial))
      · exact (told.threads index).sound panic broke
  have gives := (heeds other).1
  rw [← (told.gave other _ gives).1]
  exact gives

/-- Where some rank fails, a run ends with the failure of the one that is to blame. -/
theorem Told.blames_failed (several : n ≠ 1) (unanimous : system.Unanimous)
    (complete : system.Complete) (upright : ∀ index, (system.threads index).Upright plan)
    (ascending : StrictMono plan.ids) (fails : first.FailsAt plan schedule turns index round halt) :
    ∃ turns index round halt, first.IsCulprit plan schedule turns index round halt ∧
      system.ending? = some (.error (.failed (Worker.errorOf (plan.ids index) halt))) := by
  have failed (place : Fin n) {turns : List (Fin n)} {round : Nat} {halt : Halt}
      (fails : first.FailsAt plan schedule turns place round halt) :
      (system.threads place).worker.failure ≠ none := by
    rw [(told.of_failsAt fails).1]
    exact Option.some_ne_none _
  have ends := told.gives_up unanimous complete upright (failed index fails)
  obtain ⟨lowest, some, least⟩ := (@wellFounded_lt (Fin n) _ _).has_min
    {place | (system.threads place).worker.failure ≠ none} ⟨index, failed index fails⟩
  obtain ⟨error, failure⟩ := Option.ne_none_iff_exists'.mp some
  obtain ⟨turns, halt, called, rfl, once⟩ := (told.threads lowest).failed error failure
  obtain ⟨common, together⟩ := unanimous.common complete lowest
  refine ⟨turns, lowest, _, halt, ⟨called, fun others other window another also => ?_,
    fun others other another also => ?_, fun others window another also => ?_⟩, ?_⟩
  · rw [← (told.of_failsAt also).2.1]
    exact (together other).2.ge
  · exact ascending.monotone (Nat.le_of_not_lt fun less => least other (failed other also) less)
  · rw [once _ _ _ also]
  · have ended := ends lowest
    rw [failure, Option.getD_some] at ended
    refine complete.ending_of_first several ended (called.primary _) fun other less another gives => ?_
    have healthy : (system.threads other).worker.failure = none := by
      by_contra unhealthy
      exact least other unhealthy less
    have gave := ends other
    rw [healthy] at gave
    cases gave.symm.trans gives
    rfl

/-- Where no rank fails, all threads end well but for finish hooks that break off. -/
theorem Told.ends_well
    (none : ∀ turns index round halt, ¬ first.FailsAt plan schedule turns index round halt)
    {index : Fin n} {halt : Halt} (ended : (system.threads index).phase = .ended (.error halt)) :
    ∃ panic turns, halt = .panicked panic ∧ first.BreaksAt plan schedule turns index panic := by
  cases halt with
  | failed error =>
    obtain ⟨-, other, failed⟩ := told.gave index error ended
    obtain ⟨error, failure⟩ := Option.ne_none_iff_exists'.mp failed
    obtain ⟨turns, halt, fails, -⟩ := (told.threads other).failed error failure
    exact absurd fails (none _ _ _ _)
  | panicked panic =>
    obtain ⟨turns, breaks⟩ := ((told.threads index).broken panic).mpr ended
    exact ⟨panic, turns, rfl, breaks⟩

/-- Where no rank fails, a run ends with the panic of the lowest rank a finish hook of which breaks off. -/
theorem Told.blames_broken (several : n ≠ 1) (complete : system.Complete)
    (ids : ∀ index, (system.threads index).rank.id = plan.ids index)
    (ascending : StrictMono plan.ids)
    (none : ∀ turns index round halt, ¬ first.FailsAt plan schedule turns index round halt)
    {panic : Panic} (breaks : first.BreaksAt plan schedule turns index panic) :
    ∃ turns index panic, first.BreaksAt plan schedule turns index panic ∧
      (∀ others other panic', first.BreaksAt plan schedule others other panic' →
        plan.ids index ≤ plan.ids other) ∧
      system.ending? = some (.error (.failed (.rankPanicked (plan.ids index) panic.message))) := by
  obtain ⟨lowest, ⟨turns, panic, broke⟩, least⟩ := (@wellFounded_lt (Fin n) _ _).has_min
    {place | ∃ turns panic, first.BreaksAt plan schedule turns place panic} ⟨index, _, _, breaks⟩
  have ended := ((told.threads lowest).broken panic).mp ⟨turns, broke⟩
  refine ⟨turns, lowest, panic, broke, fun others other panic' also => ?_, ?_⟩
  · exact ascending.monotone (Nat.le_of_not_lt fun less => least other ⟨others, panic', also⟩ less)
  · rw [← ids lowest]
    refine complete.ending_of_first several ended rfl fun other less another gives => ?_
    obtain ⟨panic', others, -, also⟩ := told.ends_well none gives
    exact absurd less (least other ⟨others, panic', also⟩)

/-- Where no rank fails and no finish hook breaks off, a run on several ranks ends well. -/
theorem Told.blames_none (several : n ≠ 1) (complete : system.Complete)
    (none : ∀ turns index round halt, ¬ first.FailsAt plan schedule turns index round halt)
    (calm : ∀ turns index panic, ¬ first.BreaksAt plan schedule turns index panic) :
    ∃ reason, system.ending? = some (.ok reason) := by
  obtain ⟨results, ends, -, among⟩ := complete.exists_results
  obtain ⟨reason, verdict⟩ := @Windows.exists_verdict_ok (List.ofFn fun index =>
      (results index).mapError (Worker.errorOf (system.threads index).rank.id)) fun error inside => by
    obtain ⟨index, same⟩ := List.mem_ofFn.mp inside
    cases result : results index with
    | ok reason =>
      rw [result] at same
      cases same
    | error halt =>
      obtain ⟨panic, turns, -, breaks⟩ :=
        told.ends_well none ((ends index).trans (congrArg _ result))
      exact calm turns index panic breaks
  exact ⟨reason, by rw [among several, verdict]; rfl⟩

end System

namespace Simulation

variable {registry : Registry C} {options : Options} {topology : Topology}
  {clock moment : Instant} {journal : Journal} {simulation : Simulation C} {filter : Filter}
  {fuel : Nat} {result : RunResult C}

section Exec

variable (built : (build registry options topology clock journal).2 = .ok simulation)
  {schedule : List (Fin simulation.ranks.length)} {system : System C simulation.ranks.length}
  (reached : (simulation.launch filter).exec simulation.plan schedule = some system)

include built reached

/-- What the end of every run on a single rank is blamed on. -/
theorem blamesCall_of_exec (single : simulation.ranks.length = 1) :
    (simulation.launch filter).BlamesCall simulation.plan schedule system := by
  have lone := lone_of_exec built reached (decide_eq_true single.le)
  have only (index other : Fin simulation.ranks.length) : other = index := Fin.ext (by omega)
  have last : ∀ turns index round halt,
      (simulation.launch filter).FailsAt simulation.plan schedule turns index round halt →
        schedule = turns ++ [index] ∧ system.Complete ∧ system.ending? = some (.error halt) := by
    intro turns index round halt fails
    obtain ⟨split, ended⟩ := lone.last turns index round halt fails
    exact ⟨split, fun other => ⟨_, only index other ▸ ended⟩, System.ending?_of_single single index ended⟩
  have failed : ∀ error, system.ending? = some (.error (.failed error)) ↔ ∃ turns index round,
      (simulation.launch filter).FailsAt simulation.plan schedule turns index round (.failed error) := by
    refine fun error => ⟨fun ends => ?_, ?_⟩
    · obtain ⟨index, ended⟩ := System.exists_ended_of_single single ends
      rcases lone.only index _ ended with ⟨turns, round, fails⟩ | ⟨_, _, _, same⟩
      · exact ⟨turns, index, round, fails⟩
      · cases same
    · rintro ⟨turns, index, round, fails⟩
      exact (last turns index round _ fails).2.2
  refine ⟨last, failed, fun error ends => ?_, fun panic ends => ?_⟩
  · obtain ⟨turns, index, round, -, former, -, -, -, fails⟩ := (failed error).mp ends
    exact fails.exists_fault
  · obtain ⟨index, ended⟩ := System.exists_ended_of_single single ends
    rcases lone.only index _ ended with ⟨turns, round, fails⟩ | ⟨turns, _, breaks, same⟩
    · exact Or.inl ⟨turns, index, round, fails⟩
    · cases same
      exact Or.inr ⟨turns, index, breaks⟩

/-- What the end of every run on several ranks is blamed on. -/
theorem blamesRank_of_exec (several : 2 ≤ simulation.ranks.length) :
    (simulation.launch filter).BlamesRank simulation.plan schedule system := by
  obtain ⟨assembly, realizes⟩ := realizes_of_build built
  have told := told_of_exec built reached several
  have timely := timely_of_exec built several realizes reached
  have upright := (kept_of_exec built realizes reached).upright
  have more : simulation.ranks.length ≠ 1 := by omega
  have ascending : StrictMono simulation.plan.ids := fun former latter less =>
    List.pairwise_iff_get.mp (ids_ascending built) former latter less
  refine ⟨fun turns index round halt fails other => ?_, fun complete turns index round halt fails =>
    told.blames_failed more timely.regular.unanimous complete upright ascending fails,
    fun complete none turns index panic breaks =>
      told.blames_broken more complete timely.wired.ids ascending none breaks,
    fun complete none calm => told.blames_none more complete none calm⟩
  obtain ⟨failure, rfl, -⟩ := told.of_failsAt fails
  exact told.last index other (by rw [failure]; exact Option.some_ne_none _)

/-- A run that ends with an error passes through a state where a thread calls a hook for which it does. -/
theorem yields_of_exec (complete : system.Complete) {error : Halt}
    (ended : system.ending? = some (.error error)) : ∃ turns former,
      (simulation.launch filter).exec simulation.plan turns = some former ∧
        former.Yields simulation.plan error := by
  have positive := ranks_of_build built
  rcases Nat.lt_or_ge 1 simulation.ranks.length with several | few
  · rcases (blamesRank_of_exec built reached several).cases complete with
      ⟨turns, index, round, halt, culprit, same⟩ | ⟨turns, index, panic, breaks, -⟩ | ⟨reason, good⟩
    · rw [Except.error.inj (Option.some.inj (ended.symm.trans same))]
      obtain ⟨-, former, -, arrives, -, failing⟩ := culprit.fails
      exact ⟨turns, former, arrives, .passed failing⟩
    · obtain ⟨-, former, -, arrives, breaking⟩ := breaks
      exact ⟨turns, former, arrives, .broken breaking⟩
    · cases ended.symm.trans good
  · have blames := blamesCall_of_exec built reached (by omega)
    cases error with
    | failed problem =>
      obtain ⟨turns, index, round, -, former, -, arrives, -, failing⟩ := (blames.failed problem).mp ended
      exact ⟨turns, former, arrives, .own failing⟩
    | panicked panic =>
      rcases blames.panicked panic ended with
        ⟨turns, index, -, -, former, -, arrives, -, failing⟩ | ⟨turns, index, -, former, -, arrives, breaking⟩
      · exact ⟨turns, former, arrives, .own failing⟩
      · exact ⟨turns, former, arrives, .broken breaking⟩

/-- Behind a call that fails every run that comes to its end does so with an error. -/
theorem ends_of_fails {index : Fin simulation.ranks.length} {halt : Halt}
    (fails : (system.threads index).Fails simulation.plan halt)
    {rest : List (Fin simulation.ranks.length)} {last : System C simulation.ranks.length}
    (onward : system.exec simulation.plan (index :: rest) = some last) (complete : last.Complete) :
    ∃ error, last.ending? = some (.error error) := by
  have positive := ranks_of_build built
  have ended : (simulation.launch filter).exec simulation.plan (schedule ++ index :: rest) = some last := by
    rw [System.exec_append, reached]
    exact onward
  have failsAt : (simulation.launch filter).FailsAt simulation.plan (schedule ++ index :: rest) schedule
      index (system.threads index).round halt := ⟨rest, system, rfl, reached, rfl, fails⟩
  rcases Nat.lt_or_ge 1 simulation.ranks.length with several | few
  · obtain ⟨-, index, -, halt, -, same⟩ := (blamesRank_of_exec built ended several).failed complete _ _ _ _ failsAt
    exact ⟨_, same⟩
  · exact ⟨_, ((blamesCall_of_exec built ended (by omega)).last _ _ _ _ failsAt).2.2⟩

/-- Where some schedule comes to a call that fails, the run ends with an error. -/
theorem error_of_fails {index : Fin simulation.ranks.length} {halt : Halt}
    (fails : (system.threads index).Fails simulation.plan halt)
    (runs : simulation.run fuel filter moment = some result) : ∃ error, result.outcome = .error error := by
  obtain ⟨whole, final, ending, arrives, complete, ended, outcome⟩ := ending_of_run built runs
  suffices failed : ∃ error, final.ending? = some (.error error) by
    obtain ⟨error, same⟩ := failed
    cases ended.symm.trans same
    exact ⟨error, outcome⟩
  obtain ⟨next, stepped⟩ := system.exists_step fails.calls simulation.plan
  have behind : (simulation.launch filter).exec simulation.plan (schedule ++ [index]) = some next := by
    rw [System.exec_append, reached, Option.bind_some, System.exec, stepped]
    rfl
  rcases Nat.lt_or_ge 1 simulation.ranks.length with several | few
  · -- The schedule goes on to the end of the run, since the order of steps does not matter.
    obtain ⟨rest, fellow, onward, alike, -⟩ := (regular_launch built several filter).descent
      (alone_plan several) (ids_injective built) arrives (complete.final _) behind
    have same := alike.threads_eq complete
    have completeToo : fellow.Complete := by
      rw [System.Complete, ← same]
      exact complete
    have passes : system.exec simulation.plan (index :: rest) = some fellow :=
      Option.bind_eq_some_iff.mpr ⟨next, stepped, onward⟩
    obtain ⟨error, gives⟩ := ends_of_fails built reached fails passes completeToo
    refine ⟨error, ?_⟩
    rw [← gives, System.ending?, System.ending?, System.verdict?, System.verdict?, same]
  · have positive := ranks_of_build built
    obtain ⟨rest, rfl⟩ := System.exists_rest_of_single (by omega) arrives complete behind
    rw [List.append_assoc] at arrives
    rw [System.exec_append, reached] at arrives
    exact ends_of_fails built reached fails arrives complete

end Exec

/-- What the errors are blamed on that the runs of a simulation end with. -/
structure Blames (filter : Filter) (simulation : Simulation C) : Prop where
  /-- A run that comes to an end does so as its threads do behind some schedule. -/
  runs : ∀ fuel moment result, simulation.run fuel filter moment = some result →
    ∃ schedule system ending, (simulation.launch filter).exec simulation.plan schedule = some system ∧
      system.Complete ∧ system.ending? = some ending ∧
      result.outcome = ending.map fun reason =>
        Report.ofRanks reason (List.ofFn fun index => (system.threads index).rank)
  /-- A run on a single rank ends for the first call that fails. -/
  alone : simulation.ranks.length = 1 → ∀ schedule system,
    (simulation.launch filter).exec simulation.plan schedule = some system →
      (simulation.launch filter).BlamesCall simulation.plan schedule system
  /-- A run on several ranks ends for the lowest rank that fails in the first window in which one does. -/
  several : 2 ≤ simulation.ranks.length → ∀ schedule system,
    (simulation.launch filter).exec simulation.plan schedule = some system →
      (simulation.launch filter).BlamesRank simulation.plan schedule system
  /-- No run ends with an error that only tells that another rank failed. -/
  peers : ∀ fuel moment result, simulation.run fuel filter moment = some result →
    ∀ rank, result.outcome ≠ .error (.failed (.peerAborted rank))

/-- Every run of a simulation that was built ends with an error exactly where a call of a hook fails or a finish
hook breaks off, and it is the first one in the order of windows and ranks that decides. -/
theorem blames_of_build (built : (build registry options topology clock journal).2 = .ok simulation)
    (filter : Filter) : simulation.Blames filter := by
  refine ⟨fun fuel moment result runs => ending_of_run built runs,
    fun single schedule system reached => blamesCall_of_exec built reached single,
    fun several schedule system reached => blamesRank_of_exec built reached several,
    fun fuel moment result runs rank outcome => ?_⟩
  obtain ⟨schedule, system, reached, complete, ended⟩ := error_of_run built runs outcome
  have some := ranks_of_build built
  rcases Nat.lt_or_ge 1 simulation.ranks.length with several | few
  · cases (blamesRank_of_exec built reached several).primary complete ended
  · cases (blamesCall_of_exec built reached (by omega)).primary ended

/-- Two players whose messages arrive where none are received, on a rank each and together on one: each run ends
for the call that fails on the second player, in the first window, and as the last step of a single rank. -/
theorem blames_of_build_clash :
    (∃ (simulation : Simulation Player) (result : RunResult Player)
      (schedule turns : List (Fin simulation.ranks.length))
      (system : System Player simulation.ranks.length) (index : Fin simulation.ranks.length) (halt : Halt),
      (build (Registry.builtin id) {} (.clash 0 1) Instant.zero ⟨Filter.off, #[]⟩).2 = .ok simulation ∧
      simulation.ranks.length = 2 ∧ simulation.run 8 Filter.off Instant.zero = some result ∧
      result.outcome = .error (.failed (.componentFault "pong" (.noHandler "output"))) ∧
      (simulation.launch Filter.off).exec simulation.plan schedule = some system ∧ system.Complete ∧
      (∃ round, (simulation.launch Filter.off).IsCulprit simulation.plan schedule turns index round halt ∧
        ∀ other, (system.threads other).round ≤ round) ∧
      Worker.errorOf (simulation.plan.ids index) halt = .componentFault "pong" (.noHandler "output")) ∧
    ∃ (simulation : Simulation Player) (result : RunResult Player)
      (schedule turns : List (Fin simulation.ranks.length)) (index : Fin simulation.ranks.length),
      (build (Registry.builtin id) {} (.clash 0 0) Instant.zero ⟨Filter.off, #[]⟩).2 = .ok simulation ∧
      simulation.ranks.length = 1 ∧ simulation.run 8 Filter.off Instant.zero = some result ∧
      result.outcome = .error (.failed (.componentFault "pong" (.noHandler "output"))) ∧
      (∃ round, (simulation.launch Filter.off).FailsAt simulation.plan schedule turns index round
        (.failed (.componentFault "pong" (.noHandler "output")))) ∧
      schedule = turns ++ [index] := by
  constructor
  · obtain ⟨simulation, result, built, two, runs, outcome⟩ := @exists_error _ _
      (Registry.builtin id : Registry Player) {} (.clash 0 1) Instant.zero Instant.zero
      ⟨Filter.off, #[]⟩ Filter.off 8 (.componentFault "pong" (.noHandler "output")) 2 (by decide +kernel)
    obtain ⟨schedule, system, reached, complete, ended⟩ := error_of_run built runs outcome
    have blames := (blames_of_build built Filter.off).several two.ge schedule system reached
    rcases blames.cases complete with
      ⟨turns, index, round, halt, culprit, same⟩ | ⟨_, _, _, _, same⟩ | ⟨_, same⟩
    · have cause := Option.some.inj (same.symm.trans ended)
      rw [Except.error.injEq, Halt.failed.injEq] at cause
      exact ⟨simulation, result, schedule, turns, system, index, halt, built, two, runs, outcome, reached,
        complete, ⟨round, culprit, blames.last turns index round halt culprit.fails⟩, cause⟩
    · cases same.symm.trans ended
    · cases same.symm.trans ended
  · obtain ⟨simulation, result, built, single, runs, outcome⟩ := @exists_error _ _
      (Registry.builtin id : Registry Player) {} (.clash 0 0) Instant.zero Instant.zero
      ⟨Filter.off, #[]⟩ Filter.off 8 (.componentFault "pong" (.noHandler "output")) 1 (by decide +kernel)
    obtain ⟨schedule, system, reached, complete, ended⟩ := error_of_run built runs outcome
    have blames := (blames_of_build built Filter.off).alone single schedule system reached
    obtain ⟨turns, index, round, fails⟩ := (blames.failed _).mp ended
    exact ⟨simulation, result, schedule, turns, index, built, single, runs, outcome, ⟨round, fails⟩,
      (blames.last turns index round _ fails).1⟩

end Simulation

end Rally
