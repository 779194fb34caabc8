import Rally.Proofs.Pool.FinishSends
import Rally.Proofs.Pool.RunErrors
import Rally.Proofs.Threads.HookResponses
/-!
# The life of components

The components of a rank are set up, one after the other in the order of their registration, before any event
is dispatched there. Then they handle messages, and behind the last event they are finished, again one after
the other. Where a setup hook or the dispatch of an event fails anywhere, no component is finished on any rank.
-/

namespace Rally

/-- A call of a hook: of which component, and what for. -/
abbrev Summons := ComponentId × Occasion

/-- The setup of some components. -/
def setups (ids : List ComponentId) : List Summons := ids.map fun id => (id, .setup)

/-- The messages that components are handed at their ports. -/
def deliveries (heard : List (ComponentId × PortId × Message)) : List Summons :=
  heard.map fun call => (call.1, .message call.2.1 call.2.2)

/-- The end of some components. -/
def farewells (ids : List ComponentId) : List Summons := ids.map fun id => (id, .finish)

namespace Phase

/-- Whether a thread is between its setup hooks and its finish hooks. -/
def isUnderway : Phase → Prop
  | starting _ | finishing _ _ | ended _ => False
  | _ => True

end Phase

variable {C : Type} [Component C] {n : Nat} {plan : Plan n} {links : Array Link}

namespace Rank

variable {rank : Rank C} {id : ComponentId}

/-- The component that a setup hook is called of. -/
theorem response?_setup (rank : Rank C) (id : ComponentId) :
    (rank.response? (.setup id)).toList.map (fun response => (response.id, response.occasion)) =
      setups ([id].filter fun id => (rank.slot? id).isSome) := by
  rw [response?, setups, List.filter_singleton]
  cases rank.slot? id <;> rfl

/-- The component that a finish hook is called of. -/
theorem response?_finish (rank : Rank C) (id : ComponentId) :
    (rank.response? (.finish id)).toList.map (fun response => (response.id, response.occasion)) =
      farewells ([id].filter fun id => (rank.slot? id).isSome) := by
  rw [response?, farewells, List.filter_singleton]
  cases rank.slot? id <;> rfl

/-- The dispatch of an event hands one message to a component at most, and one where it does not fail. -/
theorem response?_dispatch (rank : Rank C) (event : Scheduled Delivery) (pending : EventSet Delivery) :
    ∃ heard : List (ComponentId × PortId × Message),
      (rank.response? (.dispatch event pending)).toList.map
        (fun response => (response.id, response.occasion)) = deliveries heard ∧ heard.length ≤ 1 ∧
      (∀ call ∈ heard, (rank.slot? call.1).isSome) ∧
      ((dispatch event { rank with pending }).2 = none → heard.length = 1) := by
  rw [response?, dispatch_eq]
  cases owned : rank.slot? (rank.receiver event.payload).component with
  | none => exact ⟨[], rfl, Nat.zero_le _, by simp, fun fine => by cases fine⟩
  | some slot =>
    simp only [deliver]
    cases receives : slot.receives (rank.receiver event.payload).port with
    | false =>
      simp only [Option.filter_some, receives, Bool.false_eq_true, if_false]
      exact ⟨[], rfl, Nat.zero_le _, by simp, fun fine => by cases fine⟩
    | true =>
      simp only [Option.filter_some, receives, if_true]
      refine ⟨[((rank.receiver event.payload).component, (rank.receiver event.payload).port,
        event.payload.message)], rfl, le_refl _, fun call inside => ?_, fun _ => rfl⟩
      rw [List.mem_singleton.mp inside, owned]
      rfl

end Rank

namespace Thread

variable {view : View n} {thread next : Thread C} {effect : Effect n} {residents : List ComponentId}
  {count : Nat} {calls : List Summons}

/-- The hook that a thread calls in its next step, if it calls one. -/
def summons (plan : Plan n) (thread : Thread C) : List Summons :=
  (thread.response? plan).toList.map fun response => (response.id, response.occasion)

/-- How far the life of the components of a rank has come, given the calls of their hooks. -/
inductive Stage (own : ComponentId → Bool) (count : Nat) (calls : List Summons) (thread : Thread C) :
    Prop where
  /-- Some are set up. -/
  | starting {passed rest : List ComponentId} (phase : thread.phase = .starting rest)
      (split : List.range count = passed ++ rest) (called : calls = setups (passed.filter own))
      (still : thread.rank.dispatched = 0) (healthy : thread.worker.failure = none)
  /-- All are set up, and handle messages. -/
  | underway {heard : List (ComponentId × PortId × Message)} (phase : thread.phase.isUnderway)
      (called : calls = setups ((List.range count).filter own) ++ deliveries heard)
      (owned : ∀ call ∈ heard, own call.1 = true) (whole : heard.length = thread.rank.dispatched)
      (healthy : thread.worker.failure = none)
  /-- A hook of one of them has failed. -/
  | fallen {begun : List ComponentId} {heard : List (ComponentId × PortId × Message)}
      (phase : (thread.phase.isUnderway ∧ thread.phase ≠ .dispatching ∧ thread.worker.failure ≠ none) ∨
        ∃ halt, thread.phase = .ended (.error halt))
      (called : calls = setups begun ++ deliveries heard)
      (some : begun <+: (List.range count).filter own)
      (first : 0 < thread.rank.dispatched → begun = (List.range count).filter own)
      (owned : ∀ call ∈ heard, own call.1 = true) (most : heard.length ≤ thread.rank.dispatched)
  /-- Some are finished. -/
  | finishing {reason : Termination} {passed rest : List ComponentId}
      {heard : List (ComponentId × PortId × Message)} (phase : thread.phase = .finishing reason rest)
      (split : List.range count = passed ++ rest)
      (called : calls = setups ((List.range count).filter own) ++ deliveries heard ++
        farewells (passed.filter own))
      (owned : ∀ call ∈ heard, own call.1 = true) (whole : heard.length = thread.rank.dispatched)
  /-- All are finished. -/
  | finished {reason : Termination} {heard : List (ComponentId × PortId × Message)}
      (phase : thread.phase = .ended (.ok reason))
      (called : calls = setups ((List.range count).filter own) ++ deliveries heard ++
        farewells ((List.range count).filter own))
      (owned : ∀ call ∈ heard, own call.1 = true) (whole : heard.length = thread.rank.dispatched)
  /-- A finish hook of one of them has broken off. -/
  | broken {panic : Panic} {done : List ComponentId} {heard : List (ComponentId × PortId × Message)}
      (phase : thread.phase = .ended (.error (.panicked panic)))
      (called : calls = setups ((List.range count).filter own) ++ deliveries heard ++ farewells done)
      (some : done <+: (List.range count).filter own)
      (owned : ∀ call ∈ heard, own call.1 = true) (whole : heard.length = thread.rank.dispatched)

variable {own : ComponentId → Bool}

/-- Behind the next call of a setup hook, or none, the life of the components has come further. -/
theorem Stage.startNext {rest : List ComponentId} (stage : thread.Stage own count calls)
    (phase : thread.phase = .starting rest)
    (owns : ∀ id, (thread.rank.slot? id).isSome = own id) :
    (thread.startNext plan.alone rest).Stage own count (calls ++ thread.summons plan) := by
  cases stage with
  | @starting passed others there split called still healthy =>
    cases phase.symm.trans there
    cases rest with
    | nil =>
      have none : thread.summons plan = [] := by rw [summons, response?, hook?, phase]; rfl
      rw [none, List.append_nil]
      rw [List.append_nil] at split
      have whole : calls = setups ((List.range count).filter own) ++ deliveries [] := by
        rw [called, split]
        exact (List.append_nil _).symm
      exact .underway trivial whole (by simp) still.symm healthy
    | cons id rest =>
      have now : thread.summons plan = setups ([id].filter own) := by
        rw [summons, response?, hook?, phase]
        refine (thread.rank.response?_setup id).trans (congrArg setups (List.filter_congr fun id _ => ?_))
        exact owns id
      have more : calls ++ thread.summons plan = setups ((passed ++ [id]).filter own) := by
        rw [now, called, List.filter_append, setups, setups, setups, List.map_append]
      have further : List.range count = (passed ++ [id]) ++ rest := by
        rw [split, List.append_assoc]
        rfl
      have begun : (passed ++ [id]).filter own <+: (List.range count).filter own := by
        rw [further]
        exact (List.prefix_append _ _).filter own
      have quiet := thread.rank.dispatched_setup id
      rw [more, Thread.startNext]
      cases result : thread.rank.setup id with
      | mk rank halt =>
        rw [result] at quiet
        cases halt with
        | none => exact .starting rfl further rfl (quiet.trans still) healthy
        | some halt =>
          have fallen {last : Thread C} (stopped : (last.phase.isUnderway ∧ last.phase ≠ .dispatching ∧
              last.worker.failure ≠ none) ∨ ∃ halt, last.phase = .ended (.error halt))
              (same : last.rank = rank) :
              last.Stage own count (setups ((passed ++ [id]).filter own)) := by
            have zero : last.rank.dispatched = 0 := by rw [same]; exact quiet.trans still
            have whole : setups ((passed ++ [id]).filter own) =
                setups ((passed ++ [id]).filter own) ++ deliveries [] := (List.append_nil _).symm
            refine .fallen stopped whole begun (fun less => ?_) (by simp) (Nat.zero_le _)
            rw [zero] at less
            exact absurd less (Nat.lt_irrefl 0)
          simp only
          split
          · exact fallen (Or.inr ⟨halt, rfl⟩) rfl
          · exact fallen (Or.inl ⟨trivial, by rintro ⟨⟩, Option.some_ne_none _⟩) rfl
  | underway there => rw [phase] at there; exact there.elim
  | fallen there =>
    rcases there with ⟨there, -⟩ | ⟨halt, there⟩
    · rw [phase] at there
      exact there.elim
    · cases phase.symm.trans there
  | finishing there | finished there | broken there => cases phase.symm.trans there

/-- Behind the next dispatch, or the end of a window, it has come further. -/
theorem Stage.dispatchNext (stage : thread.Stage own count calls) (phase : thread.phase = .dispatching)
    (owns : ∀ id, (thread.rank.slot? id).isSome = own id) (size : thread.rank.slots.size = count) :
    (thread.dispatchNext plan).Stage own count (calls ++ thread.summons plan) := by
  cases stage with
  | @underway heard _ called owned whole healthy =>
    rw [Thread.dispatchNext]
    cases turn : thread.rank.turn (plan.bound thread.start) (plan.byVote thread.round) with
    | error stop =>
      have none : thread.summons plan = [] := by
        rw [summons, response?, hook?, phase]
        simp only [turn]
        rfl
      rw [none, List.append_nil]
      simp only [stopped]
      split
      · have split : List.range count = [] ++ thread.positions := by
          rw [positions, size, List.nil_append]
        exact .finishing rfl split (called.trans (List.append_nil _).symm) owned whole
      · exact .underway trivial called owned whole healthy
    | ok taken =>
      obtain ⟨event, pending⟩ := taken
      obtain ⟨more, now, most, own', one⟩ := thread.rank.response?_dispatch event pending
      have told : thread.summons plan = deliveries more := by
        rw [summons, response?, hook?, phase]
        simp only [turn]
        exact now
      have longer : calls ++ thread.summons plan =
          setups ((List.range count).filter own) ++ deliveries (heard ++ more) := by
        rw [told, called, List.append_assoc, deliveries, deliveries, deliveries, List.map_append]
      have all : ∀ call ∈ heard ++ more, own call.1 = true := by
        intro call inside
        rcases List.mem_append.mp inside with before | here
        · exact owned call before
        · rw [← owns]
          exact own' call here
      have counts := thread.rank.dispatched_dispatch event pending
      have length : (heard ++ more).length = thread.rank.dispatched + more.length := by
        rw [List.length_append, whole]
      rw [longer]
      simp only
      cases result : Rank.dispatch event { thread.rank with pending } with
      | mk rank halt =>
        rw [result] at counts one
        have more' : rank.dispatched = thread.rank.dispatched + 1 := counts
        cases halt with
        | none =>
          have dispatches : thread.phase.isUnderway := by rw [phase]; trivial
          refine .underway dispatches rfl all ?_ healthy
          rw [length, one rfl]
          exact more'.symm
        | some halt =>
          have fallen {last : Thread C} (stopped : (last.phase.isUnderway ∧ last.phase ≠ .dispatching ∧
              last.worker.failure ≠ none) ∨ ∃ halt, last.phase = .ended (.error halt))
              (same : last.rank = rank) : last.Stage own count
                (setups ((List.range count).filter own) ++ deliveries (heard ++ more)) := by
            refine .fallen stopped rfl (List.prefix_refl _) (fun _ => rfl) all ?_
            rw [same, length, more']
            omega
          simp only [halted]
          split
          · exact fallen (Or.inr ⟨halt, rfl⟩) rfl
          · exact fallen (Or.inl ⟨trivial, by rintro ⟨⟩, Option.some_ne_none _⟩) rfl
  | fallen there =>
    rcases there with ⟨-, away, -⟩ | ⟨halt, there⟩
    · exact absurd phase away
    · cases phase.symm.trans there
  | starting there | finishing there | finished there | broken there => cases phase.symm.trans there

/-- Behind the next call of a finish hook, or none, it has come further. -/
theorem Stage.finishNext {reason : Termination} {rest : List ComponentId}
    (stage : thread.Stage own count calls) (phase : thread.phase = .finishing reason rest)
    (owns : ∀ id, (thread.rank.slot? id).isSome = own id) :
    (thread.finishNext reason rest).Stage own count (calls ++ thread.summons plan) := by
  cases stage with
  | @finishing other passed others heard there split called owned whole =>
    cases phase.symm.trans there
    cases rest with
    | nil =>
      have none : thread.summons plan = [] := by rw [summons, response?, hook?, phase]; rfl
      rw [none, List.append_nil]
      rw [List.append_nil] at split
      refine .finished rfl ?_ owned whole
      rw [called, split]
    | cons id rest =>
      have now : thread.summons plan = farewells ([id].filter own) := by
        rw [summons, response?, hook?, phase]
        refine (thread.rank.response?_finish id).trans
          (congrArg farewells (List.filter_congr fun id _ => ?_))
        exact owns id
      have more : calls ++ thread.summons plan = setups ((List.range count).filter own) ++
          deliveries heard ++ farewells ((passed ++ [id]).filter own) := by
        rw [now, called, List.filter_append, farewells, farewells, farewells, List.map_append,
          List.append_assoc (setups _ ++ deliveries _)]
      have further : List.range count = (passed ++ [id]) ++ rest := by
        rw [split, List.append_assoc]
        rfl
      have done : (passed ++ [id]).filter own <+: (List.range count).filter own := by
        rw [further]
        exact (List.prefix_append _ _).filter own
      have quiet := thread.rank.dispatched_finishOne id
      rw [more, Thread.finishNext]
      cases result : thread.rank.finishOne id with
      | mk rank halt =>
        rw [result] at quiet
        cases halt with
        | none => exact .finishing rfl further rfl owned (whole.trans quiet.symm)
        | some halt =>
          obtain ⟨panic, rfl⟩ := Rank.panicked_of_finishOne result
          exact .broken rfl rfl done owned (whole.trans quiet.symm)
  | underway there => rw [phase] at there; exact there.elim
  | fallen there =>
    rcases there with ⟨there, -⟩ | ⟨halt, there⟩
    · rw [phase] at there
      exact there.elim
    · cases phase.symm.trans there
  | starting there | finished there | broken there => cases phase.symm.trans there

/-- Where a thread goes that calls no hook in a step. -/
inductive Strolls (thread next : Thread C) : Prop where
  /-- It stays between setup and finish hooks. -/
  | onward (phase : next.phase.isUnderway)
      (sound : next.phase = .dispatching → next.worker.failure = none)
      (failure : thread.worker.failure ≠ none → next.worker.failure ≠ none)
  /-- It goes on to the finish hooks. -/
  | stops {reason : Termination} (phase : next.phase = .finishing reason thread.positions)
      (failure : next.worker.failure = thread.worker.failure)
  /-- It gives up. -/
  | aborts {halt : Halt} (phase : next.phase = .ended (.error halt))

/-- Between setup and finish hooks, a thread that dispatches nothing calls no hook. -/
theorem strolls_of_step (phase : thread.phase.isUnderway) (away : thread.phase ≠ .dispatching)
    (single : plan.alone = true → thread.worker.failure = none)
    (stepped : thread.step plan view = some (next, effect)) :
    thread.hook? plan = none ∧ Strolls thread next := by
  cases steps_of_step stepped with
  | starts before | finishes before =>
    rw [before] at phase
    exact phase.elim
  | dispatches before => exact absurd before away
  | opens before =>
    refine ⟨by rw [hook?, before], ?_⟩
    rw [openWindow]
    split
    · next alone => exact .onward trivial (fun _ => single alone) fun failed => failed
    · split
      · exact .onward trivial (by rintro ⟨⟩) fun failed => failed
      · next healthy =>
        exact .onward trivial (fun _ => Option.not_isSome_iff_eq_none.mp healthy) fun failed => failed
  | loses before =>
    exact ⟨by rw [hook?, before], .onward trivial (by rintro ⟨⟩) fun _ => Option.some_ne_none _⟩
  | @passes gate _ before =>
    refine ⟨by rw [hook?, before], ?_⟩
    cases gate <;> exact .onward trivial (by rintro ⟨⟩) fun failed => failed
  | postsAll before | posts before | arrives before | takes before | schedules before
  | publishes before | reads before =>
    exact ⟨by rw [hook?, before], .onward trivial (by rintro ⟨⟩) fun failed => failed⟩
  | @decides read before =>
    refine ⟨by rw [hook?, before], ?_⟩
    rw [Thread.decide]
    cases decision read with
    | proceed next => exact .onward trivial (by rintro ⟨⟩) fun failed => failed
    | stop reason => exact .stops rfl rfl
    | abort => exact .aborts rfl

omit [Component C] in
/-- Behind a step without a call of a hook, the life of the components has come as far as before. -/
theorem Stage.stroll (stage : thread.Stage own count calls) (phase : thread.phase.isUnderway)
    (strolls : thread.Strolls next) (size : thread.rank.slots.size = count)
    (upright : next.Upright plan) (same : next.rank.dispatched = thread.rank.dispatched) :
    next.Stage own count calls := by
  cases stage with
  | @underway heard _ called owned whole healthy =>
    have fallen (there : (next.phase.isUnderway ∧ next.phase ≠ .dispatching ∧
        next.worker.failure ≠ none) ∨ ∃ halt, next.phase = .ended (.error halt)) :
        next.Stage own count calls :=
      .fallen there called (List.prefix_refl _) (fun _ => rfl) owned (same ▸ whole.le)
    cases strolls with
    | onward goes sound failure =>
      by_cases fine : next.worker.failure = none
      · exact .underway goes called owned (same ▸ whole) fine
      · exact fallen (Or.inl ⟨goes, fun dispatches => fine (sound dispatches), fine⟩)
    | stops goes failure =>
      have split : List.range count = [] ++ thread.positions := by
        rw [positions, size, List.nil_append]
      exact .finishing goes split (called.trans (List.append_nil _).symm) owned (same ▸ whole)
    | aborts goes => exact fallen (Or.inr ⟨_, goes⟩)
  | @fallen begun heard there called some first owned most =>
    rcases there with ⟨-, -, failed⟩ | ⟨halt, ended⟩
    · have fallen (there : (next.phase.isUnderway ∧ next.phase ≠ .dispatching ∧
          next.worker.failure ≠ none) ∨ ∃ halt, next.phase = .ended (.error halt)) :
          next.Stage own count calls :=
        .fallen there called some (same ▸ first) owned (same ▸ most)
      cases strolls with
      | onward goes sound failure =>
        exact fallen (Or.inl ⟨goes, fun dispatches => failure failed (sound dispatches), failure failed⟩)
      | stops goes failure =>
        have healthy := upright (Or.inr (by rw [goes]; trivial))
        exact absurd (failure.symm.trans healthy) failed
      | aborts goes => exact fallen (Or.inr ⟨_, goes⟩)
    · rw [ended] at phase
      exact phase.elim
  | starting there | finishing there | finished there | broken there =>
    rw [there] at phase
    exact phase.elim

/-- Behind each step the life of the components of a rank has come as far as the calls of their hooks tell. -/
theorem Stage.step (stage : thread.Stage own count calls)
    (owns : ∀ id, (thread.rank.slot? id).isSome = own id) (size : thread.rank.slots.size = count)
    (single : plan.alone = true → thread.worker.failure = none) (upright : next.Upright plan)
    (stepped : thread.step plan view = some (next, effect)) :
    next.Stage own count (calls ++ thread.summons plan) := by
  by_cases still : thread.phase.isUnderway ∧ thread.phase ≠ .dispatching
  · obtain ⟨none, strolls⟩ := strolls_of_step still.1 still.2 single stepped
    have silent : thread.summons plan = [] := by rw [summons, response?, none]; rfl
    rw [silent, List.append_nil]
    refine stage.stroll still.1 strolls size upright ?_
    obtain ⟨deeds, -, behaves⟩ := behaves_of_step stepped
    generalize next.rank = last at behaves
    cases behaves with
    | quiet _ _ _ dispatched => exact dispatched
    | setup before | finish before => rw [hook?, before] at none; cases none
    | dispatch before => exact absurd before still.2
  · cases steps_of_step stepped with
    | starts phase => exact stage.startNext phase owns
    | dispatches phase => exact stage.dispatchNext phase owns size
    | finishes phase => exact stage.finishNext phase owns
    | opens phase | posts phase | postsAll phase | loses phase | arrives phase | passes phase
    | takes phase | schedules phase | publishes phase | reads phase | decides phase =>
      exact absurd ⟨by rw [phase]; trivial, by rw [phase]; rintro ⟨⟩⟩ still

omit [Component C] in
/-- Components are finished on a thread alone that is not to go on with events. -/
theorem Stage.parts (stage : thread.Stage own count calls) {call : Summons} (inside : call ∈ calls)
    (finish : call.2 = .finish) : (∃ reason rest, thread.phase = .finishing reason rest) ∨
      (∃ reason, thread.phase = .ended (.ok reason)) ∨
      ∃ panic, thread.phase = .ended (.error (.panicked panic)) := by
  have before {ids : List ComponentId} {heard : List (ComponentId × PortId × Message)} :
      call ∉ setups ids ++ deliveries heard := by
    intro among
    rcases List.mem_append.mp among with among | among <;>
      (obtain ⟨_, -, rfl⟩ := List.mem_map.mp among; cases finish)
  cases stage with
  | starting _ _ called =>
    rw [called, ← List.append_nil (setups _)] at inside
    exact absurd inside (@before _ [])
  | underway _ called | fallen _ called =>
    rw [called] at inside
    exact absurd inside before
  | finishing phase => exact Or.inl ⟨_, _, phase⟩
  | finished phase => exact Or.inr (Or.inl ⟨_, phase⟩)
  | broken phase => exact Or.inr (Or.inr ⟨_, phase⟩)

end Thread

namespace System

variable {first system next : System C n} {schedule turns : List (Fin n)} {index : Fin n} {round : Nat}
  {halt : Halt} {reason : Termination}

/-- The calls of hooks on each thread along a schedule. -/
def summons (plan : Plan n) : List (Fin n) → System C n → Fin n → List Summons
  | [], _, _ => []
  | turn :: rest, system, index =>
    (if turn = index then (system.threads turn).summons plan else []) ++
      (system.step plan turn).elim [] fun next => summons plan rest next index

omit [Component C] in
/-- A thread that has left its rounds did so as the published status of all ranks asks for. -/
theorem Regular.heeds_board (regular : system.Regular plan)
    (gone : (system.threads index).phase.isOver) :
    (system.threads index).Heeds (decision (List.ofFn system.board)) := by
  obtain ⟨ledger, recorded⟩ := regular.recorded
  have sync := regular.lockstep.synchronous
  have last : 2 * (system.threads index).round + 2 = system.generation := by
    rw [← (sync index).epoch_eq (Phase.not_isWaiting_of_isOver gone), Thread.epoch,
      Phase.lag_of_isOver gone]
  obtain ⟨read, minute, heeds⟩ := (recorded.minuted index).left gone
  have entry := recorded.entry minute
  have published := recorded.last (by omega) (by omega)
  have count := recorded.count
  have place : ledger.length - 1 = (system.threads index).round := by omega
  rw [List.getLast?_eq_getElem?, place, entry, Option.some.injEq] at published
  rw [← published]
  exact heeds

/-- Where a thread has left its rounds to finish, no rank has failed. -/
theorem Told.healthy_of_stop (told : first.Told plan schedule system) (regular : system.Regular plan)
    (upright : ∀ index, (system.threads index).Upright plan)
    (gone : (system.threads index).phase.isOver)
    (decided : decision (List.ofFn system.board) = .stop reason) (other : Fin n) :
    (system.threads other).worker.failure = none := by
  by_contra failed
  obtain ⟨ledger, recorded⟩ := regular.recorded
  have sync := regular.lockstep.synchronous
  have rounds := le_antisymm (regular.round_le gone other) (told.last other index failed)
  have epoch : 2 * (system.threads other).round + 2 = system.generation := by
    rw [rounds, ← (sync index).epoch_eq (Phase.not_isWaiting_of_isOver gone), Thread.epoch,
      Phase.lag_of_isOver gone]
  rcases (sync other).showing epoch with published | departed
  · -- The failure would be among what was read.
    have inside : (system.threads other).worker.status ∈ List.ofFn system.board := by
      rw [← (recorded.reads other).published published]
      exact List.mem_ofFn.mpr ⟨other, rfl⟩
    have healthy := decision_eq_stop decided _ inside
    exact failed (Option.isNone_iff_eq_none.mp (Option.isSome_eq_false_iff.mp healthy))
  · have heeds := regular.heeds_board departed
    rw [decided] at heeds
    rcases heeds with ⟨rest, finishing⟩ | good | ⟨panic, broke⟩
    · exact failed (upright other (Or.inr (by rw [finishing]; trivial)))
    · exact failed (upright other (Or.inr (by rw [good]; trivial)))
    · exact failed ((told.threads other).sound panic broke)

end System

namespace Simulation

variable {registry : Registry C} {options : Options} {topology : Topology} {clock : Instant}
  {journal : Journal} {simulation : Simulation C} {filter : Filter}

variable (built : (build registry options topology clock journal).2 = .ok simulation)
  {schedule : List (Fin simulation.ranks.length)} {system : System C simulation.ranks.length}
  (reached : (simulation.launch filter).exec simulation.plan schedule = some system)

include built reached

end Simulation

end Rally
