import Rally.Proofs.Pool.LastVote
import Rally.Proofs.Simulation.Limits
/-!
# Runs that a limit cuts off

A rank that runs by itself dispatches the same events under a limit as without one, and comes to the same
states, up to the first event that the limit forbids. Since its events are dispatched in the order of time,
the limit forbids all later ones as well: the run is cut off there, and nothing else about it changes. On
several ranks none dispatches an event that the limit forbids either.
-/

namespace Rally

variable {C : Type}

/-- Whether a limit forbids none of some events that are dispatched from the first one on. -/
def Limit.Allows (limit : Limit) (events : List (Scheduled Delivery)) : Prop :=
  ∀ index event, events[index]? = some event → limit.applies (index + 1) event.time = false

/-- A limit that allows some events allows one more where it does not forbid this one. -/
theorem Limit.allows_concat {limit : Limit} {events : List (Scheduled Delivery)}
    {event : Scheduled Delivery} :
    limit.Allows (events ++ [event]) ↔
      limit.Allows events ∧ limit.applies (events.length + 1) event.time = false := by
  constructor
  · refine fun allows => ⟨fun index other there => allows index other ?_,
      allows events.length event List.getElem?_concat_length⟩
    rw [List.getElem?_append_left (List.getElem?_eq_some_iff.mp there).1, there]
  · rintro ⟨allows, last⟩ index other there
    rcases Nat.lt_trichotomy index events.length with before | rfl | beyond
    · rw [List.getElem?_append_left before] at there
      exact allows index other there
    · rw [List.getElem?_concat_length] at there
      cases there
      exact last
    · rw [List.getElem?_eq_none (by rw [List.length_append]; exact beyond)] at there
      cases there

/-- A limit forbids all of some events that are dispatched in the order of time from the first one on that
it forbids. -/
theorem Limit.exists_first (limit : Limit) {events : List (Scheduled Delivery)}
    (ascending : events.Pairwise fun x y => x.time ≤ y.time) :
    ∃ count ≤ events.length, ∀ index event, events[index]? = some event →
      (limit.applies (index + 1) event.time = false ↔ index < count) := by
  induction events using List.reverseRecOn with
  | nil => exact ⟨0, le_refl _, fun index event there => by cases there⟩
  | append_singleton former last ih =>
    obtain ⟨before, -, latest⟩ := List.pairwise_append.mp ascending
    obtain ⟨count, few, splits⟩ := ih before
    have old {index : Nat} {event : Scheduled Delivery} (inside : index < former.length)
        (there : (former ++ [last])[index]? = some event) : former[index]? = some event := by
      rwa [List.getElem?_append_left inside] at there
    have new {index : Nat} {event : Scheduled Delivery} (outside : ¬ index < former.length)
        (there : (former ++ [last])[index]? = some event) :
        index = former.length ∧ last = event := by
      have among := (List.getElem?_eq_some_iff.mp there).1
      rw [List.length_append, List.length_singleton] at among
      obtain rfl : index = former.length := by omega
      rw [List.getElem?_concat_length] at there
      exact ⟨rfl, Option.some.inj there⟩
    by_cases all : count = former.length ∧ limit.applies (former.length + 1) last.time = false
    · obtain ⟨rfl, allowed⟩ := all
      refine ⟨former.length + 1, by rw [List.length_append]; exact le_refl _,
        fun index event there => ?_⟩
      by_cases inside : index < former.length
      · exact (splits index event (old inside there)).trans (by omega)
      · obtain ⟨rfl, rfl⟩ := new inside there
        exact iff_of_true allowed (Nat.lt_succ_self _)
    · refine ⟨count, by rw [List.length_append]; omega, fun index event there => ?_⟩
      by_cases inside : index < former.length
      · exact splits index event (old inside there)
      · obtain ⟨rfl, rfl⟩ := new inside there
        refine iff_of_false (fun allowed => ?_) (by omega)
        by_cases full : count = former.length
        · exact all ⟨full, allowed⟩
        · have within : count < former.length := by omega
          have first : former[count]? = some former[count] := List.getElem?_eq_getElem within
          have forbids : limit.applies (count + 1) former[count].time = true := by
            rw [← Bool.not_eq_false, splits count _ first]
            exact lt_irrefl _
          have later := latest _ (List.getElem_mem within) last (List.mem_singleton_self last)
          rw [limit.applies_mono (by omega) later forbids] at allowed
          cases allowed

namespace Rank

/-- Whether the time of a rank is that of the last event it took. -/
structure Paced (rank : Rank C) : Prop where
  /-- The set of future events is in order. -/
  sound : rank.pending.Sound
  /-- The time is that of the last event taken. -/
  clock : rank.now = rank.pending.last

/-- An act keeps the time of a rank that of the last event it took. -/
theorem Paced.act {within : Instant → Prop} {first last : Rank C} {deeds : List Deed}
    (paced : first.Paced) (act : Act within first deeds last) : last.Paced := by
  cases act with
  | wrote | absorbed | started => exact ⟨paced.sound, paced.clock⟩
  | took event pending taken =>
    obtain ⟨-, -, sound, last, -⟩ := paced.sound.pop taken
    exact ⟨sound, last.symm⟩
  | sent id slot port binding message owned bound =>
    by_cases here : (first.receiver (delivery binding message)).rank = first.id
    · have due : first.pending.last ≤ first.due binding := by
        rw [← paced.clock]
        exact Duration.le_saturatingAdd _ _
      rw [send_of_eq here]
      exact ⟨paced.sound.add due _, paced.clock.trans (EventSet.last_add _ _ _).symm⟩
    · rw [send_of_ne here]
      exact ⟨paced.sound, paced.clock⟩

/-- What a rank does next under a limit is what it does next without one, unless the limit forbids it. -/
theorem turn_limitedTo (limit : Limit) {rank : Rank C} (free : rank.limit = .unlimited)
    (bound : Option Instant) (byVote : Bool) :
    (rank.limitedTo limit).turn bound byVote =
      match rank.turn bound byVote with
      | .error stop => .error stop
      | .ok (event, pending) =>
        if limit.applies (rank.dispatched + 1) event.time then .error .limitReached
        else .ok (event, pending) := by
  simp only [turn, limitedTo, free, EventSet.nextTime?_eq, Limit.applies]
  split
  · rfl
  · cases rank.pending.pop? with
    | none => rfl
    | some taken =>
      simp only [Option.map_some]
      split
      · rfl
      · simp only [Bool.false_eq_true, if_false]
        rfl

variable [Component C]

/-- Behind an event that it dispatches a rank has the same limit. -/
theorem limit_dispatch (event : Scheduled Delivery) (pending : EventSet Delivery) (rank : Rank C) :
    (dispatch event { rank with pending }).1.limit = rank.limit :=
  congrArg (fun behind => behind.1.limit) (dispatch_limitedTo rank.limit event pending rank)

/-- What a rank that runs by itself comes to behind the events that it dispatches one after the other, and
the failure behind the last one, if there is any. -/
inductive Dispatches (rank : Rank C) : List (Scheduled Delivery) → Rank C → Option Halt → Prop where
  /-- Before the first event it calls the setup hooks. -/
  | starts {begun : Rank C} {halt : Option Halt} (start : rank.start = (begun, halt)) :
      Dispatches rank [] begun halt
  /-- Unless it failed or has to stop, it dispatches the next one. -/
  | goes {events : List (Scheduled Delivery)} {here last : Rank C} {event : Scheduled Delivery}
      {pending : EventSet Delivery} {halt : Option Halt} (former : rank.Dispatches events here none)
      (turn : here.turn none true = .ok (event, pending))
      (called : dispatch event { here with pending } = (last, halt)) :
      Dispatches rank (events ++ [event]) last halt

/-- What a rank that stops comes to behind its finish hooks, and the result of its run. -/
def close (stop : Stop) (rank : Rank C) : Rank C × Except Halt Termination :=
  match rank.finish with
  | (last, some halt) => (last, .error halt)
  | (last, none) => (last, .ok (Simulation.reasonOf stop))

/-- What a rank that runs by itself comes to at the end of its run, and the result of that, behind the
events that it dispatches. -/
inductive Completes (rank : Rank C) (events : List (Scheduled Delivery)) :
    Rank C × Except Halt Termination → Prop where
  /-- It fails. -/
  | fails {last : Rank C} {halt : Halt} (dispatches : rank.Dispatches events last (some halt)) :
      Completes rank events (last, .error halt)
  /-- It stops. -/
  | stops {here : Rank C} {stop : Stop} (dispatches : rank.Dispatches events here none)
      (turn : here.turn none true = .error stop) : Completes rank events (here.close stop)

/-- How a rank closes does not depend on the limit. -/
theorem close_limitedTo (limit : Limit) (stop : Stop) (rank : Rank C) :
    (rank.limitedTo limit).close stop =
      ((rank.close stop).1.limitedTo limit, (rank.close stop).2) := by
  rw [close, close, finish_limitedTo]
  obtain ⟨last, halt⟩ := rank.finish
  cases halt <;> rfl

/-- What a rank comes to that gets through its events: it closes, unless it failed. -/
def settle : Rank C × Except Halt Stop → Rank C × Except Halt Termination
  | (last, .error halt) => (last, .error halt)
  | (last, .ok stop) => last.close stop

/-- A rank that runs by itself starts, gets through its events, and closes unless it failed. -/
theorem runSingle_eq (fuel : Nat) (rank : Rank C) :
    Simulation.runSingle fuel rank =
      match rank.start with
      | (begun, some halt) => some (begun, .error halt)
      | (begun, none) => (begun.dispatchUntil none true fuel).map settle := by
  rw [Simulation.runSingle]
  obtain ⟨begun, halt⟩ := rank.start
  cases halt with
  | some halt => rfl
  | none =>
    simp only
    cases begun.dispatchUntil none true fuel with
    | none => rfl
    | some reached =>
      obtain ⟨last, outcome⟩ := reached
      cases outcome with
      | error halt => rfl
      | ok stop =>
        simp only [Option.map_some, settle, close]
        obtain ⟨final, halt⟩ := last.finish
        cases halt <;> rfl

/-- A rank before its first event. -/
structure Fresh (rank : Rank C) : Prop where
  /-- No event waits. -/
  pending : rank.pending = {}
  /-- None was dispatched. -/
  dispatched : rank.dispatched = 0

namespace Dispatches

variable {rank last : Rank C} {events : List (Scheduled Delivery)} {halt : Option Halt}
  {limit : Limit}

/-- A rank counts the events that it dispatches, and keeps its limit. -/
theorem counts (dispatches : rank.Dispatches events last halt) (fresh : rank.Fresh) :
    last.dispatched = events.length ∧ last.limit = rank.limit := by
  induction dispatches with
  | starts start =>
    refine ⟨(dispatched_start start).trans fresh.dispatched, ?_⟩
    have same := start_limitedTo rank.limit rank
    rw [start] at same
    exact congrArg (fun behind => behind.1.limit) (start.symm.trans same)
  | @goes events here last event pending halt former turn called ih =>
    have counted := dispatched_dispatch here event pending
    have kept := limit_dispatch event pending here
    rw [called] at counted kept
    refine ⟨?_, kept.trans ih.2⟩
    rw [List.length_append, List.length_singleton, ← ih.1]
    exact counted

/-- A rank dispatches its events in the order of time. -/
theorem ascending (dispatches : rank.Dispatches events last halt) (fresh : rank.Fresh) :
    last.Paced ∧ events.Pairwise (fun x y => x.time ≤ y.time) ∧
      ∀ event ∈ events, event.time ≤ last.now := by
  induction dispatches with
  | @starts begun halt start =>
    have all (ids : List ComponentId) (first : Rank C) (paced : first.Paced) :
        (setupAll ids first).1.Paced := by
      induction ids generalizing first with
      | nil => exact paced
      | cons id rest ih =>
        have behind : (setup id first).1.Paced :=
          (setup_course id first : Course (fun _ => True) _ _ _).keeps Paced
            (fun _ _ _ paced act => paced.act act) paced
        rw [setupAll]
        cases called : setup id first with
        | mk next halt =>
          rw [called] at behind
          cases halt with
          | none => exact ih next behind
          | some halt => exact behind
    have first : ({ rank with now := Instant.zero } : Rank C).Paced := by
      refine ⟨?_, ?_⟩
      · change rank.pending.Sound
        rw [fresh.pending]
        exact EventSet.sound_empty
      · change Instant.zero = rank.pending.last
        rw [fresh.pending]
    have behind := all (List.range rank.slots.size) _ first
    rw [show setupAll _ _ = (begun, halt) from start] at behind
    exact ⟨behind, List.Pairwise.nil, fun event inside => absurd inside List.not_mem_nil⟩
  | @goes events here last event pending halt former turn called ih =>
    obtain ⟨paced, sorted, passed⟩ := ih
    have popped := (turn_ok turn).1
    have behind : (dispatch event { here with pending }).1.Paced :=
      (dispatch_course popped trivial : Course (fun _ => True) _ _ _).keeps Paced
        (fun _ _ _ paced act => paced.act act) paced
    have clock := now_dispatch here event pending
    rw [called] at behind clock
    have inside : event ∈ here.pending.toList :=
      (paced.sound.pop popped).1.mem_iff.mpr List.mem_cons_self
    have later : here.now ≤ event.time := by
      rw [paced.clock]
      exact paced.sound.last_le event inside
    have clock : last.now = event.time := clock
    refine ⟨behind, List.pairwise_append.mpr ⟨sorted, List.pairwise_singleton _ _, ?_⟩, ?_⟩
    · intro other before next same
      rw [List.mem_singleton.mp same]
      exact le_trans (passed other before) later
    · intro other among
      rw [clock]
      rcases List.mem_append.mp among with before | same
      · exact le_trans (passed other before) later
      · exact le_of_eq (congrArg _ (List.mem_singleton.mp same))

/-- Before any of the events that a rank dispatches it did not fail, and was to dispatch this one next. -/
theorem take (dispatches : rank.Dispatches events last halt) {count : Nat}
    (few : count ≤ events.length) :
    ∃ here early, rank.Dispatches (events.take count) here early ∧
      (count = events.length → here = last ∧ early = halt) ∧
      (count < events.length → early = none ∧
        ∃ event pending, events[count]? = some event ∧
          here.turn none true = .ok (event, pending)) := by
  induction dispatches with
  | starts start =>
    obtain rfl : count = 0 := Nat.le_zero.mp few
    exact ⟨_, _, .starts start, fun _ => ⟨rfl, rfl⟩, fun less => absurd less (lt_irrefl 0)⟩
  | @goes events here last event pending halt former turn called ih =>
    rw [List.length_append, List.length_singleton] at few ⊢
    rcases Nat.lt_trichotomy count events.length with before | rfl | beyond
    · obtain ⟨middle, early, taken, -, next⟩ := ih (Nat.le_of_lt before)
      rw [List.take_append_of_le_length (Nat.le_of_lt before)]
      obtain ⟨healthy, other, rest, there, goes⟩ := next before
      exact ⟨middle, early, taken, fun same => by omega, fun _ => ⟨healthy, other, rest,
        by rw [List.getElem?_append_left before, there], goes⟩⟩
    · rw [List.take_append_of_le_length (le_refl _), List.take_length]
      exact ⟨here, none, former, fun same => by omega, fun _ => ⟨rfl, event, pending,
        List.getElem?_concat_length, turn⟩⟩
    · obtain rfl : count = events.length + 1 := by omega
      rw [List.take_of_length_le (by rw [List.length_append, List.length_singleton])]
      exact ⟨last, halt, former.goes turn called, fun _ => ⟨rfl, rfl⟩, fun less => by omega⟩

/-- A rank without a limit dispatches under a limit the events that this allows, and comes to the same
state behind them. -/
theorem limited (dispatches : rank.Dispatches events last halt) (fresh : rank.Fresh)
    (free : rank.limit = .unlimited) (allows : limit.Allows events) :
    (rank.limitedTo limit).Dispatches events (last.limitedTo limit) halt := by
  induction dispatches with
  | starts start =>
    refine .starts ?_
    rw [start_limitedTo, start]
  | @goes events here last event pending halt former turn called ih =>
    obtain ⟨before, allowed⟩ := Limit.allows_concat.mp allows
    obtain ⟨count, kept⟩ := former.counts fresh
    have goes : (here.limitedTo limit).turn none true = .ok (event, pending) := by
      rw [turn_limitedTo limit (kept.trans free), turn, count]
      simp only [allowed, Bool.false_eq_true, if_false]
    refine (ih before).goes goes ?_
    rw [dispatch_limitedTo, called]

/-- What a rank dispatches under a limit, it dispatches without one as well, and the limit allows it. -/
theorem unlimited (dispatches : (rank.limitedTo limit).Dispatches events last halt)
    (fresh : rank.Fresh) (free : rank.limit = .unlimited) :
    limit.Allows events ∧
      ∃ here, rank.Dispatches events here halt ∧ last = here.limitedTo limit := by
  induction dispatches with
  | starts start =>
    rw [start_limitedTo] at start
    obtain ⟨rfl, rfl⟩ := Prod.mk.inj start
    exact ⟨fun index event there => (by cases there), _, .starts rfl, rfl⟩
  | @goes events here last event pending halt former turn called ih =>
    obtain ⟨before, reached, dispatches, rfl⟩ := ih
    obtain ⟨count, kept⟩ := dispatches.counts fresh
    rw [turn_limitedTo limit (kept.trans free)] at turn
    cases goes : reached.turn none true with
    | error stop =>
      rw [goes] at turn
      cases turn
    | ok taken =>
      obtain ⟨next, rest⟩ := taken
      rw [goes] at turn
      simp only [count] at turn
      split at turn
      · cases turn
      · next allowed =>
        cases turn
        rw [dispatch_limitedTo] at called
        obtain ⟨rfl, rfl⟩ := Prod.mk.inj called
        exact ⟨Limit.allows_concat.mpr ⟨before, Bool.not_eq_true _ ▸ allowed⟩, _,
          dispatches.goes goes rfl, rfl⟩

/-- Behind some of its events a rank goes on to get through the rest of them. -/
theorem runSingle_eq (dispatches : rank.Dispatches events last halt) (healthy : halt = none)
    (fuel : Nat) :
    Simulation.runSingle (fuel + events.length) rank =
      (last.dispatchUntil none true fuel).map settle := by
  induction dispatches generalizing fuel with
  | starts start =>
    rw [Rank.runSingle_eq, start, healthy]
    rfl
  | @goes events here last event pending halt former turn called ih =>
    rw [List.length_append, List.length_singleton, Nat.add_comm events.length, ← Nat.add_assoc,
      ih rfl (fuel + 1), dispatchUntil_succ, turn]
    simp only [called, healthy]

/-- What a rank comes to where it gets through its events is what it comes to behind some of them. -/
theorem of_dispatchUntil {outcome : Except Halt Stop} {fuel : Nat}
    (dispatches : rank.Dispatches events last none) {final : Rank C}
    (runs : last.dispatchUntil none true fuel = some (final, outcome)) :
    ∃ all, match outcome with
      | .ok stop => rank.Dispatches all final none ∧ final.turn none true = .error stop
      | .error halt => rank.Dispatches all final (some halt) := by
  induction fuel generalizing last events with
  | zero => cases runs
  | succ fuel ih =>
    rw [dispatchUntil_succ] at runs
    cases turn : last.turn none true with
    | error stop =>
      simp only [turn] at runs
      cases runs
      exact ⟨events, dispatches, turn⟩
    | ok taken =>
      obtain ⟨event, pending⟩ := taken
      simp only [turn] at runs
      cases called : dispatch event { last with pending } with
      | mk next halt =>
        simp only [called] at runs
        cases halt with
        | none => exact ih (dispatches.goes turn called) runs
        | some halt =>
          cases runs
          exact ⟨_, dispatches.goes turn called⟩

end Dispatches

namespace Completes

variable {rank last : Rank C} {events : List (Scheduled Delivery)}
  {reached : Rank C × Except Halt Termination} {fuel : Nat} {limit : Limit}

/-- A rank that completes its run behind some events does so with fuel for one more than these. -/
theorem runs (completes : rank.Completes events reached) (enough : events.length < fuel) :
    Simulation.runSingle fuel rank = some reached := by
  cases completes with
  | fails dispatches =>
    cases dispatches with
    | starts start => rw [runSingle_eq, start]
    | @goes former here _ event pending _ dispatches turn called =>
      rw [List.length_append, List.length_singleton] at enough
      obtain ⟨spare, rfl⟩ : ∃ spare, fuel = spare + 1 + former.length :=
        ⟨fuel - former.length - 1, by omega⟩
      rw [dispatches.runSingle_eq rfl, dispatchUntil_succ, turn]
      simp only [called, Option.map_some, settle]
  | stops dispatches turn =>
    obtain ⟨spare, rfl⟩ : ∃ spare, fuel = spare + 1 + events.length :=
      ⟨fuel - events.length - 1, by omega⟩
    rw [dispatches.runSingle_eq rfl, dispatchUntil_succ, turn]
    rfl

/-- A rank that comes to the end of its run completes it behind some events. -/
theorem of_runs (ran : Simulation.runSingle fuel rank = some reached) :
    ∃ events, rank.Completes events reached := by
  rw [runSingle_eq] at ran
  cases start : rank.start with
  | mk begun halt =>
    rw [start] at ran
    cases halt with
    | some halt =>
      cases ran
      exact ⟨[], .fails (.starts start)⟩
    | none =>
      obtain ⟨⟨last, outcome⟩, runs, rfl⟩ := Option.map_eq_some_iff.mp ran
      obtain ⟨events, dispatches⟩ := (Dispatches.starts start).of_dispatchUntil runs
      cases outcome with
      | error halt => exact ⟨events, .fails dispatches⟩
      | ok stop => exact ⟨events, .stops dispatches.1 dispatches.2⟩

/-- Under a limit a rank completes its run as without one, behind events that the limit allows, or stops
where the limit forbids the next event. -/
theorem limitedTo_iff (fresh : rank.Fresh) (free : rank.limit = .unlimited) :
    (rank.limitedTo limit).Completes events reached ↔
      limit.Allows events ∧
        ((∃ last result, rank.Completes events (last, result) ∧
            reached = (last.limitedTo limit, result)) ∨
          ∃ here event pending, rank.Dispatches events here none ∧
            here.turn none true = .ok (event, pending) ∧
            limit.applies (events.length + 1) event.time = true ∧
            reached = (here.limitedTo limit).close .limitReached) := by
  constructor
  · intro completes
    cases completes with
    | fails dispatches =>
      obtain ⟨allows, here, reaches, rfl⟩ := dispatches.unlimited fresh free
      exact ⟨allows, Or.inl ⟨here, _, .fails reaches, rfl⟩⟩
    | @stops _ stop dispatches turn =>
      obtain ⟨allows, here, reaches, rfl⟩ := dispatches.unlimited fresh free
      obtain ⟨count, kept⟩ := reaches.counts fresh
      refine ⟨allows, ?_⟩
      rw [turn_limitedTo limit (kept.trans free), count] at turn
      cases goes : here.turn none true with
      | error other =>
        rw [goes] at turn
        cases turn
        exact Or.inl ⟨_, _, .stops reaches goes, close_limitedTo limit stop here⟩
      | ok taken =>
        obtain ⟨event, pending⟩ := taken
        rw [goes] at turn
        simp only at turn
        split at turn
        · next forbids =>
          cases turn
          exact Or.inr ⟨here, event, pending, reaches, goes, forbids, rfl⟩
        · cases turn
  · rintro ⟨allows, ⟨last, result, completes, rfl⟩ | ⟨here, event, pending, reaches, goes, forbids, rfl⟩⟩
    · generalize same : (last, result) = ended at completes
      cases completes with
      | fails dispatches =>
        cases same
        exact .fails (dispatches.limited fresh free allows)
      | @stops here stop dispatches turn =>
        obtain ⟨count, kept⟩ := dispatches.counts fresh
        have closes := close_limitedTo limit stop here
        rw [← same] at closes
        rw [← closes]
        refine .stops (dispatches.limited fresh free allows) ?_
        rw [turn_limitedTo limit (kept.trans free), turn]
    · obtain ⟨count, kept⟩ := reaches.counts fresh
      refine .stops (reaches.limited fresh free allows) ?_
      rw [turn_limitedTo limit (kept.trans free), goes, count]
      simp only [forbids, if_true]

end Completes

/-- How a limit cuts off the run of a rank that runs by itself. -/
structure Cut (limit : Limit) (rank : Rank C) : Prop where
  /-- Of the events that are dispatched without the limit those are dispatched under it that it does not
  forbid. They are the first ones, and all but the limit is behind them as it is without it. -/
  splits : ∀ events last halt, rank.Dispatches events last halt → ∃ count ≤ events.length,
    (∀ index event, events[index]? = some event →
      (limit.applies (index + 1) event.time = false ↔ index < count)) ∧
    ∃ here early, rank.Dispatches (events.take count) here early ∧
      (rank.limitedTo limit).Dispatches (events.take count) (here.limitedTo limit) early ∧
      (count < events.length → early = none ∧
        (here.limitedTo limit).turn none true = .error .limitReached)
  /-- No other events are dispatched under it. -/
  within : ∀ events last halt, (rank.limitedTo limit).Dispatches events last halt →
    limit.Allows events ∧ ∃ here, rank.Dispatches events here halt ∧ last = here.limitedTo limit
  /-- The run comes to its end as it does without the limit, or where the limit forbids the next event. -/
  completes : ∀ events reached, (rank.limitedTo limit).Completes events reached ↔
    limit.Allows events ∧
      ((∃ last result, rank.Completes events (last, result) ∧
          reached = (last.limitedTo limit, result)) ∨
        ∃ here event pending, rank.Dispatches events here none ∧
          here.turn none true = .ok (event, pending) ∧
          limit.applies (events.length + 1) event.time = true ∧
          reached = (here.limitedTo limit).close .limitReached)

/-- A limit cuts off the run of a rank that has none. -/
theorem cut_of_unlimited (limit : Limit) {rank : Rank C} (fresh : rank.Fresh)
    (free : rank.limit = .unlimited) : rank.Cut limit := by
  refine ⟨fun events last halt dispatches => ?_, fun events last halt dispatches =>
    dispatches.unlimited fresh free, fun events reached => Completes.limitedTo_iff fresh free⟩
  obtain ⟨count, few, splits⟩ := limit.exists_first (dispatches.ascending fresh).2.1
  obtain ⟨here, early, taken, -, next⟩ := dispatches.take few
  have allows : limit.Allows (events.take count) := by
    intro index event there
    have inside := (List.getElem?_eq_some_iff.mp there).1
    rw [List.length_take] at inside
    rw [List.getElem?_take_of_lt (by omega)] at there
    exact (splits index event there).mpr (by omega)
  refine ⟨count, few, splits, here, early, taken, taken.limited fresh free allows, fun less => ?_⟩
  obtain ⟨healthy, event, pending, there, goes⟩ := next less
  obtain ⟨dispatched, kept⟩ := taken.counts fresh
  rw [List.length_take, Nat.min_eq_left few] at dispatched
  have forbids : limit.applies (count + 1) event.time = true := by
    rw [← Bool.not_eq_false, splits count event there]
    exact lt_irrefl _
  refine ⟨healthy, ?_⟩
  rw [turn_limitedTo limit (kept.trans free), goes, dispatched]
  simp only [forbids, if_true]

end Rank

namespace Thread

variable [Component C] {n : Nat} {plan : Plan n} {view : View n} {thread next : Thread C}
  {effect : Effect n}

/-- Whether a thread has dispatched no event that a limit forbids. -/
structure Keeps (limit : Limit) (thread : Thread C) : Prop where
  /-- Its rank is under the limit. -/
  limited : thread.rank.limit = limit
  /-- The rank counts all events. -/
  counted : (thread.history.filterMap Deed.event?).length ≤ thread.rank.dispatched
  /-- The limit forbids none of them. -/
  allows : limit.Allows (thread.history.filterMap Deed.event?)

omit [Component C] in
/-- A thread that dispatches nothing keeps to its limit. -/
theorem Keeps.of_same {limit : Limit} (keeps : thread.Keeps limit) {deeds : List Deed}
    (history : next.history = thread.history ++ deeds) (still : deeds.filterMap Deed.event? = [])
    (limited : next.rank.limit = limit) (counted : next.rank.dispatched = thread.rank.dispatched) :
    next.Keeps limit := by
  have same : next.history.filterMap Deed.event? = thread.history.filterMap Deed.event? := by
    rw [history, List.filterMap_append, still, List.append_nil]
  exact ⟨limited, by rw [same, counted]; exact keeps.counted, by rw [same]; exact keeps.allows⟩

/-- A step dispatches no event that the limit forbids. -/
theorem Keeps.step {limit : Limit} (keeps : thread.Keeps limit)
    (stepped : thread.step plan view = some (next, effect)) : next.Keeps limit := by
  have limited : next.rank.limit = limit :=
    (moves_of_step stepped).carries.keeps_limit.trans keeps.limited
  obtain ⟨deeds, history, behaves⟩ := behaves_of_step stepped
  generalize last : next.rank = rank at behaves
  cases behaves with
  | @setup id =>
    refine keeps.of_same history ?_ limited (by rw [last]; exact thread.rank.dispatched_setup id)
    exact (Rank.setup_course id thread.rank : Rank.Course (fun _ => False) _ _ _).deeds_still.2.1
  | @dispatch event pending before turn =>
    have counted := thread.rank.dispatched_dispatch event pending
    rw [← last] at counted
    obtain ⟨more, same, course, -⟩ := Rank.dispatch_behind_take event pending thread.rank
    have still := course.deeds_still.2.1
    rcases Rank.takeDeeds_eq event pending thread.rank with none | ⟨arrival, one, -⟩
    · have events : next.history.filterMap Deed.event? = thread.history.filterMap Deed.event? := by
        rw [history, List.filterMap_append, same, none, List.nil_append, still, List.append_nil]
      have few := keeps.counted
      exact ⟨limited, by rw [events]; omega, by rw [events]; exact keeps.allows⟩
    · have events : next.history.filterMap Deed.event? =
          thread.history.filterMap Deed.event? ++ [event] := by
        rw [history, List.filterMap_append, same, one, List.filterMap_append, still, List.append_nil]
        rfl
      have few := keeps.counted
      refine ⟨limited, ?_, ?_⟩
      · rw [events, List.length_append, List.length_singleton]
        omega
      · rw [events, Limit.allows_concat]
        refine ⟨keeps.allows, ?_⟩
        have turns := thread.rank.turns_turn (plan.bound thread.start) (plan.byVote thread.round)
        rw [turn] at turns
        cases turns with
        | goes _ _ _ allows =>
          -- The rank may have counted an event that it has no component for.
          rw [keeps.limited] at allows
          by_contra forbids
          rw [Bool.not_eq_false] at forbids
          rw [limit.applies_mono (by omega) (le_refl _) forbids] at allows
          cases allows
  | @finish _ id =>
    exact keeps.of_same history rfl limited (by rw [last]; exact thread.rank.dispatched_finishOne id)
  | quiet _ _ _ dispatched _ still =>
    refine keeps.of_same history (List.filterMap_eq_nil_iff.mpr fun deed inside => ?_) limited
      (by rw [last, dispatched])
    obtain ⟨time, before, rfl⟩ := still deed inside
    rfl

end Thread

namespace Simulation

variable [Component C] {registry : Registry C} {options : Options} {topology : Topology}
  {clock : Instant} {journal : Journal} {simulation : Simulation C}

omit [Component C] in
/-- The ranks of a simulation that was built have dispatched nothing, and are under its limit. -/
theorem fresh_of_built {rank : Rank C}
    (built : (build registry options topology clock journal).2 = .ok simulation)
    (inside : rank ∈ simulation.ranks) : rank.Fresh ∧ rank.limit = options.limit := by
  obtain ⟨assembly, placed, -, -, ranks⟩ := placed_of_build built
  rw [ranks] at inside
  obtain ⟨id, -, rfl⟩ := List.mem_map.mp inside
  exact ⟨⟨rfl, rfl⟩, rfl⟩

/-- A simulation on one rank runs as this rank does by itself. -/
theorem outcome_of_single {rank : Rank C} (single : simulation.ranks = [rank]) (fuel : Nat)
    (filter : Filter) (moment : Instant) :
    (simulation.run fuel filter moment).map RunResult.outcome =
      (runSingle fuel (logged filter rank)).map fun reached =>
        reached.2.map fun reason => Report.ofRanks reason [reached.1] := by
  rw [run, single]
  simp only [List.map_cons, List.map_nil, Option.map_map]
  rfl

/-- How the limit that some choices amount to cuts off the runs of a simulation. -/
structure CutBy (steps : List Options.Step) (limit : Limit) (free cut : Simulation C) : Prop where
  /-- It forbids what the limit of one of the choices does, whatever their order. -/
  applies_iff : ∀ number time, limit.applies number time = true ↔
    ∃ step ∈ steps, step.limit.applies number time = true
  /-- What it forbids, as any limit does, it forbids for higher numbers and at later times as well. -/
  monotone : ∀ (limit : Limit) number more time later, number ≤ more → time ≤ later →
    limit.applies number time = true → limit.applies more later = true
  /-- The run of a single rank is cut off by it. -/
  single : ∀ filter rank, free.ranks = [rank] → (logged filter rank).Cut limit
  /-- Such a run comes to the end that the rank comes to under the limit. -/
  ends : ∀ filter rank, free.ranks = [rank] → ∀ fuel moment outcome,
    (cut.run fuel filter moment).map RunResult.outcome = some outcome → ∃ events last reason,
      ((logged filter rank).limitedTo limit).Completes events (last, reason) ∧
        outcome = reason.map fun reason => Report.ofRanks reason [last]
  /-- It does so with fuel for one more event than it dispatches. -/
  runs : ∀ filter rank, free.ranks = [rank] → ∀ events last reason,
    ((logged filter rank).limitedTo limit).Completes events (last, reason) →
      ∀ fuel moment, events.length < fuel →
        (cut.run fuel filter moment).map RunResult.outcome =
          some (reason.map fun reason => Report.ofRanks reason [last])
  /-- No rank of a run ever dispatches an event that the limit forbids. -/
  several : ∀ filter schedule system, (cut.launch filter).exec cut.plan schedule = some system →
    ∀ index, limit.Allows ((system.threads index).history.filterMap Deed.event?)

/-- Choices about limits cut off the runs of a simulation that is built without a limit. -/
theorem cutBy_of_build (unlimited : options.limit = .unlimited)
    (built : (build registry options topology clock journal).2 = .ok simulation)
    (steps : List Options.Step) :
    ∃ cut, (build registry (options.chooseAll steps) topology clock journal).2 = .ok cut ∧
      CutBy steps (options.chooseAll steps).limit simulation cut := by
  generalize known : (options.chooseAll steps).limit = limit
  have builds : (build registry (options.chooseAll steps) topology clock journal).2 =
      .ok (simulation.limitedTo limit) := by
    rw [options.chooseAll_eq, known, build_limitedTo, built]
    rfl
  have ranks {rank : Rank C} (single : simulation.ranks = [rank]) :
      (simulation.limitedTo limit).ranks = [rank.limitedTo limit] := by
    rw [limitedTo, single]
    rfl
  refine ⟨_, builds, fun number time => ?_, fun limit _ _ _ _ fewer before =>
    limit.applies_mono fewer before, fun filter rank single => ?_,
    fun filter rank single fuel moment outcome ran => ?_,
    fun filter rank single events last reason completes fuel moment enough => ?_,
    fun filter schedule system reached => ?_⟩
  · rw [← known, options.applies_chooseAll, unlimited]
    exact or_iff_right Bool.false_ne_true
  · obtain ⟨fresh, free⟩ := fresh_of_built built (single ▸ List.mem_singleton_self rank)
    exact Rank.cut_of_unlimited limit ⟨fresh.pending, fresh.dispatched⟩ (free.trans unlimited)
  · rw [outcome_of_single (ranks single)] at ran
    obtain ⟨⟨last, reason⟩, ended, rfl⟩ := Option.map_eq_some_iff.mp ran
    obtain ⟨events, completes⟩ := Rank.Completes.of_runs ended
    exact ⟨events, last, reason, completes, rfl⟩
  · rw [outcome_of_single (ranks single)]
    exact congrArg (Option.map _) (completes.runs enough)
  · have keeps := System.exec_threads (P := fun _ thread => thread.Keeps limit)
      (fun index thread next view effect before stepped => before.step stepped) reached fun index => by
        obtain ⟨fresh, limited⟩ := fresh_of_built builds
          (List.get_mem (simulation.limitedTo limit).ranks index)
        exact ⟨limited.trans known, Nat.zero_le _, fun index event there => by cases there⟩
    exact fun index => (keeps index).allows

/-- Two players on one rank are cut off in front of the first event that is due behind four and a half
seconds. -/
theorem cutBy_of_build_relayChain :
    ∃ free cut : Simulation Player,
      ({} : Options).limit = .unlimited ∧
      (build (Registry.builtin id) {} (.relayChain [(.initiator, 0), (.responder, 0)] 9)
        Instant.zero ⟨Filter.off, #[]⟩).2 = .ok free ∧
      (build (Registry.builtin id)
        (({} : Options).chooseAll [.maxEvents 7, .maxTime ⟨4, 500000000, by decide, by decide⟩])
        (.relayChain [(.initiator, 0), (.responder, 0)] 9) Instant.zero ⟨Filter.off, #[]⟩).2 = .ok cut ∧
      free.ranks.length = 1 ∧
      CutBy [.maxEvents 7, .maxTime ⟨4, 500000000, by decide, by decide⟩]
        (({} : Options).chooseAll
          [.maxEvents 7, .maxTime ⟨4, 500000000, by decide, by decide⟩]).limit free cut ∧
      ∃ (result : RunResult Player) (report : Report Player),
        cut.run 8 Filter.off Instant.zero = some result ∧ result.outcome = .ok report ∧
        report.reason = .limitReached ∧ report.events = 4 := by
  obtain ⟨free, _, _, built, -, -, single⟩ := @exists_run _ _ (Registry.builtin id) {}
    (.relayChain [(.initiator, 0), (.responder, 0)] 9) Instant.zero Instant.zero ⟨Filter.off, #[]⟩
    Filter.off 30 _ (fun (simulation : Simulation Player) _ => simulation.ranks.length) 1
    (by decide +kernel)
  obtain ⟨cut, result, report, cutBuilt, runs, ok, tells⟩ := @exists_run _ _ (Registry.builtin id)
    (({} : Options).chooseAll [.maxEvents 7, .maxTime ⟨4, 500000000, by decide, by decide⟩])
    (.relayChain [(.initiator, 0), (.responder, 0)] 9) Instant.zero Instant.zero ⟨Filter.off, #[]⟩
    Filter.off 8 _ (fun (_ : Simulation Player) report => (report.reason, report.events))
    (.limitReached, 4) (by decide +kernel)
  obtain ⟨other, same, cuts⟩ := cutBy_of_build rfl built
    [.maxEvents 7, .maxTime ⟨4, 500000000, by decide, by decide⟩]
  obtain rfl : cut = other := Except.ok.inj (cutBuilt.symm.trans same)
  exact ⟨free, cut, rfl, built, cutBuilt, single, cuts, result, report, runs, ok,
    congrArg Prod.fst tells, congrArg Prod.snd tells⟩

end Simulation

end Rally
