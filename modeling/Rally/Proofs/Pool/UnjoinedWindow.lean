import Rally.Proofs.Pool.BuildAlone
import Rally.Proofs.Pool.FinishSends
import Rally.Proofs.Pool.VotingComponents
/-!
# The first window of ranks that nothing joins

Where no link leads to another rank, the first window has no end, and nothing is exchanged behind it. Each rank
goes on until its own loop stops, by vote, for its limit, or since nothing is left, as it does alone.
-/

namespace Rally

/-- What is made of the members of two lists is the same where it is for those that are related. -/
theorem filterMap_eq_of_related {α β γ : Type} {R : α → β → Prop} {make : α → Option γ}
    {form : β → Option γ} {members : List α} {others : List β} (related : List.Forall₂ R members others)
    (same : ∀ member other, R member other → make member = form other) :
    members.filterMap make = others.filterMap form := by
  induction related with
  | nil => rfl
  | cons here rest ih => rw [List.filterMap_cons, List.filterMap_cons, same _ _ here, ih]

variable {C : Type}

namespace Rank

variable {numbers : Numbering} {rank other last : Rank C}

/-- The components of a rank with their names, in the order of their registration. -/
def components (rank : Rank C) : List (String × C) :=
  rank.slots.toList.filterMap fun slot => slot.map fun slot => (slot.name, slot.component)

/-- What a delivery brings over the link of which name. -/
def label (rank : Rank C) (delivery : Delivery) : String × Side × Message :=
  ((rank.link delivery.link).name, delivery.arrival, delivery.message)

/-- Whether two ranks are in the same state, but for the numbers of components and links and for log lines. -/
structure Agrees (rank other : Rank C) : Prop where
  /-- The rank is the same. -/
  id : rank.id = other.id
  /-- So are the components and their states. -/
  components : rank.components = other.components
  /-- As many messages were dispatched. -/
  dispatched : rank.dispatched = other.dispatched
  /-- The last one was at the same time. -/
  lastTime : rank.lastTime = other.lastTime
  /-- The same messages are to come, at the same times and in the same order. -/
  pending : rank.pending.map rank.label = other.pending.map other.label
  /-- The votes are the same. -/
  tally : rank.tally = other.tally
  /-- What the one counts on its links, the other one counts as well. -/
  known : ∀ traffic ∈ other.traffic.toList, traffic ∈ rank.traffic.toList
  /-- On other links this counts nothing. -/
  unknown : ∀ traffic ∈ rank.traffic.toList,
    traffic ∈ other.traffic.toList ∨ traffic = { name := traffic.name }

/-- The components of a rank are those in its places. -/
theorem components_eq (rank : Rank C) : rank.components =
    (List.range rank.slots.size).filterMap fun id =>
      (rank.slot? id).map fun slot => (slot.name, slot.component) := by
  have places : rank.slots.toList = (List.range rank.slots.size).map rank.slot? := by
    refine List.ext_getElem? fun id => ?_
    rw [List.getElem?_map, Array.getElem?_toList]
    by_cases room : id < rank.slots.size
    · rw [List.getElem?_range room, Array.getElem?_eq_getElem room, Option.map_some, slot?,
        Array.getElem?_eq_getElem room]
      rfl
    · have beyond := Nat.le_of_not_lt room
      rw [Array.getElem?_eq_none beyond, List.getElem?_eq_none (List.length_range.trans_le beyond)]
      rfl
  rw [components, places, List.filterMap_map]
  rfl

/-- Ranks that correspond have the same components. -/
theorem Corresponds.components (corresponds : rank.Corresponds numbers other) :
    rank.components = other.components := by
  have own : rank.components = numbers.components.filterMap fun id =>
      (rank.slot? id).map fun slot => (slot.name, slot.component) := by
    rw [components_eq, ← corresponds.places, List.filterMap_filter]
    refine List.filterMap_congr fun id _ => ?_
    cases rank.slot? id <;> rfl
  rw [own, components_eq, corresponds.size]
  refine filterMap_eq_of_related (forall₂_range numbers.components) fun position id there => ?_
  rcases corresponds.slot?_cases there with ⟨owned, held⟩ | ⟨slot, also, owned, held, same⟩
  · rw [owned, held]
  · rw [owned, held, Option.map_some, Option.map_some, same.name, same.component]

/-- Ranks that correspond are in the same state. -/
theorem Corresponds.agrees (corresponds : rank.Corresponds numbers other) : rank.Agrees other where
  id := corresponds.id
  components := corresponds.components
  dispatched := corresponds.dispatched
  lastTime := corresponds.lastTime
  pending := corresponds.pending.map_eq fun delivery also same => by
    rw [label, label, (corresponds.links _ _ same.link).name, same.arrival, same.message]
  tally := corresponds.tally
  known traffic inside := by
    obtain ⟨number, there⟩ := List.mem_iff_getElem?.mp inside
    have within := (List.getElem?_eq_some_iff.mp there).1
    rw [Array.length_toList, corresponds.counts] at within
    have same := corresponds.traffic number _ (List.getElem?_eq_getElem within)
    rw [Array.getElem?_toList, ← same] at there
    exact Array.mem_toList_iff.mpr (Array.mem_of_getElem? there)
  unknown traffic inside := by
    obtain ⟨position, there⟩ := List.mem_iff_getElem?.mp inside
    rw [Array.getElem?_toList] at there
    by_cases own : position ∈ numbers.links
    · obtain ⟨number, found⟩ := List.mem_iff_getElem?.mp own
      rw [corresponds.traffic number position found] at there
      exact Or.inl (Array.mem_toList_iff.mpr (Array.mem_of_getElem? there))
    · exact Or.inr (corresponds.unused position traffic own there)

variable [Component C] {fuel : Nat} {stop : Stop}

/-- Starts a rank that is alone and dispatches its messages, and tells where and why its loop stops if no hook
fails before. -/
def looped (fuel : Nat) (rank : Rank C) : Option (Rank C × Stop) :=
  match rank.start with
  | (_, some _) => none
  | (rank, none) =>
    match rank.dispatchUntil none true fuel with
    | some (rank, .ok stop) => some (rank, stop)
    | _ => none

/-- A loop stops behind setup hooks and messages that do not fail. -/
theorem looped_eq_some : rank.looped fuel = some (last, stop) ↔
    ∃ begun, rank.start = (begun, none) ∧ begun.dispatchUntil none true fuel = some (last, .ok stop) := by
  rw [looped]
  cases rank.start with
  | mk begun halt =>
    cases halt with
    | some halt =>
      constructor
      · intro loops
        cases loops
      · rintro ⟨_, starts, -⟩
        cases starts
    | none =>
      dsimp only
      constructor
      · intro loops
        refine ⟨begun, rfl, ?_⟩
        split at loops
        · next runs =>
          cases loops
          exact runs
        · cases loops
      · rintro ⟨_, starts, runs⟩
        cases starts
        rw [runs]

/-- A loop stops by vote where all voters of its rank are ready. -/
theorem voted_iff_of_dispatchUntil (runs : rank.dispatchUntil none true fuel = some (last, .ok stop)) :
    stop = .voted ↔ last.tally.allReady = true := by
  induction fuel generalizing rank with
  | zero => cases runs
  | succ fuel ih =>
    rw [dispatchUntil_succ] at runs
    have turns := rank.turns_turn none true
    cases turn : rank.turn none true with
    | error stop =>
      rw [turn] at runs turns
      cases runs
      cases turns with
      | voted _ ready => exact ⟨fun _ => ready, fun _ => rfl⟩
      | idle waits | late waits | limited waits =>
        rw [waits rfl]
        exact ⟨fun same => (by cases same), fun same => (by cases same)⟩
    | ok taken =>
      obtain ⟨event, pending⟩ := taken
      rw [turn] at runs
      dsimp only at runs
      cases called : dispatch event { rank with pending } with
      | mk next halt =>
        rw [called] at runs
        cases halt with
        | none => exact ih runs
        | some halt => cases runs

/-- So does that of a rank that is alone. -/
theorem voted_iff_of_looped (loops : rank.looped fuel = some (last, stop)) :
    stop = .voted ↔ last.tally.allReady = true := by
  obtain ⟨begun, -, runs⟩ := looped_eq_some.mp loops
  exact voted_iff_of_dispatchUntil runs

/-- A loop changes nothing about the outline of a rank. -/
theorem outline_of_looped (loops : rank.looped fuel = some (last, stop)) : last.outline = rank.outline := by
  obtain ⟨begun, starts, runs⟩ := looped_eq_some.mp loops
  have started := rank.outline_start
  rw [starts] at started
  exact (outline_dispatchUntil runs).trans started

/-- Where a loop stops, the tally still sums up what the components have cast. -/
theorem Sums.looped {registry : Registry C} {cast : C → Tally → Prop}
    (electorate : Electorate registry cast) (sums : rank.Sums cast)
    (loops : rank.looped fuel = some (last, stop)) : last.Sums cast := by
  obtain ⟨begun, starts, runs⟩ := looped_eq_some.mp loops
  have started := sums.start electorate
  rw [starts] at started
  exact started.dispatchUntil electorate runs

end Rank

/-- Whether a worker is behind its window where the loop of its rank stops alone. -/
structure Worker.Corresponds (numbers : Numbering) (worker : Worker C) (looped : Rank C × Stop) : Prop where
  /-- It has not failed. -/
  healthy : worker.failure = none
  /-- Its limit is reached where the loop stops for it. -/
  limited : worker.limitHit = (looped.2 == .limitReached)
  /-- The ranks correspond. -/
  rank : worker.rank.Corresponds numbers looped.1

/-- Log lines do not matter. -/
theorem Worker.corresponds_note {numbers : Numbering} {worker : Worker C} {other : Rank C}
    (corresponds : worker.rank.Corresponds numbers other) (level : Level) (message : List String) :
    (worker.note level message).rank.Corresponds numbers other :=
  corresponds.of_journal _ other.journal

variable [Component C] {numbers : Numbering} {rank other : Rank C} {fuel : Nat}

/-- In a window without an end a rank dispatches messages until its own loop stops, or fails as it does
alone. -/
theorem Worker.corresponds_advance {worker : Worker C} (healthy : worker.failure = none)
    (same : worker.rank.Corresponds numbers other) (fuel : Nat) (start : Instant) :
    (∃ next last stop, worker.advance fuel start none true = some next ∧
      other.dispatchUntil none true fuel = some (last, .ok stop) ∧ next.Corresponds numbers (last, stop)) ∨
    (∀ last stop, other.dispatchUntil none true fuel ≠ some (last, .ok stop)) ∧
      ∀ next, worker.advance fuel start none true = some next → next.failure.isSome = true := by
  have noted := corresponds_note same .trace
    ["window ", start.label, " .. ", ((none : Option Instant).getD Instant.max).label]
  have sound : (worker.note .trace
    ["window ", start.label, " .. ", ((none : Option Instant).getD Instant.max).label]).failure = none := healthy
  have going : ¬ worker.failure.isSome = true := by rw [healthy]; exact Bool.false_ne_true
  rw [advance, if_neg going]
  dsimp only
  generalize worker.note .trace
    ["window ", start.label, " .. ", ((none : Option Instant).getD Instant.max).label] = worker at noted sound
  have ran := noted.dispatchUntil none true fuel
  generalize worker.rank.dispatchUntil none true fuel = ended at ran
  generalize other.dispatchUntil none true fuel = alone at ran
  cases ran with
  | none => exact Or.inr ⟨fun last stop runs => (by cases runs), fun next moved => (by cases moved)⟩
  | @some ended alone same =>
    obtain ⟨rank, result⟩ := ended
    obtain ⟨last, ending⟩ := alone
    obtain ⟨ranks, results⟩ := same
    dsimp only at ranks results
    subst results
    cases result with
    | error halt =>
      refine Or.inr ⟨fun last stop runs => (by cases runs), fun next moved => ?_⟩
      cases moved
      rfl
    | ok stop => exact Or.inl ⟨_, last, stop, rfl, rfl, sound, rfl, ranks⟩

/-- In a window without an end a rank that is started goes on until its own loop stops, or fails as it does
alone. -/
theorem Rank.Corresponds.advance (corresponds : rank.Corresponds numbers other) (fuel : Nat) :
    (∃ next looped, (Worker.ofRank rank).advance fuel Instant.zero none true = some next ∧
      other.looped fuel = some looped ∧ next.Corresponds numbers looped) ∨
    (other.looped fuel = none ∧ ∀ next,
      (Worker.ofRank rank).advance fuel Instant.zero none true = some next → next.failure.isSome = true) := by
  have started := corresponds.start
  rw [Worker.ofRank]
  cases first : rank.start with
  | mk begun halt =>
    cases second : other.start with
    | mk twin result =>
      rw [first, second] at started
      obtain ⟨same, halts⟩ := started
      dsimp only at same halts
      subst halts
      cases halt with
      | some halt =>
        refine Or.inr ⟨?_, fun next moved => ?_⟩
        · rw [Rank.looped, second]
        · cases moved
          rfl
      | none =>
        rcases @Worker.corresponds_advance _ _ _ _ ⟨begun, none, false⟩ rfl same fuel Instant.zero with
          ⟨next, last, stop, moved, runs, stands⟩ | ⟨never, fails⟩
        · exact Or.inl ⟨next, (last, stop), moved, looped_eq_some.mpr ⟨twin, second, runs⟩, stands⟩
        · refine Or.inr ⟨?_, fails⟩
          cases loops : other.looped fuel with
          | none => rfl
          | some looped =>
            obtain ⟨_, starts, runs⟩ := looped_eq_some.mp loops
            cases second.symm.trans starts
            exact absurd runs (never _ _)

namespace Windows

omit [Component C] in
/-- Nothing is exchanged between workers that have failed or have nothing for another rank. -/
theorem exchange_of_still {workers : List (Worker C)}
    (still : ∀ worker ∈ workers, worker.failure.isSome = true ∨ worker.rank.outgoing = []) :
    exchange workers = workers := by
  have ships (known : List RankId) : ∀ worker ∈ workers, worker.ship known = (worker, []) := by
    intro worker inside
    rw [Worker.ship]
    split
    · rfl
    · next sound =>
      have empty := (still worker inside).resolve_left sound
      have healthy := Option.not_isSome_iff_eq_none.mp sound
      obtain ⟨rank, failure, limitHit⟩ := worker
      cases rank
      dsimp only at empty healthy
      subst empty healthy
      rfl
  have shipped (known : List RankId) :
      workers.map (Worker.ship known) = workers.map fun worker => (worker, []) :=
    List.map_congr_left (ships known)
  rw [exchange, shipped, List.flatMap_map, List.map_map]
  refine (List.map_congr_left fun worker inside => ?_).trans (List.map_id _)
  have none : (workers.flatMap fun worker => ((worker, []) : Worker C × List Parcel).2) = [] :=
    List.flatMap_eq_nil_iff.mpr fun _ _ => rfl
  rw [Function.comp_apply, none]
  dsimp only
  rw [Worker.collect, List.filter_nil, Rank.receive, List.mergeSort_nil]
  rfl

variable {numbers : RankId → Numbering} {alone : RankId → Rank C} {ranks : List (Rank C)}
  (corresponds : ∀ rank ∈ ranks, rank.Corresponds (numbers rank.id) (alone rank.id))

include corresponds

/-- Behind the first window nothing is exchanged. -/
theorem window_eq (fuel : Nat) : window fuel none 0 Instant.zero (ranks.map Worker.ofRank) =
    (ranks.map Worker.ofRank).mapM (Worker.advance fuel Instant.zero none true) := by
  change ((ranks.map Worker.ofRank).mapM (Worker.advance fuel Instant.zero none true)).map exchange = _
  cases moved : (ranks.map Worker.ofRank).mapM (Worker.advance fuel Instant.zero none true) with
  | none => rfl
  | some advanced =>
    refine congrArg some (exchange_of_still fun worker inside => ?_)
    obtain ⟨position, there⟩ := List.mem_iff_getElem?.mp inside
    obtain ⟨first, found, here⟩ := related_of_getElem? (related_of_mapM moved) there
    obtain ⟨rank, among, rfl⟩ := List.mem_map.mp (List.mem_of_getElem? found)
    rcases (corresponds rank among).advance fuel with ⟨next, looped, goes, -, stands⟩ | ⟨-, fails⟩
    · obtain rfl := Option.some.inj (goes.symm.trans here)
      exact Or.inr stands.rank.outgoing.1
    · exact Or.inl (fails worker here)

/-- Where no rank fails in the first window, it leaves each of them as its own loop does. -/
theorem corresponds_window {workers : List (Worker C)}
    (moved : window fuel none 0 Instant.zero (ranks.map Worker.ofRank) = some workers)
    (healthy : ∀ worker ∈ workers, worker.failure = none) :
    List.Forall₂ (fun rank worker => ∃ looped, (alone rank.id).looped fuel = some looped ∧
      worker.Corresponds (numbers rank.id) looped) ranks workers := by
  rw [window_eq corresponds] at moved
  have related := List.forall₂_map_left_iff.mp (related_of_mapM moved)
  refine List.forall₂_iff_get.mpr ⟨related.length_eq, fun index inside within => ?_⟩
  have here := (List.forall₂_iff_get.mp related).2 index inside within
  rcases (corresponds _ (List.get_mem ranks ⟨index, inside⟩)).advance fuel with
    ⟨next, looped, goes, loops, stands⟩ | ⟨-, fails⟩
  · obtain rfl := Option.some.inj (goes.symm.trans here)
    exact ⟨looped, loops, stands⟩
  · have failed := fails _ here
    rw [healthy _ (List.get_mem workers ⟨index, within⟩)] at failed
    cases failed

/-- The first window comes to an end without a failure where the loops of all ranks do. -/
theorem exists_window_iff (fuel : Nat) :
    (∃ workers, window fuel none 0 Instant.zero (ranks.map Worker.ofRank) = some workers ∧
      ∀ worker ∈ workers, worker.failure = none) ↔
    ∀ rank ∈ ranks, ((alone rank.id).looped fuel).isSome = true := by
  constructor
  · rintro ⟨workers, moved, healthy⟩ rank inside
    obtain ⟨position, there⟩ := List.mem_iff_getElem?.mp inside
    obtain ⟨worker, -, looped, loops, -⟩ :=
      related_of_getElem? (corresponds_window corresponds moved healthy).flip there
    rw [loops]
    rfl
  · intro loops
    have goes (rank : Rank C) (inside : rank ∈ ranks) : ∃ next,
        (Worker.ofRank rank).advance fuel Instant.zero none true = some next ∧ next.failure = none := by
      rcases (corresponds rank inside).advance fuel with ⟨next, looped, goes, -, stands⟩ | ⟨stuck, -⟩
      · exact ⟨next, goes, stands.healthy⟩
      · have loops := loops rank inside
        rw [stuck] at loops
        cases loops
    refine ⟨(ranks.map Worker.ofRank).map fun worker =>
      (worker.advance fuel Instant.zero none true).getD worker, ?_, ?_⟩
    · rw [window_eq corresponds]
      refine mapM_of_some _ fun worker inside => ?_
      obtain ⟨rank, among, rfl⟩ := List.mem_map.mp inside
      obtain ⟨next, here, -⟩ := goes rank among
      rw [here, Option.getD_some]
    · intro worker inside
      obtain ⟨first, there, rfl⟩ := List.mem_map.mp inside
      obtain ⟨rank, among, rfl⟩ := List.mem_map.mp there
      obtain ⟨next, here, sound⟩ := goes rank among
      rw [here, Option.getD_some, sound]

end Windows

end Rally
