import Rally.Proofs.Pool.RunInvariants
/-!
# What a rank reports of its progress

In every state of a run a rank reports as many events as it dispatched, and the time of the last one.
Since it dispatches in the order of time, this is the latest one.
-/

namespace Rally

variable {C : Type} {n : Nat} {plan : Plan n} {links : Array Link}

namespace Rank

/-- Whether what a rank reports of its progress is what its history tells. -/
structure Reports (history : List Deed) (rank : Rank C) : Prop where
  /-- It dispatched as many events. -/
  count : rank.dispatched = (takenOf history).length
  /-- The last one was due then. -/
  latest : rank.lastTime = ((takenOf history).map Prod.fst).getLastD Instant.zero

variable {within : Instant → Prop} {first last : Rank C} {deeds history : List Deed}

/-- A rank that dispatches nothing still reports what its history tells. -/
theorem Reports.of_same (reports : first.Reports history) (taken : takenOf deeds = [])
    (count : last.dispatched = first.dispatched) (latest : last.lastTime = first.lastTime) :
    last.Reports (history ++ deeds) := by
  refine ⟨?_, ?_⟩
  · rw [takenOf_append, taken, List.append_nil, count]
    exact reports.count
  · rw [takenOf_append, taken, List.append_nil, latest]
    exact reports.latest

/-- An act counts what it dispatches. -/
theorem Reports.act (reports : first.Reports history) (routed : first.Routed links)
    (act : Act within first deeds last) : last.Reports (history ++ deeds) := by
  cases act with
  | wrote | absorbed | started => exact reports.of_same rfl rfl rfl
  | took event pending taken =>
    obtain ⟨arrival, same, -⟩ := routed.takeDeeds_eq taken
    have entry : takenOf [.dispatched event arrival] = [event.entry] := rfl
    refine ⟨?_, ?_⟩
    · rw [same, takenOf_append, entry, List.length_append, ← reports.count]
      rfl
    · rw [same, takenOf_append, entry, List.map_append]
      exact List.getLastD_concat.symm
  | sent id slot port binding message =>
    refine reports.of_same (@sendDeeds_posted _ links first id port binding message).2 ?_ ?_
    all_goals
      by_cases here : (first.receiver (delivery binding message)).rank = first.id
      · rw [send_of_eq here]
        rfl
      · rw [send_of_ne here]
        rfl

end Rank

namespace System

variable [Component C] {system next : System C n} {index : Fin n}

/-- Behind a step all ranks still report what their histories tell. -/
theorem Kept.reports_step {first : Fin n → Rank C} (kept : system.Kept plan links first)
    (stepped : system.step plan index = some next)
    (reports : ∀ index, (system.threads index).rank.Reports (system.threads index).history) :
    ∀ index, (next.threads index).rank.Reports (next.threads index).history := by
  obtain ⟨thread, effect, move, rfl⟩ := moves_of_step stepped
  have former := reports index
  have latter : thread.rank.Reports thread.history := by
    cases move.carries with
    | acted course history before =>
      rw [history]
      have routed := kept.flowing.addressed.routed kept.steady before
      exact (course.preserves (fun rank deeds => rank.Routed links ∧ rank.Reports deeds)
        (fun _ _ _ _ both act => ⟨(both.1.act act).1, both.2.act both.1 act⟩) ⟨routed, former⟩).2
    | posted _ _ rank _ history | lost _ _ rank _ history | took _ _ rank _ history
    | kept _ _ rank _ history =>
      rw [rank, history]
      exact ⟨former.count, former.latest⟩
    | scheduled _ _ rank _ history =>
      obtain ⟨-, taken⟩ := @Rank.addDeeds_posted links
        ((system.threads index).taken.mergeSort Parcel.le) (system.threads index).rank.pending
      rw [rank, history]
      exact former.of_same taken rfl rfl
  exact forall_withThread (P := fun _ thread => thread.rank.Reports thread.history) latter reports

/-- No rank dispatched an event that was due behind its last one. -/
theorem Kept.le_latest {first : Fin n → Rank C} (kept : system.Kept plan links first)
    (reports : (system.threads index).rank.Reports (system.threads index).history)
    {entry : Instant × Delivery} (inside : entry ∈ takenOf (system.threads index).history) :
    entry.1 ≤ (system.threads index).rank.lastTime := by
  have ascending := (kept.steady.threads index).chronicle.ascending
  rw [reports.latest]
  have times : ((takenOf (system.threads index).history).map Prod.fst).Pairwise (· ≤ ·) := by
    rw [takenOf, List.map_map]
    exact List.pairwise_map.mpr ascending
  have among : entry.1 ∈ (takenOf (system.threads index).history).map Prod.fst :=
    List.mem_map_of_mem inside
  generalize (takenOf (system.threads index).history).map Prod.fst = instants at times among
  cases instants using List.reverseRecOn with
  | nil => cases among
  | append_singleton before final =>
    rw [List.getLastD_concat]
    rcases List.mem_append.mp among with former | latter
    · exact (List.pairwise_append.mp times).2.2 _ former final (List.mem_singleton_self final)
    · exact le_of_eq (List.mem_singleton.mp latter)

end System

namespace Rank

/-- A rank that dispatched anything reports the time of one of its events. -/
theorem Reports.latest_mem {rank : Rank C} {history : List Deed} (reports : rank.Reports history) :
    rank.lastTime = Instant.zero ∨ ∃ entry ∈ takenOf history, entry.1 = rank.lastTime := by
  rw [reports.latest]
  cases taken : takenOf history using List.reverseRecOn with
  | nil => exact Or.inl rfl
  | append_singleton before final =>
    refine Or.inr ⟨final, List.mem_append_right _ (List.mem_singleton_self final), ?_⟩
    rw [List.map_append]
    exact List.getLastD_concat.symm

end Rank

namespace Simulation

variable [Component C] {registry : Registry C} {options : Options} {topology : Topology}
  {clock : Instant} {journal : Journal} {simulation : Simulation C} {assembly : Assembly C}
  {filter : Filter} {schedule : List (Fin simulation.ranks.length)}
  {system : System C simulation.ranks.length}

/-- In every state of a run all ranks report what their histories tell. -/
theorem reports_of_exec
    (built : (build registry options topology clock journal).2 = .ok simulation)
    (realizes : simulation.Realizes registry topology assembly)
    (reached : (simulation.launch filter).exec simulation.plan schedule = some system) :
    ∀ index, (system.threads index).rank.Reports (system.threads index).history := by
  refine System.exec_induction (P := fun state => ∀ index,
    (state.threads index).rank.Reports (state.threads index).history) (fun index => ?_) ?_ reached
  · have fresh : ((simulation.launch filter).threads index).rank.dispatched = 0 ∧
        ((simulation.launch filter).threads index).rank.lastTime = Instant.zero := by
      obtain ⟨assembly, placed, -, -, ranks⟩ := placed_of_build built
      have each : ∀ rank ∈ simulation.ranks,
          rank.dispatched = 0 ∧ rank.lastTime = Instant.zero := by
        rw [ranks]
        intro rank inside
        obtain ⟨id, -, rfl⟩ := List.mem_map.mp inside
        exact ⟨rfl, rfl⟩
      exact each (simulation.ranks.get index) (List.get_mem simulation.ranks index)
    exact ⟨fresh.1, fresh.2⟩
  · intro turns former latter index arrives reports stepped
    exact (kept_of_exec built realizes arrives).reports_step stepped reports

end Simulation

end Rally
