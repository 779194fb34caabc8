import Rally.Proofs.Simulation.PortBindings
import Rally.Proofs.Threads.HookResponses
/-!
# Ledgers of votes

The ledger of a rank names the component that cast each vote: first those cast while the components of the rank
were created, then those that their hooks cast. In every state of a run the tally of the rank counts its
ledger, to which votes are added and from which none is taken away.
-/

namespace Rally

variable {C : Type} {n : Nat}

/-- The votes of a component in a ledger. -/
def votesOf (id : ComponentId) (ledger : List (ComponentId × Vote)) : List Vote :=
  (ledger.filter fun entry => entry.1 == id).map Prod.snd

/-- In an empty ledger there are no votes. -/
@[simp] theorem votesOf_nil (id : ComponentId) : votesOf id [] = [] :=
  rfl

/-- The votes of a component in a ledger, and in one behind it. -/
@[simp] theorem votesOf_append (id : ComponentId) (ledger more : List (ComponentId × Vote)) :
    votesOf id (ledger ++ more) = votesOf id ledger ++ votesOf id more := by
  rw [votesOf, List.filter_append, List.map_append]
  rfl

/-- The votes of one component are its own. -/
theorem votesOf_map_self (id : ComponentId) (votes : List Vote) :
    votesOf id (votes.map fun vote => (id, vote)) = votes := by
  simp [votesOf, List.filter_map, Function.comp_def]

/-- They are not those of another one. -/
theorem votesOf_map_of_ne {id other : ComponentId} (differ : id ≠ other) (votes : List Vote) :
    votesOf id (votes.map fun vote => (other, vote)) = [] := by
  simp [votesOf, Ne.symm differ]

namespace Simulation

/-- The components that are created while a simulation is built. -/
def created (registry : Registry C) (topology : Topology) (clock : Instant) (journal : Journal) :
    List (Placed C) :=
  match Assembly.ofTopology registry topology with
  | .error _ => []
  | .ok assembly =>
    match (placeAll clock assembly.parts.toList journal).2 with
    | .error _ => []
    | .ok placed => placed

/-- The votes that components, from one position on, cast while they were created on a rank. -/
def foundingFrom (rank : RankId) : ComponentId → List (Placed C) → List (ComponentId × Vote)
  | _, [] => []
  | id, placed :: rest =>
    (if placed.rank = rank then placed.votes.map fun vote => (id, vote) else []) ++
      foundingFrom rank (id + 1) rest

/-- The votes that components cast while they were created on a rank. -/
def founding (rank : RankId) (placed : List (Placed C)) : List (ComponentId × Vote) :=
  foundingFrom rank 0 placed

/-- A rank begins with the tally of these votes. -/
theorem tally_rankOf (links : Array Link) (limit : Limit) (placed : List (Placed C)) (rank : RankId) :
    (rankOf links limit placed rank).tally =
      ({} : Tally).countAll ((founding rank placed).map Prod.snd) := by
  have votes (id : ComponentId) : (foundingFrom rank id placed).map Prod.snd =
      (placed.filter fun created => created.rank == rank).flatMap Placed.votes := by
    induction placed generalizing id with
    | nil => rfl
    | cons first rest ih =>
      rw [foundingFrom, List.map_append, ih]
      by_cases here : first.rank = rank
      · simp [here, Function.comp_def]
      · simp [here]
  rw [founding, votes]
  rfl

/-- A component casts its own votes alone while it is created. -/
theorem votesOf_founding {placed : List (Placed C)} {id : ComponentId} {component : Placed C}
    (there : placed[id]? = some component) :
    votesOf id (founding component.rank placed) = component.votes := by
  -- Components before a position cast no votes for it.
  have before (rank : RankId) (placed : List (Placed C)) (id start : Nat) (early : id < start) :
      votesOf id (foundingFrom rank start placed) = [] := by
    induction placed generalizing start with
    | nil => rfl
    | cons first rest ih =>
      rw [foundingFrom, votesOf_append, ih _ (Nat.lt_succ_of_lt early), List.append_nil]
      split
      · exact votesOf_map_of_ne early.ne _
      · rfl
  have from_start (start : Nat) (placed : List (Placed C)) (position : Nat)
      (there : placed[position]? = some component) :
      votesOf (start + position) (foundingFrom component.rank start placed) = component.votes := by
    induction placed generalizing start position with
    | nil => cases there
    | cons first rest ih =>
      rw [foundingFrom, votesOf_append]
      cases position with
      | zero =>
        obtain rfl : first = component := Option.some.inj there
        rw [if_pos rfl, before _ _ _ _ (Nat.lt_succ_self _), List.append_nil]
        exact votesOf_map_self _ _
      | succ position =>
        have later := ih (start + 1) position there
        rw [Nat.add_right_comm] at later
        rw [← Nat.add_assoc, later]
        split
        · have behind : start < start + position + 1 := Nat.lt_succ_of_le (Nat.le_add_right _ _)
          rw [votesOf_map_of_ne behind.ne', List.nil_append]
        · exact List.nil_append _
  have here := from_start 0 placed id there
  rw [Nat.zero_add] at here
  exact here

variable {registry : Registry C} {options : Options} {topology : Topology} {clock : Instant}
  {journal : Journal} {simulation : Simulation C} {filter : Filter}

/-- The ranks of a simulation that is built are those of the components that are created meanwhile. -/
theorem created_of_build (built : (build registry options topology clock journal).2 = .ok simulation) :
    ∃ assembly : Assembly C, assembly.Follows registry topology ∧
      List.Forall₂ Creates assembly.parts.toList (created registry topology clock journal) ∧
      simulation.ranks = (rankIds ((created registry topology clock journal).map Placed.rank)).map
        (rankOf assembly.links options.limit (created registry topology clock journal)) := by
  obtain ⟨assembly, placed, resolved, made, ranks, -⟩ := build_ok built
  have same : created registry topology clock journal = placed := by
    rw [created, resolved]
    simp only [made]
  rw [same]
  exact ⟨assembly, Assembly.follows_of_ofTopology resolved, creates_of_placeAll made, ranks⟩

variable [Component C]

/-- The ledger of a rank behind a schedule. -/
def ledger (placed : List (Placed C)) (simulation : Simulation C) (filter : Filter)
    (schedule : List (Fin simulation.ranks.length)) (index : Fin simulation.ranks.length) :
    List (ComponentId × Vote) :=
  founding (simulation.plan.ids index) placed ++
    (simulation.launch filter).ballots simulation.plan schedule index

/-- Along a schedule, votes are added to a ledger. -/
theorem ledger_append {placed : List (Placed C)} {schedule more : List (Fin simulation.ranks.length)}
    {system : System C simulation.ranks.length}
    (reached : (simulation.launch filter).exec simulation.plan schedule = some system)
    (index : Fin simulation.ranks.length) :
    simulation.ledger placed filter (schedule ++ more) index =
      simulation.ledger placed filter schedule index ++ system.ballots simulation.plan more index := by
  rw [ledger, ledger, System.ballots_append reached, List.append_assoc]

/-- In every state of a run the tally of each rank counts its ledger. -/
theorem tally_eq_ledger (built : (build registry options topology clock journal).2 = .ok simulation)
    {schedule : List (Fin simulation.ranks.length)} {system : System C simulation.ranks.length}
    (reached : (simulation.launch filter).exec simulation.plan schedule = some system)
    (index : Fin simulation.ranks.length) :
    (system.threads index).rank.tally = ({} : Tally).countAll
      ((simulation.ledger (created registry topology clock journal) filter schedule index).map
        Prod.snd) := by
  obtain ⟨assembly, -, -, ranks⟩ := created_of_build built
  obtain ⟨rank, here⟩ : ∃ rank, simulation.ranks.get index = rank := ⟨_, rfl⟩
  have inside : rank ∈ simulation.ranks := here ▸ List.get_mem _ _
  rw [ranks] at inside
  obtain ⟨id, -, same⟩ := List.mem_map.mp inside
  rw [← here] at same
  have first : ((simulation.launch filter).threads index).rank.tally =
      ({} : Tally).countAll
        ((founding (simulation.plan.ids index) (created registry topology clock journal)).map
          Prod.snd) := by
    have number : simulation.plan.ids index = id := congrArg Rank.id same.symm
    rw [number, ← tally_rankOf assembly.links options.limit, same]
    rfl
  rw [System.tally_of_exec reached, first, ledger, List.map_append, Tally.countAll, Tally.countAll,
    Tally.countAll, List.foldl_append]

end Simulation

end Rally
