import Rally.Proofs.Player.Hooks
import Rally.Proofs.Simulation.VoteAccounting
/-!
# Components that vote through voters

However many voters a component has, and whatever becomes of them, the votes that it has cast never make more of
them ready than take part. The tally of a rank is the sum of what its components have cast, so on no rank there
are more voters that are ready than take part.
-/

namespace Rally

/-- Where a member of a list is replaced, its number counts in place of the former one. -/
theorem sum_map_set {α : Type} {number : α → Nat} {members : List α} {position : Nat}
    {former latter : α} (there : members[position]? = some former) :
    ((members.set position latter).map number).sum + number former =
      (members.map number).sum + number latter := by
  obtain ⟨inside, rfl⟩ := List.getElem?_eq_some_iff.mp there
  have within : position < (members.map number).length := by rwa [List.length_map]
  have parts := List.sum_take_add_sum_drop (members.map number) position
  rw [List.drop_eq_getElem_cons within, List.sum_cons, List.getElem_map] at parts
  rw [List.map_set, List.sum_set, if_pos within]
  omega

variable {C : Type} [Component C]

/-- How components vote through voters: what a component has cast so far is told by a relation that its creation
and its hooks keep, and that never makes more voters ready than take part. -/
structure Electorate (registry : Registry C) (cast : C → Tally → Prop) : Prop where
  /-- No more voters are ready than take part. -/
  fair : ∀ state tally, cast state tally → tally.ready ≤ tally.participants
  /-- The votes of a component's creation are counted. -/
  created : ∀ name type, registry.get? name = some type → ∀ site, site.declared = type.ports →
    ∀ fitted, (type.create site).result = .ok fitted →
      cast fitted.component (({} : Tally).countAll fitted.votes)
  /-- So are those of its setup hook. -/
  setup : ∀ state tally context, cast state tally → cast (Component.setup state context).component
    (tally.countAll (Component.setup state context).votes)
  /-- So are those of the hook that handles messages. -/
  handle : ∀ state tally context port message, cast state tally →
    cast (Component.handle state context port message).component
      (tally.countAll (Component.handle state context port message).votes)

/-- Whether the tally of a rank is the sum of what its components have cast. -/
def Rank.Sums (cast : C → Tally → Prop) (rank : Rank C) : Prop :=
  ∃ shares : List Tally,
    List.Forall₂ (fun slot share => slot.elim (share = {}) fun own => cast own.component share)
      rank.slots.toList shares ∧
    ∀ vote, rank.tally.number vote = (shares.map fun share => share.number vote).sum

namespace Rank.Sums

variable {registry : Registry C} {cast : C → Tally → Prop} {rank last : Rank C}

omit [Component C] in
/-- A rank with the same components and the same tally sums up the same. -/
theorem of_same (sums : rank.Sums cast) (slots : last.slots = rank.slots) (tally : last.tally = rank.tally) :
    last.Sums cast := by
  rw [Sums, slots, tally]
  exact sums

/-- No more voters of a rank are ready than take part. -/
theorem ready_le (electorate : Electorate registry cast) (sums : rank.Sums cast) :
    rank.tally.ready ≤ rank.tally.participants := by
  obtain ⟨shares, own, counted⟩ := sums
  have fair : ∀ share ∈ shares, share.number .ready ≤ share.number .join := by
    intro share inside
    obtain ⟨position, there⟩ := List.mem_iff_getElem?.mp inside
    obtain ⟨slot, -, casts⟩ := related_of_getElem? own there
    cases slot with
    | none =>
      obtain rfl := casts
      exact le_refl _
    | some slot => exact electorate.fair _ _ casts
  have ready := counted .ready
  have participants := counted .join
  change rank.tally.ready = _ at ready
  change rank.tally.participants = _ at participants
  rw [ready, participants]
  exact List.sum_le_sum fair

omit [Component C] in
/-- The votes of a hook are added to what its component has cast. -/
theorem absorb (sums : rank.Sums cast) {id : ComponentId} {slot : Slot C} (owned : rank.slot? id = some slot)
    {reaction : Reaction C}
    (casts : ∀ tally, cast slot.component tally → cast reaction.component (tally.countAll reaction.votes)) :
    (rank.absorb id slot reaction).Sums cast := by
  obtain ⟨shares, own, counted⟩ := sums
  have there : rank.slots.toList[id]? = some (some slot) := by
    rw [Array.getElem?_toList]
    exact Option.join_eq_some_iff.mp owned
  obtain ⟨share, found, former⟩ := related_of_getElem? own.flip there
  refine ⟨shares.set id (share.countAll reaction.votes), ?_, fun vote => ?_⟩
  · have slots : (rank.absorb id slot reaction).slots.toList =
        rank.slots.toList.set id (some { slot with component := reaction.component }) :=
      Array.toList_setIfInBounds
    rw [slots]
    have casts := casts share former
    clear counted slots owned former found
    generalize rank.slots.toList = places at own there
    induction own generalizing id with
    | nil => exact .nil
    | cons first rest ih =>
      cases id with
      | zero => exact .cons casts rest
      | succ id => exact .cons first (ih there)
  · have replaced :=
      @sum_map_set _ (fun share => share.number vote) _ _ _ (share.countAll reaction.votes) found
    have tally : (rank.absorb id slot reaction).tally = rank.tally.countAll reaction.votes := rfl
    simp only [Tally.number_countAll] at replaced
    rw [tally, Tally.number_countAll, counted vote]
    omega

omit [Component C] in
/-- A rank that is built sums up what its components cast while they were created. -/
theorem of_rankOf {links : Array Link} {limit : Limit} {placed : List (Simulation.Placed C)}
    (casts : ∀ created ∈ placed, cast created.slot.component (({} : Tally).countAll created.votes))
    (id : RankId) :
    (Simulation.rankOf links limit placed id).Sums cast := by
  refine ⟨placed.map fun created => if created.rank = id then ({} : Tally).countAll created.votes else {},
    ?_, fun vote => ?_⟩
  · rw [Simulation.rankOf, List.forall₂_map_left_iff, List.forall₂_map_right_iff, List.forall₂_same]
    intro created inside
    split
    · exact casts created inside
    · rfl
  · rw [Simulation.rankOf, Tally.number_countAll, List.map_map]
    have none : ({} : Tally).number vote = 0 := by cases vote <;> rfl
    rw [none, Nat.zero_add]
    clear casts
    induction placed with
    | nil => rfl
    | cons created rest ih =>
      rw [List.map_cons, List.sum_cons, List.filter_cons, ← ih, Function.comp_apply]
      by_cases here : created.rank = id
      · rw [if_pos (beq_iff_eq.mpr here), if_pos here, List.flatMap_cons, List.count_append,
          Tally.number_countAll, none, Nat.zero_add]
      · rw [if_neg (fun same => here (beq_iff_eq.mp same)), if_neg here, none, Nat.zero_add]

variable (electorate : Electorate registry cast)

include electorate

/-- A setup hook keeps the sum. -/
theorem setup (sums : rank.Sums cast) (id : ComponentId) : (rank.setup id).1.Sums cast := by
  rw [Rank.setup]
  cases owned : rank.slot? id with
  | none => exact sums
  | some slot =>
    have absorbed := sums.absorb owned fun tally => electorate.setup slot.component tally (rank.context slot)
    dsimp only
    split
    · exact absorbed
    · exact absorbed.of_same (slots_flush _ _ _) (tally_flush _ _ _)

/-- So does the dispatch of a message. -/
theorem dispatch (sums : rank.Sums cast) (event : Scheduled Delivery) (pending : EventSet Delivery) :
    (Rank.dispatch event { rank with pending }).1.Sums cast := by
  rw [dispatch_eq]
  have taken : (rank.take event pending).Sums cast := sums.of_same rfl rfl
  cases owned : rank.slot? (rank.receiver event.payload).component with
  | none => exact taken
  | some slot =>
    dsimp only
    rw [deliver]
    split
    · have absorbed := taken.absorb owned fun tally => electorate.handle slot.component tally
        ((rank.take event pending).context slot) (rank.receiver event.payload).port event.payload.message
      dsimp only
      split
      · exact absorbed.of_same (slots_flush _ _ _) (tally_flush _ _ _)
      · exact absorbed.of_same rfl rfl
      · exact absorbed
    · exact taken.of_same rfl rfl

/-- So do the setup hooks of all components. -/
theorem start (sums : rank.Sums cast) : rank.start.1.Sums cast :=
  start_keeps (fun id _ sums => sums.setup electorate id) (sums.of_same rfl rfl)

/-- So does a window. -/
theorem dispatchUntil (sums : rank.Sums cast) {bound : Option Instant} {byVote : Bool} {fuel : Nat}
    {ending : Except Halt Stop} (runs : rank.dispatchUntil bound byVote fuel = some (last, ending)) :
    last.Sums cast :=
  dispatchUntil_keeps (fun _ event pending sums _ => sums.dispatch electorate event pending) sums runs

end Rank.Sums

/-- The ranks of a simulation that was built sum up what their components cast while they were created. -/
theorem Simulation.sums_of_build {registry : Registry C} {options : Options} {topology : Topology}
    {clock : Instant} {journal : Journal} {simulation : Simulation C} {cast : C → Tally → Prop}
    (built : (build registry options topology clock journal).2 = .ok simulation)
    (electorate : Electorate registry cast) : ∀ rank ∈ simulation.ranks, rank.Sums cast := by
  obtain ⟨assembly, placed, resolved, created, ranks, -⟩ := build_ok built
  have follows := Assembly.follows_of_ofTopology resolved
  have casts : ∀ made ∈ placed, cast made.slot.component (({} : Tally).countAll made.votes) := by
    intro made inside
    obtain ⟨position, there⟩ := List.mem_iff_getElem?.mp inside
    obtain ⟨part, known, fitted, creates, rfl⟩ := related_of_getElem? (creates_of_placeAll created) there
    obtain ⟨spec, -, describes⟩ := related_of_getElem? follows.described known
    exact electorate.created _ _ describes.type _ rfl fitted creates
  rw [ranks]
  intro rank inside
  obtain ⟨id, -, rfl⟩ := List.mem_map.mp inside
  exact Rank.Sums.of_rankOf casts id

/-- A voter for each component, which every hook turns into another one by its votes, makes an electorate. -/
theorem Ballot.electorate {registry : Registry C} {voter : C → Voter} (ballot : Ballot voter)
    (created : ∀ name type, registry.get? name = some type → ∀ site, site.declared = type.ports →
      ∀ fitted, (type.create site).result = .ok fitted →
        Voter.unregistered.Casts fitted.votes (voter fitted.component)) :
    Electorate registry fun state tally => ∀ vote, tally.number vote = ((voter state).gave vote).toNat := by
  have counts {former latter : Voter} {votes : List Vote} {tally : Tally} (casts : former.Casts votes latter)
      (counted : ∀ vote, tally.number vote = (former.gave vote).toNat) (vote : Vote) :
      (tally.countAll votes).number vote = (latter.gave vote).toNat := by
    rw [Tally.number_countAll, counted vote, ← casts.count vote, Nat.add_comm]
  refine ⟨fun state tally counted => ?_, fun name type known site declared fitted makes => ?_,
    fun state tally context counted => counts (ballot.setup state context) counted,
    fun state tally context port message counted => counts (ballot.handle state context port message) counted⟩
  · have ready := counted .ready
    have participants := counted .join
    change tally.ready = _ at ready
    change tally.participants = _ at participants
    rw [ready, participants]
    cases voter state <;> decide
  · exact counts (created name type known site declared fitted makes) fun vote => by cases vote <;> rfl

/-- Players vote through their voters. -/
theorem Player.electorate : Electorate registry fun state tally =>
    ∀ vote, tally.number vote = ((voter state).gave vote).toNat := by
  refine ballot.electorate fun name type known site declared fitted creates => ?_
  obtain ⟨role, -, rfl⟩ := exists_role_of_registry known
  rw [ports_type] at declared
  obtain ⟨play, rounds, -, -, component, votes⟩ := created_of_type declared creates
  rw [component, votes]
  cases role with
  | initiator => exact .joins
  | responder => exact .stays _

end Rally
