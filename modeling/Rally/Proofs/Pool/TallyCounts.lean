import Mathlib.Algebra.GroupWithZero.Nat
import Mathlib.Algebra.Order.BigOperators.Group.List
import Mathlib.Algebra.Order.Group.Nat
import Rally.Proofs.Threads.HookCalls
/-!
# What the tally of a rank counts

Where each component has one voter, and every hook casts the votes that change it, the tally of a rank
counts in every state of a run the components on the rank whose voters take part, and those whose voters
are ready.
-/

namespace Rally

/-- Numbers none of which is greater than another one have the same sum where they are equal. -/
theorem sum_map_eq_iff_of_le {α : Type} {number bound : α → Nat} {members : List α}
    (less : ∀ member ∈ members, number member ≤ bound member) :
    (members.map number).sum = (members.map bound).sum ↔
      ∀ member ∈ members, number member = bound member := by
  refine ⟨fun same member inside => ?_, fun same => congrArg List.sum (List.map_congr_left same)⟩
  by_contra differ
  have smaller := lt_of_le_of_ne (less member inside) differ
  exact (List.sum_lt_sum number bound less ⟨member, inside, smaller⟩).ne same

variable {C : Type} {voter : C → Voter}

/-- Whether some votes turn a voter into another one. -/
inductive Voter.Casts : Voter → List Vote → Voter → Prop where
  /-- Without a vote it stays the same. -/
  | stays (voter : Voter) : Casts voter [] voter
  /-- It joins. -/
  | joins : Casts .unregistered [.join] .voting
  /-- It is ready. -/
  | readies : Casts .voting [.ready] .ready

/-- How many components have a voter of a kind. -/
def votersOf (voter : C → Voter) (kind : Voter → Bool) (slots : List (Option (Slot C))) : Nat :=
  slots.countP fun slot => slot.any fun slot => kind (voter slot.component)

/-- Where a component is replaced, the voter that it has now counts in place of its former one. -/
theorem votersOf_set {kind : Voter → Bool} {slots : List (Option (Slot C))} {id : ComponentId}
    {slot next : Slot C} (owned : slots[id]? = some (some slot)) :
    votersOf voter kind (slots.set id (some next)) + (kind (voter slot.component)).toNat =
      votersOf voter kind slots + (kind (voter next.component)).toNat := by
  induction slots generalizing id with
  | nil => cases owned
  | cons first rest ih =>
    cases id with
    | zero =>
      cases owned
      simp only [votersOf, List.set_cons_zero, List.countP_cons, Option.any_some, Bool.toNat]
      split <;> split <;> simp_all
    | succ id =>
      have behind := ih owned
      simp only [votersOf, List.set_cons_succ, List.countP_cons] at behind ⊢
      omega

/-- A voter that is ready takes part. -/
theorem Voter.isParticipant_of_isReady {voter : Voter} (ready : voter.isReady = true) :
    voter.isParticipant = true := by
  cases voter with
  | ready => rfl
  | _ => cases ready

/-- No more voters are ready than take part. -/
theorem votersOf_ready_le (slots : List (Option (Slot C))) :
    votersOf voter Voter.isReady slots ≤ votersOf voter Voter.isParticipant slots := by
  refine List.countP_mono_left fun slot _ ready => ?_
  cases slot with
  | none => cases ready
  | some slot => exact Voter.isParticipant_of_isReady ready

/-- As many voters are ready as take part where each of these is ready. -/
theorem votersOf_eq_iff (slots : List (Option (Slot C))) :
    votersOf voter Voter.isReady slots = votersOf voter Voter.isParticipant slots ↔
      ∀ slot, some slot ∈ slots → (voter slot.component).isParticipant = true →
        (voter slot.component).isReady = true := by
  induction slots with
  | nil => exact ⟨fun _ slot inside => absurd inside List.not_mem_nil, fun _ => rfl⟩
  | cons first rest ih =>
    have fewer := @votersOf_ready_le _ voter rest
    have split (kind : Voter → Bool) : votersOf voter kind (first :: rest) =
        votersOf voter kind rest + (first.any fun slot => kind (voter slot.component)).toNat := by
      rw [votersOf, List.countP_cons, Bool.toNat, Bool.cond_eq_ite]
      rfl
    rw [split, split]
    constructor
    · intro same slot inside takes
      rcases List.mem_cons.mp inside with rfl | inside
      · by_contra waits
        rw [Bool.not_eq_true] at waits
        rw [Option.any_some, Option.any_some, takes, waits] at same
        simp only [Bool.toNat_false, Bool.toNat_true] at same
        omega
      · refine ih.mp ?_ slot inside takes
        cases first with
        | none => exact same
        | some own =>
          have bounded : (voter own.component).isReady.toNat ≤
              (voter own.component).isParticipant.toNat := by
            cases voter own.component <;> decide
          simp only [Option.any_some] at same
          omega
    · intro all
      rw [ih.mpr fun slot inside => all slot (List.mem_cons_of_mem _ inside)]
      cases first with
      | none => rfl
      | some own =>
        have own := all own List.mem_cons_self
        simp only [Option.any_some]
        generalize voter _ = vote at own
        cases vote with
        | voting => cases own rfl
        | _ => rfl

/-- Some voter takes part where some component has one that does. -/
theorem votersOf_pos_iff (slots : List (Option (Slot C))) :
    0 < votersOf voter Voter.isParticipant slots ↔
      ∃ slot, some slot ∈ slots ∧ (voter slot.component).isParticipant = true := by
  rw [votersOf, List.countP_pos_iff]
  constructor
  · rintro ⟨slot, inside, takes⟩
    cases slot with
    | none => cases takes
    | some slot => exact ⟨slot, inside, takes⟩
  · rintro ⟨slot, inside, takes⟩
    exact ⟨some slot, inside, takes⟩

/-- Whether the tally of a rank counts the voters of its components. -/
structure Rank.Polled (voter : C → Voter) (rank : Rank C) : Prop where
  /-- Those that take part. -/
  participants : rank.tally.participants = votersOf voter Voter.isParticipant rank.slots.toList
  /-- Those that are ready. -/
  ready : rank.tally.ready = votersOf voter Voter.isReady rank.slots.toList

namespace Rank.Polled

variable {rank last : Rank C} {id : ComponentId} {slot : Slot C}

/-- A rank with the same components and the same tally counts the same voters. -/
theorem of_same (polled : rank.Polled voter) (slots : last.slots = rank.slots)
    (tally : last.tally = rank.tally) : last.Polled voter :=
  ⟨by rw [slots, tally]; exact polled.participants, by rw [slots, tally]; exact polled.ready⟩

/-- The votes of a hook are counted as they change the voter of its component. -/
theorem absorb (polled : rank.Polled voter) {reaction : Reaction C}
    (owned : rank.slot? id = some slot)
    (casts : (voter slot.component).Casts reaction.votes (voter reaction.component)) :
    (rank.absorb id slot reaction).Polled voter := by
  have there : rank.slots.toList[id]? = some (some slot) := by
    rw [Array.getElem?_toList]
    exact Option.join_eq_some_iff.mp owned
  have slots : (rank.absorb id slot reaction).slots.toList =
      rank.slots.toList.set id (some { slot with component := reaction.component }) :=
    Array.toList_setIfInBounds
  have counts (kind : Voter → Bool) := @votersOf_set _ voter kind _ _ _
    { slot with component := reaction.component } there
  have participants := counts Voter.isParticipant
  have ready := counts Voter.isReady
  have former := polled.participants
  have signalled := polled.ready
  generalize voter slot.component = before at casts participants ready
  simp only at participants ready
  generalize voter reaction.component = behind at casts participants ready
  have tally : (rank.absorb id slot reaction).tally = rank.tally.countAll reaction.votes := rfl
  generalize reaction.votes = votes at casts tally
  refine ⟨?_, ?_⟩
  all_goals
    rw [slots, tally]
    cases casts <;>
      simp only [Tally.countAll, List.foldl_nil, List.foldl_cons, Tally.count, Voter.isParticipant,
        Voter.isReady, Bool.toNat_true, Bool.toNat_false] at participants ready ⊢ <;> omega

/-- Handing messages to links is no vote. -/
theorem flush (polled : rank.Polled voter) (sends : List (PortId × Message)) :
    (Rank.flush slot sends rank).1.Polled voter := by
  induction sends generalizing rank with
  | nil => exact polled
  | cons first rest ih =>
    rw [Rank.flush]
    cases slot.binding? first.1 with
    | none => exact polled.of_same rfl rfl
    | some binding =>
      refine ih (polled.of_same (slots_send _ _ _) ?_)
      rw [send]
      split <;> rfl

end Rank.Polled

namespace Tally

/-- Votes count the voters that join. -/
theorem participants_countAll (tally : Tally) (votes : List Vote) :
    (tally.countAll votes).participants = tally.participants + votes.count .join := by
  induction votes generalizing tally with
  | nil => rfl
  | cons vote rest ih =>
    rw [countAll, List.foldl_cons]
    refine (ih (tally.count vote)).trans ?_
    cases vote <;> simp [count]; omega

/-- Votes count the voters that are ready. -/
theorem ready_countAll (tally : Tally) (votes : List Vote) :
    (tally.countAll votes).ready = tally.ready + votes.count .ready := by
  induction votes generalizing tally with
  | nil => rfl
  | cons vote rest ih =>
    rw [countAll, List.foldl_cons]
    refine (ih (tally.count vote)).trans ?_
    cases vote <;> simp [count]; omega

end Tally

/-- Where the components of a rank cast the votes of their voters while they are created, the tally of
the rank counts these voters. -/
theorem Rank.polled_rankOf {links : Array Link} {limit : Limit}
    {placed : List (Simulation.Placed C)}
    (casts : ∀ created ∈ placed,
      Voter.unregistered.Casts created.votes (voter created.slot.component)) (id : RankId) :
    (Simulation.rankOf links limit placed id).Polled voter := by
  have share : ∀ created ∈ placed,
      created.votes.count .join = (voter created.slot.component).isParticipant.toNat ∧
        created.votes.count .ready = (voter created.slot.component).isReady.toNat := by
    intro created inside
    have votes := casts created inside
    generalize created.votes = cast at votes
    generalize voter created.slot.component = behind at votes
    cases votes <;> exact ⟨rfl, rfl⟩
  have counts (vote : Vote) (kind : Voter → Bool)
      (each : ∀ created ∈ placed,
        created.votes.count vote = (kind (voter created.slot.component)).toNat) :
      ((placed.filter fun created => created.rank == id).flatMap Simulation.Placed.votes).count vote =
        votersOf voter kind
          (placed.map fun created => if created.rank = id then some created.slot else none) := by
    clear casts share
    induction placed with
    | nil => rfl
    | cons created rest ih =>
      have behind := ih fun other inside => each other (List.mem_cons_of_mem _ inside)
      have here := each created List.mem_cons_self
      rw [votersOf] at behind ⊢
      by_cases own : created.rank = id
      · rw [List.filter_cons, if_pos (beq_iff_eq.mpr own), List.flatMap_cons, List.count_append,
          behind, here, List.map_cons, if_pos own, List.countP_cons, Option.any_some, Bool.toNat,
          Bool.cond_eq_ite, Nat.add_comm]
      · rw [List.filter_cons, if_neg fun same => own (beq_iff_eq.mp same), behind, List.map_cons, if_neg own,
          List.countP_cons, Option.any_none, if_neg Bool.false_ne_true, Nat.add_zero]
  refine ⟨?_, ?_⟩
  · rw [Simulation.rankOf, Tally.participants_countAll,
      counts .join Voter.isParticipant fun created inside => (share created inside).1]
    exact Nat.zero_add _
  · rw [Simulation.rankOf, Tally.ready_countAll,
      counts .ready Voter.isReady fun created inside => (share created inside).2]
    exact Nat.zero_add _

namespace Rank

/-- The components of a rank are those in its places. -/
theorem mem_slots_iff {rank : Rank C} {slot : Slot C} :
    some slot ∈ rank.slots.toList ↔ ∃ id, rank.slot? id = some slot := by
  rw [List.mem_iff_getElem?]
  refine exists_congr fun id => ?_
  rw [slot?, Option.join_eq_some_iff, Array.getElem?_toList]

/-- Of all voters on some ranks as many are ready as take part where each of these is ready. -/
theorem sum_ready_eq_iff {ranks : List (Rank C)} (polled : ∀ rank ∈ ranks, rank.Polled voter) :
    (ranks.map fun rank => rank.tally.ready).sum = (ranks.map fun rank => rank.tally.participants).sum ↔
      ∀ rank ∈ ranks, ∀ slot, some slot ∈ rank.slots.toList →
        (voter slot.component).isParticipant = true → (voter slot.component).isReady = true := by
  have fewer : ∀ rank ∈ ranks, rank.tally.ready ≤ rank.tally.participants := by
    intro rank inside
    rw [(polled rank inside).ready, (polled rank inside).participants]
    exact votersOf_ready_le _
  rw [sum_map_eq_iff_of_le fewer]
  refine forall₂_congr fun rank inside => ?_
  rw [(polled rank inside).ready, (polled rank inside).participants, votersOf_eq_iff]

/-- Of all voters on some ranks one takes part where some component has one that does. -/
theorem sum_participants_pos {ranks : List (Rank C)} {rank : Rank C} (inside : rank ∈ ranks)
    (polled : rank.Polled voter) {slot : Slot C} (owned : some slot ∈ rank.slots.toList)
    (takes : (voter slot.component).isParticipant = true) :
    0 < (ranks.map fun rank => rank.tally.participants).sum := by
  have some : 0 < rank.tally.participants := by
    rw [polled.participants]
    exact (votersOf_pos_iff _).mpr ⟨slot, owned, takes⟩
  exact List.sum_pos_iff_exists_pos_nat.mpr ⟨_, List.mem_map_of_mem inside, some⟩

end Rank

variable [Component C]

/-- Whether every hook of a component casts the votes that change its voter. -/
structure Ballot (voter : C → Voter) : Prop where
  /-- A setup hook does so. -/
  setup : ∀ state context, (voter state).Casts (Component.setup state context).votes
    (voter (Component.setup state context).component)
  /-- So does a hook that handles a message. -/
  handle : ∀ state context port message,
    (voter state).Casts (Component.handle state context port message).votes
      (voter (Component.handle state context port message).component)
  /-- So does a finish hook. -/
  finish : ∀ state context, (voter state).Casts (Component.finish state context).votes
    (voter (Component.finish state context).component)

namespace Rank.Polled

variable {rank : Rank C}

/-- A setup hook is polled. -/
theorem setup (polled : rank.Polled voter) (ballot : Ballot voter) (id : ComponentId) :
    (rank.setup id).1.Polled voter := by
  rw [Rank.setup]
  cases owned : rank.slot? id with
  | none => exact polled
  | some slot =>
    have absorbed := polled.absorb owned (ballot.setup slot.component (rank.context slot))
    dsimp only
    split
    · exact absorbed
    · exact absorbed.flush _

/-- The handling of a message is polled. -/
theorem dispatch (polled : rank.Polled voter) (ballot : Ballot voter) (event : Scheduled Delivery)
    (pending : EventSet Delivery) : (Rank.dispatch event { rank with pending }).1.Polled voter := by
  rw [dispatch_eq]
  have taken : (rank.take event pending).Polled voter := polled.of_same rfl rfl
  cases owned : rank.slot? (rank.receiver event.payload).component with
  | none => exact taken
  | some slot =>
    dsimp only
    rw [deliver]
    split
    · have absorbed := taken.absorb owned
        (ballot.handle slot.component ((rank.take event pending).context slot)
          (rank.receiver event.payload).port event.payload.message)
      dsimp only
      split
      · exact absorbed.flush _
      · exact absorbed.of_same rfl rfl
      · exact absorbed
    · exact taken.of_same rfl rfl

/-- A finish hook is polled. -/
theorem finishOne (polled : rank.Polled voter) (ballot : Ballot voter) (id : ComponentId) :
    (rank.finishOne id).1.Polled voter := by
  rw [Rank.finishOne]
  cases owned : rank.slot? id with
  | none => exact polled
  | some slot =>
    have absorbed := polled.absorb owned (ballot.finish slot.component (rank.context slot))
    dsimp only
    split
    · exact absorbed
    · split
      · exact absorbed
      · exact absorbed.of_same rfl rfl

end Rank.Polled

namespace Thread

variable {n : Nat} {plan : Plan n} {view : View n} {thread next : Thread C} {effect : Effect n}

/-- Behind a step the tally of a rank still counts the voters of its components. -/
theorem polled_step (polled : thread.rank.Polled voter) (ballot : Ballot voter)
    (stepped : thread.step plan view = some (next, effect)) : next.rank.Polled voter := by
  have calls := calls_of_step stepped
  generalize next.rank = last at calls
  cases calls with
  | setup => exact polled.setup ballot _
  | dispatch => exact polled.dispatch ballot _ _
  | finish => exact polled.finishOne ballot _
  | none slots tally => exact polled.of_same slots tally

end Thread

namespace System

variable {n : Nat} {plan : Plan n} {system next : System C n}

/-- In every state of a run the tally of each rank counts the voters of its components. -/
theorem polled_of_exec {schedule : List (Fin n)} (reached : system.exec plan schedule = some next)
    (ballot : Ballot voter) (polled : ∀ index, (system.threads index).rank.Polled voter) :
    ∀ index, (next.threads index).rank.Polled voter := by
  exact exec_threads (P := fun _ thread => thread.rank.Polled voter)
    (fun _ _ _ _ _ polled stepped => Thread.polled_step polled ballot stepped) reached polled

end System

end Rally
