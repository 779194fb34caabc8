import Mathlib.Data.List.Pairwise
import Rally.Proofs.Threads.Parcels
import Rally.Proofs.Time.Order
/-!
# What is posted in a round is taken in it

The channel to a thread holds parcels of the current round alone, and none in front of a decision.
So each parcel is taken exactly once, in the order of its arrival and in the round in which it was
posted. Parcels on their way to one thread differ by origin or serial number, so the order in which
they are scheduled does not depend on that of their arrival.
-/

namespace Rally

/-- Whether a thread has emptied its channel and not yet passed the decision barrier. -/
def Phase.hasDrained : Phase → Prop
  | publishing | arriving .decision | waiting .decision _ => True
  | _ => False

/-- A thread that has emptied its channel has passed one barrier of its round. -/
theorem Phase.lag_of_hasDrained {phase : Phase} (drained : phase.hasDrained) : phase.lag = 1 := by
  cases phase with
  | publishing => rfl
  | arriving gate | waiting gate =>
    cases gate with
    | exchange => exact drained.elim
    | decision => rfl
  | _ => exact drained.elim

namespace Parcel

/-- Whether two parcels differ by origin or serial number. -/
def Apart (x y : Parcel) : Prop := x.origin ≠ y.origin ∨ x.serial ≠ y.serial

instance : Std.Symm Apart := ⟨fun _ _ apart => apart.imp Ne.symm Ne.symm⟩

/-- One parcel is scheduled before another one by time, origin and serial number. -/
theorem le_iff (x y : Parcel) : x.le y = true ↔ x.time < y.time ∨
    x.time = y.time ∧ (x.origin < y.origin ∨ x.origin = y.origin ∧ x.serial ≤ y.serial) := by
  simp [le]

/-- The order in which parcels are scheduled is transitive. -/
theorem le_trans (x y z : Parcel) (first : x.le y = true) (second : y.le z = true) :
    x.le z = true := by
  rw [le_iff] at *
  rcases first with early | ⟨same, first⟩
  · rcases second with later | ⟨equal, _⟩
    · exact Or.inl (early.trans later)
    · exact Or.inl (equal ▸ early)
  · rcases second with later | ⟨equal, second⟩
    · exact Or.inl (same ▸ later)
    · refine Or.inr ⟨same.trans equal, ?_⟩
      dsimp only [RankId] at *
      omega

/-- Of two parcels, one is scheduled before the other. -/
theorem le_total (x y : Parcel) : (x.le y || y.le x) = true := by
  rw [Bool.or_eq_true, le_iff, le_iff]
  rcases lt_trichotomy x.time y.time with early | same | late
  · exact Or.inl (Or.inl early)
  · by_cases first : x.origin < y.origin ∨ x.origin = y.origin ∧ x.serial ≤ y.serial
    · exact Or.inl (Or.inr ⟨same, first⟩)
    · refine Or.inr (Or.inr ⟨same.symm, ?_⟩)
      dsimp only [RankId] at *
      omega
  · exact Or.inr (Or.inl late)

/-- Parcels that are apart are scheduled in one order alone. -/
theorem not_apart_of_le {x y : Parcel} (first : x.le y = true) (second : y.le x = true) :
    ¬ x.Apart y := by
  rw [le_iff] at *
  rcases first with early | ⟨same, first⟩
  · rcases second with late | ⟨equal, _⟩
    · exact absurd late (lt_asymm early)
    · exact absurd early (by rw [equal]; exact lt_irrefl _)
  · rcases second with late | ⟨_, second⟩
    · exact absurd late (by rw [same]; exact lt_irrefl _)
    · rw [Apart]
      dsimp only [RankId] at *
      omega

/-- The order in which parcels are scheduled is sorted. -/
theorem sorted_mergeSort (parcels : List Parcel) :
    (parcels.mergeSort le).Pairwise fun x y => x.le y = true :=
  List.pairwise_mergeSort le_trans le_total parcels

end Parcel

/-- Where all parcels are apart, the order of their arrival does not matter. -/
theorem Rank.receive_of_perm {C : Type} {first second : List Parcel} (same : first.Perm second)
    (apart : first.Pairwise Parcel.Apart) (rank : Rank C) :
    rank.receive first = rank.receive second ∧
      rank.receiveDeeds first = rank.receiveDeeds second := by
  have order : first.mergeSort Parcel.le = second.mergeSort Parcel.le := by
    have perm := (List.mergeSort_perm first Parcel.le).trans
      (same.trans (List.mergeSort_perm second Parcel.le).symm)
    refine perm.eq_of_pairwise (fun x y left right up down => ?_)
      (Parcel.sorted_mergeSort first) (Parcel.sorted_mergeSort second)
    by_contra differ
    have inFirst := (List.mergeSort_perm first Parcel.le).mem_iff.mp left
    have inSecond := (same.trans (List.mergeSort_perm second Parcel.le).symm).mem_iff.mpr right
    exact Parcel.not_apart_of_le up down (apart.forall inFirst inSecond differ)
  rw [receive, receive, receiveDeeds, receiveDeeds, order]
  exact ⟨rfl, rfl⟩

namespace Thread

variable {C : Type} {n : Nat} {thread next : Thread C} {plan : Plan n} {view : View n}
  {effect : Effect n}

/-- A thread that waits in front of an odd barrier has emptied its channel, and one that waits in
front of an even barrier has not. -/
theorem Synchronous.hasDrained_iff {generation : Nat} (sync : thread.Synchronous generation)
    (waits : thread.waitsAt generation = true) :
    thread.phase.hasDrained ↔ generation % 2 = 1 := by
  obtain ⟨gate, waits⟩ := waitsAt_iff.mp waits
  have stamped := sync.stamped gate generation waits
  rw [waits]
  rw [epoch, waits] at stamped
  cases gate with
  | exchange =>
    simp only [Phase.lag] at stamped
    refine ⟨fun drained => drained.elim, fun odd => ?_⟩
    omega
  | decision =>
    simp only [Phase.lag] at stamped
    refine ⟨fun _ => ?_, fun _ => trivial⟩
    omega

/-- A thread has emptied its channel where it finds it empty, and before it waits. -/
theorem Moves.hasDrained (move : Moves plan view thread next effect)
    (drained : next.phase.hasDrained) : thread.phase.hasDrained ∨ view.inbox = [] := by
  cases move with
  | @worked worker phase deeds before course leads =>
    have drained : phase.hasDrained := drained
    rcases leads.target with inside | ⟨_, rfl, _⟩ | ⟨_, gone⟩
    · have lag := Phase.lag_of_inWindow inside
      rw [Phase.lag_of_hasDrained drained] at lag
      omega
    · exact drained.elim
    · have lag := Phase.lag_of_isOver gone
      rw [Phase.lag_of_hasDrained drained] at lag
      omega
  | @arrived gate before =>
    left
    rw [before]
    cases gate with
    | exchange => exact drained.elim
    | decision => trivial
  | passed =>
    cases ‹Gate› <;> exact drained.elim
  | scheduled before inbox => exact Or.inr inbox
  | published before =>
    left
    rw [before]
    trivial
  | concluded before all decided course gone | finished _ before course gone =>
    have lag := Phase.lag_of_isOver gone
    rw [Phase.lag_of_hasDrained drained] at lag
    omega
  | _ => exact drained.elim

end Thread

namespace System

variable {C : Type} {n : Nat} {plan : Plan n} {system next : System C n} {index : Fin n}

/-- What the channels hold, given what was posted and taken. -/
structure Tracked (system : System C n) : Prop where
  /-- A thread takes what was posted to it in order, and the rest is of the current round. -/
  posted : ∀ index, system.posted index = system.drained index ++
    (system.channels index).map (Prod.mk (system.generation / 2))
  /-- A channel that was emptied is empty until the decision. -/
  emptied : system.generation % 2 = 1 → ∀ index,
    (system.threads index).phase.hasDrained → system.channels index = []

/-- Without a parcel, what was posted and taken stays the same. -/
theorem logs_of_quiet {effect : Effect n} (quiet : effect ≠ .take ∧
    ∀ target parcel, effect ≠ .post target parcel) (system : System C n) (index : Fin n)
    (thread : Thread C) :
    let next := (system.apply index effect).withThread index thread
    next.posted = system.posted ∧ next.drained = system.drained ∧
      next.channels = system.channels := by
  cases effect with
  | post target parcel => exact absurd rfl (quiet.2 target parcel)
  | take => exact absurd rfl quiet.1
  | arrive =>
    simp only [apply, withThread]
    split <;> exact ⟨rfl, rfl, rfl⟩
  | _ => exact ⟨rfl, rfl, rfl⟩

/-- The threads behind a step that have emptied their channels found them empty or had done so. -/
theorem emptied_step (tracked : system.Tracked) {thread : Thread C} {effect : Effect n}
    (move : Thread.Moves plan (system.view index) (system.threads index) thread effect)
    (odd : system.generation % 2 = 1) (other : Fin n)
    (drained : (((system.apply index effect).withThread index thread).threads
      other).phase.hasDrained) : system.channels other = [] := by
  by_cases here : other = index
  · subst here
    rw [threads_withThread_self] at drained
    rcases move.hasDrained drained with before | inbox
    · exact tracked.emptied odd other before
    · exact inbox
  · rw [threads_withThread_of_ne here] at drained
    exact tracked.emptied odd other drained

/-- Parcels on their way to one thread are apart. -/
theorem Carried.apart (carried : system.Carried plan) (target : Fin n) :
    (system.inbound target).Pairwise Parcel.Apart := by
  refine List.pairwise_iff_forall_sublist.mpr fun {x y} both => ?_
  by_cases origins : x.origin = y.origin
  · right
    have insideX := both.subset List.mem_cons_self
    have insideY := both.subset (List.mem_cons_of_mem x List.mem_cons_self)
    obtain ⟨forX, source, fromX⟩ := carried.inbound target x insideX
    have forY := (carried.inbound target y insideY).1
    let kind : Parcel → Bool := fun parcel =>
      parcel.origin == plan.ids source && parcel.target == plan.ids target
    have connects : Connects plan kind source target := by
      intro parcel chosen
      simpa [kind] using chosen
    have chosen : [x, y].filter kind = [x, y] := by
      have fromY := origins.symm.trans fromX
      simp [kind, forX, fromX, forY, fromY]
    have both : [x, y].Sublist (system.lane kind source target) := by
      rw [← chosen]
      exact (both.trans (List.sublist_append_left _ _)).filter kind
    have order := (carried.orderly kind source target connects).1.sublist both
    simp only [List.pairwise_cons, List.mem_singleton] at order
    exact Nat.ne_of_lt (order.1 y rfl)
  · exact Or.inl origins

/-- A thread that posts a parcel keeps the channels as tracked. -/
theorem Tracked.post (tracked : system.Tracked) (lockstep : system.Lockstep) {thread : Thread C}
    {place : Fin n} {parcel : Parcel}
    (move : Thread.Moves plan (system.view index) (system.threads index) thread (.post place parcel)) :
    ((system.apply index (.post place parcel)).withThread index thread).Tracked := by
  have round : 2 * (system.threads index).round = system.generation := by
    cases move with
    | posted before =>
      rw [← (lockstep.synchronous index).epoch_eq (by rw [before]; exact id), Thread.epoch, before]
      rfl
  have half : (system.threads index).round = system.generation / 2 := by omega
  refine ⟨fun other => ?_, fun odd => ?_⟩
  · by_cases here : other = place
    · subst here
      simp [apply, withThread, half, tracked.posted other]
    · simpa [apply, withThread, here] using tracked.posted other
  · change system.generation % 2 = 1 at odd
    omega

/-- So does one that takes a parcel. -/
theorem Tracked.take (tracked : system.Tracked) (lockstep : system.Lockstep) {thread : Thread C}
    (move : Thread.Moves plan (system.view index) (system.threads index) thread .take) :
    ((system.apply index .take).withThread index thread).Tracked := by
  have round : 2 * (system.threads index).round + 1 = system.generation := by
    cases move with
    | took before =>
      rw [← (lockstep.synchronous index).epoch_eq (by rw [before]; exact id), Thread.epoch, before]
      rfl
  have half : (system.threads index).round = system.generation / 2 := by omega
  refine ⟨fun other => ?_, fun odd other drained => ?_⟩
  · by_cases here : other = index
    · subst here
      cases inbox : system.channels other with
      | nil => simp [apply, withThread, tracked.posted other, inbox]
      | cons parcel rest => simp [apply, withThread, half, tracked.posted other, inbox]
    · simpa [apply, withThread, here] using tracked.posted other
  · have empty := emptied_step tracked move odd other drained
    rw [channels_withThread]
    by_cases here : other = index
    · rw [if_pos here, empty, List.tail_nil]
    · rw [if_neg here, empty]

/-- So does one that leaves the channels alone, also where it opens the barrier. -/
theorem Tracked.quiet (tracked : system.Tracked) (lockstep : system.Lockstep)
    (among : plan.alone = false) {thread : Thread C} {effect : Effect n}
    (quiet : effect ≠ .take ∧ ∀ target parcel, effect ≠ .post target parcel)
    (move : Thread.Moves plan (system.view index) (system.threads index) thread effect) :
    ((system.apply index effect).withThread index thread).Tracked := by
  obtain ⟨posted, drained, channels⟩ := logs_of_quiet quiet system index thread
  by_cases opens : ((system.apply index effect).withThread index thread).generation =
      system.generation
  · refine ⟨fun other => ?_, fun odd other drained => ?_⟩
    · rw [posted, drained, channels, opens]
      exact tracked.posted other
    · rw [opens] at odd
      rw [channels]
      exact emptied_step tracked move odd other drained
  · obtain ⟨opened, -, waits⟩ := lockstep.opens among move opens
    have still := lockstep.synchronous_step among move
    rcases Nat.mod_two_eq_zero_or_one system.generation with even | odd
    · refine ⟨fun other => ?_, fun _ other drained => ?_⟩
      · have half : (system.generation + 1) / 2 = system.generation / 2 := by omega
        rw [posted, drained, channels, opened, half]
        exact tracked.posted other
      · rw [(still other).hasDrained_iff (waits other)] at drained
        omega
    · -- In front of a decision all channels are empty.
      have empty : ∀ other, system.channels other = [] := fun other =>
        emptied_step tracked move odd other (((still other).hasDrained_iff (waits other)).mpr odd)
      refine ⟨fun other => ?_, fun later => ?_⟩
      · rw [posted, drained, channels, tracked.posted other, empty other, List.map_nil,
          List.map_nil]
      · rw [opened] at later
        omega

variable [Component C]

/-- A step keeps the channels as tracked. -/
theorem Tracked.step (tracked : system.Tracked) (lockstep : system.Lockstep)
    (among : plan.alone = false) (stepped : system.step plan index = some next) :
    next.Tracked := by
  obtain ⟨thread, effect, move, rfl⟩ := moves_of_step stepped
  cases effect with
  | post => exact tracked.post lockstep move
  | take => exact tracked.take lockstep move
  | idle | arrive | publish => exact tracked.quiet lockstep among ⟨by simp, by simp⟩ move

end System

end Rally
