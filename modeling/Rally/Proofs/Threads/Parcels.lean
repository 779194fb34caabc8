import Mathlib.Data.List.Basic
import Rally.Proofs.Threads.Lockstep
/-!
# Parcels on their way

A parcel is laid out by its rank, posted by its thread, waits in the channel of the rank it is for,
and is taken out there. On the way from one rank to another parcels never overtake each other, so
their serial numbers increase all along. Where the threads are in lockstep, what is posted in a
round is taken in the same round, and every channel is empty in front of a decision.
-/

namespace Rally

namespace Thread

variable {C : Type} {n : Nat} {thread next : Thread C} {plan : Plan n} {view : View n}
  {effect : Effect n}

/-- The parcels that a thread has taken out of its channel and not scheduled. -/
def taken (thread : Thread C) : List Parcel :=
  match thread.phase with
  | .draining taken => taken
  | _ => []

/-- The parcels that a thread has not posted, in the order in which they were laid out. -/
def unsent (thread : Thread C) : List Parcel :=
  match thread.phase with
  | .posting rest => rest ++ thread.rank.outgoing.reverse
  | _ => thread.rank.outgoing.reverse

/-- A thread with hooks to call before the exchange has taken nothing. -/
theorem taken_of_inWindow (window : thread.phase.inWindow) : thread.taken = [] := by
  unfold taken
  cases phase : thread.phase with
  | draining =>
    rw [phase] at window
    exact window.elim
  | _ => rfl

/-- A thread that has left its rounds has taken nothing. -/
theorem taken_of_isOver (gone : thread.phase.isOver) : thread.taken = [] := by
  unfold taken
  cases phase : thread.phase with
  | draining =>
    rw [phase] at gone
    exact gone.elim
  | _ => rfl

/-- A thread that does not post has not posted what its rank has laid out. -/
theorem unsent_of_not_posting (away : ∀ rest, thread.phase ≠ .posting rest) :
    thread.unsent = thread.rank.outgoing.reverse := by
  unfold unsent
  cases phase : thread.phase with
  | posting rest => exact absurd phase (away rest)
  | _ => rfl

/-- What a thread has not posted, within a window. -/
theorem unsent_of_inWindow (window : thread.phase.inWindow) :
    thread.unsent = thread.rank.outgoing.reverse := by
  refine unsent_of_not_posting fun rest posts => ?_
  rw [posts] at window
  exact window.elim

/-- What a thread has not posted, behind its rounds. -/
theorem unsent_of_isOver (gone : thread.phase.isOver) :
    thread.unsent = thread.rank.outgoing.reverse := by
  refine unsent_of_not_posting fun rest posts => ?_
  rw [posts] at gone
  exact gone.elim

/-- What has not been posted behind a step within a window. -/
theorem Leads.unsent {worker : Worker C} {phase : Phase} (leads : thread.Leads plan worker phase)
    (history : List Deed) :
    ({ thread with worker, phase, history } : Thread C).unsent = worker.rank.outgoing.reverse := by
  rcases leads.target with inside | ⟨_, rfl, _⟩ | ⟨_, gone⟩
  · exact unsent_of_inWindow inside
  · rfl
  · exact unsent_of_isOver gone

/-- Nothing has been taken behind a step within a window. -/
theorem Leads.taken {worker : Worker C} {phase : Phase} (leads : thread.Leads plan worker phase)
    (history : List Deed) : ({ thread with worker, phase, history } : Thread C).taken = [] := by
  rcases leads.target with inside | ⟨_, rfl, _⟩ | ⟨_, gone⟩
  · exact taken_of_inWindow inside
  · rfl
  · exact taken_of_isOver gone

/-- What a step of a thread does to the parcels of its rank. -/
inductive Carries (plan : Plan n) (view : View n) (thread next : Thread C) : Effect n → Prop where
  /-- The rank acts. -/
  | acted {within : Instant → Prop} {deeds : List Deed}
      (course : Rank.Course within thread.rank deeds next.rank)
      (history : next.history = thread.history ++ deeds)
      (before : thread.unsent = thread.rank.outgoing.reverse)
      (behind : next.unsent = next.rank.outgoing.reverse)
      (taken : next.taken = thread.taken) : Carries plan view thread next .idle
  /-- The first parcel is posted. -/
  | posted {parcel : Parcel} {target : Fin n} (known : plan.index? parcel.target = some target)
      (unsent : thread.unsent = parcel :: next.unsent) (rank : next.rank = thread.rank)
      (taken : next.taken = thread.taken) (history : next.history = thread.history) :
      Carries plan view thread next (.post target parcel)
  /-- The first parcel is for no rank, and the parcels before the next window are lost. -/
  | lost {parcel : Parcel} {rest : List Parcel} (unknown : plan.index? parcel.target = none)
      (unsent : thread.unsent = parcel :: rest ++ next.unsent) (rank : next.rank = thread.rank)
      (taken : next.taken = thread.taken) (history : next.history = thread.history) :
      Carries plan view thread next .idle
  /-- A parcel is taken out of the channel. -/
  | took {parcel : Parcel} {rest : List Parcel} (inbox : view.inbox = parcel :: rest)
      (unsent : next.unsent = thread.unsent) (rank : next.rank = thread.rank)
      (taken : next.taken = thread.taken ++ [parcel]) (history : next.history = thread.history) :
      Carries plan view thread next .take
  /-- What was taken is scheduled. -/
  | scheduled (inbox : view.inbox = []) (unsent : next.unsent = thread.unsent)
      (rank : next.rank = thread.rank.receive thread.taken) (taken : next.taken = [])
      (history : next.history = thread.history ++ thread.rank.receiveDeeds thread.taken) :
      Carries plan view thread next .idle
  /-- The parcels stay where they are. -/
  | kept {effect : Effect n} (quiet : effect ≠ .take ∧ ∀ target parcel, effect ≠ .post target parcel)
      (unsent : next.unsent = thread.unsent)
      (rank : next.rank = { thread.rank with outgoing := next.rank.outgoing })
      (taken : next.taken = thread.taken) (history : next.history = thread.history) :
      Carries plan view thread next effect

/-- A move does one of these things to the parcels of a rank. -/
theorem Moves.carries (move : Moves plan view thread next effect) :
    Carries plan view thread next effect := by
  cases move with
  | worked _ _ before course leads =>
    refine .acted course rfl (unsent_of_inWindow before) (leads.unsent _) ?_
    rw [taken_of_inWindow before]
    exact leads.taken _
  | stopped limitHit before among =>
    refine .kept (by simp) ?_ rfl (by simp [taken, before]) rfl
    simp [unsent, before, rank]
  | posted before known =>
    exact .posted known (by simp [unsent, before, goTo, rank]) rfl
      (by simp [taken, before, goTo]) rfl
  | postedAll before =>
    exact .kept (by simp) (by simp [unsent, before, goTo, rank]) rfl
      (by simp [taken, before, goTo]) rfl
  | @lost parcel rest before unknown =>
    have unsent : thread.unsent = parcel :: rest ++ thread.rank.outgoing.reverse := by
      simp [Thread.unsent, before]
    exact .lost unknown unsent rfl (by simp [taken, before]) rfl
  | arrived before =>
    exact .kept (by simp) (by simp [unsent, before, goTo, rank]) rfl
      (by simp [taken, before, goTo]) rfl
  | @passed gate stamp before opened =>
    cases gate <;>
      exact .kept (by simp) (by simp [unsent, before, goTo, rank, Gate.behind]) rfl
        (by simp [taken, before, goTo, Gate.behind]) rfl
  | took before inbox =>
    exact .took inbox (by simp [unsent, before, goTo, rank]) rfl
      (by simp [taken, before, goTo]) rfl
  | @scheduled taken before inbox =>
    have same : thread.taken = taken := by simp [Thread.taken, before]
    refine .scheduled inbox ?_ ?_ rfl ?_
    · simp [unsent, before, schedule, goTo, remember, withRank, rank, Rank.receive]
    · rw [same]
      rfl
    · rw [same]
      rfl
  | published before =>
    exact .kept (by simp) (by simp [unsent, before, goTo, rank]) rfl
      (by simp [taken, before, goTo]) rfl
  | read before left =>
    exact .kept (by simp) (by simp [unsent, before, goTo, rank]) rfl
      (by simp [taken, before, goTo]) rfl
  | proceeded before all decided =>
    exact .kept (by simp) (by simp [unsent, before, rank]) rfl (by simp [taken, before]) rfl
  | concluded before all decided course gone =>
    refine .acted course (List.append_nil _).symm (by simp [unsent, before])
      (unsent_of_isOver gone) ?_
    rw [taken_of_isOver gone]
    simp [taken, before]
  | finished _ before course gone =>
    refine .acted course (List.append_nil _).symm (unsent_of_isOver before)
      (unsent_of_isOver gone) ?_
    rw [taken_of_isOver gone, taken_of_isOver before]

end Thread

/-- The parcels that a step posts to a thread. -/
def Effect.parcelsTo {n : Nat} (effect : Effect n) (target : Fin n) : List Parcel :=
  match effect with
  | .post place parcel => if target = place then [parcel] else []
  | _ => []

/-- A step that posts nothing posts nothing to a thread. -/
theorem Effect.parcelsTo_of_ne {n : Nat} {effect : Effect n}
    (quiet : ∀ place parcel, effect ≠ .post place parcel) (target : Fin n) :
    effect.parcelsTo target = [] := by
  cases effect with
  | post place parcel => exact absurd rfl (quiet place parcel)
  | _ => rfl

namespace System

variable {C : Type} {n : Nat} {plan : Plan n} {system next : System C n} {index : Fin n}

/-- The parcels posted to a thread that it has not scheduled. -/
def inbound (system : System C n) (index : Fin n) : List Parcel :=
  (system.threads index).taken ++ system.channels index

/-- The parcels of some kind on their way from one thread to another. -/
def lane (kind : Parcel → Bool) (source target : Fin n) (system : System C n) : List Parcel :=
  (system.inbound target ++ (system.threads source).unsent).filter kind

/-- The channels behind a step. -/
theorem channels_withThread (thread : Thread C) (effect : Effect n) (other : Fin n) :
    ((system.apply index effect).withThread index thread).channels other =
      match effect with
      | .post target parcel =>
        if other = target then system.channels other ++ [parcel] else system.channels other
      | .take => if other = index then (system.channels other).tail else system.channels other
      | _ => system.channels other := by
  cases effect with
  | post target parcel =>
    by_cases here : other = target
    · subst here
      simp [apply, withThread]
    · simp [apply, withThread, here]
  | take =>
    by_cases here : other = index
    · subst here
      simp [apply, withThread]
    · simp [apply, withThread, here]
  | arrive =>
    simp only [apply, withThread]
    split <;> rfl
  | _ => rfl

/-- The parcels on their way to a thread behind a step of another one. -/
theorem inbound_of_ne {other : Fin n} (differ : other ≠ index) (thread : Thread C)
    (effect : Effect n) :
    ((system.apply index effect).withThread index thread).inbound other =
      system.inbound other ++ effect.parcelsTo other := by
  rw [inbound, channels_withThread, threads_withThread_of_ne differ]
  cases effect with
  | post target parcel =>
    by_cases here : other = target
    · simp [here, inbound, Effect.parcelsTo]
    · simp [here, inbound, Effect.parcelsTo]
  | take => simp [differ, inbound, Effect.parcelsTo]
  | _ => simp [inbound, Effect.parcelsTo]

/-- The parcels on their way to a thread behind a step of one that takes nothing. -/
theorem inbound_of_taken {thread : Thread C} {effect : Effect n}
    (same : thread.taken = (system.threads index).taken) (quiet : effect ≠ .take)
    (other : Fin n) :
    ((system.apply index effect).withThread index thread).inbound other =
      system.inbound other ++ effect.parcelsTo other := by
  by_cases here : other = index
  · subst here
    rw [inbound, channels_withThread, threads_withThread_self, same]
    cases effect with
    | post target parcel =>
      by_cases own : other = target
      · simp [own, inbound, Effect.parcelsTo]
      · simp [own, inbound, Effect.parcelsTo]
    | take => exact absurd rfl quiet
    | _ => simp [inbound, Effect.parcelsTo]
  · exact inbound_of_ne here thread effect

/-- What a thread has not posted behind a step. -/
theorem unsent_withThread (thread : Thread C) (effect : Effect n) (source : Fin n) :
    (((system.apply index effect).withThread index thread).threads source).unsent =
      if source = index then thread.unsent else (system.threads source).unsent := by
  by_cases own : source = index
  · rw [if_pos own, own, threads_withThread_self]
  · rw [if_neg own, threads_withThread_of_ne own]

/-- Whether parcels of some kind go from one thread to another. -/
def Connects (plan : Plan n) (kind : Parcel → Bool) (source target : Fin n) : Prop :=
  ∀ parcel, kind parcel = true →
    parcel.origin = plan.ids source ∧ parcel.target = plan.ids target

/-- Parcels of some kind on their way from one thread to another have increasing serial numbers, all
of which were given. -/
def Orderly (kind : Parcel → Bool) (source target : Fin n) (system : System C n) : Prop :=
  (system.lane kind source target).Pairwise (fun x y => x.serial < y.serial) ∧
    ∀ parcel ∈ system.lane kind source target,
      parcel.serial < (system.threads source).rank.shipped

/-- How parcels are addressed, and in which order they are on their way. -/
structure Carried (plan : Plan n) (system : System C n) : Prop where
  /-- Every rank has the number that the others know. -/
  identified : ∀ index, (system.threads index).rank.id = plan.ids index
  /-- What a rank has not posted comes from it. -/
  unsent : ∀ index, ∀ parcel ∈ (system.threads index).unsent, parcel.origin = plan.ids index
  /-- What is on its way to a rank is for it, and comes from one of the ranks. -/
  inbound : ∀ index, ∀ parcel ∈ system.inbound index,
    parcel.target = plan.ids index ∧ ∃ source, parcel.origin = plan.ids source
  /-- On the way from one rank to another, parcels never overtake each other. -/
  orderly : ∀ kind source target, Connects plan kind source target →
    system.Orderly kind source target

/-- The thread of a number has it. -/
theorem ids_of_index? {target : RankId} (known : plan.index? target = some index) :
    plan.ids index = target := by
  have found := List.find?_some known
  simpa using found

/-- The parcels on their way from one thread to another stay the same where one is posted. -/
theorem lane_post (distinct : Function.Injective plan.ids) {kind : Parcel → Bool}
    {source target place : Fin n} (connects : Connects plan kind source target)
    {thread : Thread C} {parcel : Parcel} (origin : parcel.origin = plan.ids index)
    (known : plan.index? parcel.target = some place)
    (unsent : (system.threads index).unsent = parcel :: thread.unsent)
    (taken : thread.taken = (system.threads index).taken) :
    ((system.apply index (.post place parcel)).withThread index thread).lane kind source target =
      system.lane kind source target := by
  rw [lane, lane, inbound_of_taken taken (by simp), unsent_withThread, List.filter_append,
    List.filter_append]
  by_cases chosen : kind parcel = true
  · obtain ⟨from_source, for_target⟩ := connects parcel chosen
    obtain rfl : index = source := distinct (origin.symm.trans from_source)
    obtain rfl : place = target := distinct ((ids_of_index? known).trans for_target)
    simp [unsent, chosen, Effect.parcelsTo]
  · have first : ((Effect.post place parcel).parcelsTo target).filter kind = [] := by
      by_cases here : target = place
      · simp [here, chosen, Effect.parcelsTo]
      · simp [here, Effect.parcelsTo]
    have second : (if source = index then thread.unsent
        else (system.threads source).unsent).filter kind =
          (system.threads source).unsent.filter kind := by
      by_cases own : source = index
      · rw [if_pos own, own, unsent, List.filter_cons_of_neg chosen]
      · rw [if_neg own]
    rw [first, second, List.append_nil, List.filter_append]

/-- The parcels on their way from one thread to another stay the same where one is taken or all stay
where they are. -/
theorem lane_of_same {kind : Parcel → Bool} {source target : Fin n} {thread : Thread C}
    {effect : Effect n} (quiet : ∀ place parcel, effect ≠ .post place parcel)
    (unsent : thread.unsent = (system.threads index).unsent)
    (inbound : thread.taken ++ ((system.apply index effect).withThread index thread).channels index =
      system.inbound index) :
    ((system.apply index effect).withThread index thread).lane kind source target =
      system.lane kind source target := by
  have arriving : ((system.apply index effect).withThread index thread).inbound target =
      system.inbound target := by
    by_cases here : target = index
    · rw [System.inbound, here, threads_withThread_self, inbound]
    · rw [inbound_of_ne here, Effect.parcelsTo_of_ne quiet, List.append_nil]
  have leaving : (((system.apply index effect).withThread index thread).threads source).unsent =
      (system.threads source).unsent := congr_withThread unsent source
  rw [lane, lane, arriving, leaving]

/-- The parcels on their way from one thread to another behind a step without a parcel. -/
theorem lane_idle {kind : Parcel → Bool} {source target : Fin n} (thread : Thread C) :
    ((system.apply index .idle).withThread index thread).lane kind source target =
      ((if target = index then thread.taken ++ system.channels index else system.inbound target) ++
        if source = index then thread.unsent else (system.threads source).unsent).filter kind := by
  rw [lane, unsent_withThread]
  by_cases here : target = index
  · rw [if_pos here, inbound, here, threads_withThread_self]
    rfl
  · rw [if_neg here, inbound_of_ne here, Effect.parcelsTo_of_ne (by simp), List.append_nil]

end System

/-- Parcels behind others, in the order of their serial numbers, all of which were given. -/
def Rank.Numbered {C : Type} (others : List Parcel) (kind : Parcel → Bool) (rank : Rank C) : Prop :=
  (others ++ rank.outgoing.reverse.filter kind).Pairwise (fun x y => x.serial < y.serial) ∧
    ∀ parcel ∈ others ++ rank.outgoing.reverse.filter kind, parcel.serial < rank.shipped

/-- An act keeps the parcels of a rank behind others in order. -/
theorem Rank.Numbered.act {C : Type} {within : Instant → Prop} {others : List Parcel}
    {kind : Parcel → Bool} {first last : Rank C} {deeds : List Deed}
    (numbered : first.Numbered others kind) (act : Rank.Act within first deeds last) :
    last.Numbered others kind := by
  obtain ⟨increasing, given⟩ := numbered
  rcases act.lays_out with ⟨same, still⟩ | ⟨parcel, more, -, serial, next⟩
  · rw [Rank.Numbered, same, still]
    exact ⟨increasing, given⟩
  · rw [Rank.Numbered, more, next, List.reverse_cons, List.filter_append, ← List.append_assoc]
    have later : ∀ other ∈ [parcel].filter kind, other.serial = first.shipped := by
      intro other inside
      obtain rfl : other = parcel := by simpa using (List.mem_filter.mp inside).1
      exact serial
    refine ⟨List.pairwise_append.mpr ⟨increasing, ?_, ?_⟩, ?_⟩
    · exact (List.pairwise_singleton _ parcel).filter _
    · intro former inside other new
      rw [later other new]
      exact given former inside
    · intro other inside
      rcases List.mem_append.mp inside with old | new
      · exact Nat.lt_succ_of_lt (given other old)
      · rw [later other new]
        exact Nat.lt_succ_self _

namespace System

variable {C : Type} {n : Nat} {plan : Plan n} {system next : System C n} {index : Fin n}

/-- A rank keeps its number, whatever happens to its parcels. -/
theorem id_of_carries {view : View n} {thread next : Thread C} {effect : Effect n}
    (carries : Thread.Carries plan view thread next effect) : next.rank.id = thread.rank.id := by
  cases carries with
  | acted course => exact course.keeps_links.1
  | posted _ _ rank | lost _ _ rank | took _ _ rank => rw [rank]
  | scheduled _ _ rank =>
    rw [rank]
    rfl
  | kept _ _ rank =>
    rw [rank]

/-- What a thread has not posted still comes from its rank behind a step. -/
theorem Carried.unsent_step (carried : system.Carried plan) {thread : Thread C} {effect : Effect n}
    (carries : Thread.Carries plan (system.view index) (system.threads index) thread effect) :
    ∀ parcel ∈ thread.unsent, parcel.origin = plan.ids index := by
  have before := carried.unsent index
  cases carries with
  | acted course _ start behind =>
    have own : (system.threads index).rank.id = plan.ids index := carried.identified index
    rw [start] at before
    rw [behind]
    have kept := course.keeps (fun rank => rank.id = plan.ids index ∧
        ∀ parcel ∈ rank.outgoing, parcel.origin = plan.ids index)
      (fun first more last holds act => ?_)
      ⟨own, fun parcel inside => before parcel (List.mem_reverse.mpr inside)⟩
    · exact fun parcel inside => kept.2 parcel (List.mem_reverse.mp inside)
    · refine ⟨act.keeps_links.1.trans holds.1, ?_⟩
      rcases act.lays_out with ⟨same, -⟩ | ⟨parcel, more, origin, -, -⟩
      · rw [same]
        exact holds.2
      · rw [more]
        intro other inside
        rcases List.mem_cons.mp inside with rfl | old
        · exact origin.trans holds.1
        · exact holds.2 other old
  | posted _ unsent =>
    intro parcel inside
    exact before parcel (by rw [unsent]; exact List.mem_cons_of_mem _ inside)
  | lost _ unsent =>
    intro parcel inside
    exact before parcel (by rw [unsent]; exact List.mem_append_right _ inside)
  | took _ unsent | scheduled _ unsent | kept _ unsent =>
    rw [unsent]
    exact before

/-- What is on its way to a thread behind a step was so before, or is posted in the step. -/
theorem mem_inbound_step {thread : Thread C} {effect : Effect n}
    (carries : Thread.Carries plan (system.view index) (system.threads index) thread effect)
    {other : Fin n} {parcel : Parcel}
    (inside : parcel ∈ ((system.apply index effect).withThread index thread).inbound other) :
    parcel ∈ system.inbound other ∨
      parcel ∈ (system.threads index).unsent ∧ plan.index? parcel.target = some other := by
  by_cases posts : ∃ place posted, effect = .post place posted
  · obtain ⟨place, posted, rfl⟩ := posts
    obtain ⟨known, unsent, taken⟩ : plan.index? posted.target = some place ∧
        (system.threads index).unsent = posted :: thread.unsent ∧
        thread.taken = (system.threads index).taken := by
      cases carries with
      | posted known unsent _ taken => exact ⟨known, unsent, taken⟩
      | kept quiet => exact absurd rfl (quiet.2 _ _)
    rw [inbound_of_taken taken (by simp), List.mem_append] at inside
    rcases inside with old | new
    · exact Or.inl old
    · rw [Effect.parcelsTo] at new
      split at new
      · next here =>
        rw [List.mem_singleton] at new
        subst new here
        exact Or.inr ⟨by rw [unsent]; exact List.mem_cons_self, known⟩
      · cases new
  · have quiet : ∀ place posted, effect ≠ .post place posted :=
      fun place posted same => posts ⟨place, posted, same⟩
    left
    by_cases here : other = index
    · subst here
      rw [System.inbound, channels_withThread, threads_withThread_self] at inside
      cases carries with
      | acted _ _ _ _ taken | lost _ _ _ taken =>
        rw [taken] at inside
        exact inside
      | posted => exact absurd rfl (quiet _ _)
      | @took first rest inbox _ _ taken =>
        have whole : system.channels other = first :: rest := inbox
        rw [taken] at inside
        simp only [if_pos, whole, List.tail_cons, List.append_assoc, List.singleton_append] at inside
        rw [← whole] at inside
        exact inside
      | scheduled _ _ _ taken =>
        rw [taken] at inside
        exact List.mem_append_right _ inside
      | kept still _ _ taken =>
        rw [taken] at inside
        cases effect with
        | post place posted => exact absurd rfl (quiet place posted)
        | take => exact absurd rfl still.1
        | _ => exact inside
    · rw [inbound_of_ne here, Effect.parcelsTo_of_ne quiet, List.append_nil] at inside
      exact inside

/-- What is on its way to a rank is still addressed to it behind a step. -/
theorem Carried.inbound_step (carried : system.Carried plan) {thread : Thread C}
    {effect : Effect n}
    (carries : Thread.Carries plan (system.view index) (system.threads index) thread effect)
    (other : Fin n) :
    ∀ parcel ∈ ((system.apply index effect).withThread index thread).inbound other,
      parcel.target = plan.ids other ∧ ∃ source, parcel.origin = plan.ids source := by
  intro parcel inside
  rcases mem_inbound_step carries inside with old | ⟨own, known⟩
  · exact carried.inbound other parcel old
  · exact ⟨(ids_of_index? known).symm, index, carried.unsent index parcel own⟩

/-- Parcels are still in order where none joins those on their way. -/
theorem Orderly.of_sublist {kind : Parcel → Bool} {source target : Fin n}
    (orderly : system.Orderly kind source target) {thread : Thread C} {effect : Effect n}
    (count : thread.rank.shipped = (system.threads index).rank.shipped)
    (sub : (((system.apply index effect).withThread index thread).lane kind source target).Sublist
      (system.lane kind source target)) :
    ((system.apply index effect).withThread index thread).Orderly kind source target := by
  refine ⟨orderly.1.sublist sub, fun parcel inside => ?_⟩
  rw [congr_withThread (f := fun thread => thread.rank.shipped) count source]
  exact orderly.2 parcel (sub.subset inside)

/-- Where a rank acts, the parcels that it lays out come behind all others. -/
theorem Orderly.act {kind : Parcel → Bool} {source target : Fin n}
    (orderly : system.Orderly kind source target) {may : Instant → Prop} {thread : Thread C}
    {deeds : List Deed} (course : Rank.Course may (system.threads index).rank deeds thread.rank)
    (before : (system.threads index).unsent = (system.threads index).rank.outgoing.reverse)
    (behind : thread.unsent = thread.rank.outgoing.reverse)
    (taken : thread.taken = (system.threads index).taken) :
    ((system.apply index .idle).withThread index thread).Orderly kind source target := by
  obtain ⟨increasing, numbered⟩ := orderly
  have arriving : (if target = index then thread.taken ++ system.channels index
      else system.inbound target) = system.inbound target := by
    by_cases here : target = index
    · rw [if_pos here, taken, here]
      rfl
    · rw [if_neg here]
  by_cases own : source = index
  · subst own
    have start : (system.threads source).rank.Numbered ((system.inbound target).filter kind)
        kind := by
      rw [Rank.Numbered, ← before, ← List.filter_append]
      exact ⟨increasing, numbered⟩
    have final := course.keeps (Rank.Numbered ((system.inbound target).filter kind) kind)
      (fun first more last holds act => holds.act act) start
    rw [Rank.Numbered, ← behind, ← List.filter_append] at final
    rw [Orderly, lane_idle, arriving, if_pos rfl, threads_withThread_self]
    exact final
  · rw [Orderly, lane_idle, arriving, if_neg own, threads_withThread_of_ne own]
    exact ⟨increasing, numbered⟩

/-- Parcels that a thread forgets, or that it schedules, are on their way no longer. -/
theorem lane_sublist {kind : Parcel → Bool} {source target : Fin n} {thread : Thread C}
    (unsent : thread.unsent.Sublist (system.threads index).unsent)
    (taken : thread.taken.Sublist (system.threads index).taken) :
    (((system.apply index .idle).withThread index thread).lane kind source target).Sublist
      (system.lane kind source target) := by
  rw [lane_idle, lane]
  refine List.Sublist.filter _ (List.Sublist.append ?_ ?_)
  · by_cases here : target = index
    · rw [if_pos here, here]
      exact taken.append_right _
    · rw [if_neg here]
  · by_cases own : source = index
    · rw [if_pos own, own]
      exact unsent
    · rw [if_neg own]

/-- Parcels on their way from one thread to another are still in order behind a step. -/
theorem Carried.lane_step (carried : system.Carried plan) (distinct : Function.Injective plan.ids)
    {thread : Thread C} {effect : Effect n}
    (carries : Thread.Carries plan (system.view index) (system.threads index) thread effect)
    {kind : Parcel → Bool} {source target : Fin n}
    (connects : Connects plan kind source target) :
    ((system.apply index effect).withThread index thread).Orderly kind source target := by
  have orderly := carried.orderly kind source target connects
  cases carries with
  | acted course _ before behind taken => exact orderly.act course before behind taken
  | @posted parcel place known unsent rank taken =>
    have origin : parcel.origin = plan.ids index :=
      carried.unsent index parcel (by rw [unsent]; exact List.mem_cons_self)
    refine orderly.of_sublist (by rw [rank]) ?_
    rw [lane_post distinct connects origin known unsent taken]
  | @lost parcel rest unknown unsent rank taken =>
    refine orderly.of_sublist (by rw [rank]) (lane_sublist ?_ (by rw [taken]))
    rw [unsent]
    exact List.sublist_append_right _ _
  | @took parcel rest inbox unsent rank taken =>
    have whole : system.channels index = parcel :: rest := inbox
    refine orderly.of_sublist (by rw [rank]) ?_
    rw [lane_of_same (fun _ _ same => by cases same) unsent]
    rw [taken, channels_withThread, System.inbound, whole]
    simp
  | scheduled inbox unsent rank taken =>
    refine orderly.of_sublist (by rw [rank]; rfl) (lane_sublist (by rw [unsent]) ?_)
    rw [taken]
    exact List.nil_sublist _
  | kept quiet unsent rank taken =>
    refine orderly.of_sublist (by rw [rank]) ?_
    rw [lane_of_same quiet.2 unsent]
    rw [taken, channels_withThread]
    cases effect with
    | post place parcel => exact absurd rfl (quiet.2 place parcel)
    | take => exact absurd rfl quiet.1
    | _ => rfl

variable [Component C]

/-- A step keeps parcels addressed and in order. -/
theorem Carried.step (carried : system.Carried plan) (distinct : Function.Injective plan.ids)
    (stepped : system.step plan index = some next) : next.Carried plan := by
  obtain ⟨thread, effect, move, rfl⟩ := moves_of_step stepped
  have carries := move.carries
  refine ⟨forall_withThread (P := fun other thread => thread.rank.id = plan.ids other) ?_
      carried.identified,
    forall_withThread (P := fun other thread =>
      ∀ parcel ∈ thread.unsent, parcel.origin = plan.ids other)
      (carried.unsent_step carries) carried.unsent,
    carried.inbound_step carries, fun kind source target => carried.lane_step distinct carries⟩
  rw [id_of_carries carries]
  exact carried.identified index

end System

end Rally
