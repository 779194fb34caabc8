import Rally.Proofs.Pool.Failure
import Rally.Proofs.Pool.VoteLedger
/-!
# Components as their histories tell

A habit says what the place of a component is like in front of its setup, and behind it for what the
component heard, said and voted since. Where hooks keep to a habit, the component does in every state of a
run: it is set up once, nothing comes to it before, and nothing but its own hooks changes it.
-/

namespace Rally

namespace Phase

/-- The positions whose setup hooks are still to be called. -/
def ahead : Phase → List ComponentId
  | starting rest => rest
  | _ => []

/-- A thread that calls no setup hooks has none to call. -/
theorem ahead_of_not_isStarting {phase : Phase} (further : ¬ phase.isStarting) : phase.ahead = [] := by
  cases phase with
  | starting => exact absurd trivial further
  | _ => rfl

end Phase

variable {C : Type} {n : Nat} {plan : Plan n}

/-- A habit of a component. -/
structure Habit (C : Type) where
  /-- What its place is like before it is set up. -/
  fresh : Slot C → Prop
  /-- What its place is like since, behind what happened to it and the votes that it cast. -/
  living : List Sign → List Vote → Slot C → Prop

variable [Component C]

/-- Whether a response is that of the hook that is called. -/
def Response.Honest (response : Response C) : Prop :=
  ∃ context, response.reaction = response.occasion.answer response.slot.component context

omit [Component C] in
/-- A setup is a sign of the occasion alone. -/
theorem Response.started_mem_tale {response : Response C} :
    Sign.started ∈ response.tale ↔ response.occasion = .setup := by
  rw [tale, List.mem_append]
  have unsaid : Sign.started ∉ response.said.map fun send => Sign.said send.1 send.2 := by
    rw [List.mem_map]
    rintro ⟨send, -, same⟩
    cases same
  rw [or_iff_left unsaid]
  cases response.occasion <;> simp [Occasion.signs]

/-- Whether hooks keep to a habit. -/
structure Habit.Kept (habit : Habit C) : Prop where
  /-- The setup hook of a component does, which is called first. -/
  setup : ∀ response : Response C, response.Honest → response.occasion = .setup →
    habit.fresh response.slot →
      habit.living response.tale response.reaction.votes response.behind
  /-- So do the hooks that are called later. -/
  later : ∀ (response : Response C) tale votes, response.Honest → response.occasion ≠ .setup →
    habit.living tale votes response.slot →
      habit.living (tale ++ response.tale) (votes ++ response.reaction.votes) response.behind
  /-- A finish hook leaves alone a component that is not set up. -/
  unused : ∀ response : Response C, response.Honest → response.occasion = .finish →
    habit.fresh response.slot → response.reaction.votes = [] ∧ habit.fresh response.behind

namespace Rank.Answers

variable {rank last : Rank C} {response? : Option (Response C)} {deeds : List Deed} {id : ComponentId}
  {slot : Slot C}

/-- A component is where it was, and has its ports. -/
theorem exists_before (answers : rank.Answers response? last deeds) (owned : last.slot? id = some slot) :
    ∃ former, rank.slot? id = some former ∧ taleOf id slot = taleOf id former := by
  cases answers with
  | silent slots =>
    rw [slot?, slots] at owned
    exact ⟨slot, owned, rfl⟩
  | @answered _ _ response context there answer slots =>
    by_cases own : id = response.id
    · subst own
      rw [slot?, slots, Array.getElem?_setIfInBounds_self_of_lt (lt_size_of_slot? there)] at owned
      cases owned
      exact ⟨response.slot, there, rfl⟩
    · rw [slot?, slots, Array.getElem?_setIfInBounds_ne (Ne.symm own)] at owned
      exact ⟨slot, owned, rfl⟩

/-- A component stays where it was, and keeps its ports. -/
theorem exists_behind (answers : rank.Answers response? last deeds) (owned : rank.slot? id = some slot) :
    ∃ latter, last.slot? id = some latter ∧ taleOf id latter = taleOf id slot := by
  cases answers with
  | silent slots =>
    refine ⟨slot, ?_, rfl⟩
    rw [slot?, slots]
    exact owned
  | @answered _ _ response context there answer slots =>
    by_cases own : id = response.id
    · subst own
      cases there.symm.trans owned
      refine ⟨response.behind, ?_, rfl⟩
      rw [slot?, slots, Array.getElem?_setIfInBounds_self_of_lt (lt_size_of_slot? there)]
      rfl
    · refine ⟨slot, ?_, rfl⟩
      rw [slot?, slots, Array.getElem?_setIfInBounds_ne (Ne.symm own)]
      exact owned

/-- What happens to a component is what its own response means. -/
theorem taleOf_eq (answers : rank.Answers response? last deeds) (owned : rank.slot? id = some slot) :
    taleOf id slot deeds =
      response?.elim [] fun response => if id = response.id then response.tale else [] := by
  cases answers with
  | silent _ _ tale => exact tale id slot owned
  | answered _ _ _ _ _ tale => exact tale id slot owned

end Rank.Answers

namespace Thread

variable {view : View n} {thread next : Thread C} {effect : Effect n} {response : Response C}

/-- What a hook is called for tells what a thread does. -/
theorem phase_of_response? (responds : thread.response? plan = some response) :
    match response.occasion with
    | .setup => ∃ rest, thread.phase = .starting (response.id :: rest)
    | .message _ _ => thread.phase = .dispatching
    | .finish => ∃ reason rest, thread.phase = .finishing reason (response.id :: rest) := by
  obtain ⟨hook, calls, answers⟩ := Option.bind_eq_some_iff.mp responds
  rw [hook?] at calls
  split at calls
  · next id rest phase =>
    cases calls
    obtain ⟨slot, -, rfl⟩ := Option.map_eq_some_iff.mp answers
    exact ⟨rest, phase⟩
  · next phase =>
    obtain ⟨⟨event, pending⟩, -, rfl⟩ := Option.map_eq_some_iff.mp calls
    obtain ⟨slot, -, rfl⟩ := Option.map_eq_some_iff.mp answers
    exact phase
  · next reason id rest phase =>
    cases calls
    obtain ⟨slot, -, rfl⟩ := Option.map_eq_some_iff.mp answers
    exact ⟨reason, rest, phase⟩
  · cases calls

/-- A thread does not return to its setup hooks. -/
theorem isStarting_of_step (stepped : thread.step plan view = some (next, effect))
    (starting : next.phase.isStarting) : thread.phase.isStarting := by
  cases moves_of_step stepped with
  | worked worker phase before course leads => exact leads.forward starting
  | @concluded read worker phase before all decided course gone =>
    cases phase <;> first | exact starting.elim | exact gone.elim
  | @finished worker phase before course gone =>
    cases phase <;> first | exact starting.elim | exact gone.elim
  | @passed gate stamp before opened => cases gate <;> exact starting.elim
  | proceeded => exact starting.elim
  | posted | postedAll | arrived | took | published | read | lost | stopped | scheduled =>
    exact starting.elim

/-- A step takes at most the first position from those whose setup hooks are still to be called. -/
theorem ahead_of_step (stepped : thread.step plan view = some (next, effect)) :
    next.phase.ahead = thread.phase.ahead.tail ∨ next.phase.ahead = [] := by
  by_cases starting : thread.phase.isStarting
  · cases phase : thread.phase with
    | starting rest =>
      simp only [step, phase, Option.some.injEq, Prod.mk.injEq] at stepped
      obtain ⟨rfl, -⟩ := stepped
      cases rest with
      | nil => exact Or.inl rfl
      | cons id rest =>
        rw [startNext]
        cases thread.rank.setup id with
        | mk rank halt =>
          cases halt with
          | none => exact Or.inl rfl
          | some halt =>
            right
            dsimp only
            split <;> rfl
    | _ =>
      rw [phase] at starting
      exact starting.elim
  · exact Or.inr (Phase.ahead_of_not_isStarting fun still => starting (isStarting_of_step stepped still))

/-- Whether the setup hooks of a thread are called in turn: once each, and, where its rank has not failed, all
that are not ahead. -/
structure Readied (plan : Plan n) (thread : Thread C) : Prop where
  /-- No position is ahead twice. -/
  nodup : thread.phase.ahead.Nodup
  /-- No component is set up that is ahead. -/
  ahead : ∀ id ∈ thread.phase.ahead, ∀ slot, thread.rank.slot? id = some slot →
    Sign.started ∉ taleOf id slot thread.history
  /-- All others are, unless the rank has failed. -/
  called : thread.Sound plan → ∀ id slot, thread.rank.slot? id = some slot →
    id ∈ thread.phase.ahead ∨ Sign.started ∈ taleOf id slot thread.history

omit [Component C] in
/-- Before its first step no setup hook of a thread is called. -/
theorem readied_launch (plan : Plan n) (rank : Rank C) : (launch rank).Readied plan := by
  refine ⟨List.nodup_range, fun id _ slot _ => List.not_mem_nil, fun _ id slot owned => Or.inl ?_⟩
  exact List.mem_range.mpr (Rank.lt_size_of_slot? owned)

/-- A step calls setup hooks in turn. -/
theorem Readied.step (readied : thread.Readied plan)
    (stepped : thread.step plan view = some (next, effect)) : next.Readied plan := by
  obtain ⟨deeds, history, answers⟩ := answers_of_step stepped
  refine ⟨?_, fun id inside slot owned started => ?_, fun sound id slot owned => ?_⟩
  · rcases ahead_of_step stepped with less | none
    · rw [less]
      exact readied.nodup.sublist (List.tail_sublist _)
    · rw [none]
      exact List.nodup_nil
  · obtain ⟨former, there, same⟩ := answers.exists_before owned
    rcases ahead_of_step stepped with less | none
    · rw [less] at inside
      rw [same, history, taleOf_append, List.mem_append] at started
      rcases started with before | now
      · exact readied.ahead id (List.mem_of_mem_tail inside) former there before
      · rw [answers.taleOf_eq there] at now
        cases responds : thread.response? plan with
        | none =>
          rw [responds] at now
          cases now
        | some response =>
          rw [responds, Option.elim_some] at now
          split at now
          · next own =>
            have phase := phase_of_response? responds
            rw [Response.started_mem_tale.mp now] at phase
            obtain ⟨rest, phase⟩ := phase
            have nodup := readied.nodup
            rw [phase] at inside nodup
            exact (List.nodup_cons.mp nodup).1 (own ▸ inside)
          · cases now
    · rw [none] at inside
      cases inside
  · obtain ⟨former, there, same⟩ := answers.exists_before owned
    rw [same, history, taleOf_append, List.mem_append]
    rcases readied.called (sound.before stepped) id former there with inside | before
    · cases phase : thread.phase with
      | starting rest =>
        rw [phase] at inside
        have works := (works_of_step (by rw [phase]; trivial) stepped sound).2
        cases works with
        | readied before =>
          cases phase.symm.trans before
          cases inside
        | started before behind =>
          cases phase.symm.trans before
          rw [behind]
          rcases List.mem_cons.mp inside with rfl | later
          · refine Or.inr (Or.inr ?_)
            have hook : thread.hook? plan = some (.setup id) := by rw [hook?, phase]
            rw [answers.taleOf_eq there, response?, hook, Option.bind_some, Rank.response?, there]
            simp only [Option.map_some, Option.elim_some, if_true]
            exact Response.started_mem_tale.mpr rfl
          · exact Or.inl later
        | opened before | dispatched before | stopped before => cases phase.symm.trans before
      | _ =>
        rw [phase] at inside
        cases inside
    · exact Or.inr (Or.inl before)

/-- Whether the component of a position, where a thread owns it, keeps to a habit behind its votes. -/
structure Lives (habit : Habit C) (id : ComponentId) (votes : List Vote) (thread : Thread C) : Prop where
  /-- Before its setup it is fresh, and nothing has happened to it. -/
  fresh : ∀ slot, thread.rank.slot? id = some slot → Sign.started ∉ taleOf id slot thread.history →
    habit.fresh slot ∧ taleOf id slot thread.history = [] ∧ votes = []
  /-- Since then it keeps to the habit. -/
  living : ∀ slot, thread.rank.slot? id = some slot → Sign.started ∈ taleOf id slot thread.history →
    habit.living (taleOf id slot thread.history) votes slot

omit [Component C] in
/-- Where nothing happens to a component, it keeps to a habit. -/
theorem Lives.idle {habit : Habit C} {id : ComponentId} {votes : List Vote} {deeds : List Deed}
    (lives : thread.Lives habit id votes) (history : next.history = thread.history ++ deeds)
    (still : next.rank.slot? id = thread.rank.slot? id)
    (silent : ∀ slot, thread.rank.slot? id = some slot → taleOf id slot deeds = []) :
    next.Lives habit id votes := by
  have tale (slot : Slot C) (owned : thread.rank.slot? id = some slot) :
      taleOf id slot next.history = taleOf id slot thread.history := by
    rw [history, taleOf_append, silent slot owned, List.append_nil]
  refine ⟨fun slot owned => ?_, fun slot owned => ?_⟩
  · rw [still] at owned
    rw [tale slot owned]
    exact lives.fresh slot owned
  · rw [still] at owned
    rw [tale slot owned]
    exact lives.living slot owned

/-- A component that answers keeps to a habit: it is set up first, and once. -/
theorem Lives.answer {habit : Habit C} {votes : List Vote}
    (lives : thread.Lives habit response.id votes) (kept : habit.Kept) (readied : thread.Readied plan)
    (sound : thread.phase = .dispatching → thread.Sound plan) (honest : response.Honest)
    (responds : thread.response? plan = some response)
    (there : thread.rank.slot? response.id = some response.slot)
    (behind : next.rank.slot? response.id = some response.behind)
    (told : taleOf response.id response.behind next.history =
      taleOf response.id response.slot thread.history ++ response.tale) :
    next.Lives habit response.id (votes ++ response.reaction.votes) := by
  have phase := phase_of_response? responds
  by_cases started : Sign.started ∈ taleOf response.id response.slot thread.history
  · have later : response.occasion ≠ .setup := by
      intro setup
      rw [setup] at phase
      obtain ⟨rest, phase⟩ := phase
      exact readied.ahead response.id (by rw [phase]; exact List.mem_cons_self) _ there started
    refine ⟨fun place owned unstarted => ?_, fun place owned _ => ?_⟩
    · cases behind.symm.trans owned
      rw [told] at unstarted
      exact absurd (List.mem_append_left _ started) unstarted
    · cases behind.symm.trans owned
      rw [told]
      exact kept.later response _ _ honest later (lives.living _ there started)
  · obtain ⟨fresh, unheard, uncast⟩ := lives.fresh _ there started
    rw [uncast, List.nil_append]
    rw [unheard, List.nil_append] at told
    cases occasion : response.occasion with
    | setup =>
      refine ⟨fun place owned unstarted => ?_, fun place owned _ => ?_⟩
      · cases behind.symm.trans owned
        rw [told] at unstarted
        exact absurd (Response.started_mem_tale.mpr occasion) unstarted
      · cases behind.symm.trans owned
        rw [told]
        exact kept.setup response honest occasion fresh
    | message port message =>
      -- The rank dispatches, so the component is set up.
      rw [occasion] at phase
      rcases readied.called (sound phase) _ _ there with inside | before
      · rw [phase] at inside
        cases inside
      · exact absurd before started
    | finish =>
      obtain ⟨none, still⟩ := kept.unused response honest occasion fresh
      have silent : response.tale = [] := by
        rw [Response.tale, Response.said, occasion]
        rfl
      refine ⟨fun place owned _ => ?_, fun place owned started => ?_⟩
      · cases behind.symm.trans owned
        exact ⟨still, told.trans silent, none⟩
      · cases behind.symm.trans owned
        rw [told, silent] at started
        cases started

/-- A step keeps to a habit. -/
theorem Lives.step {habit : Habit C} {id : ComponentId} {votes : List Vote}
    (lives : thread.Lives habit id votes) (kept : habit.Kept) (readied : thread.Readied plan)
    (sound : thread.phase = .dispatching → thread.Sound plan)
    (stepped : thread.step plan view = some (next, effect)) :
    next.Lives habit id (votes ++ votesOf id ((thread.response? plan).elim [] Response.ballot)) := by
  obtain ⟨deeds, history, answers⟩ := answers_of_step stepped
  generalize responds : thread.response? plan = response? at answers
  cases answers with
  | silent slots _ silent =>
    rw [Option.elim_none, votesOf_nil, List.append_nil]
    refine lives.idle history ?_ (silent id)
    rw [Rank.slot?, slots, Rank.slot?]
  | @answered _ _ response context there answer slots _ tale =>
    rw [Option.elim_some, Response.ballot]
    by_cases own : response.id = id
    · subst own
      rw [votesOf_map_self]
      refine lives.answer kept readied sound ⟨context, answer⟩ responds there ?_ ?_
      · rw [Rank.slot?, slots, Array.getElem?_setIfInBounds_self_of_lt (Rank.lt_size_of_slot? there)]
        rfl
      · have more : taleOf response.id response.slot deeds = response.tale :=
          (tale _ _ there).trans (if_pos rfl)
        rw [history, taleOf_append]
        exact congrArg (_ ++ ·) more
    · rw [votesOf_map_of_ne (Ne.symm own), List.append_nil]
      refine lives.idle history ?_ fun slot owned => (tale id slot owned).trans (if_neg (Ne.symm own))
      rw [Rank.slot?, slots, Array.getElem?_setIfInBounds_ne own, Rank.slot?]

end Thread

/-- A component stays where it is, and what happened to it stays so. -/
theorem System.exists_behind {system last : System C n} {more : List (Fin n)} {index : Fin n}
    {id : ComponentId} {slot : Slot C} (reached : system.exec plan more = some last)
    (owned : (system.threads index).rank.slot? id = some slot) :
    ∃ latter, (last.threads index).rank.slot? id = some latter ∧
      taleOf id slot (system.threads index).history <+:
        taleOf id latter (last.threads index).history := by
  suffices every : ∃ latter, (last.threads index).rank.slot? id = some latter ∧
      taleOf id latter = taleOf id slot ∧
        (system.threads index).history <+: (last.threads index).history by
    obtain ⟨latter, there, same, before⟩ := every
    refine ⟨latter, there, ?_⟩
    rw [same]
    exact before.filterMap _
  refine exec_induction (P := fun last => ∃ latter, (last.threads index).rank.slot? id = some latter ∧
      taleOf id latter = taleOf id slot ∧
        (system.threads index).history <+: (last.threads index).history)
    ⟨slot, owned, rfl, List.prefix_refl _⟩
    (fun turns former last turn _ before stepped => ?_) reached
  obtain ⟨⟨thread, effect⟩, moved, rfl⟩ := Option.map_eq_some_iff.mp stepped
  by_cases own : turn = index
  · subst own
    obtain ⟨latter, there, same, earlier⟩ := before
    obtain ⟨deeds, history, answers⟩ := Thread.answers_of_step moved
    obtain ⟨final, here, still⟩ := answers.exists_behind there
    rw [threads_withThread_self, history]
    exact ⟨final, here, still.trans same, earlier.trans (List.prefix_append _ _)⟩
  · rw [threads_withThread_of_ne (Ne.symm own)]
    exact before

namespace Simulation

variable {registry : Registry C} {options : Options} {topology : Topology} {clock : Instant}
  {journal : Journal} {simulation : Simulation C} {filter : Filter}
  {schedule : List (Fin simulation.ranks.length)} {system : System C simulation.ranks.length}

/-- A rank that dispatches events has not failed. -/
theorem sound_of_dispatching
    (built : (build registry options topology clock journal).2 = .ok simulation)
    (reached : (simulation.launch filter).exec simulation.plan schedule = some system)
    {index : Fin simulation.ranks.length} (phase : (system.threads index).phase = .dispatching) :
    (system.threads index).Sound simulation.plan := by
  refine ⟨?_, fun _ halt ended => by cases phase.symm.trans ended⟩
  obtain ⟨assembly, realizes⟩ := realizes_of_build built
  rcases Nat.lt_or_ge 1 simulation.ranks.length with several | few
  · by_contra failed
    refine ((told_of_exec built reached several).threads index).silent failed ?_
    rw [phase]
    trivial
  · exact (kept_of_exec built realizes reached).upright index (Or.inl (decide_eq_true few))

/-- In every state of a run the component of a position keeps to a habit that its hooks keep to, where it was
created fresh. -/
theorem lives_of_exec {habit : Habit C} {id : ComponentId}
    (built : (build registry options topology clock journal).2 = .ok simulation) (kept : habit.Kept)
    (fresh : ∀ rank ∈ simulation.ranks, ∀ slot, rank.slot? id = some slot → habit.fresh slot)
    (reached : (simulation.launch filter).exec simulation.plan schedule = some system)
    (index : Fin simulation.ranks.length) :
    (system.threads index).Lives habit id
      (votesOf id ((simulation.launch filter).ballots simulation.plan schedule index)) := by
  suffices every : ∀ index, (system.threads index).Readied simulation.plan ∧
      (system.threads index).Lives habit id
        (votesOf id ((simulation.launch filter).ballots simulation.plan schedule index)) from
    (every index).2
  refine System.exec_concat (P := fun schedule system => ∀ index,
    (system.threads index).Readied simulation.plan ∧ (system.threads index).Lives habit id
      (votesOf id ((simulation.launch filter).ballots simulation.plan schedule index)))
    (fun index => ⟨Thread.readied_launch _ _, fun slot owned _ => ⟨?_, rfl, rfl⟩,
      fun slot owned started => by cases started⟩)
    (fun turns former latter turn arrives before stepped index => ?_) reached
  · exact fresh _ (List.get_mem simulation.ranks index) slot owned
  · obtain ⟨readied, lives⟩ := before index
    rw [System.ballots_concat arrives stepped, votesOf_append]
    obtain ⟨⟨thread, effect⟩, moved, rfl⟩ := Option.map_eq_some_iff.mp stepped
    by_cases own : turn = index
    · subst own
      rw [System.threads_withThread_self, if_pos rfl]
      exact ⟨readied.step moved,
        lives.step kept readied (fun phase => sound_of_dispatching built arrives phase) moved⟩
    · rw [System.threads_withThread_of_ne (Ne.symm own), if_neg own]
      refine ⟨readied, ?_⟩
      rw [votesOf_nil, List.append_nil]
      exact lives

end Simulation

end Rally
