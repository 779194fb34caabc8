import Rally.Proofs.Pool.Determinacy
import Rally.Proofs.Pool.HookSuccess
/-!
# Forecasts

A forecast tells for each component all that it will receive, and all that it will give where it receives
this: the same. Where each component receives at one port only, a run never leaves its forecast: in every
state no thread has failed, and what a component received is the beginning of what it will receive.
-/

namespace Rally

variable {C : Type} [Component C] {n : Nat} {plan : Plan n} {links : Array Link} {seats : Seats C}
  {told gave heard given : ComponentId → List (Instant × Delivery)}

/-- All that components will receive and give, where nothing that is given is left. -/
structure Forecast (links : Array Link) (seats : Seats C)
    (heard given : ComponentId → List (Instant × Delivery)) : Prop where
  /-- A component goes through its setup and what it will receive, and so posts what it will give. -/
  follows : Acts links seats heard given
  /-- What will be given is what will be received. -/
  closed : Closed links heard given
  /-- What a component will receive is for it. -/
  goes : ∀ id, ∀ entry ∈ heard id,
    entry.2.link < links.size ∧ (entry.2.goal links).component = id

namespace Seat

variable {seat last : Seat C} {posted : List (Instant × Delivery)}

/-- A component that goes through causes goes through the first ones, and posts the first part of what it
posts. -/
theorem follow?_begins {former whole : List Cause} (begins : former <+: whole)
    (follows : seat.follow? links whole = some (last, posted)) :
    ∃ middle before, seat.follow? links former = some (middle, before) ∧ before <+: posted := by
  obtain ⟨latter, rfl⟩ := begins
  obtain ⟨middle, before, behind, first, -, rfl⟩ := follow?_append follows
  exact ⟨middle, before, first, List.prefix_append _ _⟩

/-- A component that goes through causes answers to each of them behind the former ones. -/
theorem answers_of_begins {former whole : List Cause} {cause : Cause}
    (begins : former ++ [cause] <+: whole)
    (follows : seat.follow? links whole = some (last, posted)) {middle : Seat C}
    {before : List (Instant × Delivery)}
    (comes : seat.follow? links former = some (middle, before)) :
    middle.answer? links cause ≠ none := by
  obtain ⟨_, _, through, -⟩ := follow?_begins begins follows
  obtain ⟨next, _, _, first, second, -⟩ := follow?_append through
  rw [comes] at first
  cases first
  obtain ⟨_, _, _, answers, -, -⟩ := follow?_cons second
  rw [answers]
  exact Option.some_ne_none _

end Seat

namespace Forecast

/-- The histories of a forecast fit together. -/
theorem concord (forecast : Forecast links seats heard given) :
    Concord links seats heard given := by
  refine ⟨fun id seat there => ?_, fun way known => ?_, forecast.goes⟩
  · obtain ⟨final, follows⟩ := forecast.follows id seat there
    exact ⟨[.setup id], final, Or.inl rfl, follows⟩
  · rw [forecast.closed way known]

/-- What a component gives that received the beginning of what it will receive is the beginning of what it
will give. -/
theorem gave_begins (forecast : Forecast links seats heard given)
    (concord : Concord links seats told gave) {id : ComponentId} {seat : Seat C}
    (there : seats id = some seat) (begins : told id <+: heard id) : gave id <+: given id := by
  obtain ⟨called, final, first, follows⟩ := concord.follows id seat there
  obtain ⟨last, whole⟩ := forecast.follows id seat there
  have causes : called ++ (told id).map .event <+: .setup id :: (heard id).map .event := by
    rcases first with rfl | ⟨rfl, none⟩
    · exact List.cons_prefix_cons.mpr ⟨rfl, begins.map _⟩
    · rw [none]
      exact List.nil_prefix
  obtain ⟨_, before, same, part⟩ := Seat.follow?_begins causes whole
  rw [follows] at same
  cases same
  exact part

/-- An event that goes on from histories in the forecast is the next one of the forecast. -/
theorem next_begins (forecast : Forecast links seats heard given) (joined : Joined links seats)
    (ear : OneEar seats) (concord : Concord links seats told gave)
    (begins : ∀ id, told id <+: heard id) {way : Way} (known : way.link < links.size)
    {entry : Instant × Delivery} (carried : way.bears entry = true)
    (next : (told (way.far links).component ++ [entry]).filter way.bears <+:
      (gave (way.near links).component).filter way.bears) :
    told (way.far links).component ++ [entry] <+: heard (way.far links).component := by
  obtain ⟨near, source⟩ := Option.isSome_iff_exists.mp (joined.owned way.link way.side known)
  obtain ⟨far, goal⟩ := Option.isSome_iff_exists.mp (joined.owned way.link way.side.opposite known)
  have posts : (gave (way.near links).component).filter way.bears <+:
      (given (way.near links).component).filter way.bears :=
    (forecast.gave_begins concord source (begins _)).filter _
  rw [← forecast.closed way known] at posts
  -- The event is forecast, so its port receives, and all that is forecast comes this way.
  have inside : entry ∈ heard (way.far links).component := by
    refine List.mem_of_mem_filter ((next.trans posts).subset ?_)
    exact List.mem_filter.mpr
      ⟨List.mem_append_right _ (List.mem_singleton_self entry), carried⟩
  have hears := forecast.concord.receives goal entry inside
  rw [goal_of_bears carried] at hears
  have whole := forecast.concord.filter_told joined ear known goal hears
  have part : (told (way.far links).component ++ [entry]).filter way.bears =
      told (way.far links).component ++ [entry] := by
    refine List.filter_eq_self.mpr fun other among => ?_
    rcases List.mem_append.mp among with before | last
    · exact List.filter_eq_self.mp whole other ((begins _).subset before)
    · rw [List.mem_singleton.mp last]
      exact carried
  have prefixed := next.trans posts
  rwa [part, whole] at prefixed

end Forecast

namespace System

variable {system next : System C n} {index : Fin n} {count : Nat} {first : Fin n → Rank C}

/-- A component whose setup hook was not called is as it was before the run. -/
theorem Kept.seat_of_starting (kept : system.Kept plan links first)
    (sound : (system.threads index).Sound plan) {rest : List ComponentId}
    (starting : (system.threads index).phase = .starting rest) {id : ComponentId}
    (ahead : id ∈ rest) :
    (system.threads index).rank.seats id = (first index).seats id := by
  obtain ⟨visits, replays⟩ := kept.replayed index sound
  obtain ⟨last, path, there⟩ := replays.path
  obtain ⟨done, entries, causes, -, part⟩ := replays.begun
  obtain ⟨split, rfl⟩ := part rest starting
  have fresh : id ∉ done := by
    have nodup : (done ++ rest).Nodup := split ▸ List.nodup_range
    exact fun among => (List.nodup_append.mp nodup).2.2 id among id ahead rfl
  have uncalled : (visitsOf links id visits).map Visit.cause = [] := by
    rw [List.map_eq_nil_iff, visitsOf, List.filter_eq_nil_iff]
    intro visit inside goes
    have among : visit.cause ∈ setupsOf (first index).seats done := by
      have told := List.mem_map_of_mem (f := Visit.cause) inside
      rwa [causes, List.map_nil, List.append_nil] at told
    obtain ⟨other, called, same⟩ := List.mem_map.mp among
    rw [← same] at goes
    exact fresh (beq_iff_eq.mp goes ▸ (List.mem_filter.mp called).1)
  rw [there (by rw [starting]; exact not_false)]
  cases owned : (first index).seats id with
  | none =>
    have gone := path.isSome_eq id
    rw [owned] at gone
    exact Option.not_isSome_iff_eq_none.mp (by rw [gone]; exact Bool.false_ne_true)
  | some seat =>
    obtain ⟨final, found, follows⟩ := path.follows owned
    rw [uncalled, Seat.follow?, Option.some.injEq, Prod.mk.injEq] at follows
    rw [found, ← follows.1]

/-- Where a run has not left its forecast, no thread fails in its next step. -/
theorem Kept.fine_step (kept : system.Kept plan links first)
    (housing : Housing links plan.ids count first) (covers : plan.Covers links)
    (distinct : Function.Injective plan.ids)
    (forecast : Forecast links (Pool.ofRanks (List.ofFn first)).seats heard given)
    (ear : OneEar (Pool.ofRanks (List.ofFn first)).seats)
    (calm : ∀ (state : C) context panic,
      (Component.finish state context).outcome ≠ .panicked panic)
    (stepped : system.step plan index = some next)
    (fine : ∀ index, (system.threads index).Fine plan)
    (begins : ∀ id, system.told links id <+: heard id) :
    ∀ index, (next.threads index).Fine plan := by
  obtain ⟨⟨thread, effect⟩, moved, rfl⟩ := Option.map_eq_some_iff.mp stepped
  have steady := kept.steady.threads index
  have concord := kept.concord housing fun index => (fine index).sound
  have pooled {id : ComponentId} {seat : Seat C} (here : (first index).seats id = some seat) :
      (Pool.ofRanks (List.ofFn first)).seats id = some seat :=
    (Pool.seats_ofRanks housing.apart id seat).mpr ⟨index, here⟩
  have here : thread.Fine plan := by
    refine (fine index).step moved (fun id rest phase => ?_) (fun event pending phase popped => ?_)
      (fun parcel rest phase => ?_) (fun id => Rank.finishOne_of_calm calm _ id)
    · have starting : (system.threads index).phase.isStarting := by
        rw [phase]
        trivial
      refine @Rank.setup_of_answer _ links _ _ _ (steady.began starting).1 fun seat there => ?_
      rw [kept.seat_of_starting (fine index).sound phase List.mem_cons_self] at there
      obtain ⟨final, follows⟩ := forecast.follows id seat (pooled there)
      exact @Seat.answers_of_begins _ _ links seat final _ [] _ _ (List.prefix_append [_] _) follows _ _
        rfl
    · have window : (system.threads index).phase.inWindow := by
        rw [phase]
        trivial
      obtain ⟨way, known, carried, goal, onward⟩ :=
        kept.next_of_pop housing covers distinct window popped
      obtain ⟨seat, there⟩ : ∃ seat, (first index).seats (way.far links).component = some seat :=
        Option.isSome_iff_exists.mp (housing.home known goal.symm)
      obtain ⟨called, final, -, setup, present, follows⟩ :=
        kept.story housing (fine index).sound there
      obtain ⟨last, whole⟩ := forecast.follows _ seat (pooled there)
      have next := forecast.next_begins housing.joined ear concord begins known carried onward
      have called : called = [.setup (way.far links).component] :=
        setup (by rw [phase]; exact not_false)
      have found := present (by rw [phase]; exact not_false)
      have goes : event.payload.goal links = way.far links := goal_of_bears carried
      rw [← goes] at found
      refine Rank.dispatch_of_answer (kept.steady.wired.links index) found
        (Seat.answers_of_begins ?_ whole follows)
      rw [called]
      refine List.cons_prefix_cons.mpr ⟨rfl, ?_⟩
      have causes := next.map Cause.event
      rwa [List.map_append] at causes
    · have inside : parcel ∈ (system.threads index).unsent := by
        rw [Thread.unsent, phase]
        exact List.mem_cons_self
      have addressed := kept.flowing.addressed.unsent index parcel inside
      obtain ⟨place, found⟩ := housing.placed parcel.delivery.link parcel.delivery.arrival
        addressed.goal.known
      have among : (List.ofFn plan.ids).contains parcel.target = true := by
        rw [List.contains_iff_mem, List.mem_ofFn]
        exact ⟨place, found.trans addressed.goal.here⟩
      obtain ⟨target, there⟩ := index?_of_contains among
      rw [there]
      exact Option.some_ne_none _
  exact forall_withThread (P := fun _ thread => thread.Fine plan) here fine

/-- A step stays in the forecast. -/
theorem Kept.begins_step (kept : system.Kept plan links first)
    (housing : Housing links plan.ids count first) (covers : plan.Covers links)
    (distinct : Function.Injective plan.ids)
    (forecast : Forecast links (Pool.ofRanks (List.ofFn first)).seats heard given)
    (ear : OneEar (Pool.ofRanks (List.ofFn first)).seats)
    (stepped : system.step plan index = some next) (latter : next.Kept plan links first)
    (before : ∀ index, (system.threads index).Sound plan)
    (behind : ∀ index, (next.threads index).Sound plan)
    (begins : ∀ id, system.told links id <+: heard id) (id : ComponentId) :
    next.told links id <+: heard id := by
  rcases kept.told_step housing covers distinct stepped latter (behind index) with
    same | ⟨entry, way, known, carried, told, given⟩
  · rw [same]
    exact begins id
  · rw [told]
    by_cases here : id = (way.far links).component
    · subst here
      rw [if_pos rfl]
      exact forecast.next_begins housing.joined ear (kept.concord housing before) begins known
        carried given
    · rw [if_neg here, List.append_nil]
      exact begins id

end System

namespace Simulation

variable {registry : Registry C} {options : Options} {topology : Topology} {clock : Instant}
  {journal : Journal} {simulation : Simulation C} {assembly : Assembly C} {filter : Filter}
  {schedule : List (Fin simulation.ranks.length)} {system : System C simulation.ranks.length}

/-- In all states of a run with a forecast, no thread has failed, and each component has received the
beginning of what it will receive. -/
theorem begins_of_exec
    (built : (build registry options topology clock journal).2 = .ok simulation)
    (realizes : simulation.Realizes registry topology assembly)
    (forecast : Forecast assembly.links simulation.places heard given)
    (ear : OneEar simulation.places)
    (calm : ∀ (state : C) context panic,
      (Component.finish state context).outcome ≠ .panicked panic)
    (reached : (simulation.launch filter).exec simulation.plan schedule = some system) :
    (∀ index, (system.threads index).Fine simulation.plan) ∧
      ∀ id, system.told assembly.links id <+: heard id := by
  have housing := housing_of_build built realizes filter
  rw [← seats_launch filter] at forecast ear
  refine System.exec_induction (P := fun state =>
    (∀ index, (state.threads index).Fine simulation.plan) ∧
      ∀ id, state.told assembly.links id <+: heard id) ?_ ?_ reached
  · refine ⟨fun index => ⟨⟨rfl, fun _ halt same => ?_⟩, fun _ => Or.inl trivial⟩, fun id => ?_⟩
    · cases same
    · have nothing : (simulation.launch filter).told assembly.links id = [] := by
        rw [System.told, List.filter_flatMap]
        exact List.flatMap_eq_nil_iff.mpr fun _ _ => rfl
      rw [nothing]
      exact List.nil_prefix
  · rintro turns former latter index arrives ⟨fine, begins⟩ stepped
    have onward : (simulation.launch filter).exec simulation.plan (turns ++ [index]) = some latter := by
      rw [System.exec_append, arrives, Option.bind_some, System.exec, stepped]
      rfl
    have kept := kept_of_exec built realizes arrives
    have behind := kept.fine_step housing realizes.covers (ids_injective built) forecast ear calm
      stepped fine begins
    exact ⟨behind, kept.begins_step housing realizes.covers (ids_injective built) forecast ear
      stepped (kept_of_exec built realizes onward) (fun index => (fine index).sound)
      (fun index => (behind index).sound) begins⟩

end Simulation

end Rally
