import Rally.Proofs.Pool.WindowedRuns
/-!
# What a component goes through

What a component does depends on its own calls alone: for some causes, one after the other, it gets to
a state and posts messages, unless one of its hooks fails. In every state of a run in which no rank
has failed, each component has gone through its setup and the events that were dispatched to it, and
what it received on a way is the beginning of what the component at the near end posted there.
-/

namespace Rally

/-- The end at which an event arrives. -/
def Delivery.goal (links : Array Link) (delivery : Delivery) : LinkEnd :=
  (links.getD delivery.link default).endAt delivery.arrival

/-- The end from which an event comes. -/
def Delivery.source (links : Array Link) (delivery : Delivery) : LinkEnd :=
  (links.getD delivery.link default).endAt delivery.arrival.opposite

/-- Whether an event is for the component of a position. -/
def goesTo (links : Array Link) (id : ComponentId) (entry : Instant × Delivery) : Bool :=
  (entry.2.goal links).component == id

/-- Whether an event is from the component of a position. -/
def comesFrom (links : Array Link) (id : ComponentId) (entry : Instant × Delivery) : Bool :=
  (entry.2.source links).component == id

section Hooks

variable {C : Type} [Component C] {links : Array Link}

namespace Seat

/-- What a component does for some causes, one after the other: its place behind them and what it
posts, unless a hook fails. -/
def follow? (links : Array Link) :
    List Cause → Seat C → Option (Seat C × List (Instant × Delivery))
  | [], seat => some (seat, [])
  | cause :: rest, seat =>
    (seat.answer? links cause).bind fun (next, sends) =>
      (follow? links rest next).map fun (last, posted) =>
        (last, sends.map (fun sent => sent.1.post links cause.now sent.2) ++ posted)

variable {seat last : Seat C} {posted : List (Instant × Delivery)}

/-- A component that goes through some causes answers the first one, and goes through the others. -/
theorem follow?_cons {cause : Cause} {rest : List Cause}
    (follows : seat.follow? links (cause :: rest) = some (last, posted)) :
    ∃ next sends more, seat.answer? links cause = some (next, sends) ∧
      next.follow? links rest = some (last, more) ∧
      posted = sends.map (fun sent => sent.1.post links cause.now sent.2) ++ more := by
  obtain ⟨⟨next, sends⟩, answers, follows⟩ := Option.bind_eq_some_iff.mp follows
  obtain ⟨⟨final, more⟩, behind, same⟩ := Option.map_eq_some_iff.mp follows
  cases same
  exact ⟨next, sends, more, answers, behind, rfl⟩

/-- A component that answers the first of some causes goes on with the others. -/
theorem follow?_cons_of_answer {cause : Cause} {rest : List Cause} {next : Seat C}
    {sends : List (Way × Message)} (answers : seat.answer? links cause = some (next, sends))
    (follows : next.follow? links rest = some (last, posted)) :
    seat.follow? links (cause :: rest) =
      some (last, sends.map (fun sent => sent.1.post links cause.now sent.2) ++ posted) := by
  simp only [follow?, answers, Option.bind_some, follows, Option.map_some]

/-- An answer changes the state of the component alone. -/
theorem answer?_keeps {cause : Cause} {answer : Seat C} {sends : List (Way × Message)}
    (answers : seat.answer? links cause = some (answer, sends)) :
    ∃ reaction, seat.reaction? links cause = some reaction ∧
      seat.slot.route? reaction.sends = some sends ∧
      answer = { seat with slot := { seat.slot with component := reaction.component } } := by
  obtain ⟨reaction, reacts, routed⟩ := Option.bind_eq_some_iff.mp answers
  obtain ⟨routes, found, same⟩ := Option.map_eq_some_iff.mp routed
  cases same
  exact ⟨reaction, reacts, found, rfl⟩

/-- A component answers to what it receives at a port that receives. -/
theorem receives_of_answer? {entry : Instant × Delivery} {answer : Seat C}
    {sends : List (Way × Message)}
    (answers : seat.answer? links (.event entry) = some (answer, sends)) :
    seat.slot.receives (entry.2.goal links).port = true := by
  obtain ⟨reaction, reacts, -⟩ := answer?_keeps answers
  rw [reaction?] at reacts
  by_contra deaf
  simp only [Delivery.goal] at deaf
  rw [if_neg deaf] at reacts
  cases reacts

end Seat

/-- What is sent on ports that are configured goes the ways of their bindings. -/
theorem Slot.bound_of_route? {C : Type} {slot : Slot C} {sends : List (PortId × Message)}
    {routed : List (Way × Message)} (routes : slot.route? sends = some routed) :
    ∀ sent ∈ routed, ∃ port binding, slot.binding? port = some binding ∧
      sent.1 = ⟨binding.link, binding.side⟩ := by
  induction sends generalizing routed with
  | nil =>
    cases routes
    intro sent inside
    cases inside
  | cons first rest ih =>
    rw [route?, List.mapM_cons] at routes
    obtain ⟨way, goes, others⟩ := Option.bind_eq_some_iff.mp routes
    obtain ⟨more, behind, same⟩ := Option.bind_eq_some_iff.mp others
    cases same
    intro sent inside
    rcases List.mem_cons.mp inside with rfl | inside
    · obtain ⟨binding, bound, rfl⟩ := Option.map_eq_some_iff.mp goes
      exact ⟨_, binding, bound, rfl⟩
    · exact ih behind sent inside

namespace Seat

variable {seat last : Seat C} {posted : List (Instant × Delivery)}

/-- A component that goes through events receives them at ports that receive. -/
theorem receives_of_follow? {causes : List Cause}
    (follows : seat.follow? links causes = some (last, posted)) {entry : Instant × Delivery}
    (inside : .event entry ∈ causes) : seat.slot.receives (entry.2.goal links).port = true := by
  induction causes generalizing seat posted with
  | nil => cases inside
  | cons cause rest ih =>
    obtain ⟨next, sends, more, answers, behind, -⟩ := follow?_cons follows
    rcases List.mem_cons.mp inside with rfl | inside
    · exact receives_of_answer? answers
    · obtain ⟨reaction, -, -, rfl⟩ := answer?_keeps answers
      have received := ih behind inside
      exact received

/-- What a component posts goes the ways that its ports are bound to. -/
theorem bound_of_follow? {causes : List Cause}
    (follows : seat.follow? links causes = some (last, posted)) :
    ∀ entry ∈ posted, ∃ port binding, seat.slot.binding? port = some binding ∧
      entry.2.link = binding.link ∧ entry.2.arrival = binding.side.opposite := by
  induction causes generalizing seat posted with
  | nil =>
    cases follows
    intro entry inside
    cases inside
  | cons cause rest ih =>
    obtain ⟨next, sends, more, answers, behind, rfl⟩ := follow?_cons follows
    obtain ⟨reaction, -, routes, rfl⟩ := answer?_keeps answers
    intro entry inside
    rcases List.mem_append.mp inside with now | later
    · obtain ⟨sent, there, rfl⟩ := List.mem_map.mp now
      obtain ⟨port, binding, bound, way⟩ := Slot.bound_of_route? routes sent there
      exact ⟨port, binding, bound, by rw [Way.post, way], by rw [Way.post, way]⟩
    · exact ih behind entry later

/-- A component goes through causes behind others. -/
theorem follow?_append {former latter : List Cause}
    (follows : seat.follow? links (former ++ latter) = some (last, posted)) :
    ∃ middle before behind, seat.follow? links former = some (middle, before) ∧
      middle.follow? links latter = some (last, behind) ∧ posted = before ++ behind := by
  induction former generalizing seat posted with
  | nil => exact ⟨seat, [], posted, rfl, follows, rfl⟩
  | cons cause rest ih =>
    obtain ⟨next, sends, more, answers, onward, rfl⟩ := follow?_cons follows
    obtain ⟨middle, before, behind, first, second, rfl⟩ := ih onward
    exact ⟨middle, _, behind, follow?_cons_of_answer answers first, second,
      (List.append_assoc _ _ _).symm⟩

/-- A component that goes through some causes, and then answers one more, goes through all of them. -/
theorem follow?_concat {former : List Cause} {cause : Cause} {middle : Seat C}
    {before : List (Instant × Delivery)} {sends : List (Way × Message)}
    (follows : seat.follow? links former = some (middle, before))
    (answers : middle.answer? links cause = some (last, sends)) :
    seat.follow? links (former ++ [cause]) =
      some (last, before ++ sends.map fun sent => sent.1.post links cause.now sent.2) := by
  induction former generalizing seat before with
  | nil =>
    cases follows
    rw [List.nil_append, follow?_cons_of_answer answers rfl, List.append_nil, List.nil_append]
  | cons first rest ih =>
    obtain ⟨next, gifts, more, begins, onward, rfl⟩ := follow?_cons follows
    rw [List.cons_append, follow?_cons_of_answer begins (ih onward), List.append_assoc]

end Seat

/-- The visits to the component of a position. -/
def visitsOf (links : Array Link) (id : ComponentId) (visits : List Visit) : List Visit :=
  visits.filter fun visit => visit.cause.component links == id

namespace Path

variable {first last : Seats C} {visits : List Visit} {id : ComponentId} {seat : Seat C}

/-- Visits lead each component through those to it. -/
theorem follows (path : Path links first visits last) (there : first id = some seat) :
    ∃ final, last id = some final ∧
      seat.follow? links ((visitsOf links id visits).map Visit.cause) =
        some (final, postedBy links (visitsOf links id visits)) := by
  induction path generalizing seat with
  | refl seats => exact ⟨seat, there, rfl⟩
  | @step first middle last visit rest leads path ih =>
    obtain ⟨known, answers⟩ := leads
    rename_i former answer
    by_cases here : visit.cause.component links = id
    · rw [here, there, Option.some.injEq] at known
      subst known
      obtain ⟨final, found, follows⟩ := @ih answer (by rw [here, Function.update_self])
      refine ⟨final, found, ?_⟩
      have kept : visitsOf links id (visit :: rest) = visit :: visitsOf links id rest :=
        List.filter_cons_of_pos (beq_iff_eq.mpr here)
      rw [kept, List.map_cons, Seat.follow?_cons_of_answer answers follows]
      rfl
    · obtain ⟨final, found, follows⟩ := @ih seat
        (by rw [Function.update_of_ne (Ne.symm here)]; exact there)
      refine ⟨final, found, ?_⟩
      have kept : visitsOf links id (visit :: rest) = visitsOf links id rest :=
        List.filter_cons_of_neg fun same => here (beq_iff_eq.mp same)
      rw [kept]
      exact follows

/-- What visits post comes from the components that they are to. -/
theorem comesFrom_of_posted (path : Path links first visits last)
    (bound : ∀ id seat port binding, first id = some seat → seat.slot.binding? port = some binding →
      (Way.near ⟨binding.link, binding.side⟩ links).component = id) :
    ∀ visit ∈ visits, ∀ entry ∈ visit.posted links,
      (entry.2.source links).component = visit.cause.component links := by
  intro visit inside entry posted
  obtain ⟨former, latter, rfl⟩ := List.append_of_mem inside
  obtain ⟨seat, there⟩ : ∃ seat, first (visit.cause.component links) = some seat := by
    refine Option.isSome_iff_exists.mp ?_
    clear bound
    induction former generalizing first with
    | nil =>
      cases path with
      | step leads =>
        obtain ⟨known, -⟩ := leads
        rw [known]
        rfl
    | cons other rest ih =>
      cases path with
      | step leads path =>
        obtain ⟨known, -⟩ := leads
        have later := ih path List.mem_append_cons_self
        by_cases here : visit.cause.component links = other.cause.component links
        · rw [here, known]
          rfl
        · rwa [Function.update_of_ne here] at later
  obtain ⟨final, -, follows⟩ := path.follows there
  have told : entry ∈ postedBy links
      (visitsOf links (visit.cause.component links) (former ++ visit :: latter)) :=
    List.mem_flatMap.mpr ⟨visit, List.mem_filter.mpr ⟨inside, beq_self_eq_true _⟩, posted⟩
  obtain ⟨port, binding, known, link, arrival⟩ := Seat.bound_of_follow? follows entry told
  have near := bound _ seat port binding there known
  rw [Way.near, ← link] at near
  rw [Delivery.source, arrival, Side.opposite_opposite]
  exact near

/-- Among all that visits post, what comes from a component is what the visits to it post. -/
theorem filter_posted (path : Path links first visits last)
    (bound : ∀ id seat port binding, first id = some seat → seat.slot.binding? port = some binding →
      (Way.near ⟨binding.link, binding.side⟩ links).component = id) (id : ComponentId) :
    (postedBy links visits).filter (comesFrom links id) =
      postedBy links (visitsOf links id visits) := by
  have from' := path.comesFrom_of_posted bound
  clear path bound
  induction visits with
  | nil => rfl
  | cons visit rest ih =>
    have behind := ih fun other inside => from' other (List.mem_cons_of_mem _ inside)
    have here := from' visit List.mem_cons_self
    have split (more : List Visit) :
        postedBy links (visit :: more) = visit.posted links ++ postedBy links more :=
      List.flatMap_cons
    rw [split, List.filter_append, behind]
    by_cases same : visit.cause.component links = id
    · have kept : visitsOf links id (visit :: rest) = visit :: visitsOf links id rest :=
        List.filter_cons_of_pos (beq_iff_eq.mpr same)
      have all : (visit.posted links).filter (comesFrom links id) = visit.posted links :=
        List.filter_eq_self.mpr fun entry inside =>
          beq_iff_eq.mpr ((here entry inside).trans same)
      rw [kept, split, all]
    · have kept : visitsOf links id (visit :: rest) = visitsOf links id rest :=
        List.filter_cons_of_neg fun equal => same (beq_iff_eq.mp equal)
      have none : (visit.posted links).filter (comesFrom links id) = [] :=
        List.filter_eq_nil_iff.mpr fun entry inside equal =>
          same ((here entry inside).symm.trans (beq_iff_eq.mp equal))
      rw [kept, none, List.nil_append]

end Path

end Hooks

end Rally
