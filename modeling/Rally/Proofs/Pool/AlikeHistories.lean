import Rally.Proofs.Pool.ConsistentHistories
import Rally.Proofs.Topology.Placing
/-!
# Histories that are alike

Some things about messages and states may differ between two simulations without making a difference to
what components do. Where the hooks of components respect such a likeness, and links and components
are alike, components that received alike messages posted alike messages. If moreover each component
receives at one port only, then in two families of histories that fit together all histories are alike,
as far as both of them go.
-/

namespace Rally

/-- Whether one of two lists is the beginning of the other, up to a relation. -/
inductive Agree {α β : Type} (R : α → β → Prop) : List α → List β → Prop where
  /-- The first list has no more members. -/
  | left (ys : List β) : Agree R [] ys
  /-- The second list has no more members. -/
  | right (xs : List α) : Agree R xs []
  /-- Both have one that is related to that of the other. -/
  | cons {x : α} {y : β} {xs : List α} {ys : List β} (here : R x y) (rest : Agree R xs ys) :
      Agree R (x :: xs) (y :: ys)

namespace Agree

variable {α β : Type} {R : α → β → Prop} {xs : List α} {ys : List β}

/-- Lists that agree behind related ones. -/
theorem append {before : List α} {former : List β} (same : List.Forall₂ R before former)
    (rest : Agree R xs ys) : Agree R (before ++ xs) (former ++ ys) := by
  induction same with
  | nil => exact rest
  | cons here _ ih => exact .cons here ih

/-- Members at one position of lists that agree are related. -/
theorem get (agree : Agree R xs ys) {position : Nat} {x : α} {y : β}
    (first : xs[position]? = some x) (second : ys[position]? = some y) : R x y := by
  induction agree generalizing position with
  | left => cases first
  | right => cases second
  | cons here rest ih =>
    cases position with
    | zero =>
      cases first
      cases second
      exact here
    | succ position => exact ih first second

/-- A member behind the first list has to be related to the one at its position. -/
theorem snoc (agree : Agree R xs ys) {x : α} (last : ∀ y, ys[xs.length]? = some y → R x y) :
    Agree R (xs ++ [x]) ys := by
  induction agree with
  | left ys =>
    cases ys with
    | nil => exact .right _
    | cons y ys => exact .cons (last y rfl) (.left ys)
  | right => exact .right _
  | cons here rest ih => exact .cons here (ih last)

/-- Members of some kind of lists that agree, and how many of them there are. -/
theorem filter (agree : Agree R xs ys) {p : α → Bool} {q : β → Bool}
    (same : ∀ x y, R x y → p x = q y) : Agree R (xs.filter p) (ys.filter q) ∧
      (xs.length ≤ ys.length → (xs.filter p).length ≤ (ys.filter q).length) := by
  induction agree with
  | left => exact ⟨.left _, fun _ => Nat.zero_le _⟩
  | right =>
    refine ⟨.right _, fun short => ?_⟩
    rw [List.eq_nil_of_length_eq_zero (Nat.le_zero.mp short)]
    exact Nat.le_refl _
  | @cons x y xs ys here rest ih =>
    rw [List.filter_cons, List.filter_cons, same x y here]
    split
    · refine ⟨.cons here ih.1, fun short => ?_⟩
      have less := ih.2 (Nat.le_of_succ_le_succ short)
      rw [List.length_cons, List.length_cons]
      omega
    · exact ⟨ih.1, fun short => ih.2 (Nat.le_of_succ_le_succ short)⟩

/-- One of two lists that agree is the beginning of the other. -/
theorem begins (agree : Agree R xs ys) :
    (∃ part, part <+: ys ∧ List.Forall₂ R xs part) ∨ ∃ part, part <+: xs ∧ List.Forall₂ R part ys := by
  induction agree with
  | left ys => exact Or.inl ⟨[], List.nil_prefix, .nil⟩
  | right xs => exact Or.inr ⟨[], List.nil_prefix, .nil⟩
  | @cons x y xs ys here rest ih =>
    rcases ih with ⟨part, begins, related⟩ | ⟨part, begins, related⟩
    · exact Or.inl ⟨y :: part, (List.prefix_cons_inj y).mpr begins, .cons here related⟩
    · exact Or.inr ⟨x :: part, (List.prefix_cons_inj x).mpr begins, .cons here related⟩

/-- What is told about the members of lists that agree. -/
theorem map {γ δ : Type} {S : γ → δ → Prop} {f : α → γ} {g : β → δ} (agree : Agree R xs ys)
    (told : ∀ x ∈ xs, ∀ y ∈ ys, R x y → S (f x) (g y)) : Agree S (xs.map f) (ys.map g) := by
  induction agree with
  | left => exact .left _
  | right => exact .right _
  | @cons x y xs ys here rest ih =>
    exact .cons (told x List.mem_cons_self y List.mem_cons_self here) (ih fun x inside y there =>
      told x (List.mem_cons_of_mem _ inside) y (List.mem_cons_of_mem _ there))

end Agree

/-- What may differ between two simulations without making a difference. -/
structure Likeness (C : Type) where
  /-- Ranks on which components may be placed. -/
  rank : RankId → RankId → Prop
  /-- Messages. -/
  message : Message → Message → Prop
  /-- States of the component of a position. -/
  state : ComponentId → C → C → Prop

namespace Likeness

variable {C : Type} (like : Likeness C)

/-- Whether two reactions of the component of a position are alike. -/
structure Reactions (id : ComponentId) (reaction other : Reaction C) : Prop where
  /-- They lead to states that are alike. -/
  state : like.state id reaction.component other.component
  /-- On the same ports they send messages that are alike. -/
  sends : List.Forall₂ (fun sent also => sent.1 = also.1 ∧ like.message sent.2 also.2)
    reaction.sends other.sends

/-- Whether two events are alike. -/
structure Entries (entry other : Instant × Delivery) : Prop where
  /-- They are due at the same time. -/
  time : entry.1 = other.1
  /-- They come over the same link. -/
  link : entry.2.link = other.2.link
  /-- They arrive at the same side. -/
  arrival : entry.2.arrival = other.2.arrival
  /-- Their messages are alike. -/
  message : like.message entry.2.message other.2.message

/-- Whether two places are alike. -/
structure Places (id : ComponentId) (seat other : Seat C) : Prop where
  /-- The names are the same. -/
  name : seat.slot.name = other.slot.name
  /-- The ports are bound to the same ends of links. -/
  ports : seat.slot.ports = other.slot.ports
  /-- The ranks are alike. -/
  rank : like.rank seat.rank other.rank
  /-- The states of the components are alike. -/
  state : like.state id seat.slot.component other.slot.component

/-- Whether two causes are alike. -/
inductive Causes : Cause → Cause → Prop where
  /-- The component of one position is set up. -/
  | setup (id : ComponentId) : Causes (.setup id) (.setup id)
  /-- Events are alike. -/
  | event {entry other : Instant × Delivery} (alike : like.Entries entry other) :
      Causes (.event entry) (.event other)

/-- Whether the hooks of components make no difference where there is none. -/
structure Respected [Component C] : Prop where
  /-- Setup hooks react alike. -/
  setup : ∀ id state other name now rank also, like.rank rank also → like.state id state other →
    like.Reactions id (Component.setup state ⟨name, rank, now⟩)
      (Component.setup other ⟨name, also, now⟩)
  /-- So do those for messages. -/
  handle : ∀ id state other name now rank also port message more, like.rank rank also →
    like.state id state other → like.message message more →
      like.Reactions id (Component.handle state ⟨name, rank, now⟩ port message)
        (Component.handle other ⟨name, also, now⟩ port more)

variable {like} {links others : Array Link}

/-- Messages on the same ports go the same ways. -/
theorem route {slot other : Slot C} (ports : slot.ports = other.ports)
    {sends more : List (PortId × Message)}
    (alike : List.Forall₂ (fun sent also => sent.1 = also.1 ∧ like.message sent.2 also.2) sends more)
    {routed also : List (Way × Message)} (first : slot.route? sends = some routed)
    (second : other.route? more = some also) :
    List.Forall₂ (fun sent also => sent.1 = also.1 ∧ like.message sent.2 also.2) routed also := by
  induction alike generalizing routed also with
  | nil =>
    cases first
    cases second
    exact .nil
  | @cons sent twin sends more here rest ih =>
    rw [Slot.route?, List.mapM_cons] at first second
    obtain ⟨way, goes, behind⟩ := Option.bind_eq_some_iff.mp first
    obtain ⟨ways, onward, same⟩ := Option.bind_eq_some_iff.mp behind
    obtain ⟨path, leads, latter⟩ := Option.bind_eq_some_iff.mp second
    obtain ⟨paths, further, equal⟩ := Option.bind_eq_some_iff.mp latter
    cases same
    cases equal
    obtain ⟨binding, bound, rfl⟩ := Option.map_eq_some_iff.mp goes
    obtain ⟨other, found, rfl⟩ := Option.map_eq_some_iff.mp leads
    rw [Slot.binding?, ← ports, ← here.1] at found
    obtain rfl : binding = other := Option.some.inj (bound.symm.trans found)
    exact .cons ⟨rfl, here.2⟩ (ih onward further)

variable [Component C]

/-- Components that are alike answer alike causes alike. -/
theorem Respected.answer (respected : like.Respected) (parallel : Parallel links others)
    {id : ComponentId} {seat also : Seat C} (places : like.Places id seat also)
    {cause other : Cause} (causes : like.Causes cause other) {next more : Seat C}
    {sends posts : List (Way × Message)} (first : seat.answer? links cause = some (next, sends))
    (second : also.answer? others other = some (more, posts)) :
    like.Places id next more ∧ List.Forall₂ like.Entries
      (sends.map fun sent => sent.1.post links cause.now sent.2)
      (posts.map fun sent => sent.1.post others other.now sent.2) := by
  obtain ⟨reaction, reacts, routes, rfl⟩ := Seat.answer?_keeps first
  obtain ⟨reply, replies, goes, rfl⟩ := Seat.answer?_keeps second
  have alike : like.Reactions id reaction reply ∧ cause.now = other.now := by
    cases causes with
    | setup place =>
      rw [Seat.eq_of_reaction?_setup reacts, Seat.eq_of_reaction?_setup replies, ← places.name]
      exact ⟨respected.setup id seat.slot.component also.slot.component seat.slot.name
        Instant.zero seat.rank also.rank places.rank places.state, rfl⟩
    | @event entry other alike =>
      have port : ((others.getD other.2.link default).endAt other.2.arrival).port =
          ((links.getD entry.2.link default).endAt entry.2.arrival).port := by
        rw [alike.link, alike.arrival, parallel.port]
      rw [Seat.eq_of_reaction?_event reacts, Seat.eq_of_reaction?_event replies, ← places.name, port,
        ← alike.time]
      exact ⟨respected.handle id seat.slot.component also.slot.component seat.slot.name
        entry.1 seat.rank also.rank ((links.getD entry.2.link default).endAt entry.2.arrival).port
        entry.2.message other.2.message places.rank places.state alike.message, alike.time⟩
  refine ⟨⟨places.name, places.ports, places.rank, alike.1.state⟩, ?_⟩
  rw [List.forall₂_map_left_iff, List.forall₂_map_right_iff]
  refine (route places.ports alike.1.sends routes goes).imp fun sent twin same => ?_
  obtain ⟨way, message⟩ := same
  refine ⟨?_, ?_, ?_, message⟩
  · rw [Way.post, Way.post, alike.2, way, Way.latency, Way.latency, parallel.latency]
  · rw [Way.post, Way.post, way]
  · rw [Way.post, Way.post, way]

/-- What two components that are alike do for causes that are alike, as far as both go. -/
structure Deeds (like : Likeness C) (id : ComponentId) (causes others : List Cause)
    (seat other : Seat C) (posted also : List (Instant × Delivery)) : Prop where
  /-- They post alike messages. -/
  posts : Agree like.Entries posted also
  /-- For as many causes they get to places that are alike. -/
  places : causes.length = others.length → like.Places id seat other
  /-- For no more causes one of them posts no more messages. -/
  fewer : causes.length ≤ others.length → posted.length ≤ also.length

/-- Components that are alike do the same for causes that are alike. -/
theorem Respected.follow (respected : like.Respected) (parallel : Parallel links others)
    {id : ComponentId} {causes more : List Cause} (agree : Agree like.Causes causes more)
    {seat other last final : Seat C} (places : like.Places id seat other)
    {posted also : List (Instant × Delivery)}
    (first : seat.follow? links causes = some (last, posted))
    (second : other.follow? others more = some (final, also)) :
    like.Deeds id causes more last final posted also := by
  induction agree generalizing seat other posted also with
  | left more =>
    cases first
    refine ⟨.left _, fun same => ?_, fun _ => Nat.zero_le _⟩
    rw [List.eq_nil_of_length_eq_zero same.symm] at second
    cases second
    exact places
  | right causes =>
    cases second
    refine ⟨.right _, fun same => ?_, fun short => ?_⟩
    · rw [List.eq_nil_of_length_eq_zero same] at first
      cases first
      exact places
    · rw [List.eq_nil_of_length_eq_zero (Nat.le_zero.mp short)] at first
      cases first
      exact Nat.le_refl _
  | cons here rest ih =>
    obtain ⟨next, sends, behind, answers, onward, rfl⟩ := Seat.follow?_cons first
    obtain ⟨reply, posts, later, replies, further, rfl⟩ := Seat.follow?_cons second
    obtain ⟨alike, same⟩ := respected.answer parallel places here answers replies
    have deeds := ih alike onward further
    have long := same.length_eq
    refine ⟨deeds.posts.append same, fun equal => deeds.places (Nat.succ.inj equal), fun short => ?_⟩
    have less := deeds.fewer (Nat.le_of_succ_le_succ short)
    rw [List.length_append, List.length_append, long]
    omega

end Likeness

end Rally
