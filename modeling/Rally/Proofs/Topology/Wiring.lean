import Mathlib.Data.List.Forall2
import Rally.Topology.Resolution
/-!
# What a checked topology tells about its links

A topology that passes the check becomes parts and links. Each part is described by the component of
its position, each link by the link of its position; the ends of a link are where the description
says, and what is attached to the port of a part is the end of a link that is there.
-/

namespace Rally

/-- What is related to a member of the second one of two related lists. -/
theorem related_of_getElem? {α β : Type} {R : α → β → Prop} {xs : List α} {ys : List β}
    (related : List.Forall₂ R xs ys) {position : Nat} {y : β} (there : ys[position]? = some y) :
    ∃ x, xs[position]? = some x ∧ R x y := by
  obtain ⟨inside, rfl⟩ := List.getElem?_eq_some_iff.mp there
  have long : position < xs.length := by
    rw [related.length_eq]
    exact inside
  exact ⟨xs[position], List.getElem?_eq_getElem long, related.get long inside⟩

/-- Lists are told alike where related members are. -/
theorem map_eq_of_related {α β γ : Type} {tell : α → γ} {say : β → γ} {xs : List α} {ys : List β}
    (related : List.Forall₂ (fun x y => tell x = say y) xs ys) : xs.map tell = ys.map say := by
  rwa [← List.forall₂_eq_eq_eq, List.forall₂_map_left_iff, List.forall₂_map_right_iff]

/-- The link of a position among those that a checked topology has. -/
theorem getElem?_links {links : Array Link} {link : LinkId} (known : link < links.size) :
    links.toList[link]? = some (links.getD link default) := by
  rw [Array.getElem?_toList, Array.getElem?_eq_getElem known, Array.getD_eq_getD_getElem?,
    Array.getElem?_eq_getElem known]
  rfl

/-- A link that is there is the one of its position. -/
theorem getD_links {links : Array Link} {link : LinkId} {joined : Link}
    (found : links[link]? = some joined) : links.getD link default = joined := by
  rw [Array.getD_eq_getD_getElem?, found]
  rfl

/-- The endpoint that a definition gives for a side. -/
def LinkSpec.endAt (spec : LinkSpec) : Side → Endpoint
  | .a => spec.a
  | .b => spec.b

namespace Assembly

variable {C : Type} {registry : Registry C}

/-- A part before links are attached to its ports. -/
def bare (part : Part C) : Part C := { part with wiring := [] }

/-- Whether a part is what a component description asks for. -/
structure Describes (registry : Registry C) (spec : ComponentSpec) (part : Part C) : Prop where
  /-- The part has the name of the component. -/
  name : part.name = spec.name
  /-- It is placed on the rank of the component. -/
  rank : part.rank = spec.rank
  /-- It has the type of the component. -/
  type : registry.get? spec.type = some part.type
  /-- Its parameters are the texts of those of the component. -/
  params : paramTexts spec = .ok part.params

/-- A component that passes the check has a name of its own and becomes a part without links. -/
theorem part_ok {before : List ComponentSpec} {spec : ComponentSpec} {checked : Part C}
    (passes : part registry before spec = .ok checked) :
    (∀ other ∈ before, other.name ≠ spec.name) ∧ Describes registry spec checked ∧
      checked.wiring = [] := by
  unfold part at passes
  by_cases double : (before.any fun other => other.name == spec.name) = true
  · simp only [double, if_true, throw, throwThe, MonadExceptOf.throw, bind, Except.bind] at passes
    cases passes
  · simp only [double, Bool.false_eq_true, if_false, pure, Except.pure, bind, Except.bind] at passes
    cases known : registry.get? spec.type with
    | none =>
      simp only [known, throw, throwThe, MonadExceptOf.throw] at passes
      cases passes
    | some type =>
      simp only [known] at passes
      cases texts : paramTexts spec with
      | error problem =>
        rw [texts] at passes
        cases passes
      | ok params =>
        rw [texts] at passes
        cases passes
        refine ⟨fun other inside same => ?_, ⟨rfl, rfl, known, texts⟩, rfl⟩
        exact double (List.any_eq_true.mpr ⟨other, inside, beq_iff_eq.mpr same⟩)

/-- Components that pass the check have different names and become parts without links. -/
theorem partsBehind_ok {before specs : List ComponentSpec} {parts : List (Part C)}
    (passes : partsBehind registry before specs = .ok parts) :
    specs.Pairwise (fun first second => first.name ≠ second.name) ∧
      (∀ spec ∈ specs, ∀ other ∈ before, other.name ≠ spec.name) ∧
      List.Forall₂ (Describes registry) specs parts ∧ ∀ part ∈ parts, part.wiring = [] := by
  induction specs generalizing before parts with
  | nil =>
    cases passes
    exact ⟨.nil, fun spec inside => (List.not_mem_nil inside).elim, .nil,
      fun part inside => (List.not_mem_nil inside).elim⟩
  | cons spec rest ih =>
    simp only [partsBehind, bind, Except.bind] at passes
    cases first : part registry before spec with
    | error problem =>
      rw [first] at passes
      cases passes
    | ok checked =>
      cases behind : partsBehind registry (spec :: before) rest with
      | error problem =>
        rw [first, behind] at passes
        cases passes
      | ok others =>
        rw [first, behind] at passes
        cases passes
        obtain ⟨fresh, describes, empty⟩ := part_ok first
        obtain ⟨distinct, later, described, blank⟩ := ih behind
        refine ⟨?_, ?_, .cons describes described, ?_⟩
        · refine List.pairwise_cons.mpr ⟨fun other inside => ?_, distinct⟩
          exact later other inside spec List.mem_cons_self
        · intro other inside former known
          rcases List.mem_cons.mp inside with rfl | inside
          · exact fresh former known
          · exact later other inside former (List.mem_cons_of_mem spec known)
        · intro other inside
          rcases List.mem_cons.mp inside with rfl | inside
          · exact empty
          · exact blank other inside

/-- Whether the end of a link is at the port that an endpoint names. -/
structure Located (parts : Parts C) (endpoint : Endpoint) (place : LinkEnd) : Prop where
  /-- It is the port of a part, on the rank of that part. -/
  found : ∃ part, parts[place.component]? = some part ∧ part.name = endpoint.component ∧
    portId? part.type.ports endpoint.port = some place.port ∧ part.rank = place.rank

/-- Whether what is attached to ports is the end of a link that is there. -/
def Attached (links : List Link) (parts : Parts C) : Prop :=
  ∀ (id : ComponentId) (part : Part C), parts[id]? = some part →
    ∀ (port : PortId) (link : LinkId) (side : Side),
      part.wiring.lookup port = some (link, side) →
        ∃ joined, links[link]? = some joined ∧ joined.endAt side = ⟨id, port, part.rank⟩

/-- An endpoint is located by the parts alone, not by what is attached to them. -/
theorem Located.of_bare {parts others : Parts C} {endpoint : Endpoint} {place : LinkEnd}
    (located : Located parts endpoint place) (same : others.map bare = parts.map bare) :
    Located others endpoint place := by
  obtain ⟨part, found, name, port, rank⟩ := located.found
  have bared := congrArg (fun parts => parts[place.component]?) same
  simp only [Array.getElem?_map, found, Option.map_some, Option.map_eq_some_iff] at bared
  obtain ⟨other, there, alike⟩ := bared
  have names : other.name = part.name := congrArg (fun part => part.name) alike
  have types : other.type = part.type := congrArg (fun part => part.type) alike
  have ranks : other.rank = part.rank := congrArg (fun part => part.rank) alike
  exact ⟨other, there, names.trans name, by rw [types]; exact port, ranks.trans rank⟩

/-- An end that is attached is where its endpoint says, at a port that was free. -/
theorem attach_ok {spec : LinkSpec} {id : LinkId} {side : Side} {endpoint : Endpoint}
    {parts attached : Parts C} {place : LinkEnd}
    (passes : attach spec id side endpoint parts = .ok (place, attached)) :
    ∃ part, parts[place.component]? = some part ∧ part.name = endpoint.component ∧
      portId? part.type.ports endpoint.port = some place.port ∧ place.rank = part.rank ∧
      part.wiring.lookup place.port = none ∧
      attached = parts.setIfInBounds place.component
        { part with wiring := (place.port, id, side) :: part.wiring } := by
  unfold attach at passes
  split at passes
  · cases passes
  · next component named =>
    split at passes
    · cases passes
    · next part found =>
      split at passes
      · cases passes
      · next port declared =>
        split at passes
        · cases passes
        · next free =>
          cases passes
          refine ⟨part, found, ?_, declared, rfl, Option.not_isSome_iff_eq_none.mp free, rfl⟩
          obtain ⟨inside, same, -⟩ := Array.findIdx?_eq_some_iff_getElem.mp named
          obtain ⟨_, there⟩ := Array.getElem?_eq_some_iff.mp found
          rw [there] at same
          exact beq_iff_eq.mp same

/-- Attaching an end changes nothing but what is attached. -/
theorem bare_attach {spec : LinkSpec} {id : LinkId} {side : Side} {endpoint : Endpoint}
    {parts attached : Parts C} {place : LinkEnd}
    (passes : attach spec id side endpoint parts = .ok (place, attached)) :
    attached.map bare = parts.map bare := by
  obtain ⟨part, found, -, -, -, -, rfl⟩ := attach_ok passes
  obtain ⟨inside, there⟩ := Array.getElem?_eq_some_iff.mp found
  refine Array.ext (by simp) fun index first second => ?_
  by_cases here : place.component = index
  · subst here
    simp [there, bare]
  · rw [Array.getElem_map, Array.getElem_map]
    rw [Array.size_map] at second
    exact congrArg bare (Array.getElem_setIfInBounds_ne second here)

/-- An end that is attached is located. -/
theorem located_attach {spec : LinkSpec} {id : LinkId} {side : Side} {endpoint : Endpoint}
    {parts attached : Parts C} {place : LinkEnd}
    (passes : attach spec id side endpoint parts = .ok (place, attached)) :
    Located parts endpoint place := by
  obtain ⟨part, found, name, port, rank, -⟩ := attach_ok passes
  exact ⟨part, found, name, port, rank.symm⟩

/-- An end that is attached is the one of its link. -/
theorem Attached.attach {links : List Link} {spec : LinkSpec} {id : LinkId} {side : Side}
    {endpoint : Endpoint} {parts attached : Parts C} {place : LinkEnd} {joined : Link}
    (former : Attached links parts)
    (passes : Assembly.attach spec id side endpoint parts = .ok (place, attached))
    (there : links[id]? = some joined) (end_at : joined.endAt side = place) :
    Attached links attached := by
  obtain ⟨part, found, -, -, rank, -, rfl⟩ := attach_ok passes
  obtain ⟨inside, -⟩ := Array.getElem?_eq_some_iff.mp found
  intro component other present port link at_side wired
  by_cases here : place.component = component
  · subst here
    simp only [Array.getElem?_setIfInBounds_self, inside, if_true, Option.some.injEq] at present
    subst present
    by_cases same : port = place.port
    · subst same
      simp only [List.lookup_cons_self, Option.some.injEq, Prod.mk.injEq] at wired
      obtain ⟨rfl, rfl⟩ := wired
      exact ⟨joined, there, by rw [end_at, ← rank]⟩
    · rw [List.lookup_cons, beq_eq_false_iff_ne.mpr same] at wired
      exact former _ part found port link at_side wired
  · rw [Array.getElem?_setIfInBounds_ne here] at present
    exact former component other present port link at_side wired

/-- Links that come behind others leave attached what was. -/
theorem Attached.append {links : List Link} {parts : Parts C} (attached : Attached links parts)
    (more : List Link) : Attached (links ++ more) parts := by
  intro id part found port link side wired
  obtain ⟨joined, there, same⟩ := attached id part found port link side wired
  obtain ⟨inside, -⟩ := List.getElem?_eq_some_iff.mp there
  exact ⟨joined, by rw [List.getElem?_append_left inside]; exact there, same⟩

/-- Whether the port at the end of a link is taken by it. -/
def Occupies (parts : Parts C) (id : LinkId) (side : Side) (place : LinkEnd) : Prop :=
  ∃ part, parts[place.component]? = some part ∧ part.wiring.lookup place.port = some (id, side)

/-- Attaching an end takes its port, and leaves the ports that are taken as they are. -/
theorem occupies_attach {spec : LinkSpec} {id : LinkId} {side : Side} {endpoint : Endpoint}
    {parts attached : Parts C} {place : LinkEnd}
    (passes : attach spec id side endpoint parts = .ok (place, attached)) :
    Occupies attached id side place ∧ ∀ other otherSide former,
      Occupies parts other otherSide former → Occupies attached other otherSide former := by
  obtain ⟨part, found, -, -, -, free, rfl⟩ := attach_ok passes
  obtain ⟨inside, -⟩ := Array.getElem?_eq_some_iff.mp found
  refine ⟨⟨_, by rw [Array.getElem?_setIfInBounds_self, if_pos inside], List.lookup_cons_self⟩, ?_⟩
  rintro other otherSide former ⟨holder, present, taken⟩
  by_cases here : place.component = former.component
  · rw [here, present, Option.some.injEq] at found
    subst found
    refine ⟨_, by rw [here, Array.getElem?_setIfInBounds_self, if_pos (here ▸ inside)], ?_⟩
    have differ : former.port ≠ place.port := by
      intro same
      rw [same, free] at taken
      cases taken
    rw [List.lookup_cons, beq_eq_false_iff_ne.mpr differ]
    exact taken
  · exact ⟨holder, by rw [Array.getElem?_setIfInBounds_ne here]; exact present, taken⟩

/-- Whether a link is what a description asks for, between ends among some parts. -/
structure Joins (parts : Parts C) (spec : LinkSpec) (joined : Link) : Prop where
  /-- The link has the name that is given. -/
  name : joined.name = spec.name
  /-- It has the latency that is given. -/
  latency : (Duration.ofSeconds spec.latency).toOption = some joined.latency
  /-- Its ends are where the endpoints say. -/
  located : ∀ side, Located parts (spec.endAt side) (joined.endAt side)
  /-- Between two ranks it has some latency. -/
  positive : joined.crossesRanks = true → joined.latency ≠ Duration.zero

/-- What a link that passes the check is: one with a new name and a latency, whose ends are attached in turn. -/
theorem attaches_of_link {before : List LinkSpec} {spec : LinkSpec} {parts wired : Parts C}
    {joined : Link} (passes : link before spec parts = .ok (joined, wired)) :
    (∀ other ∈ before, other.name ≠ spec.name) ∧ spec.a ≠ spec.b ∧
      ∃ latency a b middle, Duration.ofSeconds spec.latency = .ok latency ∧
        attach spec before.length .a spec.a parts = .ok (a, middle) ∧
        attach spec before.length .b spec.b middle = .ok (b, wired) ∧
        joined = ⟨spec.name, latency, a, b⟩ ∧
        (joined.crossesRanks = true → latency ≠ Duration.zero) := by
  unfold link at passes
  simp only [throw, throwThe, MonadExceptOf.throw, bind, Except.bind, pure, Except.pure] at passes
  split at passes
  · cases passes
  next single =>
  split at passes
  · cases passes
  next latency read =>
  split at passes
  · cases passes
  next differ =>
  split at passes
  · cases passes
  next first attachedA =>
  split at passes
  · cases passes
  next second attachedB =>
  split at passes
  · cases passes
  next positive =>
  obtain ⟨a, middle⟩ := first
  obtain ⟨b, last⟩ := second
  simp only at attachedA attachedB positive passes
  cases passes
  have value : Duration.ofSeconds spec.latency = .ok latency := by
    cases given : Duration.ofSeconds spec.latency with
    | error problem =>
      rw [given] at read
      cases read
    | ok duration =>
      rw [given] at read
      cases read
      rfl
  refine ⟨fun other inside same => ?_, differ, latency, a, b, middle, value, attachedA, attachedB,
    rfl, fun crosses zero => ?_⟩
  · exact single (List.any_eq_true.mpr ⟨other, inside, beq_iff_eq.mpr same⟩)
  · exact positive (Bool.and_eq_true_iff.mpr ⟨crosses, beq_iff_eq.mpr zero⟩)

/-- A link that passes the check joins two ports, and is attached to them. -/
theorem link_ok {before : List LinkSpec} {spec : LinkSpec} {parts wired : Parts C} {joined : Link}
    (passes : link before spec parts = .ok (joined, wired)) :
    wired.map bare = parts.map bare ∧ Joins wired spec joined ∧
      (∀ links : List Link, links.length = before.length → Attached links parts →
        Attached (links ++ [joined]) wired) ∧
      (∀ side, Occupies wired before.length side (joined.endAt side)) ∧
      ∀ other side place, Occupies parts other side place → Occupies wired other side place := by
  obtain ⟨-, -, latency, a, b, middle, value, attachedA, attachedB, rfl, positive⟩ :=
    attaches_of_link passes
  have sameA := bare_attach attachedA
  have sameB := bare_attach attachedB
  obtain ⟨takenA, keptA⟩ := occupies_attach attachedA
  obtain ⟨takenB, keptB⟩ := occupies_attach attachedB
  refine ⟨sameB.trans sameA, ⟨rfl, ?_, ?_, positive⟩, ?_, ?_, fun other side place held =>
    keptB other side place (keptA other side place held)⟩
  · rw [value]
    rfl
  · intro side
    cases side with
    | a => exact (located_attach attachedA).of_bare (sameB.trans sameA)
    | b => exact (located_attach attachedB).of_bare sameB
  · intro links count attached
    have there : (links ++ [(⟨spec.name, latency, a, b⟩ : Link)])[before.length]? =
        some ⟨spec.name, latency, a, b⟩ := by
      rw [← count, List.getElem?_concat_length]
    exact ((attached.append _).attach attachedA there rfl).attach attachedB there rfl
  · intro side
    cases side with
    | a => exact keptB _ _ _ takenA
    | b => exact takenB

/-- Links join ends among parts whatever is attached to these. -/
theorem Joins.of_bare {parts others : Parts C} {spec : LinkSpec} {joined : Link}
    (joins : Joins parts spec joined) (same : others.map bare = parts.map bare) :
    Joins others spec joined :=
  ⟨joins.name, joins.latency, fun side => (joins.located side).of_bare same, joins.positive⟩

/-- Links that pass the check behind others join ports, and are attached to them. -/
theorem linksBehind_ok {before specs : List LinkSpec} {parts wired : Parts C} {links : List Link}
    (passes : linksBehind before specs parts = .ok (links, wired)) :
    wired.map bare = parts.map bare ∧ List.Forall₂ (Joins wired) specs links ∧
      (∀ former : List Link, former.length = before.length → Attached former parts →
        Attached (former ++ links) wired) ∧
      (∀ position joined, links[position]? = some joined →
        ∀ side, Occupies wired (before.length + position) side (joined.endAt side)) ∧
      ∀ other side place, Occupies parts other side place → Occupies wired other side place := by
  induction specs generalizing before parts wired links with
  | nil =>
    cases passes
    refine ⟨rfl, .nil, fun former count attached => ?_, fun position joined there => ?_,
      fun other side place held => held⟩
    · rw [List.append_nil]
      exact attached
    · cases there
  | cons spec rest ih =>
    simp only [linksBehind, bind, Except.bind] at passes
    cases first : link before spec parts with
    | error problem =>
      rw [first] at passes
      cases passes
    | ok checked =>
      obtain ⟨joined, middle⟩ := checked
      simp only [first] at passes
      cases behind : linksBehind (spec :: before) rest middle with
      | error problem =>
        rw [behind] at passes
        cases passes
      | ok others =>
        obtain ⟨more, last⟩ := others
        simp only [behind] at passes
        cases passes
        obtain ⟨sameFirst, joins, attaches, taken, kept⟩ := link_ok first
        obtain ⟨sameRest, joined, attachesRest, takenRest, keptRest⟩ := ih behind
        refine ⟨sameRest.trans sameFirst, .cons (joins.of_bare sameRest) joined, ?_, ?_,
          fun other side place held => keptRest other side place (kept other side place held)⟩
        · intro former count attached
          rw [List.append_cons]
          refine attachesRest _ ?_ (attaches former count attached)
          rw [List.length_append, List.length_singleton, List.length_cons, count]
        · intro position link there side
          cases position with
          | zero =>
            cases there
            exact keptRest _ _ _ (taken side)
          | succ position =>
            have later := takenRest position link there side
            rwa [List.length_cons, Nat.add_right_comm, Nat.add_assoc] at later

/-- What a checked topology tells about its parts and links. -/
structure Follows (registry : Registry C) (topology : Topology) (assembly : Assembly C) :
    Prop where
  /-- Different components have different names. -/
  distinct : topology.components.Pairwise fun first second => first.name ≠ second.name
  /-- Each part is described by the component of its position. -/
  described : List.Forall₂ (Describes registry) topology.components assembly.parts.toList
  /-- Each link is described by the link of its position. -/
  joined : List.Forall₂ (Joins assembly.parts) topology.links assembly.links.toList
  /-- What is attached to a port is the end of a link that is there. -/
  attached : Attached assembly.links.toList assembly.parts
  /-- The ends of a link take their ports. -/
  occupied : ∀ position joined, assembly.links.toList[position]? = some joined →
    ∀ side, Occupies assembly.parts position side (joined.endAt side)

/-- A topology that passes the check is followed. -/
theorem follows_of_ofTopology {topology : Topology} {assembly : Assembly C}
    (passes : ofTopology registry topology = .ok assembly) :
    Follows registry topology assembly := by
  simp only [ofTopology, bind, Except.bind, pure, Except.pure] at passes
  cases components : partsBehind registry [] topology.components with
  | error problem =>
    rw [components] at passes
    cases passes
  | ok parts =>
    simp only [components] at passes
    cases behind : linksBehind [] topology.links parts.toArray with
    | error problem =>
      rw [behind] at passes
      cases passes
    | ok wired =>
      obtain ⟨links, wired⟩ := wired
      simp only [behind] at passes
      cases passes
      obtain ⟨distinct, -, described, blank⟩ := partsBehind_ok components
      obtain ⟨same, joined, attaches, taken, -⟩ := linksBehind_ok behind
      have bared : wired.toList.map bare = parts.map bare := by
        rw [← Array.toList_map, same, Array.toList_map]
      refine ⟨distinct, ?_, joined, ?_, fun position joined there side => ?_⟩
      · have plain : List.Forall₂ (Describes registry) topology.components (parts.map bare) :=
          List.forall₂_map_right_iff.mpr
            (described.imp fun _ _ describes =>
              ⟨describes.name, describes.rank, describes.type, describes.params⟩)
        rw [← bared, List.forall₂_map_right_iff] at plain
        exact plain.imp fun _ _ describes =>
          ⟨describes.name, describes.rank, describes.type, describes.params⟩
      · refine attaches [] rfl fun id part found port link side wired => ?_
        rw [List.getElem?_toArray] at found
        rw [blank part (List.mem_of_getElem? found)] at wired
        cases wired
      · have held := taken position joined there side
        rwa [List.length_nil, Nat.zero_add] at held

/-- No two ends of links are at one port. -/
theorem Follows.end_unique {topology : Topology} {assembly : Assembly C}
    (follows : Follows registry topology assembly) {first second : LinkId} {joined other : Link}
    (here : assembly.links.toList[first]? = some joined)
    (there : assembly.links.toList[second]? = some other) {side otherSide : Side}
    (component : (joined.endAt side).component = (other.endAt otherSide).component)
    (port : (joined.endAt side).port = (other.endAt otherSide).port) :
    first = second ∧ side = otherSide := by
  obtain ⟨part, found, taken⟩ := follows.occupied first joined here side
  obtain ⟨holder, present, held⟩ := follows.occupied second other there otherSide
  rw [component, present, Option.some.injEq] at found
  rw [← found, port, held, Option.some.injEq, Prod.mk.injEq] at taken
  exact ⟨taken.1.symm, taken.2.symm⟩

end Assembly

variable {C : Type} {registry : Registry C} {topology : Topology} {assembly : Assembly C}

/-- Whether an endpoint of a topology is a port of the component of a position. -/
structure Topology.Names (registry : Registry C) (topology : Topology) (endpoint : Endpoint)
    (component : ComponentId) (port : PortId) : Prop where
  /-- The component has the name of the endpoint, and its type declares the port. -/
  found : ∃ spec type, topology.components[component]? = some spec ∧
    spec.name = endpoint.component ∧ registry.get? spec.type = some type ∧
    portId? type.ports endpoint.port = some port
  /-- No other component has the name. -/
  unique : ∀ other spec, topology.components[other]? = some spec →
    spec.name = endpoint.component → other = component

/-- An endpoint names one port alone. -/
theorem Topology.Names.eq {endpoint : Endpoint} {component other : ComponentId}
    {port otherPort : PortId} (names : topology.Names registry endpoint component port)
    (also : topology.Names registry endpoint other otherPort) :
    component = other ∧ port = otherPort := by
  obtain ⟨spec, type, there, name, known, declared⟩ := names.found
  obtain ⟨otherSpec, otherType, here, -, otherKnown, otherDeclared⟩ := also.found
  obtain rfl : component = other := also.unique component spec there name
  rw [there, Option.some.injEq] at here
  subst here
  rw [known, Option.some.injEq] at otherKnown
  subst otherKnown
  exact ⟨rfl, Option.some.inj (declared.symm.trans otherDeclared)⟩

/-- Where the messages from one side of a link come from and go to, and how long they take. -/
structure Route where
  /-- The sending component. -/
  sender : ComponentId
  /-- The port that it sends on. -/
  leaving : PortId
  /-- The receiving component. -/
  receiver : ComponentId
  /-- The port that it receives on. -/
  entering : PortId
  /-- The time that a message takes. -/
  latency : Duration

/-- Whether a route is what the definition of a link says about the messages from a side of it. -/
structure Topology.Routes (registry : Registry C) (topology : Topology) (id : LinkId)
    (spec : LinkSpec) (side : Side) (route : Route) : Prop where
  /-- The endpoint of the side is the port that messages are sent on. -/
  source : topology.Names registry (spec.endAt side) route.sender route.leaving
  /-- The other endpoint is the port that they are received on. -/
  goal : topology.Names registry (spec.endAt side.opposite) route.receiver route.entering
  /-- The latency is the one that is given. -/
  latency : (Duration.ofSeconds spec.latency).toOption = some route.latency
  /-- No other end of a link is at the port that messages are sent on. -/
  only : ∀ other otherSpec otherSide, topology.links[other]? = some otherSpec →
    topology.Names registry (otherSpec.endAt otherSide) route.sender route.leaving →
      other = id ∧ otherSide = side

namespace Assembly

/-- Components of one name are at one position. -/
theorem Follows.position_eq (follows : assembly.Follows registry topology) {id other : ComponentId}
    {spec twin : ComponentSpec} (there : topology.components[id]? = some spec)
    (here : topology.components[other]? = some twin) (same : twin.name = spec.name) : other = id := by
  obtain ⟨inside, rfl⟩ := List.getElem?_eq_some_iff.mp there
  obtain ⟨within, rfl⟩ := List.getElem?_eq_some_iff.mp here
  have distinct := List.pairwise_iff_getElem.mp follows.distinct
  rcases Nat.lt_trichotomy other id with before | equal | behind
  · exact absurd same (distinct _ _ within inside before)
  · exact equal
  · exact absurd same.symm (distinct _ _ inside within behind)

/-- An endpoint names the port at the end of a link that is located by it. -/
theorem Follows.names (follows : assembly.Follows registry topology) {endpoint : Endpoint}
    {place : LinkEnd} (located : Located assembly.parts endpoint place) :
    topology.Names registry endpoint place.component place.port := by
  obtain ⟨part, found, name, declared, -⟩ := located.found
  rw [← Array.getElem?_toList] at found
  obtain ⟨spec, there, describes⟩ := related_of_getElem? follows.described found
  have same : spec.name = endpoint.component := describes.name.symm.trans name
  exact ⟨⟨spec, part.type, there, same, describes.type, declared⟩, fun other otherSpec here alike =>
    follows.position_eq there here (alike.trans same.symm)⟩

/-- Both directions of a link are as its definition says. -/
theorem Follows.routes (follows : assembly.Follows registry topology) {id : LinkId}
    {spec : LinkSpec} (there : topology.links[id]? = some spec) (side : Side) :
    ∃ joined, assembly.links[id]? = some joined ∧
      topology.Routes registry id spec side
        ⟨(joined.endAt side).component, (joined.endAt side).port,
          (joined.endAt side.opposite).component, (joined.endAt side.opposite).port,
          joined.latency⟩ := by
  obtain ⟨joined, found, joins⟩ := related_of_getElem? follows.joined.flip there
  have source := follows.names (joins.located side)
  refine ⟨joined, by rwa [Array.getElem?_toList] at found, source,
    follows.names (joins.located side.opposite), joins.latency, ?_⟩
  intro other otherSpec otherSide here names
  obtain ⟨otherJoined, present, otherJoins⟩ := related_of_getElem? follows.joined.flip here
  obtain ⟨component, port⟩ := (follows.names (otherJoins.located otherSide)).eq names
  exact follows.end_unique present found component port

/-- The link of a position that is there is defined. -/
theorem Follows.exists_link (follows : assembly.Follows registry topology) {link : LinkId}
    (known : link < assembly.links.size) : ∃ spec, topology.links[link]? = some spec := by
  obtain ⟨spec, there, -⟩ := related_of_getElem? follows.joined (getElem?_links known)
  exact ⟨spec, there⟩

/-- It takes as long as its definition says. -/
theorem Follows.latency_eq (follows : assembly.Follows registry topology) {link : LinkId}
    {spec : LinkSpec} (there : topology.links[link]? = some spec) :
    Duration.ofSeconds spec.latency = .ok (assembly.links.getD link default).latency := by
  obtain ⟨joined, found, routes⟩ := follows.routes there .a
  have latency := routes.latency
  rw [getD_links found]
  cases takes : Duration.ofSeconds spec.latency with
  | error problem =>
    rw [takes] at latency
    cases latency
  | ok duration =>
    rw [takes] at latency
    exact congrArg _ (Option.some.inj latency)

end Assembly

end Rally
