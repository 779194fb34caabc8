import Mathlib.Data.List.Nodup
import Mathlib.Data.Option.Defs
import Rally.Proofs.Topology.Placing
import Rally.Proofs.Topology.Validity
/-!
# One rank of a topology

The components on one rank, and the links between them, make a topology of their own, in which they follow
each other as before but have other numbers. Where the whole passes the check, so does this part of it; and
where no link leads to another rank, the same is attached to the same ports.
-/

namespace Rally

/-- Where all names are different, members of one name are one. -/
theorem eq_of_name {α : Type} {name : α → String} {members : List α}
    (distinct : members.Pairwise fun first second => name first ≠ name second) {first second : α}
    (here : first ∈ members) (there : second ∈ members) (same : name first = name second) :
    first = second :=
  List.inj_on_of_nodup_map (List.pairwise_map.mpr distinct) here there same

/-- The positions of those members of a list that are kept, in ascending order. -/
def positions {α : Type} (keeps : α → Bool) (members : List α) : List Nat :=
  (List.range members.length).filter fun position => members[position]?.any keeps

section Positions

variable {α β : Type} {keeps : α → Bool} {members : List α}

/-- A position is one of a member that is kept. -/
theorem mem_positions {position : Nat} : position ∈ positions keeps members ↔
    ∃ member, members[position]? = some member ∧ keeps member = true := by
  rw [positions, List.mem_filter, List.mem_range]
  constructor
  · rintro ⟨inside, kept⟩
    rw [List.getElem?_eq_getElem inside] at kept ⊢
    exact ⟨_, rfl, kept⟩
  · rintro ⟨member, there, kept⟩
    refine ⟨(List.getElem?_eq_some_iff.mp there).1, ?_⟩
    rw [there]
    exact kept

/-- No position is there twice. -/
theorem nodup_positions : (positions keeps members).Nodup := List.nodup_range.filter _

/-- Behind another member, positions are greater by one. -/
theorem positions_cons (first : α) : positions keeps (first :: members) =
    (if keeps first then [0] else []) ++ (positions keeps members).map Nat.succ := by
  have behind : ((List.range members.length).map Nat.succ).filter
      (fun position => (first :: members)[position]?.any keeps) =
        (positions keeps members).map Nat.succ := by
    rw [List.filter_map]
    rfl
  rw [positions, List.length_cons, List.range_succ_eq_map, List.filter_cons, behind]
  cases kept : keeps first <;> simp only [List.getElem?_cons_zero, Option.any_some, kept] <;> rfl

/-- A member that is kept is the one of its position. -/
theorem getElem?_filter (index : Nat) : (members.filter keeps)[index]? =
    (positions keeps members)[index]?.bind fun position => members[position]? := by
  induction members generalizing index with
  | nil => rfl
  | cons first rest ih =>
    rw [positions_cons, List.filter_cons]
    split
    · cases index with
      | zero => rfl
      | succ index =>
        rw [List.getElem?_cons_succ, ih, List.singleton_append, List.getElem?_cons_succ,
          List.getElem?_map]
        cases (positions keeps rest)[index]? <;> rfl
    · rw [ih, List.nil_append, List.getElem?_map]
      cases (positions keeps rest)[index]? <;> rfl

/-- The member of a position that is kept is among those that are. -/
theorem getElem?_of_positions {index position : Nat}
    (there : (positions keeps members)[index]? = some position) :
    ∃ member, members[position]? = some member ∧ (members.filter keeps)[index]? = some member ∧
      keeps member = true := by
  obtain ⟨member, found, kept⟩ := mem_positions.mp (List.mem_of_getElem? there)
  refine ⟨member, found, ?_, kept⟩
  rw [getElem?_filter, there]
  exact found

/-- A member that is kept has a position. -/
theorem exists_position {index : Nat} {member : α} (there : (members.filter keeps)[index]? = some member) :
    ∃ position, (positions keeps members)[index]? = some position ∧ members[position]? = some member := by
  rw [getElem?_filter] at there
  exact Option.bind_eq_some_iff.mp there

/-- There are as many positions as members that are kept. -/
theorem length_positions : (positions keeps members).length = (members.filter keeps).length := by
  refine Nat.le_antisymm (Nat.le_of_not_lt fun less => ?_) (Nat.le_of_not_lt fun less => ?_)
  · obtain ⟨member, -, there, -⟩ := getElem?_of_positions (List.getElem?_eq_getElem less)
    exact Nat.lt_irrefl _ (List.getElem?_eq_some_iff.mp there).1
  · obtain ⟨position, there, -⟩ := exists_position (List.getElem?_eq_getElem less)
    exact Nat.lt_irrefl _ (List.getElem?_eq_some_iff.mp there).1

/-- A list that has the members of some positions in their order is what is kept of these members. -/
theorem eq_filter_of_positions {others : List α} (size : others.length = (positions keeps members).length)
    (same : ∀ (index position : Nat), (positions keeps members)[index]? = some position →
      others[index]? = members[position]?) : others = members.filter keeps := by
  refine List.ext_getElem? fun index => ?_
  rw [getElem?_filter]
  cases there : (positions keeps members)[index]? with
  | none => exact List.getElem?_eq_none (size ▸ List.getElem?_eq_none_iff.mp there)
  | some position => exact same index position there

/-- Two lists have what is kept at the same positions, if it is told alike what is. -/
theorem positions_congr {others : List β} {retains : β → Bool}
    (same : members.map keeps = others.map retains) : positions keeps members = positions retains others := by
  have told {γ : Type} (holds : γ → Bool) (list : List γ) :
      positions holds list = positions (fun kept => kept) (list.map holds) := by
    simp only [positions, List.length_map, List.getElem?_map, Option.any_map]
  rw [told, same, ← told]

end Positions

/-- The components and links that get new numbers, in the order of these, each by its old number. -/
structure Numbering where
  /-- The old numbers of the components. -/
  components : List ComponentId
  /-- The old numbers of the links. -/
  links : List LinkId

/-- Whether two ends of links are at one port of one component, by its old number and by its new one. -/
structure LinkEnd.Corresponds (numbers : Numbering) (place other : LinkEnd) : Prop where
  /-- The component is the same. -/
  component : numbers.components[other.component]? = some place.component
  /-- So is the port. -/
  port : place.port = other.port
  /-- So is the rank. -/
  rank : place.rank = other.rank

/-- Whether two links are one link between the same ports. -/
structure Link.Corresponds (numbers : Numbering) (link other : Link) : Prop where
  /-- The name is the same. -/
  name : link.name = other.name
  /-- So is the latency. -/
  latency : link.latency = other.latency
  /-- So are the ends. -/
  ends : ∀ side, (link.endAt side).Corresponds numbers (other.endAt side)

namespace Topology

/-- Whether a component of a name is placed on a rank. -/
def hosts (topology : Topology) (id : RankId) (name : String) : Bool :=
  topology.components.any fun spec => spec.name == name && spec.rank == id

/-- Whether both ends of a link are on a rank. -/
def keeps (topology : Topology) (id : RankId) (link : LinkSpec) : Bool :=
  topology.hosts id link.a.component && topology.hosts id link.b.component

/-- Whether both ends of a link of a name are on a rank. -/
def carries (topology : Topology) (id : RankId) (name : String) : Bool :=
  topology.links.any fun link => link.name == name && topology.keeps id link

/-- The components on a rank and the links between them alone, in the same order. -/
def only (topology : Topology) (id : RankId) : Topology where
  components := topology.components.filter fun spec => spec.rank == id
  links := topology.links.filter (topology.keeps id)

/-- The old numbers of what is on a rank. -/
def numbers (topology : Topology) (id : RankId) : Numbering where
  components := positions (fun spec => spec.rank == id) topology.components
  links := positions (topology.keeps id) topology.links

/-- Whether no link joins components on different ranks. -/
def Unjoined (topology : Topology) : Prop :=
  ∀ link ∈ topology.links, ∀ first ∈ topology.components, ∀ second ∈ topology.components,
    first.name = link.a.component → second.name = link.b.component → first.rank = second.rank

variable {topology : Topology} {id : RankId}

/-- A rank that has a component of a name hosts this. -/
theorem hosts_iff {name : String} :
    topology.hosts id name = true ↔ ∃ spec ∈ topology.components, spec.name = name ∧ spec.rank = id := by
  simp only [hosts, List.any_eq_true, Bool.and_eq_true, beq_iff_eq]

/-- A link is kept where both of its ends are hosted. -/
theorem keeps_iff {link : LinkSpec} :
    topology.keeps id link = true ↔ ∀ side, topology.hosts id (link.endAt side).component = true := by
  rw [keeps, Bool.and_eq_true]
  exact ⟨fun both side => by cases side; exacts [both.1, both.2], fun all => ⟨all .a, all .b⟩⟩

/-- Both ends of a link are on one rank where no link joins two. -/
theorem Unjoined.rank_eq (unjoined : topology.Unjoined) {link : LinkSpec} (inside : link ∈ topology.links)
    {side : Side} {first second : ComponentSpec} (here : first ∈ topology.components)
    (there : second ∈ topology.components) (name : first.name = (link.endAt side).component)
    (called : second.name = (link.endAt side.opposite).component) : first.rank = second.rank := by
  cases side with
  | a => exact unjoined link inside first here second there name called
  | b => exact (unjoined link inside second there first here called name).symm

/-- A rank hosts those components that are placed there. -/
theorem hosts_name (distinct : topology.components.Pairwise fun first second => first.name ≠ second.name)
    {spec : ComponentSpec} (inside : spec ∈ topology.components) :
    topology.hosts id spec.name = (spec.rank == id) := by
  rw [Bool.eq_iff_iff, hosts_iff, beq_iff_eq]
  constructor
  · rintro ⟨other, among, name, here⟩
    rwa [← eq_of_name distinct among inside name]
  · exact fun here => ⟨spec, inside, rfl, here⟩

/-- It carries those links that are kept there. -/
theorem carries_name (distinct : topology.links.Pairwise fun first second => first.name ≠ second.name)
    {link : LinkSpec} (inside : link ∈ topology.links) :
    topology.carries id link.name = topology.keeps id link := by
  rw [Bool.eq_iff_iff, carries]
  simp only [List.any_eq_true, Bool.and_eq_true, beq_iff_eq]
  constructor
  · rintro ⟨other, among, name, kept⟩
    rwa [← eq_of_name distinct among inside name]
  · exact fun kept => ⟨link, inside, rfl, kept⟩

/-- A link is kept on one rank alone. -/
theorem eq_of_keeps (distinct : topology.components.Pairwise fun first second => first.name ≠ second.name)
    {link : LinkSpec} {other : RankId} (here : topology.keeps id link = true)
    (there : topology.keeps other link = true) : id = other := by
  obtain ⟨first, inside, name, rfl⟩ := hosts_iff.mp (keeps_iff.mp here .a)
  obtain ⟨second, among, called, rfl⟩ := hosts_iff.mp (keeps_iff.mp there .a)
  rw [eq_of_name distinct inside among (name.trans called.symm)]

variable {C : Type} {registry : Registry C}

/-- Each rank of a valid topology is valid alone. -/
theorem Valid.only (valid : topology.Valid registry) (id : RankId) :
    (topology.only id).Valid registry where
  components := valid.components.filter _
  types spec inside := valid.types spec (List.mem_filter.mp inside).1
  params spec inside := valid.params spec (List.mem_filter.mp inside).1
  links := valid.links.filter _
  latencies link inside := valid.latencies link (List.mem_filter.mp inside).1
  differ link inside := valid.differ link (List.mem_filter.mp inside).1
  known link inside side := by
    obtain ⟨among, kept⟩ := List.mem_filter.mp inside
    obtain ⟨spec, present, name, known⟩ := valid.known link among side
    obtain ⟨other, there, called, rank⟩ := hosts_iff.mp (keeps_iff.mp kept side)
    obtain rfl := eq_of_name valid.components present there (name.trans called.symm)
    exact ⟨spec, List.mem_filter.mpr ⟨present, beq_iff_eq.mpr rank⟩, name, known⟩
  apart i j first second here there side other same := by
    obtain ⟨position, one, found⟩ := exists_position here
    obtain ⟨place, two, present⟩ := exists_position there
    obtain ⟨rfl, sides⟩ := valid.apart position place first second found present side other same
    have inside := (List.getElem?_eq_some_iff.mp one).1
    exact ⟨(List.getElem?_inj inside nodup_positions).mp (one.trans two.symm), sides⟩
  positive link inside first here second there :=
    valid.positive link (List.mem_filter.mp inside).1 first (List.mem_filter.mp here).1 second
      (List.mem_filter.mp there).1

end Topology

/-- Whether two parts are one, with the same links attached to it. -/
structure Part.Corresponds {C : Type} (numbers : Numbering) (part other : Part C) : Prop where
  /-- The name is the same. -/
  name : part.name = other.name
  /-- So is the rank. -/
  rank : part.rank = other.rank
  /-- So is the type. -/
  type : part.type = other.type
  /-- So are the parameters. -/
  params : part.params = other.params
  /-- So are the ends of links that are attached to each port. -/
  wires : ∀ port, Option.Rel (fun wire also => numbers.links[also.1]? = some wire.1 ∧ wire.2 = also.2)
    (part.wiring.lookup port) (other.wiring.lookup port)

namespace Assembly

variable {C : Type} {registry : Registry C} {topology : Topology} {id : RankId} {assembly alone : Assembly C}
  (follows : assembly.Follows registry topology)

include follows

/-- A port that an endpoint names on a rank alone is the one that it names in the whole. -/
theorem Follows.names_of_only {endpoint : Endpoint} {component : ComponentId} {port : PortId}
    (names : (topology.only id).Names registry endpoint component port) :
    ∃ position, (topology.numbers id).components[component]? = some position ∧
      topology.Names registry endpoint position port := by
  obtain ⟨spec, type, there, name, known, declared⟩ := names.found
  obtain ⟨position, numbered, found⟩ := exists_position there
  exact ⟨position, numbered, ⟨spec, type, found, name, known, declared⟩, fun other twin here called =>
    follows.position_eq found here (called.trans name.symm)⟩

/-- Where no link leads to another rank, all links that are attached to the components of a rank are its
own. -/
theorem Follows.exists_number (unjoined : topology.Unjoined) {component position : ComponentId}
    (there : (topology.numbers id).components[component]? = some position) {link : LinkId} {side : Side}
    (known : link < assembly.links.size)
    (ends : ((assembly.links.getD link default).endAt side).component = position) :
    ∃ number : LinkId, (topology.numbers id).links[number]? = some link := by
  obtain ⟨host, found, -, rank⟩ := getElem?_of_positions there
  obtain ⟨spec, defined, joins⟩ := related_of_getElem? follows.joined (getElem?_links known)
  have owner (turn : Side) : ∃ holder ∈ topology.components,
      topology.components[((assembly.links.getD link default).endAt turn).component]? = some holder ∧
      holder.name = (spec.endAt turn).component := by
    obtain ⟨holder, -, here, name, -, -⟩ := (follows.names (joins.located turn)).found
    exact ⟨holder, List.mem_of_getElem? here, here, name⟩
  obtain ⟨holder, among, here, name⟩ := owner side
  rw [ends, found, Option.some.injEq] at here
  subst here
  obtain ⟨other, inside, -, called⟩ := owner side.opposite
  have same := unjoined.rank_eq (List.mem_of_getElem? defined) among inside name called
  have hosted : topology.keeps id spec = true := by
    refine Topology.keeps_iff.mpr fun turn => Topology.hosts_iff.mpr ?_
    by_cases near : turn = side
    · exact ⟨host, among, near ▸ name, beq_iff_eq.mp rank⟩
    · rw [Side.eq_opposite near]
      exact ⟨other, inside, called, same ▸ beq_iff_eq.mp rank⟩
  exact List.mem_iff_getElem?.mp (mem_positions.mpr ⟨spec, defined, hosted⟩)

variable (single : alone.Follows registry (topology.only id))

include single

/-- The links of a rank alone are those of the whole that are on it. -/
theorem Follows.corresponds_link {number position : LinkId}
    (there : (topology.numbers id).links[number]? = some position) :
    (assembly.links.getD position default).Corresponds (topology.numbers id)
        (alone.links.getD number default) ∧ position < assembly.links.size ∧ number < alone.links.size ∧
      ∀ side, ((assembly.links.getD position default).endAt side).rank = id := by
  obtain ⟨spec, found, kept, hosted⟩ := getElem?_of_positions there
  obtain ⟨joined, known, joins⟩ := related_of_getElem? follows.joined.flip found
  obtain ⟨twin, also, meets⟩ := related_of_getElem? single.joined.flip kept
  rw [Array.getElem?_toList] at known also
  rw [getD_links known, getD_links also]
  have rank (side : Side) : (joined.endAt side).rank = id ∧ (twin.endAt side).rank = id := by
    obtain ⟨host, among, name, here⟩ := Topology.hosts_iff.mp (Topology.keeps_iff.mp hosted side)
    have own : host ∈ (topology.only id).components := List.mem_filter.mpr ⟨among, beq_iff_eq.mpr here⟩
    exact ⟨(follows.rank_of_located (joins.located side) among name).trans here,
      (single.rank_of_located (meets.located side) own name).trans here⟩
  refine ⟨⟨joins.name.trans meets.name.symm,
    Option.some.inj (joins.latency.symm.trans meets.latency), fun side => ?_⟩,
    (Array.getElem?_eq_some_iff.mp known).1, (Array.getElem?_eq_some_iff.mp also).1, fun side => (rank side).1⟩
  obtain ⟨place, numbered, names⟩ := follows.names_of_only (single.names (meets.located side))
  obtain ⟨component, port⟩ := names.eq (follows.names (joins.located side))
  exact ⟨component ▸ numbered, port.symm, (rank side).1.trans (rank side).2.symm⟩

/-- The components of a rank alone are those of the whole that are on it, and where no link leads to another
rank, the same links are attached to them. -/
theorem Follows.corresponds_part (unjoined : topology.Unjoined) {component position : ComponentId}
    (there : (topology.numbers id).components[component]? = some position) :
    ∃ part twin, assembly.parts[position]? = some part ∧ alone.parts[component]? = some twin ∧
      part.Corresponds (topology.numbers id) twin ∧ part.rank = id := by
  obtain ⟨spec, found, kept, rank⟩ := getElem?_of_positions there
  obtain ⟨part, known, describes⟩ := related_of_getElem? follows.described.flip found
  obtain ⟨twin, also, depicts⟩ := related_of_getElem? single.described.flip kept
  rw [Array.getElem?_toList] at known also
  have wires (port : PortId) : Option.Rel
      (fun wire also => (topology.numbers id).links[also.1]? = some wire.1 ∧ wire.2 = also.2)
      (part.wiring.lookup port) (twin.wiring.lookup port) := by
    -- A link end at the port alone is one in the whole, and the other way round.
    have forth {number link : LinkId} {side : Side}
        (numbered : (topology.numbers id).links[number]? = some link) :
        part.wiring.lookup port = some (link, side) ↔ twin.wiring.lookup port = some (number, side) := by
      obtain ⟨corresponds, inside, within, -⟩ := follows.corresponds_link single numbered
      have ends := corresponds.ends side
      have here : ((assembly.links.getD link default).endAt side).component = position ↔
          ((alone.links.getD number default).endAt side).component = component := by
        constructor
        · intro same
          have one := (List.getElem?_eq_some_iff.mp there).1
          exact ((List.getElem?_inj one nodup_positions).mp
            (there.trans ((congrArg some same.symm).trans ends.component.symm))).symm
        · intro same
          have two := ends.component
          rw [same, there] at two
          exact (Option.some.inj two).symm
      rw [follows.lookup_iff known, single.lookup_iff also, here, ends.port]
      exact and_congr_left fun _ => ⟨fun _ => within, fun _ => inside⟩
    cases attached : part.wiring.lookup port with
    | some wire =>
      obtain ⟨link, side⟩ := wire
      obtain ⟨size, ends, -⟩ := (follows.lookup_iff known).mp attached
      obtain ⟨number, numbered⟩ := follows.exists_number unjoined there size ends
      rw [(forth numbered).mp attached]
      exact .some ⟨numbered, rfl⟩
    | none =>
      cases held : twin.wiring.lookup port with
      | none => exact .none
      | some wire =>
        obtain ⟨number, side⟩ := wire
        have size : number < (topology.numbers id).links.length := by
          refine Nat.lt_of_lt_of_eq ((single.lookup_iff also).mp held).1 ?_
          rw [Topology.numbers, length_positions]
          exact single.joined.length_eq.symm
        rw [(forth (List.getElem?_eq_getElem size)).mpr held] at attached
        cases attached
  exact ⟨part, twin, known, also, ⟨describes.name.trans depicts.name.symm,
    describes.rank.trans depicts.rank.symm, Option.some.inj (describes.type.symm.trans depicts.type),
    Except.ok.inj (describes.params.symm.trans depicts.params), wires⟩,
    describes.rank.trans (beq_iff_eq.mp rank)⟩

end Assembly

end Rally
