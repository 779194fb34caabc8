import Rally.Proofs.Number.Decimals
import Rally.Proofs.Topology.Rings
/-!
# The ready made relays

The stages of a chain are a cycle in their order. So are the players of a ring of pairs, the initiator of
each pair in front of its responder. Their names differ, since they spell the positions.
-/

namespace Rally

/-- One second is a latency. -/
theorem ofSeconds_one : Duration.ofSeconds Binary64.one = .ok { secs := 1, nanos := 0 } := by
  decide +kernel

/-- So are two seconds. -/
theorem ofSeconds_two : Duration.ofSeconds (Binary64.ofNat 2) = .ok { secs := 2, nanos := 0 } := by
  decide +kernel

/-- A role is that of an initiator where its type is. -/
theorem Role.type_eq_initiator {role : Role} :
    role.type = Role.initiator.type ↔ role = .initiator := by
  cases role <;> decide

namespace Topology

/-- The component that is added for a player. -/
def player (name : String) (role : Role) (rank rounds : Nat) : ComponentSpec :=
  ⟨name, role.type, rank, (playerParams role rounds).map fun (key, text) => (key, .string text)⟩

/-- To add a player adds its component. -/
theorem addPlayer_eq (topology : Topology) (name : String) (role : Role) (rank rounds : Nat) :
    topology.addPlayer name role rank rounds =
      ⟨topology.components ++ [player name role rank rounds], topology.links⟩ := by
  cases role <;> rfl

/-- The parameters of a player have texts. -/
theorem paramTexts_player (name : String) (role : Role) (rank rounds : Nat) :
    Assembly.paramTexts (player name role rank rounds) = .ok ⟨name, playerParams role rounds⟩ := by
  cases role <;> rfl

/-- What is added step by step is there behind all steps. -/
theorem foldl_adds {α : Type} {step : Topology → α → Topology} {components : α → List ComponentSpec}
    {links : α → List LinkSpec} (adds : ∀ topology x, step topology x =
      ⟨topology.components ++ components x, topology.links ++ links x⟩) (xs : List α)
    (topology : Topology) : xs.foldl step topology =
      ⟨topology.components ++ xs.flatMap components, topology.links ++ xs.flatMap links⟩ := by
  induction xs generalizing topology with
  | nil => simp only [List.foldl_nil, List.flatMap_nil, List.append_nil]
  | cons x rest ih =>
    rw [List.foldl_cons, ih, adds]
    simp only [List.flatMap_cons, List.append_assoc]

/-- Steps that add nothing add nothing together. -/
theorem flatMap_nothing {α β : Type} (xs : List α) : xs.flatMap (fun _ => ([] : List β)) = [] :=
  List.flatMap_eq_nil_iff.mpr fun _ _ => rfl

section Chain

variable (stages : List (Role × Nat)) (rounds : Nat)

/-- The player at a stage of a chain. -/
def stage (position : Nat) : ComponentSpec :=
  let role := stages.getD position (.responder, 0)
  player (stageName stages position) role.1 role.2 rounds

/-- Different stages have different names. -/
theorem stageName_injective {first second : Nat} (one : first < stages.length)
    (two : second < stages.length) (same : stageName stages first = stageName stages second) :
    first = second := by
  have spelled {position : Nat} (inside : position < stages.length) :
      ∃ label : String, label.toList.length = 4 ∧
        (stageName stages position).toList = label.toList ++ (toString position).toList := by
    refine ⟨stages[position].1.label, ?_, ?_⟩
    · cases stages[position].1 <;> rfl
    · rw [stageName, List.getElem?_eq_getElem inside, Option.map_some, Option.getD_some,
        String.toList_append]
  obtain ⟨former, four, here⟩ := spelled one
  obtain ⟨latter, also, there⟩ := spelled two
  have texts := here.symm.trans ((congrArg String.toList same).trans there)
  obtain ⟨-, digits⟩ := List.append_inj texts (four.trans also.symm)
  exact Integer.toString_injective (String.toList_injective digits)

/-- The stages of a chain. -/
def chain : Cycle where
  count := stages.length
  component := stage stages rounds
  link position := s!"link{position}"
  latency _ := Binary64.one
  distinct _ one _ two same := stageName_injective stages one two same
  named _ _ _ _ same := Integer.toString_injective ((String.append_right_inj _).mp same)

/-- The players of a chain are its stages, in their order. -/
theorem map_stages : stages.zipIdx.map (fun entry => player (stageName stages entry.2) entry.1.1
    entry.1.2 rounds) = (List.range stages.length).map (stage stages rounds) := by
  refine List.ext_getElem? fun position => ?_
  rw [List.getElem?_map, List.getElem?_map, List.getElem?_zipIdx]
  by_cases inside : position < stages.length
  · rw [List.getElem?_range inside, List.getElem?_eq_getElem inside]
    simp only [Option.map_some, stage, List.getD, List.getElem?_eq_getElem inside,
      Option.getD_some, Nat.zero_add]
  · rw [List.getElem?_eq_none (not_lt.mp inside), List.getElem?_eq_none
      (List.length_range.le.trans (not_lt.mp inside))]
    rfl

/-- A chain consists of its stages and a link behind each of them. -/
theorem relayChain_eq : relayChain stages rounds =
    ⟨(List.range stages.length).map (stage stages rounds),
      (List.range stages.length).map (chain stages rounds).joint⟩ := by
  have players (topology : Topology) (entry : (Role × Nat) × Nat) :
      topology.addPlayer (stageName stages entry.2) entry.1.1 entry.1.2 rounds =
        ⟨topology.components ++ [player (stageName stages entry.2) entry.1.1 entry.1.2 rounds],
          topology.links ++ []⟩ := by
    rw [addPlayer_eq, List.append_nil]
  have links (topology : Topology) (position : Nat) :
      topology.addLink s!"link{position}" Binary64.one ⟨stageName stages position, "output"⟩
          ⟨stageName stages ((position + 1) % stages.length), "input"⟩ =
        ⟨topology.components ++ [], topology.links ++ [(chain stages rounds).joint position]⟩ := by
    rw [List.append_nil]
    rfl
  refine (foldl_adds links _ _).trans ?_
  rw [show stages.zipIdx.foldl _ ({} : Topology) = _ from foldl_adds players _ _, ← map_stages,
    List.map_eq_flatMap, List.map_eq_flatMap]
  simp only [List.nil_append, flatMap_nothing, List.append_nil]

/-- The stages of a chain are a cycle. -/
theorem describes_relayChain : (chain stages rounds).Describes (relayChain stages rounds) := by
  rw [relayChain_eq]
  exact ⟨rfl, List.Perm.refl _⟩

end Chain

section Ring

variable (count rounds : Nat)

/-- The player of a position of a ring of pairs: at even ones are initiators. -/
def pairPlayer (position : Nat) : ComponentSpec :=
  if position % 2 = 0 then
    player (ringPing (position / 2)) .initiator (position / 2) rounds
  else player (ringPong (position / 2)) .responder (position / 2) rounds

/-- The name of the link behind it. -/
def pairLink (position : Nat) : String :=
  if position % 2 = 0 then s!"PingPong{position / 2}.link" else s!"ring{position / 2}"

/-- The name of an initiator is not that of a responder. -/
theorem ringPing_ne_ringPong (first second : Nat) : ringPing first ≠ ringPong second := by
  intro same
  have texts := congrArg String.toList same
  simp only [ringPing, ringPong, String.toList_append] at texts
  have lengths : ".Ping".toList.length = ".Pong".toList.length := by decide
  exact absurd (List.append_inj' texts lengths).2 (by decide)

/-- The link of a pair has another name than one between pairs. -/
theorem pair_ne_ring (first second : Nat) : s!"PingPong{first}.link" ≠ s!"ring{second}" := by
  intro same
  have initials := congrArg (fun text => text.toList.head?) same
  simp only [String.toList_append, List.append_assoc] at initials
  cases initials

/-- A number that is told by a half and a rest is the same where both are. -/
theorem eq_of_halves {f g : Nat → String} (one : Function.Injective f) (two : Function.Injective g)
    (apart : ∀ first second, f first ≠ g second) {first second : Nat}
    (same : (if first % 2 = 0 then f (first / 2) else g (first / 2)) =
      if second % 2 = 0 then f (second / 2) else g (second / 2)) : first = second := by
  split at same <;> split at same
  · have halves := one same
    omega
  · exact absurd same (apart _ _)
  · exact absurd same.symm (apart _ _)
  · have halves := two same
    omega

/-- The players of a ring of pairs. -/
def pairs : Cycle where
  count := 2 * count
  component := pairPlayer rounds
  link := pairLink
  latency position := if position % 2 = 0 then Binary64.one else Binary64.ofNat 2
  distinct first _ second _ same := by
    refine eq_of_halves (f := ringPing) (g := ringPong) (fun first second same => ?_)
      (fun first second same => ?_) ringPing_ne_ringPong ?_
    · exact Integer.toString_injective
        ((String.append_right_inj _).mp ((String.append_left_inj _).mp same))
    · exact Integer.toString_injective
        ((String.append_right_inj _).mp ((String.append_left_inj _).mp same))
    · rw [pairPlayer, pairPlayer, apply_ite ComponentSpec.name, apply_ite ComponentSpec.name] at same
      exact same
  named first _ second _ same := by
    refine eq_of_halves (fun first second same => ?_) (fun first second same => ?_) pair_ne_ring same
    · exact Integer.toString_injective
        ((String.append_right_inj _).mp ((String.append_left_inj _).mp same))
    · exact Integer.toString_injective ((String.append_right_inj _).mp same)

/-- The even numbers below twice a number and the odd ones are all of them. -/
theorem range_halves (count : Nat) : ((List.range count).map (2 * ·) ++
    (List.range count).map (2 * · + 1)).Perm (List.range (2 * count)) := by
  induction count with
  | zero => exact List.Perm.refl _
  | succ count ih =>
    have even : ((List.range count).map (2 * ·) ++ [2 * count] ++
        (List.range count).map (2 * · + 1)).Perm (List.range (2 * count) ++ [2 * count]) := by
      rw [List.append_assoc]
      refine (List.perm_append_comm.append_left _).trans ?_
      rw [← List.append_assoc]
      exact ih.append_right _
    rw [List.range_succ, List.map_append, List.map_append, Nat.mul_succ, List.range_succ,
      List.range_succ, ← List.append_assoc]
    exact even.append_right _

/-- The players of the pairs are those at even and odd positions. -/
theorem flatMap_pairs {α : Type} (f : Nat → α) (count : Nat) :
    (List.range count).flatMap (fun position => [f (2 * position), f (2 * position + 1)]) =
      (List.range (2 * count)).map f := by
  induction count with
  | zero => rfl
  | succ count ih =>
    rw [List.range_succ, List.flatMap_append, ih, Nat.mul_succ, List.range_succ, List.range_succ,
      List.map_append, List.map_append, List.append_assoc]
    rfl

/-- At even positions are initiators. -/
theorem pairPlayer_even (pair : Nat) :
    pairPlayer rounds (2 * pair) = player (ringPing pair) .initiator pair rounds := by
  rw [pairPlayer, if_pos (Nat.mul_mod_right 2 pair), Nat.mul_div_cancel_left pair (by decide)]

/-- At odd ones are responders. -/
theorem pairPlayer_odd (pair : Nat) :
    pairPlayer rounds (2 * pair + 1) = player (ringPong pair) .responder pair rounds := by
  rw [pairPlayer, if_neg (by omega), show (2 * pair + 1) / 2 = pair by omega]

/-- The link of a pair leads from its initiator to its responder. -/
theorem joint_even {pair : Nat} (inside : pair < count) : (pairs count rounds).joint (2 * pair) =
    ⟨s!"PingPong{pair}.link", Binary64.one, ⟨ringPing pair, "output"⟩,
      ⟨ringPong pair, "input"⟩⟩ := by
  have after : (pairs count rounds).after (2 * pair) = 2 * pair + 1 :=
    Nat.mod_eq_of_lt (show 2 * pair + 1 < 2 * count by omega)
  have even := Nat.mul_mod_right 2 pair
  have half := Nat.mul_div_cancel_left pair (show 0 < 2 by decide)
  rw [Cycle.joint, after]
  simp only [pairs, pairLink, even, half, pairPlayer_even, pairPlayer_odd, if_true]
  rfl

/-- The link between two pairs leads from the responder of one to the initiator of the next one. -/
theorem joint_odd (pair : Nat) : (pairs count rounds).joint (2 * pair + 1) =
    ⟨s!"ring{pair}", Binary64.ofNat 2, ⟨ringPong pair, "output"⟩,
      ⟨ringPing ((pair + 1) % count), "input"⟩⟩ := by
  have after : (pairs count rounds).after (2 * pair + 1) = 2 * ((pair + 1) % count) := by
    rw [← Nat.mul_mod_mul_left]
    rfl
  have odd : ¬ (2 * pair + 1) % 2 = 0 := by omega
  have half : (2 * pair + 1) / 2 = pair := by omega
  rw [Cycle.joint, after]
  simp only [pairs, pairLink, half, pairPlayer_even, pairPlayer_odd, if_neg odd]
  rfl

/-- A ring of pairs consists of its players, the links of all pairs, and those between pairs. -/
theorem relayRing_eq : relayRing count rounds =
    ⟨(List.range (2 * count)).map (pairPlayer rounds),
      (List.range count).map (fun pair => (pairs count rounds).joint (2 * pair)) ++
        (List.range count).map fun pair => (pairs count rounds).joint (2 * pair + 1)⟩ := by
  have couples (topology : Topology) (pair : Nat) :
      (((topology.addPlayer (ringPing pair) .initiator pair rounds).addPlayer (ringPong pair)
          .responder pair rounds).addLink s!"PingPong{pair}.link" Binary64.one
          ⟨ringPing pair, "output"⟩ ⟨ringPong pair, "input"⟩) =
        ⟨topology.components ++ [pairPlayer rounds (2 * pair), pairPlayer rounds (2 * pair + 1)],
          topology.links ++ [⟨s!"PingPong{pair}.link", Binary64.one, ⟨ringPing pair, "output"⟩,
            ⟨ringPong pair, "input"⟩⟩]⟩ := by
    rw [addPlayer_eq, addPlayer_eq, addLink, pairPlayer_even, pairPlayer_odd, List.append_assoc]
    rfl
  have links (topology : Topology) (pair : Nat) :
      topology.addLink s!"ring{pair}" (Binary64.ofNat 2) ⟨ringPong pair, "output"⟩
          ⟨ringPing ((pair + 1) % count), "input"⟩ =
        ⟨topology.components ++ [],
          topology.links ++ [(pairs count rounds).joint (2 * pair + 1)]⟩ := by
    rw [addLink, joint_odd, List.append_nil]
  rw [List.map_congr_left fun pair inside => joint_even count rounds (List.mem_range.mp inside)]
  refine (foldl_adds links _ _).trans ?_
  rw [show (List.range count).foldl _ ({} : Topology) = _ from foldl_adds couples _ _,
    flatMap_pairs]
  simp only [List.nil_append, flatMap_nothing, List.append_nil, List.map_eq_flatMap]

/-- The players of a ring of pairs are a cycle. -/
theorem describes_relayRing : (pairs count rounds).Describes (relayRing count rounds) := by
  rw [relayRing_eq]
  refine ⟨rfl, ?_⟩
  have halves := (range_halves count).map (pairs count rounds).joint
  rw [List.map_append, List.map_map, List.map_map] at halves
  exact halves

end Ring

end Topology

end Rally
