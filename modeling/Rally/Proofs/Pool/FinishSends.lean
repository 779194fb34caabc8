import Rally.Proofs.Pool.Partition
/-!
# What finish hooks send

Behind the last event nobody delivers messages any more, and what finish hooks send is discarded. So it does
not matter what this is, whether it goes to a link or to a port that is not configured: a run prints and tells
the same, and only its log lines count the messages. A report tells of events and links what the ranks were
when their loops stopped.
-/

namespace Rally

/-- The same components, with finish hooks that send something else. -/
@[reducible]
def Component.parting {C : Type} [Component C] (talk : C → Context → List (PortId × Message)) :
    Component C where
  setup := Component.setup
  handle := Component.handle
  finish component context :=
    { Component.finish component context with sends := talk component context }

/-- What is made of two results that are seen alike is the same, if it depends on what is seen alone. -/
theorem map_eq_of_map_eq {α β γ : Type} {see : α → β} {make : α → γ} {x y : Option α}
    (same : x.map see = y.map see) (follows : ∀ a b, see a = see b → make a = make b) :
    x.map make = y.map make := by
  cases x with
  | none =>
    cases y with
    | none => rfl
    | some b => cases same
  | some a =>
    cases y with
    | none => cases same
    | some b => exact congrArg some (follows a b (Option.some.inj same))

variable {C : Type} [Component C] {talk : C → Context → List (PortId × Message)}

namespace Rank

/-- What finish hooks send means nothing for the setup hooks. -/
theorem start_parting (rank : Rank C) : @start C (.parting talk) rank = rank.start := by
  have all (ids : List ComponentId) (rank : Rank C) :
      @setupAll C (.parting talk) ids rank = setupAll ids rank := by
    induction ids generalizing rank with
    | nil => rfl
    | cons id rest ih =>
      have here : @setup C (.parting talk) id rank = setup id rank := rfl
      simp only [setupAll, here, ih]
  exact all _ _

/-- It means nothing for the messages that are dispatched. -/
theorem dispatchUntil_parting (bound : Option Instant) (byVote : Bool) (fuel : Nat) (rank : Rank C) :
    @dispatchUntil C (.parting talk) bound byVote fuel rank = dispatchUntil bound byVote fuel rank := by
  induction fuel generalizing rank with
  | zero => rfl
  | succ fuel ih =>
    have here (event : Scheduled Delivery) (rank : Rank C) :
        @dispatch C (.parting talk) event rank = dispatch event rank := rfl
    simp only [dispatchUntil, here, ih]

/-- Behind a finish hook, ranks differ in log lines alone, whatever it sends. -/
theorem finishOne_parting (id : ComponentId) {rank other : Rank C} (same : rank.muted = other.muted) :
    (@finishOne C (.parting talk) id rank).1.muted = (finishOne id other).1.muted ∧
      (@finishOne C (.parting talk) id rank).2 = (finishOne id other).2 := by
  have alike : other = { rank with journal := other.journal } := by
    cases rank
    cases other
    cases same
    rfl
  generalize other.journal = journal at alike
  subst alike
  have slots : slot? { rank with journal } id = rank.slot? id := rfl
  simp only [finishOne, slots]
  cases rank.slot? id with
  | none => exact ⟨rfl, rfl⟩
  | some slot =>
    have answer : Component.finish slot.component (context { rank with journal } slot) =
        Component.finish slot.component (rank.context slot) := rfl
    simp only [answer]
    cases (Component.finish slot.component (rank.context slot)).outcome with
    | panicked panic => exact ⟨rfl, rfl⟩
    | completed | violated =>
      dsimp only
      split <;> split <;> exact ⟨rfl, rfl⟩

/-- Behind all finish hooks they do so as well. -/
theorem finish_parting {rank other : Rank C} (same : rank.muted = other.muted) :
    (@finish C (.parting talk) rank).1.muted = other.finish.1.muted ∧
      (@finish C (.parting talk) rank).2 = other.finish.2 := by
  have places : rank.slots.size = other.slots.size :=
    congrArg (fun rank => rank.slots.size) same
  simp only [finish, places]
  clear places
  generalize List.range other.slots.size = ids
  induction ids generalizing rank other with
  | nil => exact ⟨same, rfl⟩
  | cons id rest ih =>
    have here := @finishOne_parting _ _ talk id rank other same
    simp only [finishAll]
    cases first : @finishOne C (.parting talk) id rank with
    | mk middle halt =>
      cases second : finishOne id other with
      | mk further result =>
        rw [first, second] at here
        obtain ⟨ranks, rfl⟩ := here
        cases halt with
        | none => exact ih ranks
        | some halt => exact ⟨ranks, rfl⟩

end Rank

namespace Worker

/-- What finish hooks send means nothing for the windows of a rank. -/
theorem advance_parting (fuel : Nat) (start : Instant) (bound : Option Instant) (byVote : Bool)
    (worker : Worker C) : @advance C (.parting talk) fuel start bound byVote worker =
      worker.advance fuel start bound byVote := by
  simp only [advance, Rank.dispatchUntil_parting]

/-- Behind its last window, finish hooks change nothing of a rank but components, votes and log lines. -/
theorem finishes_finish (windows : Nat) (reason : Termination) (worker : Worker C) :
    worker.rank.Finishes (worker.finish windows reason).1.rank := by
  have noted : worker.rank.Finishes (worker.note .debug
      ["stopping after ", toString windows, " windows: ", reason.message]).rank := rfl
  have finishes := noted.trans (Rank.finishes_finish _)
  rw [finish]
  split
  all_goals
    next called =>
      rw [called] at finishes
      exact finishes

/-- Behind the end of its run, a rank differs in log lines alone, and ends alike. -/
theorem conclude_parting (decision : Decision) (windows : Nat) (worker : Worker C) :
    (@Windows.conclude C (.parting talk) decision windows worker).1.rank.muted =
        (Windows.conclude decision windows worker).1.rank.muted ∧
      (@Windows.conclude C (.parting talk) decision windows worker).2 =
        (Windows.conclude decision windows worker).2 := by
  cases decision with
  | proceed | abort => exact ⟨rfl, rfl⟩
  | stop reason =>
    simp only [Windows.conclude, finish]
    generalize (worker.note .debug
      ["stopping after ", toString windows, " windows: ", reason.message]) = noted
    have here := @Rank.finish_parting _ _ talk noted.rank noted.rank rfl
    cases first : @Rank.finish C (.parting talk) noted.rank with
    | mk rank halt =>
      cases second : noted.rank.finish with
      | mk other result =>
        rw [first, second] at here
        obtain ⟨ranks, rfl⟩ := here
        cases halt with
        | none => exact ⟨ranks, rfl⟩
        | some halt =>
          have same : rank.muted.id = other.muted.id := congrArg Rank.id ranks
          exact ⟨ranks, congrArg (fun id => Except.error (errorOf id halt)) same⟩

end Worker

namespace Windows

/-- What finish hooks send means nothing for the windows of all ranks. -/
theorem run_parting (lookahead : Option Duration) (fuel round : Nat) (start : Instant)
    (workers : List (Worker C)) : @run C (.parting talk) lookahead fuel round start workers =
      run lookahead fuel round start workers := by
  have here (fuel : Nat) (start : Instant) (bound : Option Instant) (byVote : Bool) :
      @Worker.advance C (.parting talk) fuel start bound byVote =
        Worker.advance fuel start bound byVote :=
    funext fun worker => Worker.advance_parting fuel start bound byVote worker
  induction fuel generalizing round start workers with
  | zero => rfl
  | succ fuel ih => simp only [run, window, here, ih]

end Windows

namespace Simulation

/-- What finish hooks send means nothing for how a single rank ends, but for log lines. -/
theorem runSingle_parting (fuel : Nat) (rank : Rank C) :
    (@runSingle C (.parting talk) fuel rank).map (Prod.map Rank.muted id) =
      (runSingle fuel rank).map (Prod.map Rank.muted id) := by
  simp only [runSingle, Rank.start_parting, Rank.dispatchUntil_parting]
  cases rank.start with
  | mk begun halt =>
    cases halt with
    | some halt => rfl
    | none =>
      dsimp only
      cases begun.dispatchUntil none true fuel with
      | none => rfl
      | some stopped =>
        obtain ⟨rank, ending⟩ := stopped
        cases ending with
        | error halt => rfl
        | ok stop =>
          have here := @Rank.finish_parting _ _ talk rank rank rfl
          dsimp only
          cases first : @Rank.finish C (.parting talk) rank with
          | mk last halt =>
            cases second : rank.finish with
            | mk other result =>
              rw [first, second] at here
              obtain ⟨ranks, rfl⟩ := here
              cases halt <;> simp only [Option.map_some, Prod.map_apply, ranks]

/-- Nor for how several ranks end. -/
theorem runWindows_parting (fuel : Nat) (lookahead : Option Duration) (ranks : List (Rank C)) :
    (@runWindows C (.parting talk) fuel lookahead ranks).map (Prod.map (List.map Rank.muted) id) =
      (runWindows fuel lookahead ranks).map (Prod.map (List.map Rank.muted) id) := by
  have begun : @Worker.ofRank C (.parting talk) = Worker.ofRank := by
    funext rank
    simp only [Worker.ofRank, Rank.start_parting]
  simp only [runWindows, Windows.run_parting, begun]
  cases Windows.run lookahead fuel 0 Instant.zero (ranks.map Worker.ofRank) with
  | none => rfl
  | some settled =>
    obtain ⟨workers, decision, windows⟩ := settled
    have here (worker : Worker C) := @Worker.conclude_parting _ _ talk decision windows worker
    simp only [Option.map_some, Prod.map_apply, List.map_map, id_eq]
    congr 2
    · exact List.map_congr_left fun worker _ => (here worker).1
    · refine congrArg Windows.verdict (List.map_congr_left fun worker _ => ?_)
      exact (here worker).2

/-- What finish hooks send means nothing for what a run prints and tells, but for its log lines. -/
theorem run_parting (fuel : Nat) (filter : Filter) (clock : Instant) (simulation : Simulation C) :
    (@run C (.parting talk) fuel filter clock simulation).map (fun result => { result with records := [] }) =
      (simulation.run fuel filter clock).map fun result => { result with records := [] } := by
  -- What is seen of a run is what is told of its ranks, whatever their log lines.
  have told {ranks others : List (Rank C)} {reason : Except Halt Termination}
      (same : ranks.map Rank.muted = others.map Rank.muted) :
      (reason.map fun reason => Report.ofRanks reason ranks) =
        reason.map fun reason => Report.ofRanks reason others := by
    cases reason with
    | error halt => rfl
    | ok reason => exact congrArg Except.ok (Report.ofRanks_congr same)
  simp only [run]
  generalize simulation.ranks.map (logged filter) = ranks
  rcases ranks with - | ⟨rank, - | ⟨second, rest⟩⟩
  · rfl
  · simp only [Option.map_map]
    refine map_eq_of_map_eq (runSingle_parting fuel rank) ?_
    rintro ⟨last, ending⟩ ⟨final, other⟩ same
    obtain ⟨muted, rfl⟩ := Prod.mk.inj same
    have now : last.muted.now = final.muted.now := congrArg Rank.now muted
    have report := @told [last] [final] ending (congrArg (fun rank => [rank]) muted)
    have clock : last.now = final.now := now
    simp only [Function.comp_apply, id_eq, report, clock]
  · simp only [Option.map_map]
    refine map_eq_of_map_eq
      (runWindows_parting fuel simulation.lookahead (rank :: second :: rest)) ?_
    rintro ⟨last, ending⟩ ⟨final, other⟩ same
    obtain ⟨muted, rfl⟩ := Prod.mk.inj same
    have report := @told last final (ending.mapError .failed) muted
    simp only [Function.comp_apply, id_eq, report]

/-- The ranks of a run where their loops stop, and why they do. -/
def stopped (fuel : Nat) (filter : Filter) (simulation : Simulation C) :
    Option (List (Rank C) × Termination) :=
  match simulation.ranks.map (logged filter) with
  | [] => some ([], .eventsExhausted)
  | [rank] =>
    match rank.start with
    | (_, some _) => none
    | (rank, none) =>
      match rank.dispatchUntil none true fuel with
      | some (rank, .ok stop) => some ([rank], reasonOf stop)
      | _ => none
  | ranks =>
    match Windows.run simulation.lookahead fuel 0 Instant.zero (ranks.map Worker.ofRank) with
    | some (workers, .stop reason, _) => some (workers.map Worker.rank, reason)
    | _ => none

variable {simulation : Simulation C} {filter : Filter} {fuel : Nat}

/-- The loop of a single rank that comes to a good end stops for the same reason, in front of the finish
hooks. -/
theorem finishes_of_runSingle {rank last : Rank C} {reason : Termination}
    (runs : runSingle fuel rank = some (last, .ok reason)) :
    ∃ begun middle stop, rank.start = (begun, none) ∧
      begun.dispatchUntil none true fuel = some (middle, .ok stop) ∧ reason = reasonOf stop ∧
      middle.Finishes last := by
  cases singly_of_runSingle runs with
  | @finished begun middle last stop started dispatched finished =>
    have finishes := middle.finishes_finish
    rw [finished] at finishes
    exact ⟨begun, middle, stop, started, dispatched, rfl, finishes⟩

/-- So do the loops of several ranks. -/
theorem finishes_of_runWindows {lookahead : Option Duration} {first ranks : List (Rank C)}
    (some : first ≠ []) {reason : Termination}
    (runs : runWindows fuel lookahead first = .some (ranks, .ok reason)) :
    ∃ workers windows, Windows.run lookahead fuel 0 Instant.zero (first.map Worker.ofRank) =
        .some (workers, .stop reason, windows) ∧
      List.Forall₂ Rank.Finishes (workers.map Worker.rank) ranks := by
  obtain ⟨workers, decision, windows, moved, rfl, verdict⟩ := exists_run_of_runWindows runs
  have long : 0 < workers.length := by
    have all := congrArg List.length (Windows.outlines_run moved)
    rw [List.length_map, List.length_map, List.length_map] at all
    rw [all]
    exact List.length_pos_iff.mpr some
  obtain rfl := Windows.stop_of_verdict long verdict.symm
  refine ⟨workers, windows, moved, ?_⟩
  rw [List.map_map, List.forall₂_map_left_iff, List.forall₂_map_right_iff, List.forall₂_same]
  exact fun worker _ => worker.finishes_finish windows reason

/-- Between the stop of the loops and the end of a run, finish hooks change nothing but components, votes and
log lines. -/
theorem finishes_of_behind {ranks : List (Rank C)} {reason : Termination}
    (ended : simulation.behind fuel filter = some (ranks, .ok reason)) :
    ∃ before, simulation.stopped fuel filter = some (before, reason) ∧
      List.Forall₂ Rank.Finishes before ranks := by
  rw [behind] at ended
  rw [stopped]
  generalize simulation.ranks.map (logged filter) = first at ended
  rcases first with - | ⟨rank, - | ⟨second, rest⟩⟩
  · cases ended
    exact ⟨[], rfl, .nil⟩
  · obtain ⟨⟨last, result⟩, alone, same⟩ := Option.map_eq_some_iff.mp ended
    cases same
    obtain ⟨begun, middle, stop, started, dispatched, rfl, finishes⟩ := finishes_of_runSingle alone
    simp only [started, dispatched]
    exact ⟨[middle], rfl, .cons finishes .nil⟩
  · obtain ⟨⟨last, result⟩, among, same⟩ := Option.map_eq_some_iff.mp ended
    cases result with
    | error problem => cases same
    | ok reason =>
      cases same
      obtain ⟨workers, windows, moved, finishes⟩ :=
        finishes_of_runWindows (List.cons_ne_nil _ _) among
      simp only [moved]
      exact ⟨workers.map Worker.rank, rfl, finishes⟩

end Simulation

namespace Report

end Report

end Rally
