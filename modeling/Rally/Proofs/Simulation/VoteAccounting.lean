import Mathlib.Algebra.Order.BigOperators.Group.Finset
import Rally.Proofs.Pool.ReportSums
import Rally.Proofs.Pool.TallyCounts
/-!
# Accounting for votes

The voters of a run are private to their owners, while the tally of a rank is shared by all voters on it.
Whatever calls the owners make, and in whatever order, each tally counts the voters of its rank that
registered, and those of them that signalled since. No tally counts more voters that are ready than take
part. Hence equal sums over all ranks mean that no voter waits on any of them.
-/

open scoped Finset

namespace Rally

/-- What an owner asks of its voter. -/
inductive Voter.Call where
  /-- To take part. -/
  | register
  /-- To tell that it is ready. -/
  | signal
  deriving DecidableEq

/-- A voter behind a call, and the votes that it casts. -/
def Voter.call (voter : Voter) : Voter.Call → Voter × List Vote
  | .register => voter.register
  | .signal => (voter.signal.1, voter.signal.2.1)

/-- A call turns a voter into the next one, and casts the votes for that. -/
theorem Voter.casts_call (voter : Voter) (call : Voter.Call) :
    voter.Casts (voter.call call).2 (voter.call call).1 := by
  cases call with
  | register =>
    cases voter with
    | unregistered => exact .joins
    | voting => exact .stays .voting
    | ready => exact .stays .ready
  | signal =>
    cases voter with
    | unregistered => exact .stays .unregistered
    | voting => exact .readies
    | ready => exact .stays .ready

/-- Whether a voter cast a vote so far. -/
def Voter.gave (voter : Voter) : Vote → Bool
  | .join => voter.isParticipant
  | .ready => voter.isReady

/-- How often a tally counts a vote. -/
def Tally.number (tally : Tally) : Vote → Nat
  | .join => tally.participants
  | .ready => tally.ready

/-- Votes count one by one. -/
theorem Tally.number_countAll (tally : Tally) (votes : List Vote) (vote : Vote) :
    (tally.countAll votes).number vote = tally.number vote + votes.count vote := by
  cases vote with
  | join => exact tally.participants_countAll votes
  | ready => exact tally.ready_countAll votes

/-- A voter casts each vote at most once, and never takes it back. -/
theorem Voter.Casts.count {voter next : Voter} {votes : List Vote} (casts : voter.Casts votes next)
    (vote : Vote) : votes.count vote + (voter.gave vote).toNat = (next.gave vote).toNat := by
  cases casts with
  | stays => exact Nat.zero_add _
  | joins => cases vote <;> rfl
  | readies => cases vote <;> rfl

/-- A vote that was cast stays so. -/
theorem Voter.Casts.keeps {voter next : Voter} {votes : List Vote} (casts : voter.Casts votes next)
    {vote : Vote} (gave : voter.gave vote = true) : next.gave vote = true := by
  have count := casts.count vote
  rw [gave] at count
  by_contra lost
  rw [Bool.not_eq_true] at lost
  rw [lost, Bool.toNat_true, Bool.toNat_false] at count
  omega

/-- A voter takes part behind a call where it did before or is registered by it, and is ready where it
was before or the call signals for a voter that takes part. -/
theorem Voter.gave_call (voter : Voter) (call : Voter.Call) :
    ((voter.call call).1.gave .join = true ↔ voter.gave .join = true ∨ call = .register) ∧
      ((voter.call call).1.gave .ready = true ↔
        voter.gave .ready = true ∨ voter.gave .join = true ∧ call = .signal) := by
  cases call <;> cases voter <;> decide

/-- Voters on some ranks, and the tallies of these. -/
structure Poll (voters ranks : Nat) where
  /-- The voters. -/
  voters : Fin voters → Voter
  /-- The tally of each rank. -/
  tallies : Fin ranks → Tally

namespace Poll

variable {voters ranks : Nat}

/-- The poll before the first call. -/
def fresh : Poll voters ranks := ⟨fun _ => .unregistered, fun _ => {}⟩

/-- The poll behind a call on a voter, which casts its votes on its own rank. -/
def call (home : Fin voters → Fin ranks) (poll : Poll voters ranks)
    (call : Fin voters × Voter.Call) : Poll voters ranks :=
  let (who, asked) := call
  let (voter, votes) := (poll.voters who).call asked
  { voters := Function.update poll.voters who voter
    tallies := Function.update poll.tallies (home who) ((poll.tallies (home who)).countAll votes) }

/-- The poll behind some calls. -/
def callAll (home : Fin voters → Fin ranks) (poll : Poll voters ranks)
    (calls : List (Fin voters × Voter.Call)) : Poll voters ranks :=
  calls.foldl (Poll.call home) poll

/-- Whether a voter was registered among some calls. -/
def Registered (calls : List (Fin voters × Voter.Call)) (who : Fin voters) : Prop :=
  (who, .register) ∈ calls

/-- Whether a voter signalled among some calls, after it was registered. -/
def Signalled (calls : List (Fin voters × Voter.Call)) (who : Fin voters) : Prop :=
  [(who, .register), (who, .signal)].Sublist calls

instance (calls : List (Fin voters × Voter.Call)) : DecidablePred (Registered calls) := fun who =>
  inferInstanceAs (Decidable ((who, .register) ∈ calls))

instance (calls : List (Fin voters × Voter.Call)) : DecidablePred (Signalled calls) := fun who =>
  inferInstanceAs (Decidable ([(who, .register), (who, .signal)].Sublist calls))

variable {home : Fin voters → Fin ranks} {poll : Poll voters ranks}
  {calls : List (Fin voters × Voter.Call)} {who : Fin voters} {asked : Voter.Call}

/-- A voter that signalled was registered. -/
theorem Signalled.registered (signalled : Signalled calls who) : Registered calls who :=
  signalled.subset List.mem_cons_self

/-- The voter of a call behind it. -/
theorem voters_call_self :
    (poll.call home (who, asked)).voters who = ((poll.voters who).call asked).1 :=
  Function.update_self ..

/-- The voters that a call does not concern stay as they are. -/
theorem voters_call_of_ne {other : Fin voters} (differ : other ≠ who) :
    (poll.call home (who, asked)).voters other = poll.voters other :=
  Function.update_of_ne differ ..

/-- Each voter is turned into the next one by a call on one of them, or stays as it is. -/
theorem casts_voters_call (home : Fin voters → Fin ranks) (poll : Poll voters ranks)
    (who : Fin voters) (asked : Voter.Call) (other : Fin voters) :
    ∃ votes, (poll.voters other).Casts votes ((poll.call home (who, asked)).voters other) := by
  by_cases same : other = who
  · subst same
    rw [voters_call_self]
    exact ⟨_, Voter.casts_call ..⟩
  · rw [voters_call_of_ne same]
    exact ⟨[], .stays _⟩

/-- A vote that was cast stays so behind any further calls. -/
theorem gave_callAll {vote : Vote} (further : List (Fin voters × Voter.Call))
    (gave : (poll.voters who).gave vote = true) :
    ((poll.callAll home further).voters who).gave vote = true := by
  induction further generalizing poll with
  | nil => exact gave
  | cons first rest ih =>
    obtain ⟨votes, casts⟩ := casts_voters_call home poll first.1 first.2 who
    exact ih (casts.keeps gave)

/-- How many voters of a rank cast a vote so far. -/
def givers (home : Fin voters → Fin ranks) (poll : Poll voters ranks) (vote : Vote)
    (rank : Fin ranks) : Nat :=
  #{who | home who = rank ∧ (poll.voters who).gave vote = true}

/-- A call adds its voter to those of the rank that cast a vote where the voter casts it now. -/
theorem givers_call (home : Fin voters → Fin ranks) (poll : Poll voters ranks) (who : Fin voters)
    (asked : Voter.Call) (vote : Vote) (rank : Fin ranks) :
    (poll.call home (who, asked)).givers home vote rank +
        (if home who = rank then ((poll.voters who).gave vote).toNat else 0) =
      poll.givers home vote rank +
        if home who = rank then (((poll.voters who).call asked).1.gave vote).toNat else 0 := by
  have apart (other : Poll voters ranks) : other.givers home vote rank =
      (if home who = rank then ((other.voters who).gave vote).toNat else 0) +
        ∑ some ∈ Finset.univ.erase who,
          if home some = rank ∧ (other.voters some).gave vote = true then 1 else 0 := by
    rw [givers, Finset.card_filter, ← Finset.add_sum_erase _ _ (Finset.mem_univ who)]
    by_cases own : home who = rank <;> cases (other.voters who).gave vote <;> simp [own]
  have same : (∑ some ∈ Finset.univ.erase who,
        if home some = rank ∧ ((poll.call home (who, asked)).voters some).gave vote = true
          then 1 else 0) =
      ∑ some ∈ Finset.univ.erase who,
        if home some = rank ∧ (poll.voters some).gave vote = true then 1 else 0 :=
    Finset.sum_congr rfl fun other inside => by
      rw [voters_call_of_ne (Finset.ne_of_mem_erase inside)]
  rw [apart poll, apart (poll.call home (who, asked)), same, voters_call_self]
  omega

/-- Whether each tally counts the votes that the voters of its rank cast. -/
def Counted (home : Fin voters → Fin ranks) (poll : Poll voters ranks) : Prop :=
  ∀ rank vote, (poll.tallies rank).number vote = poll.givers home vote rank

/-- Before the first call no vote is cast, and none is counted. -/
theorem counted_fresh : (fresh : Poll voters ranks).Counted home := by
  intro rank vote
  have none : ∀ who ∈ Finset.univ, ¬ (home who = rank ∧
      ((fresh : Poll voters ranks).voters who).gave vote = true) := by
    rintro who - ⟨-, gave⟩
    cases vote <;> cases gave
  rw [givers, Finset.filter_false_of_mem none]
  cases vote <;> rfl

/-- Behind a call each tally counts the votes of its rank if it did so before. -/
theorem Counted.call (counted : poll.Counted home) (who : Fin voters) (asked : Voter.Call) :
    (poll.call home (who, asked)).Counted home := by
  intro rank vote
  have moves := givers_call home poll who asked vote rank
  have before := counted rank vote
  by_cases own : home who = rank
  · subst own
    have casts := (Voter.casts_call (poll.voters who) asked).count vote
    rw [if_pos rfl, if_pos rfl] at moves
    have tally : (poll.call home (who, asked)).tallies (home who) =
        (poll.tallies (home who)).countAll ((poll.voters who).call asked).2 :=
      Function.update_self ..
    rw [tally, Tally.number_countAll]
    omega
  · rw [if_neg own, if_neg own] at moves
    have tally : (poll.call home (who, asked)).tallies rank = poll.tallies rank :=
      Function.update_of_ne (Ne.symm own) ..
    rw [tally]
    omega

/-- Behind any calls each tally counts the votes of its rank. -/
theorem counted_callAll (calls : List (Fin voters × Voter.Call)) :
    ((fresh : Poll voters ranks).callAll home calls).Counted home := by
  induction calls using List.reverseRecOn with
  | nil => exact counted_fresh
  | append_singleton former last ih =>
    rw [callAll, List.foldl_append]
    exact ih.call last.1 last.2

/-- Whether a voter has cast a vote behind some calls. -/
def Cast (calls : List (Fin voters × Voter.Call)) (who : Fin voters) : Vote → Prop
  | .join => Registered calls who
  | .ready => Signalled calls who

/-- A call that casts no vote changes nothing. -/
theorem call_eq_self (quiet : (poll.voters who).call asked = (poll.voters who, [])) :
    poll.call home (who, asked) = poll := by
  simp only [Poll.call, quiet, Function.update_eq_self, Tally.countAll, List.foldl_nil]

/-- One more call makes a voter take part where it registers it. -/
theorem registered_concat {other : Fin voters} :
    Registered (calls ++ [(who, asked)]) other ↔
      Registered calls other ∨ other = who ∧ asked = .register := by
  simp [Registered, eq_comm]

/-- One more call makes a voter ready where it signals for one that is registered. -/
theorem signalled_concat {other : Fin voters} :
    Signalled (calls ++ [(who, asked)]) other ↔
      Signalled calls other ∨ Registered calls other ∧ other = who ∧ asked = .signal := by
  rw [Signalled, ← List.reverse_sublist, List.reverse_append, List.reverse_singleton,
    List.singleton_append, List.sublist_cons_iff, List.reverse_sublist]
  refine or_congr Iff.rfl ⟨?_, ?_⟩
  · rintro ⟨rest, same, inside⟩
    cases same
    exact ⟨List.mem_reverse.mp (List.singleton_sublist.mp inside), rfl, rfl⟩
  · rintro ⟨registered, rfl, rfl⟩
    exact ⟨[(other, .register)], rfl, List.singleton_sublist.mpr (List.mem_reverse.mpr registered)⟩

/-- One call more leads to the poll behind it. -/
theorem callAll_concat (calls : List (Fin voters × Voter.Call)) (last : Fin voters × Voter.Call) :
    poll.callAll home (calls ++ [last]) = (poll.callAll home calls).call home last :=
  List.foldl_append ..

/-- Behind any calls a voter takes part where it was registered, and is ready where it signalled after
that. -/
theorem gave_iff_cast (calls : List (Fin voters × Voter.Call)) (who : Fin voters) (vote : Vote) :
    (((fresh : Poll voters ranks).callAll home calls).voters who).gave vote = true ↔
      Cast calls who vote := by
  induction calls using List.reverseRecOn generalizing vote with
  | nil =>
    refine iff_of_false (fun gave => ?_) fun cast => ?_
    · cases vote <;> cases gave
    · cases vote with
      | join => cases cast
      | ready => cases cast.registered
  | append_singleton former last ih =>
    obtain ⟨caller, asked⟩ := last
    rw [callAll_concat]
    by_cases own : who = caller
    · subst own
      rw [voters_call_self]
      obtain ⟨joins, readies⟩ := Voter.gave_call ((callAll home fresh former).voters who) asked
      rw [ih, Cast] at joins
      rw [ih, ih, Cast, Cast] at readies
      cases vote with
      | join =>
        rw [joins, Cast, registered_concat, and_iff_right rfl]
      | ready =>
        rw [readies, Cast, signalled_concat, and_iff_right (rfl : who = who)]
    · rw [voters_call_of_ne own, ih]
      cases vote with
      | join => exact (registered_concat.trans (or_iff_left fun both => own both.1)).symm
      | ready => exact (signalled_concat.trans (or_iff_left fun both => own both.2.1)).symm

/-- Among some voters as many are ready as take part, and some does, where all of these are ready. -/
theorem card_ready_iff (among : Fin voters → Prop) [DecidablePred among] :
    (0 < #{who | among who ∧ (poll.voters who).isParticipant = true} ∧
        #{who | among who ∧ (poll.voters who).isReady = true} =
          #{who | among who ∧ (poll.voters who).isParticipant = true}) ↔
      (∃ who, among who ∧ (poll.voters who).isParticipant = true) ∧
        ∀ who, among who → (poll.voters who).isParticipant = true →
          (poll.voters who).isReady = true := by
  have within := Finset.monotone_filter_right (p := fun who => among who ∧
      (poll.voters who).isReady = true) (q := fun who => among who ∧
      (poll.voters who).isParticipant = true) Finset.univ fun who _ both =>
    ⟨both.1, Voter.isParticipant_of_isReady both.2⟩
  refine and_congr ?_ ⟨fun same who inside takes => ?_, fun all => ?_⟩
  · rw [Finset.card_pos, Finset.filter_nonempty_iff]
    simp only [Finset.mem_univ, true_and]
  · have equal := Finset.eq_of_subset_of_card_le within same.ge
    have here := Finset.ext_iff.mp equal who
    rw [Finset.mem_filter_univ, Finset.mem_filter_univ] at here
    exact (here.mpr ⟨inside, takes⟩).2
  · refine congrArg Finset.card (within.antisymm fun who inside => ?_)
    obtain ⟨-, here, takes⟩ := Finset.mem_filter.mp inside
    exact Finset.mem_filter.mpr ⟨Finset.mem_univ who, here, all who here takes⟩

/-- The voters of all ranks together are those that there are. -/
theorem sum_givers (vote : Vote) :
    ∑ rank, poll.givers home vote rank = #{who | (poll.voters who).gave vote = true} := by
  rw [Finset.card_eq_sum_card_fiberwise fun who _ => Finset.mem_coe.mpr (Finset.mem_univ (home who))]
  refine Finset.sum_congr rfl fun rank _ => ?_
  rw [givers, Finset.filter_filter]
  simp only [and_comm]

/-- Whether a poll is the one behind some calls. -/
structure Follows (home : Fin voters → Fin ranks) (calls : List (Fin voters × Voter.Call))
    (poll : Poll voters ranks) : Prop where
  /-- Each tally counts the votes of its rank. -/
  counted : poll.Counted home
  /-- A voter has cast the votes that the calls on it ask for. -/
  gave : ∀ who vote, (poll.voters who).gave vote = true ↔ Cast calls who vote

/-- Whether some voter was registered among some calls, and each one that was is ready. -/
def Unanimous (poll : Poll voters ranks) (calls : List (Fin voters × Voter.Call))
    (among : Fin voters → Prop) : Prop :=
  (∃ who, among who ∧ Registered calls who) ∧
    ∀ who, among who → Registered calls who → poll.voters who = .ready

namespace Follows

/-- A voter takes part where it was registered. -/
theorem joined (follows : poll.Follows home calls) (who : Fin voters) :
    (poll.voters who).isParticipant = true ↔ Registered calls who :=
  follows.gave who .join

/-- A voter is ready where it signalled after it was registered. -/
theorem readied (follows : poll.Follows home calls) (who : Fin voters) :
    (poll.voters who).isReady = true ↔ Signalled calls who :=
  follows.gave who .ready

/-- The voters of a rank that take part. -/
theorem participants (follows : poll.Follows home calls) (rank : Fin ranks) :
    (poll.tallies rank).participants =
      #{who | home who = rank ∧ (poll.voters who).isParticipant = true} :=
  follows.counted rank .join

/-- The voters of a rank that are ready. -/
theorem ready (follows : poll.Follows home calls) (rank : Fin ranks) :
    (poll.tallies rank).ready = #{who | home who = rank ∧ (poll.voters who).isReady = true} :=
  follows.counted rank .ready

/-- The voters that were registered are ready just where those that take part are. -/
theorem unanimous_iff (follows : poll.Follows home calls) (among : Fin voters → Prop) :
    poll.Unanimous calls among ↔ (∃ who, among who ∧ (poll.voters who).isParticipant = true) ∧
      ∀ who, among who → (poll.voters who).isParticipant = true →
        (poll.voters who).isReady = true := by
  have ready (who : Fin voters) : (poll.voters who).isReady = true ↔ poll.voters who = .ready := by
    cases poll.voters who <;> decide
  simp only [Unanimous, follows.joined, ready]

/-- The tally of one rank has all votes where all voters of the rank are ready. -/
theorem allReady_iff (follows : poll.Follows home calls) (rank : Fin ranks) :
    (poll.tallies rank).allReady = true ↔ poll.Unanimous calls fun who => home who = rank := by
  rw [Tally.allReady, Bool.and_eq_true, decide_eq_true_iff, beq_iff_eq, follows.participants,
    follows.ready, follows.unanimous_iff, card_ready_iff fun who => home who = rank]

/-- The sums over all tallies agree where all voters are ready. -/
theorem sums_iff (follows : poll.Follows home calls) :
    0 < ((List.ofFn poll.tallies).map Tally.participants).sum ∧
        ((List.ofFn poll.tallies).map Tally.ready).sum =
          ((List.ofFn poll.tallies).map Tally.participants).sum ↔
      poll.Unanimous calls fun _ => True := by
  have joins : ((List.ofFn poll.tallies).map Tally.participants).sum =
      #{who | True ∧ (poll.voters who).isParticipant = true} := by
    simp only [List.map_ofFn, List.sum_ofFn, Function.comp_apply, follows.participants, true_and]
    exact sum_givers .join
  have signals : ((List.ofFn poll.tallies).map Tally.ready).sum =
      #{who | True ∧ (poll.voters who).isReady = true} := by
    simp only [List.map_ofFn, List.sum_ofFn, Function.comp_apply, follows.ready, true_and]
    exact sum_givers .ready
  rw [joins, signals, follows.unanimous_iff, card_ready_iff fun _ => True]

end Follows

/-- A poll is the one behind the calls that it was made with. -/
theorem follows_callAll (home : Fin voters → Fin ranks)
    (calls : List (Fin voters × Voter.Call)) :
    ((fresh : Poll voters ranks).callAll home calls).Follows home calls :=
  ⟨counted_callAll calls, gave_iff_cast calls⟩

/-- What a poll tells about the calls behind it. -/
structure Accounts (home : Fin voters → Fin ranks) (calls : List (Fin voters × Voter.Call))
    (poll : Poll voters ranks) : Prop where
  /-- A tally counts the voters of its rank that were registered. -/
  participants : ∀ rank,
    (poll.tallies rank).participants = #{who | home who = rank ∧ Registered calls who}
  /-- Of these it counts as ready those that signalled since. -/
  ready : ∀ rank, (poll.tallies rank).ready = #{who | home who = rank ∧ Signalled calls who}
  /-- Hence no more are ready than take part. -/
  bounded : ∀ rank, (poll.tallies rank).ready ≤ (poll.tallies rank).participants
  /-- A voter takes part where it was registered, and is ready where it signalled since. -/
  voter : ∀ who, poll.voters who =
    if Signalled calls who then .ready else if Registered calls who then .voting else .unregistered
  /-- To register a voter once more changes nothing. -/
  registered : ∀ who, Registered calls who → poll.call home (who, .register) = poll
  /-- A signal of a voter that is not registered changes nothing. -/
  early : ∀ who, ¬ Registered calls who → poll.call home (who, .signal) = poll
  /-- To signal once more changes nothing. -/
  signalled : ∀ who, Signalled calls who → poll.call home (who, .signal) = poll
  /-- A call leaves each voter as it is, or has it take part, or has it ready after it took part. -/
  advances : ∀ who asked other,
    ∃ votes, (poll.voters other).Casts votes ((poll.call home (who, asked)).voters other)
  /-- No further calls take back what a voter has voted. -/
  remains : ∀ further who vote, (poll.voters who).gave vote = true →
    ((poll.callAll home further).voters who).gave vote = true
  /-- One rank by itself has all votes where all of its voters are ready. -/
  alone : ∀ rank, (poll.tallies rank).allReady = true ↔
    poll.Unanimous calls fun who => home who = rank
  /-- The sums over all ranks agree where all voters are ready. -/
  sums : 0 < ((List.ofFn poll.tallies).map Tally.participants).sum ∧
      ((List.ofFn poll.tallies).map Tally.ready).sum =
        ((List.ofFn poll.tallies).map Tally.participants).sum ↔
    poll.Unanimous calls fun _ => True
  /-- So ranks that tell these tallies and have not failed decide to stop since all voters are ready just
  where they are. -/
  decides : ∀ statuses : Fin ranks → RankStatus,
    (∀ rank, (statuses rank).participants = (poll.tallies rank).participants ∧
      (statuses rank).ready = (poll.tallies rank).ready ∧ (statuses rank).failed = false) →
    (decision (List.ofFn statuses) = .stop .allVotersReady ↔ poll.Unanimous calls fun _ => True)

/-- Whatever calls are made on voters, and in whatever order, the tallies count the voters that
registered and those that signalled since, and tell whether all voters are ready. -/
theorem accounts_of_calls (home : Fin voters → Fin ranks)
    (calls : List (Fin voters × Voter.Call)) :
    ((fresh : Poll voters ranks).callAll home calls).Accounts home calls := by
  have follows := follows_callAll home calls
  generalize (fresh : Poll voters ranks).callAll home calls = poll at follows
  have joined := follows.joined
  have readied := follows.readied
  have participants := follows.participants
  have readies := follows.ready
  refine ⟨?_, ?_, ?_, ?_, ?_, ?_, ?_, casts_voters_call home poll,
    fun further _ _ => gave_callAll further, follows.allReady_iff, follows.sums_iff, ?_⟩
  · simpa only [joined] using participants
  · simpa only [readied] using readies
  · intro rank
    rw [participants, readies]
    exact Finset.card_le_card (Finset.monotone_filter_right _ fun who _ both =>
      ⟨both.1, Voter.isParticipant_of_isReady both.2⟩)
  · intro who
    simp only [← joined, ← readied]
    cases poll.voters who <;> decide
  · intro who registered
    have takes := (joined who).mpr registered
    refine call_eq_self ?_
    revert takes
    cases poll.voters who <;> decide
  · intro who missing
    have waits := mt (joined who).mp missing
    refine call_eq_self ?_
    revert waits
    cases poll.voters who <;> decide
  · intro who signalled
    have agreed := (readied who).mpr signalled
    refine call_eq_self ?_
    revert agreed
    cases poll.voters who <;> decide
  · intro statuses tell
    have healthy : ∀ status ∈ List.ofFn statuses, status.failed = false := by
      rintro status inside
      obtain ⟨rank, rfl⟩ := List.mem_ofFn.mp inside
      exact (tell rank).2.2
    rw [decision_eq_voted_iff healthy, ← follows.sums_iff, AllVoted]
    simp only [List.map_ofFn, List.sum_ofFn, Function.comp_apply, fun rank => (tell rank).1,
      fun rank => (tell rank).2.1]

/-- A voter signals in vain before it is registered, and once when it is; another one waits. -/
example : ((fresh : Poll 2 2).callAll id [(0, .signal), (0, .register), (1, .register),
    (0, .register), (0, .signal), (0, .signal)]).tallies 0 = ⟨1, 1⟩ := by decide

end Poll

end Rally
