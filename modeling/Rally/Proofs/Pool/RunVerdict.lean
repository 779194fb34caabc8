import Rally.Proofs.Pool.WindowedRuns
import Rally.Proofs.Threads.SingleThread
/-!
# What a run ends with

A run on several ranks ends with the first error among the results of its ranks that does not only tell of
another one, and with the reason that all of them have in common where there is none.
-/

namespace Rally

namespace Windows

/-- The first error that does not only tell of another one is what a run on several ranks ends with. -/
theorem verdict_of_first {results : List (Except RunError Termination)} {error : RunError}
    {former latter : List (Except RunError Termination)}
    (split : results = former ++ .error error :: latter) (primary : isSecondary error = false)
    (before : ∀ other, .error other ∈ former → isSecondary other = true) :
    verdict results = .error error := by
  have early : (errors former).find? (fun error => !isSecondary error) = none := by
    refine List.find?_eq_none.mpr fun other inside => ?_
    obtain ⟨result, among, same⟩ := List.mem_filterMap.mp inside
    cases result with
    | ok reason => cases same
    | error twin =>
      obtain rfl := Option.some.inj same
      rw [before twin among]
      exact Bool.false_ne_true
  have first : (errors results).find? (fun error => !isSecondary error) = some error := by
    have whole : errors results = errors former ++ error :: errors latter := by
      rw [split, errors, List.filterMap_append, List.filterMap_cons]
      rfl
    rw [whole, List.find?_append, early, Option.none_or, List.find?_cons, primary]
    rfl
  rw [verdict_eq, first]

/-- An error that a run on several ranks ends with is that of a rank. -/
theorem mem_of_verdict {results : List (Except RunError Termination)} {error : RunError}
    (ends : verdict results = .error error) : .error error ∈ results := by
  have among {other : RunError} (inside : other ∈ errors results) : .error other ∈ results := by
    obtain ⟨result, there, same⟩ := List.mem_filterMap.mp inside
    cases result with
    | ok reason => cases same
    | error twin =>
      obtain rfl := Option.some.inj same
      exact there
  rw [verdict_eq] at ends
  split at ends
  · next first found =>
    obtain rfl := Except.error.inj ends
    exact among (List.mem_of_find?_eq_some found)
  · split at ends
    · next last found =>
      obtain rfl := Except.error.inj ends
      exact among (List.mem_of_getLast? found)
    · cases ends

/-- Without errors it ends with a reason. -/
theorem exists_verdict_ok {results : List (Except RunError Termination)}
    (fine : ∀ error, .error error ∉ results) : ∃ reason, verdict results = .ok reason := by
  cases ends : verdict results with
  | ok reason => exact ⟨reason, rfl⟩
  | error error => exact absurd (mem_of_verdict ends) (fine error)

end Windows

namespace System

variable {C : Type} {n : Nat} {system : System C n}

/-- The results of threads that have all ended decide how the run does. -/
theorem Complete.exists_results (complete : system.Complete) :
    ∃ results : Fin n → Except Halt Termination,
      (∀ index, (system.threads index).phase = .ended (results index)) ∧
      (∀ index, n = 1 → system.ending? = some (results index)) ∧
      (n ≠ 1 → system.ending? = some ((Windows.verdict (List.ofFn fun index =>
        (results index).mapError (Worker.errorOf (system.threads index).rank.id))).mapError
          Halt.failed)) := by
  choose results ended using complete
  refine ⟨results, ended, fun index single => ending?_of_single single index (ended index),
    fun several => ?_⟩
  have told : system.verdict? = some (Windows.verdict (List.ofFn fun index =>
      (results index).mapError (Worker.errorOf (system.threads index).rank.id))) := by
    rw [verdict?, @mapM_of_map_eq _ _ _ _ (List.ofFn fun index =>
      (results index).mapError (Worker.errorOf (system.threads index).rank.id))]
    · rfl
    · rw [List.map_ofFn, List.map_ofFn]
      refine congrArg List.ofFn (funext fun index => ?_)
      simp only [Function.comp_apply, Thread.result?, ended index]
  rw [ending?_of_several several, told]
  rfl

/-- An error that a run ends with is that of a rank. -/
theorem Complete.exists_error (complete : system.Complete) {error : RunError}
    (ends : system.ending? = some (.error (.failed error))) :
    ∃ index halt, (system.threads index).phase = .ended (.error halt) ∧
      Worker.errorOf (system.threads index).rank.id halt = error := by
  obtain ⟨results, ended, alone, among⟩ := complete.exists_results
  by_cases single : n = 1
  · let index : Fin n := ⟨0, by omega⟩
    have same := (alone index single).symm.trans ends
    exact ⟨index, _, by rw [ended index, Option.some.inj same], rfl⟩
  · have same := Option.some.inj ((among single).symm.trans ends)
    cases verdict : Windows.verdict (List.ofFn fun index =>
        (results index).mapError (Worker.errorOf (system.threads index).rank.id)) with
    | ok reason =>
      rw [verdict] at same
      cases same
    | error other =>
      rw [verdict] at same
      cases same
      obtain ⟨index, told⟩ := List.mem_ofFn.mp (Windows.mem_of_verdict verdict)
      refine ⟨index, ?_⟩
      cases result : results index with
      | ok reason =>
        simp only [result] at told
        cases told
      | error halt =>
        simp only [result] at told
        exact ⟨halt, by rw [ended index, result], Except.error.inj told⟩

end System

end Rally
