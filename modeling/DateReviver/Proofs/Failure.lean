import DateReviver.Proofs.Generate
import DateReviver.Proofs.Planning.Following

/-!
# When a generation fails

A generation fails exactly if the walk over what it was asked for comes to a defect, and its error is
that of the defect. Nothing that is done after planning can fail.
-/

namespace DateReviver

open DateReviver.OpenApi Generation

variable {options : Options} {doc : Document}

/-- Planning takes the walk from its start to its end. -/
theorem planning_follows (options : Options) (doc : Document) :
    Follows doc (fun met => ⟨met, [], (Walk.start options doc).ahead⟩)
      (fun met => ⟨met, ((options.operations doc).map Endpoint.name).reverse ++ [], []⟩)
      (planning options doc) := by
  refine (registerTypes_follows (options.requested doc)).bind fun _ => ?_
  unfold Options.operations
  split
  · exact planEndpoints_follows [] (endpoints doc)
  · exact .pure []

/-- The walk comes to its end, or else to a defect. -/
theorem planning_yields (options : Options) (doc : Document) :
    Walk.Yields doc (Walk.start options doc) ((planning options doc).run .empty).1
      ⟨((planning options doc).run .empty).2.typeNames,
        ((options.operations doc).map Endpoint.name).reverse ++ [], []⟩ :=
  planning_follows options doc .empty

/-- Writing does not fail, so an error is one of planning. -/
theorem generate_error_iff {e : GenerationError} : generate options doc = .error e ↔
    ((planning options doc).run .empty).1 = .error e := by
  rcases hplanning : (planning options doc).run .empty with ⟨error | operations, r⟩
  · have hgenerate : generate options doc = .error error := by
      unfold generate
      rw [generation_eq, run_bind, hplanning]
    rw [hgenerate]
    simp
  · obtain ⟨output, houtput⟩ := generate_ok_iff.2 ⟨operations, r, hplanning⟩
    simp [houtput]

/-- A generation succeeds exactly if the walk comes to its end. -/
theorem generate_ok_iff_steps : (∃ output, generate options doc = .ok output) ↔
    ∃ met taken, Walk.Steps doc (Walk.start options doc) ⟨met, taken, []⟩ := by
  rw [generate_ok_iff, ← (planning_yields options doc).ok_iff]
  constructor
  · rintro ⟨operations, r, hplanning⟩
    exact ⟨operations, by rw [hplanning]⟩
  · rintro ⟨operations, hplanning⟩
    exact ⟨operations, _, Prod.ext hplanning rfl⟩

/-- A generation fails exactly if the walk meets a defect, with the error of that defect, and
succeeds exactly if the walk comes to its end. The operations of a document are walked by path and
then by method. That a type is asked for its emptiness too early is no defect, and never happens. -/
theorem generate_fails_iff (options : Options) (doc : Document) :
    (endpoints doc).Pairwise Endpoint.Before ∧
      (∀ endpoint, endpoint ∈ endpoints doc ↔ ∃ item,
        doc.paths.get? endpoint.path = some item ∧
          item.operation? endpoint.method = some endpoint.operation) ∧
      (∀ e, generate options doc = .error e ↔ ∃ w,
        Walk.Steps doc (Walk.start options doc) w ∧ Walk.Defect doc w e) ∧
      ((∃ output, generate options doc = .ok output) ↔ ∃ met taken,
        Walk.Steps doc (Walk.start options doc) ⟨met, taken, []⟩) ∧
      ∀ typeName, generate options doc ≠ .error (.prematureEmptinessCheck typeName) := by
  have herror : ∀ e, generate options doc = .error e ↔ ∃ w,
      Walk.Steps doc (Walk.start options doc) w ∧ Walk.Defect doc w e := by
    intro e
    rw [generate_error_iff]
    exact (planning_yields options doc).error_iff
  refine ⟨endpoints_sorted doc, fun _ => mem_endpoints_iff, herror, generate_ok_iff_steps,
    fun typeName h => ?_⟩
  obtain ⟨w, _, hdefect⟩ := (herror _).1 h
  cases hdefect

end DateReviver
