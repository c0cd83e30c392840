import DateReviver.Generate
import Mathlib.Order.Defs.Unbundled

/-!
# Runs of generation steps

A step of a run is observed through `run`: its result beside the registry that it leaves, also when
it fails. `Changes R` says that every run of a step leads to a registry that `R` relates to the one
before; for a relation that is reflexive and transitive it passes through sequences of steps. `Runs R E`
says in addition that a run fails with errors of `E` only.
-/

namespace DateReviver

/-- The type that a note says is planned. -/
def Note.planned? : Note → Option String
  | .planningType typeName => some typeName
  | _ => none

end DateReviver

namespace DateReviver.Generation

variable {α β : Type}

theorem run_get (r : Registry) : (get : Generation Registry).run r = (.ok r, r) := rfl

theorem run_throw (e : GenerationError) (r : Registry) :
    (throw e : Generation α).run r = (.error e, r) := rfl

theorem run_bind (x : Generation α) (f : α → Generation β) (r : Registry) :
    (x >>= f).run r =
      match x.run r with
      | (.ok a, r') => (f a).run r'
      | (.error e, r') => (.error e, r') := by
  show (ExceptT.bindCont f (x.run r).1) (x.run r).2 = _
  rcases x.run r with ⟨result, r'⟩
  cases result <;> rfl

theorem run_map (f : α → β) (x : Generation α) (r : Registry) :
    (f <$> x).run r = ((x.run r).1.map f, (x.run r).2) := by
  have heq : f <$> x = x >>= fun a => pure (f a) := map_eq_pure_bind f x
  rw [heq, run_bind]
  rcases x.run r with ⟨result, r'⟩
  cases result <;> rfl

theorem run_discard (x : Generation α) (r : Registry) :
    (discard x).run r = ((x.run r).1.map fun _ => (), (x.run r).2) :=
  run_map (fun _ => ()) x r

theorem run_ofExcept (x : Except GenerationError α) (r : Registry) :
    (MonadExcept.ofExcept x : Generation α).run r = (x, r) := by
  cases x <;> rfl

theorem run_absorb (walk : List String → Planned α) (r : Registry) :
    (absorb walk).run r = ((walk r.typeNames).result, r.register (walk r.typeNames).found) :=
  run_ofExcept (walk r.typeNames).result (r.register (walk r.typeNames).found)

/-- A question answers by its verdict and keeps what the search settled. -/
theorem run_search (question : Registry → Search → Except GenerationError Verdict × Search)
    (r : Registry) :
    (search question).run r =
      let answer := question r ⟨r.verdicts, [], [], r.journal⟩
      (answer.1.map Verdict.isEmpty,
        { r with verdicts := answer.2.settled, journal := answer.2.journal }) := by
  unfold search
  rw [run_bind, run_get]
  dsimp only
  generalize question r ⟨r.verdicts, [], [], r.journal⟩ = answer
  obtain ⟨result, s⟩ := answer
  cases result <;> rfl

/-- A sequence of two steps succeeds if both do, one after the other. -/
theorem run_bind_ok {x : Generation α} {f : α → Generation β} {r r' : Registry} {b : β}
    (h : (x >>= f).run r = (.ok b, r')) :
    ∃ a middle, x.run r = (.ok a, middle) ∧ (f a).run middle = (.ok b, r') := by
  rw [run_bind] at h
  rcases hx : x.run r with ⟨result, middle⟩
  rw [hx] at h
  cases result with
  | error e => cases h
  | ok a => exact ⟨a, middle, rfl, h⟩

/-! ## What every run of a step does -/

/-- Every run of a step, failed or not, leads to a related registry. -/
def Changes (R : Registry → Registry → Prop) (x : Generation α) : Prop :=
  ∀ r, R r (x.run r).2

theorem Changes.mono {R S : Registry → Registry → Prop} {x : Generation α} (h : Changes R x)
    (himp : ∀ r r', R r r' → S r r') : Changes S x :=
  fun r => himp _ _ (h r)

section Sequence

variable {R : Registry → Registry → Prop} [IsPreorder Registry R]

theorem Changes.pure (a : α) : Changes R (pure a : Generation α) :=
  fun r => refl_of R r

theorem Changes.get : Changes R (get : Generation Registry) :=
  fun r => refl_of R r

theorem Changes.throw_bind (e : GenerationError) (f : α → Generation β) :
    Changes R ((throw e : Generation α) >>= f) := by
  intro r
  rw [run_bind, run_throw]
  exact refl_of R r

theorem Changes.ofExcept (x : Except GenerationError α) :
    Changes R (MonadExcept.ofExcept x : Generation α) := by
  intro r
  rw [run_ofExcept]
  exact refl_of R r

theorem Changes.bind {x : Generation α} {f : α → Generation β} (hx : Changes R x)
    (hf : ∀ a, Changes R (f a)) : Changes R (x >>= f) := by
  intro r
  have hfirst := hx r
  rw [run_bind]
  rcases hrun : x.run r with ⟨result, middle⟩
  rw [hrun] at hfirst
  cases result with
  | error e => exact hfirst
  | ok a => exact trans_of R hfirst (hf a middle)

omit [IsPreorder Registry R] in
theorem Changes.map {x : Generation α} (f : α → β) (hx : Changes R x) :
    Changes R (f <$> x) := by
  intro r
  rw [run_map]
  exact hx r

end Sequence

/-! ## How a step may fail -/

/-- Every run of a step leads to a related registry, and a run that fails has an error of `E`. -/
structure Runs (R : Registry → Registry → Prop) (E : GenerationError → Prop) (x : Generation α) :
    Prop where
  changes : Changes R x
  error : ∀ r e, (x.run r).1 = .error e → E e

variable {R : Registry → Registry → Prop} {E : GenerationError → Prop}

theorem Changes.runs {x : Generation α} (h : Changes R x) : Runs R (fun _ => True) x :=
  ⟨h, fun _ _ _ => trivial⟩

section Sequence

variable [IsPreorder Registry R]

theorem Runs.pure (a : α) : Runs R E (pure a : Generation α) := by
  refine ⟨.pure a, fun r e he => ?_⟩
  cases he

theorem Runs.get : Runs R E (get : Generation Registry) := by
  refine ⟨.get, fun r e he => ?_⟩
  cases he

theorem Runs.bind {x : Generation α} {f : α → Generation β} (hx : Runs R E x)
    (hf : ∀ a, Runs R E (f a)) : Runs R E (x >>= f) := by
  refine ⟨hx.changes.bind fun a => (hf a).changes, fun r e he => ?_⟩
  have hfirst := hx.error r
  rw [run_bind] at he
  rcases hrun : x.run r with ⟨result, middle⟩
  rw [hrun] at he hfirst
  cases result with
  | error first =>
      cases he
      exact hfirst _ rfl
  | ok a => exact (hf a).error middle e he

omit [IsPreorder Registry R] in
theorem Runs.map {x : Generation α} (f : α → β) (hx : Runs R E x) : Runs R E (f <$> x) := by
  refine ⟨hx.changes.map f, fun r e he => ?_⟩
  have hown := hx.error r
  rw [run_map] at he
  rcases hrun : x.run r with ⟨result, after⟩
  rw [hrun] at he hown
  cases result with
  | error first =>
      cases he
      exact hown _ rfl
  | ok a => cases he

end Sequence

end DateReviver.Generation
