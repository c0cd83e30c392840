import DateReviver.Proofs.Failure
import DateReviver.Proofs.Planning.Equations

/-!
# What planning looks up

Planning looks up a component only where the walk comes to its type: at a requested type and at a
reference. Two documents that have the same components there are planned alike, step by step, with
the same types found and the same result or error.
-/

namespace DateReviver

open DateReviver.OpenApi

namespace Walk

/-- What is next on the agenda is a type of this name or a reference to it, so that its component is
looked up. -/
inductive LooksUp : Walk → String → Prop
  | type {met taken : List String} {ahead : List Item} {typeName : String} :
      LooksUp ⟨met, taken, .type typeName :: ahead⟩ typeName
  | reference {met taken : List String} {ahead : List Item} {k : Keywords Schema}
      {reference name : String} (hreference : k.reference = some reference)
      (hname : referencedName? reference = some name) :
      LooksUp ⟨met, taken, .schema (.object k) :: ahead⟩ name

/-- Another document has the same components wherever the walk looks one up from here on. -/
def AgreesFrom (doc doc' : Document) (w : Walk) : Prop :=
  ∀ w' name, Steps doc w w' → w'.LooksUp name → doc'.schema? name = doc.schema? name

section Agreement

variable {doc doc' : Document} {w w' : Walk} {name : String}

theorem AgreesFrom.here (h : AgreesFrom doc doc' w) (hlooks : w.LooksUp name) :
    doc'.schema? name = doc.schema? name :=
  h w name .refl hlooks

theorem AgreesFrom.steps (h : AgreesFrom doc doc' w) (hsteps : Steps doc w w') :
    AgreesFrom doc doc' w' :=
  fun last name hlast hlooks => h last name (hsteps.trans hlast) hlooks

theorem AgreesFrom.step (h : AgreesFrom doc doc' w) (hstep : Step doc w w') :
    AgreesFrom doc doc' w' :=
  h.steps (.single hstep)

/-- A reference that is next on the agenda is resolved alike. -/
theorem AgreesFrom.resolve_eq {met taken : List String} {ahead : List Item} {k : Keywords Schema}
    {reference : String} (h : AgreesFrom doc doc' ⟨met, taken, .schema (.object k) :: ahead⟩)
    (hreference : k.reference = some reference) : doc'.resolve reference = doc.resolve reference := by
  unfold Document.resolve
  cases hname : referencedName? reference with
  | none => rfl
  | some name =>
      have hschema := h.here (.reference hreference hname)
      simp only [hschema]

end Agreement

end Walk

/-! ## Schemas -/

section Schemas

open Walk

variable {doc doc' : Document}

mutual

/-- A schema that is next on the agenda is planned alike. The induction is on the course of planning
in the first document, along which the walk goes on. -/
theorem Plans.of_agreesFrom (taken : List String) : {known : List String} → {schema : Schema} →
    {planned : Planned Plan} → Plans doc known schema planned → {met : List String} →
      (∀ n, n ∈ met ↔ n ∈ known) → (ahead : List Item) →
        AgreesFrom doc doc' ⟨met, taken, .schema schema :: ahead⟩ → Plans doc' known schema planned
  | _, _, _, .boolean, _, _, _, _ => .boolean
  | _, _, _, .unresolved hreference hresolve, _, _, _, hagree =>
      .unresolved hreference ((hagree.resolve_eq hreference).trans hresolve)
  | _, _, _, .known hreference hresolve hmem, _, _, _, hagree =>
      .known hreference ((hagree.resolve_eq hreference).trans hresolve) hmem
  | _, _, _, .new hreference hresolve hnew h, _, hknown, ahead, hagree => by
      obtain ⟨hname, htarget⟩ := Document.resolve_eq_ok_iff.1 hresolve
      have hstep := hagree.step
        (.newReference hreference hname htarget fun hmem => hnew ((hknown _).1 hmem))
      exact .new hreference ((hagree.resolve_eq hreference).trans hresolve) hnew
        (h.of_agreesFrom taken (mem_append_singleton_iff hknown) ahead hstep)
  | _, _, _, .union hreference hother h, _, hknown, ahead, hagree =>
      .union hreference hother
        (h.of_agreesFrom taken hknown ahead (hagree.step (.inside (.union hreference hother))))
  | _, _, _, .anyUnion hreference hother hunion, _, _, _, _ => .anyUnion hreference hother hunion
  | _, _, _, .array hplain htype hitems h, _, hknown, ahead, hagree =>
      .array hplain htype hitems
        (h.of_agreesFrom taken hknown ahead (hagree.step (.inside (.array hplain htype hitems))))
  | _, _, _, .bareArray hplain htype hitems, _, _, _, _ => .bareArray hplain htype hitems
  | _, _, _, .scalar hplain hscalar, _, _, _, _ => .scalar hplain hscalar
  | _, _, _, .conflict hopen hobject hproperties hvalues, _, _, _, _ =>
      .conflict hopen hobject hproperties hvalues
  | _, _, _, .map hopen hobject hproperties hvalues h, _, hknown, ahead, hagree =>
      .map hopen hobject hproperties hvalues (h.of_agreesFrom taken hknown ahead
        (hagree.step (.inside (.map hopen hobject hproperties hvalues))))
  | _, _, _, .object hopen hobject hproperties hvalues h, _, hknown, ahead, hagree =>
      .object hopen hobject hproperties hvalues (h.of_agreesFrom taken hknown ahead
        (hagree.step (.inside (.object hopen hobject hproperties hvalues))))
  | _, _, _, .empty hopen hobject hproperties hvalues, _, _, _, _ =>
      .empty hopen hobject hproperties hvalues
  | _, _, _, .date hopen hobject hformat, _, _, _, _ => .date hopen hobject hformat
  | _, _, _, .text hopen hobject hformat, _, _, _, _ => .text hopen hobject hformat

/-- Properties that are next on the agenda are planned alike. -/
theorem PlansAll.of_agreesFrom (taken : List String) : {known : List String} →
    {properties : List (String × Schema)} → {planned : Planned (List (String × Plan))} →
      PlansAll doc known properties planned → {met : List String} → (∀ n, n ∈ met ↔ n ∈ known) →
        (ahead : List Item) →
          AgreesFrom doc doc' ⟨met, taken,
            items (properties.map fun property => ([.property property.1], property.2)) ++ ahead⟩ →
            PlansAll doc' known properties planned
  | _, _, _, .nil, _, _, _, _ => .nil
  | _, _, _, .failed h hresult, _, hknown, _, hagree =>
      .failed (h.of_agreesFrom taken hknown _ hagree) hresult
  | _, _, _, .cons h hresult hrest, _, hknown, ahead, hagree =>
      .cons (h.of_agreesFrom taken hknown _ hagree) hresult
        (hrest.of_agreesFrom taken (mem_append_iff hknown) ahead
          (hagree.steps ((h.yields taken hknown _).ok hresult)))

end

variable {known met taken : List String} {ahead : List Item}

theorem planSchema_eq_of_agreesFrom {schema : Schema} (hknown : ∀ n, n ∈ met ↔ n ∈ known)
    (hagree : AgreesFrom doc doc' ⟨met, taken, .schema schema :: ahead⟩) :
    planSchema doc' known schema = planSchema doc known schema :=
  ((planSchema_plans doc known schema).of_agreesFrom taken hknown ahead hagree).eq_planSchema.symm

theorem planType_eq_of_agreesFrom {typeName : String} {schema : Schema}
    (hschema : doc.schema? typeName = some schema) (hknown : ∀ n, n ∈ met ↔ n ∈ known)
    (hagree : AgreesFrom doc doc' ⟨met, taken, .type typeName :: ahead⟩) :
    planType doc' known typeName schema = planType doc known typeName schema := by
  unfold planType
  split
  · rfl
  · rename_i hnew
    have hmem : typeName ∉ met := fun hmem => hnew (by simpa using (hknown typeName).1 hmem)
    rw [planSchema_eq_of_agreesFrom (mem_append_singleton_iff hknown)
      (hagree.step (.newType hschema hmem))]

end Schemas

/-! ## Steps of a generation -/

namespace Generation

open Walk

variable {α β : Type} {doc doc' : Document}

/-- A step does the same on another document, wherever that has the same components for the walk from
here on. -/
def Matches (doc doc' : Document) (before : List String → Walk) (x x' : Generation α) : Prop :=
  ∀ r, AgreesFrom doc doc' (before r.typeNames) → x'.run r = x.run r

section Combinators

variable {before middle : List String → Walk} {x x' : Generation α}

theorem Matches.refl : Matches doc doc' before x x :=
  fun _ _ => rfl

theorem Matches.step (hstep : ∀ met, Step doc (before met) (middle met))
    (h : Matches doc doc' middle x x') : Matches doc doc' before x x' :=
  fun r hagree => h r (hagree.step (hstep r.typeNames))

theorem Matches.bind {f f' : α → Generation β} (hfollows : Follows doc before middle x)
    (hx : Matches doc doc' before x x') (hf : ∀ a, Matches doc doc' middle (f a) (f' a)) :
    Matches doc doc' before (x >>= f) (x' >>= f') := by
  intro r hagree
  have hwalk := hfollows r
  rw [run_bind, run_bind, hx r hagree]
  rcases hrun : x.run r with ⟨result, r'⟩
  rw [hrun] at hwalk
  cases result with
  | error e => rfl
  | ok a => exact hf a r' (hagree.steps hwalk)

theorem Matches.throw_bind {e : GenerationError} {f f' : α → Generation β} :
    Matches doc doc' before ((throw e : Generation α) >>= f) ((throw e : Generation α) >>= f') := by
  intro r _
  rw [run_bind, run_throw, run_bind, run_throw]

theorem Matches.ofExcept_bind {a : α} {f f' : α → Generation β}
    (h : Matches doc doc' before (f a) (f' a)) :
    Matches doc doc' before ((MonadExcept.ofExcept (.ok a : Except GenerationError α)) >>= f)
      ((MonadExcept.ofExcept (.ok a : Except GenerationError α)) >>= f') := by
  intro r hagree
  rw [run_bind, run_ofExcept, run_bind, run_ofExcept]
  exact h r hagree

end Combinators

variable {taken : List String} {ahead : List Item}

theorem plan_matches (schema : Schema) :
    Matches doc doc' (fun met => ⟨met, taken, .schema schema :: ahead⟩) (plan doc schema)
      (plan doc' schema) := by
  intro r hagree
  unfold plan
  rw [run_absorb, run_absorb, planSchema_eq_of_agreesFrom (fun _ => .rfl) hagree]

theorem register_matches {typeName : String} {schema : Schema}
    (hschema : doc.schema? typeName = some schema) :
    Matches doc doc' (fun met => ⟨met, taken, .type typeName :: ahead⟩)
      (register doc typeName schema) (register doc' typeName schema) := by
  intro r hagree
  unfold register
  rw [run_absorb, run_absorb, planType_eq_of_agreesFrom hschema (fun _ => .rfl) hagree]

theorem registerTypes_matches (typeNames : List String) :
    Matches doc doc' (fun met => ⟨met, taken, typeNames.map .type ++ ahead⟩)
      (registerTypes doc typeNames) (registerTypes doc' typeNames) := by
  induction typeNames with
  | nil => exact .refl
  | cons typeName rest ih =>
      intro r hagree
      have hsame : doc'.schema? typeName = doc.schema? typeName := hagree.here .type
      rw [registerTypes, registerTypes, hsame]
      split
      · rfl
      · rename_i schema hschema
        exact Matches.bind (register_follows hschema) (register_matches hschema) (fun _ => ih) r hagree

end Generation

end DateReviver
