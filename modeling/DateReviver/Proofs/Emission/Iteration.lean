import DateReviver.Proofs.Emission.Guards

/-!
# Statements one after another

What statements do to one value of the parameter adds up: over a list of statements, over the items
of an array, over the fields of an object and over the statements for its properties. Each time the
parts before are done and the parts after are still as they were, and the first part that stumbles
stops the run.
-/

namespace DateReviver

open DateReviver.TypeScript

/-- Statements change one value of the parameter to another, or stop where they stumble. -/
def Carries (m : Module) (env : Env) (before after : Value) (stumbles : Prop)
    (body : List Stmt) : Prop :=
  (¬ stumbles → Ends m env ⟨before, none⟩ body (.ok ⟨after, none⟩)) ∧
    (stumbles → Ends m env ⟨before, none⟩ body (.error .nothingRead))

section Carries

variable {m : Module} {env : Env} {level : Nat} {before middle after : Value}
  {stumbles first second : Prop} {body more : List Stmt}

theorem Carries.of_not (hnot : ¬ stumbles)
    (h : Ends m env ⟨before, none⟩ body (.ok ⟨after, none⟩)) :
    Carries m env before after stumbles body :=
  ⟨fun _ => h, fun hstumbles => absurd hstumbles hnot⟩

theorem Carries.nil (hnot : ¬ stumbles) : Carries m env before before stumbles [] :=
  .of_not hnot .nil

theorem Carries.congr (h : Carries m env before after first body) (hiff : first ↔ second) :
    Carries m env before after second body :=
  propext hiff ▸ h

theorem Carries.append (h : Carries m env before middle first body)
    (hmore : Carries m env middle after second more) :
    Carries m env before after (first ∨ second) (body ++ more) := by
  constructor
  · intro hnot
    rw [not_or] at hnot
    exact (h.1 hnot.1).append (hmore.1 hnot.2)
  · intro hstumbles
    by_cases hfirst : first
    · exact (h.2 hfirst).append_error
    · exact (h.1 hfirst).append (hmore.2 (hstumbles.resolve_left hfirst))

theorem Carries.guarded {e : Expr} {value : Value} {policy : GuardPolicy} {nullable : Bool}
    (hsees : Sees m level env) (hread : e.read env before = .ok value)
    (hundefined : value ≠ .undefined) (hnull : value ≠ .null)
    (h : Carries m env before after stumbles body) :
    Carries m env before after stumbles (policy.guarded nullable e body) :=
  ⟨fun hnot => ends_guarded hsees hread hundefined hnull (h.1 hnot),
    fun hstumbles => ends_guarded hsees hread hundefined hnull (h.2 hstumbles)⟩

end Carries

/-! ## Loops -/

section Loops

variable {m : Module} {env : Env} {level : Nat} {e : Expr} {context : Value → Value}
  {body : List Stmt} {convert : Value → Value} {bad : Value → Prop}

/-- A loop over positions, in the middle of an array: the items before are done. -/
theorem settles_items {name : String} {items : List Value}
    (hlength : ∀ own value, e.length (env.under [(name, own)]) (context value) = value.length)
    (hbody : ∀ before value after, value ∈ items →
      Carries m (env.under [(name, some (.index before.length))])
        (context (.array (before ++ value :: after)))
        (context (.array (before ++ convert value :: after))) (bad value) body)
    (before rest : List Value) (hrest : ∀ value ∈ rest, value ∈ items) :
    ((∀ value ∈ rest, ¬ bad value) →
      Settles (execFrom m · env ⟨context (.array (before ++ rest)), none⟩ name e body before.length)
        (.ok (⟨context (.array (before ++ rest.map convert)), none⟩, none))) ∧
    ((∃ value ∈ rest, bad value) →
      Settles (execFrom m · env ⟨context (.array (before ++ rest)), none⟩ name e body before.length)
        (.error .nothingRead)) := by
  induction rest generalizing before with
  | nil =>
      refine ⟨fun _ => ?_, fun ⟨value, hmem, _⟩ => by cases hmem⟩
      exact settles_from_end (hlength _ _) (by simp)
  | cons value rest ih =>
      have hposition : before.length < (before ++ value :: rest).length := by simp
      have hown := hbody before value rest (hrest value List.mem_cons_self)
      have hnext := ih (before ++ [convert value]) fun other hother =>
        hrest other (List.mem_cons_of_mem _ hother)
      rw [List.append_assoc, List.append_assoc, List.length_append] at hnext
      constructor
      · intro hnot
        have hstep := (hown.1 (hnot value List.mem_cons_self)).settles
        exact settles_from_step (hlength _ _) hposition hstep
          (hnext.1 fun other hother => hnot other (List.mem_cons_of_mem _ hother))
      · rintro ⟨bads, hmem, hbad⟩
        by_cases hvalue : bad value
        · exact settles_from_error (hlength _ _) hposition (hown.2 hvalue).settles
        · have hstep := (hown.1 hvalue).settles
          refine settles_from_step (hlength _ _) hposition hstep (hnext.2 ⟨bads, ?_, hbad⟩)
          rcases List.mem_cons.1 hmem with rfl | htail
          · exact absurd hbad hvalue
          · exact htail

theorem carries_forIndex {name : String} {items : List Value}
    (hlength : ∀ own value, e.length (env.under [(name, own)]) (context value) = value.length)
    (hbody : ∀ before value after, value ∈ items →
      Carries m (env.under [(name, some (.index before.length))])
        (context (.array (before ++ value :: after)))
        (context (.array (before ++ convert value :: after))) (bad value) body) :
    Carries m env (context (.array items)) (context (.array (items.map convert)))
      (∃ value ∈ items, bad value) [.forIndex name e body] := by
  have hloop := settles_items hlength hbody [] items fun _ h => h
  constructor
  · intro hnot
    have hall : ∀ value ∈ items, ¬ bad value := fun value hmem hbad => hnot ⟨value, hmem, hbad⟩
    exact .single (settles_forIndex (hloop.1 hall))
  · exact fun hbad => .single (settles_forIndex (hloop.2 hbad))

/-- A loop over keys, in the middle of an object: the fields before are done. -/
theorem settles_fields {name : String} {fields : List (String × Value)}
    (hbody : ∀ before field after, field ∈ fields → field.1 ∉ before.map Prod.fst →
      Carries m (env.under [(name, some (.name field.1))])
        (context (.object (before ++ field :: after)))
        (context (.object (before ++ (field.1, convert field.2) :: after))) (bad field.2) body)
    (before rest : List (String × Value)) (hrest : ∀ field ∈ rest, field ∈ fields)
    (hnodup : ((before ++ rest).map Prod.fst).Nodup) :
    ((∀ field ∈ rest, ¬ bad field.2) →
      Settles (execOver m · env ⟨context (.object (before ++ rest)), none⟩ name body
          (rest.map Prod.fst))
        (.ok (⟨context (.object (before ++ rest.map fun field => (field.1, convert field.2))),
          none⟩, none))) ∧
    ((∃ field ∈ rest, bad field.2) →
      Settles (execOver m · env ⟨context (.object (before ++ rest)), none⟩ name body
          (rest.map Prod.fst)) (.error .nothingRead)) := by
  induction rest generalizing before with
  | nil =>
      refine ⟨fun _ => ?_, fun ⟨value, hmem, _⟩ => by cases hmem⟩
      exact settles_over_nil
  | cons field rest ih =>
      have hfresh : field.1 ∉ before.map Prod.fst := by
        rw [List.map_append, List.nodup_append] at hnodup
        exact fun hmem => hnodup.2.2 _ hmem _ List.mem_cons_self rfl
      have hown := hbody before field rest (hrest field List.mem_cons_self) hfresh
      have hnext := ih (before ++ [(field.1, convert field.2)])
        (fun other hother => hrest other (List.mem_cons_of_mem _ hother))
        (by simpa using hnodup)
      rw [List.append_assoc, List.append_assoc] at hnext
      constructor
      · intro hnot
        have hstep := (hown.1 (hnot field List.mem_cons_self)).settles
        exact settles_over_cons hstep
          (hnext.1 fun other hother => hnot other (List.mem_cons_of_mem _ hother))
      · rintro ⟨bads, hmem, hbad⟩
        by_cases hfield : bad field.2
        · exact settles_over_error (hown.2 hfield).settles
        · have hstep := (hown.1 hfield).settles
          refine settles_over_cons hstep (hnext.2 ⟨bads, ?_, hbad⟩)
          rcases List.mem_cons.1 hmem with rfl | htail
          · exact absurd hbad hfield
          · exact htail

theorem carries_forOf {name : String} {iterable : Expr} {fields : List (String × Value)}
    (hnodup : (fields.map Prod.fst).Nodup)
    (hkeys : iterable.keys m (env.under [(name, none)]) (context (.object fields))
      = .ok (fields.map Prod.fst))
    (hbody : ∀ before field after, field ∈ fields → field.1 ∉ before.map Prod.fst →
      Carries m (env.under [(name, some (.name field.1))])
        (context (.object (before ++ field :: after)))
        (context (.object (before ++ (field.1, convert field.2) :: after))) (bad field.2) body) :
    Carries m env (context (.object fields))
      (context (.object (fields.map fun field => (field.1, convert field.2))))
      (∃ field ∈ fields, bad field.2) [.forOf name iterable body] := by
  have hloop := settles_fields hbody [] fields (fun _ h => h) hnodup
  constructor
  · intro hnot
    have hall : ∀ field ∈ fields, ¬ bad field.2 := fun field hmem hbad => hnot ⟨field, hmem, hbad⟩
    exact .single (settles_forOf hkeys (hloop.1 hall))
  · exact fun hbad => .single (settles_forOf hkeys (hloop.2 hbad))

end Loops

/-! ## Properties -/

section Properties

variable {m : Module} {env : Env} {r : Registry} {policy : GuardPolicy} {scope : Scope} {e : Expr}
  {context : Value → Value} {name : String} {plan : Plan} {rest : List (String × Plan)}

theorem datesUnder_head (hfresh : name ∉ rest.map Prod.fst) :
    r.DatesUnder ((name, plan) :: rest) name = r.Dates plan := by
  funext path
  refine propext ⟨?_, fun h => ⟨plan, List.mem_cons_self, h⟩⟩
  rintro ⟨other, hmem, h⟩
  rcases List.mem_cons.1 hmem with heq | htail
  · cases heq
    exact h
  · exact absurd (List.mem_map_of_mem htail) hfresh

theorem datesUnder_tail {other : String} (hne : other ≠ name) :
    r.DatesUnder ((name, plan) :: rest) other = r.DatesUnder rest other := by
  funext path
  refine propext ⟨?_, fun ⟨found, hmem, h⟩ => ⟨found, List.mem_cons_of_mem _ hmem, h⟩⟩
  rintro ⟨found, hmem, h⟩
  rcases List.mem_cons.1 hmem with heq | htail
  · cases heq
    exact absurd rfl hne
  · exact ⟨found, htail, h⟩

theorem not_datesUnder {other : String} (hfresh : other ∉ rest.map Prod.fst)
    (path : List Access) : ¬ r.DatesUnder rest other path :=
  fun ⟨_, hmem, _⟩ => hfresh (List.mem_map_of_mem hmem)

/-- Fields in which the texts at the ends of paths from properties are dates. -/
noncomputable abbrev reviveUnder (r : Registry) (properties : List (String × Plan))
    (fields : List (String × Value)) : List (String × Value) :=
  fields.map fun field => (field.1, field.2.revive (r.DatesUnder properties field.1))

/-- A missing property adds no dates. -/
theorem reviveUnder_missing {fields : List (String × Value)}
    (hmissing : name ∉ fields.map Prod.fst) :
    reviveUnder r ((name, plan) :: rest) fields = reviveUnder r rest fields := by
  refine List.map_congr_left fun field hfield => ?_
  have hne : field.1 ≠ name := fun heq => hmissing (heq ▸ List.mem_map_of_mem hfield)
  rw [datesUnder_tail hne]

/-- A property that is there can be done before the others. -/
theorem reviveUnder_present {fields : List (String × Value)} {value : Value}
    (hnodup : (fields.map Prod.fst).Nodup) (hfresh : name ∉ rest.map Prod.fst)
    (hvalue : fields.lookup name = some value) :
    reviveUnder r ((name, plan) :: rest) fields =
      reviveUnder r rest (OrderedMap.put name (value.revive (r.Dates plan)) fields) := by
  have hmem : name ∈ fields.map Prod.fst := by
    by_contra hnot
    rw [OrderedMap.lookup_eq_none_iff_keys.2 hnot] at hvalue
    cases hvalue
  rw [OrderedMap.put_eq_map hnodup hmem, reviveUnder, reviveUnder, List.map_map]
  refine List.map_congr_left fun field hfield => ?_
  by_cases hname : field.1 = name
  · have hfound := OrderedMap.lookup_of_mem hnodup hfield
    rw [hname, hvalue, Option.some_inj] at hfound
    rw [Function.comp_apply, if_pos hname, hname, datesUnder_head hfresh, hfound,
      Value.revive_of_dateless (not_datesUnder hfresh)]
  · rw [Function.comp_apply, if_neg hname, datesUnder_tail hname]

/-- The statements for properties, on an object in which those of other properties have run. -/
theorem carries_properties {properties : List (String × Plan)}
    {original fields : List (String × Value)} (hproperties : (properties.map Prod.fst).Nodup)
    (hfields : (fields.map Prod.fst).Nodup)
    (hsame : ∀ property ∈ properties, fields.lookup property.1 = original.lookup property.1)
    (hpresent : ∀ property ∈ properties, ∀ value, original.lookup property.1 = some value →
      ∀ fields, fields.lookup property.1 = some value → Carries m env (context (.object fields))
        (context (.object (OrderedMap.put property.1 (value.revive (r.Dates property.2)) fields)))
        (Stumbles r true property.2 value)
        (r.statements policy scope property.2 (e.property property.1)))
    (hmissing : ∀ property ∈ properties, original.lookup property.1 = none →
      ∀ fields, fields.lookup property.1 = none → Ends m env ⟨context (.object fields), none⟩
        (r.statements policy scope property.2 (e.property property.1))
        (.ok ⟨context (.object fields), none⟩)) :
    Carries m env (context (.object fields)) (context (.object (reviveUnder r properties fields)))
      (∃ property ∈ properties, ∃ value, original.lookup property.1 = some value ∧
        Stumbles r true property.2 value)
      (r.propertyStatements policy scope properties e) := by
  induction properties generalizing fields with
  | nil =>
      have hid : reviveUnder r [] fields = fields := by
        refine (List.map_congr_left fun field _ => ?_).trans (List.map_id fields)
        rw [Value.revive_of_dateless (not_datesUnder List.not_mem_nil)]
        rfl
      rw [Registry.propertyStatements_nil, hid]
      exact .nil fun ⟨property, hmem, _⟩ => by cases hmem
  | cons property rest ih =>
      obtain ⟨name, plan⟩ := property
      rw [List.map_cons, List.nodup_cons] at hproperties
      have hrest {fields : List (String × Value)} (hfields : (fields.map Prod.fst).Nodup)
          (hsame : ∀ other ∈ rest, fields.lookup other.1 = original.lookup other.1) :=
        ih hproperties.2 hfields hsame
          (fun other hother => hpresent other (List.mem_cons_of_mem _ hother))
          (fun other hother => hmissing other (List.mem_cons_of_mem _ hother))
      rw [Registry.propertyStatements_cons]
      rcases hvalue : original.lookup name with _ | value
      · have hnone : fields.lookup name = none := (hsame _ List.mem_cons_self).trans hvalue
        have hown := hmissing _ List.mem_cons_self hvalue fields hnone
        have hothers := hrest hfields fun other hother =>
          hsame other (List.mem_cons_of_mem _ hother)
        rw [reviveUnder_missing (OrderedMap.lookup_eq_none_iff_keys.1 hnone)]
        refine ((Carries.of_not id hown).append hothers).congr ?_
        simp [hvalue]
      -- The statements for this property change its own field only, so the others still find the
      -- fields that they had.
      · have hsome : fields.lookup name = some value := (hsame _ List.mem_cons_self).trans hvalue
        have hown := hpresent _ List.mem_cons_self value hvalue fields hsome
        have hkept : ∀ other ∈ rest,
            (OrderedMap.put name (value.revive (r.Dates plan)) fields).lookup other.1
              = original.lookup other.1 := by
          intro other hother
          have hne : other.1 ≠ name := fun heq =>
            hproperties.1 (List.mem_map.2 ⟨other, hother, heq⟩)
          rw [OrderedMap.lookup_put, if_neg hne]
          exact hsame other (List.mem_cons_of_mem _ hother)
        have hothers := hrest (OrderedMap.nodup_put hfields) hkept
        rw [reviveUnder_present hfields hproperties.1 hsome]
        refine (hown.append hothers).congr ?_
        simp [hvalue]

end Properties

end DateReviver
