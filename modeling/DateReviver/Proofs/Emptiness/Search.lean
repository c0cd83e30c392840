import DateReviver.Emptiness
import DateReviver.Proofs.OrderedMap
import DateReviver.Proofs.Reachability

/-!
# The emptiness search is exact

A search answers `holdsDate` only for a plan from which a date is reached, `empty` only for one from
which neither a date nor a type without a plan is reached, and fails only at such a type. The
difficulty is the verdict `empty`, which is drawn while circles are open. A type that is found empty
leans on several open types but records the depth of one of them only, so the invariant does not
speak about the recorded depths of single types: it bounds all that a walk leaves leaning by the
shallowest depth that the walk itself reports. When a type reports no open type below itself,
everything that still leans on it or above it leans on nothing else, and is settled with it.
-/

namespace DateReviver

/-- Verdicts about types are right, and those of empty types support one another: the plan of an
empty type has no date and names empty types only. -/
structure Registry.Decides (r : Registry) (verdicts : OrderedMap Bool) : Prop where
  empty : ∀ typeName, verdicts.get? typeName = some true →
    ∃ plan, r.plan? typeName = some plan ∧
      plan.Within False fun other => verdicts.get? other = some true
  holdsDate : ∀ typeName, verdicts.get? typeName = some false →
    ∃ plan, r.plan? typeName = some plan ∧ r.HoldsDate plan

namespace Registry.Decides

variable {r : Registry} {verdicts : OrderedMap Bool} {typeName : String} {nullable : Bool}

theorem none_decided : r.Decides .empty :=
  ⟨fun _ h => by simp at h, fun _ h => by simp at h⟩

/-- A plan that names empty types only, and no date, is empty. -/
theorem not_holdsDate_of_within (h : r.Decides verdicts) {plan : Plan}
    (hplan : plan.Within False fun other => verdicts.get? other = some true) :
    ¬ r.HoldsDate plan :=
  hplan.not_holdsDate h.empty

theorem not_meetsUnplanned_of_within (h : r.Decides verdicts) {plan : Plan}
    (hplan : plan.Within False fun other => verdicts.get? other = some true) :
    ¬ r.MeetsUnplanned plan :=
  hplan.not_meetsUnplanned h.empty

theorem holdsDate_of_false (h : r.Decides verdicts) (hget : verdicts.get? typeName = some false) :
    r.HoldsDate (.delegate typeName nullable) := by
  obtain ⟨plan, hplan, hdate⟩ := h.holdsDate typeName hget
  exact (Registry.holdsDate_delegate_iff hplan).2 hdate

theorem not_holdsDate_of_true (h : r.Decides verdicts) (hget : verdicts.get? typeName = some true) :
    ¬ r.HoldsDate (.delegate typeName nullable) :=
  h.not_holdsDate_of_within (.delegate hget)

/-- Further types may be settled as empty if their plans name empty types only, each other
included. -/
theorem settle_empty (h : r.Decides verdicts) {verdicts' : OrderedMap Bool}
    (hkept : ∀ name, verdicts'.get? name = some true ∨ verdicts'.get? name = verdicts.get? name)
    (hmono : ∀ name, verdicts.get? name = some true → verdicts'.get? name = some true)
    (hnew : ∀ name, verdicts'.get? name = some true → verdicts.get? name ≠ some true →
      ∃ plan, r.plan? name = some plan ∧
        plan.Within False fun other => verdicts'.get? other = some true) :
    r.Decides verdicts' := by
  constructor
  · intro name hname
    by_cases hold : verdicts.get? name = some true
    · obtain ⟨plan, hplan, hwithin⟩ := h.empty name hold
      exact ⟨plan, hplan, hwithin.mono id hmono⟩
    · exact hnew name hname hold
  · intro name hname
    rcases hkept name with htrue | hsame
    · rw [htrue] at hname
      cases hname
    · exact h.holdsDate name (hsame ▸ hname)

/-- A type from which a date is reached may be settled so: no empty type relies on it. -/
theorem settle_holdsDate (h : r.Decides verdicts) {plan : Plan}
    (hplan : r.plan? typeName = some plan) (hdate : r.HoldsDate plan) :
    r.Decides (verdicts.insert typeName false) := by
  have hnot : verdicts.get? typeName ≠ some true := by
    intro htrue
    have hempty : ¬ r.HoldsDate (.delegate typeName false) := h.not_holdsDate_of_true htrue
    exact hempty ((Registry.holdsDate_delegate_iff hplan).2 hdate)
  have hget : ∀ name, (verdicts.insert typeName false).get? name = some true ↔
      verdicts.get? name = some true := by
    intro name
    rw [OrderedMap.get?_insert]
    by_cases heq : name = typeName
    · subst heq
      simp [hnot]
    · simp [heq]
  constructor
  · intro name hname
    obtain ⟨found, hfound, hwithin⟩ := h.empty name ((hget name).1 hname)
    exact ⟨found, hfound, hwithin.mono id fun other => (hget other).2⟩
  · intro name hname
    rw [OrderedMap.get?_insert] at hname
    by_cases heq : name = typeName
    · exact ⟨plan, heq ▸ hplan, hdate⟩
    · rw [if_neg heq] at hname
      exact h.holdsDate name hname

end Registry.Decides

namespace Search

/-- The depth `j` is not under the shallowest depth that was reported, which there is. -/
def Reported (pending : Option Nat) (j : Nat) : Prop :=
  ∃ d, pending = some d ∧ d ≤ j

/-- The ways in which a walk can find a type empty: it is settled, or it is open or leaning at a
depth that the walk reports. -/
def Excuses (s : Search) (stack : List String) (pending : Option Nat) (typeName : String) : Prop :=
  s.settled.get? typeName = some true ∨
    (∃ j, depth? stack typeName = some j ∧ Reported pending j) ∨
      ∃ d, (typeName, d) ∈ s.leaning ∧ Reported pending d

/-- What a walk under open types has done when it reports `empty`. -/
structure Leans (r : Registry) (stack : List String) (s : Search) (pending : Option Nat)
    (s' : Search) : Prop where
  decides : r.Decides s'.settled
  settled : ∀ name, s.settled.get? name = some true → s'.settled.get? name = some true
  kept : ∀ entry ∈ s.leaning, entry ∈ s'.leaning
  leaning : ∀ entry ∈ s'.leaning, entry ∈ s.leaning ∨
    entry.2 < stack.length ∧ Reported pending entry.2 ∧
      ∃ plan, r.plan? entry.1 = some plan ∧ plan.Within False (s'.Excuses stack pending)

/-- What the answer of a walk says about the plan that was walked. -/
def Answers (r : Registry) (stack : List String) (plan : Plan) (s : Search) :
    Except GenerationError Verdict × Search → Prop
  | (.error e, s') => r.Decides s'.settled ∧
      ∃ typeName nullable, e = .prematureEmptinessCheck typeName ∧
        r.Reaches plan (.delegate typeName nullable) ∧ r.plan? typeName = none
  | (.ok .holdsDate, s') => r.Decides s'.settled ∧ r.HoldsDate plan
  | (.ok (.empty pending), s') =>
      Leans r stack s pending s' ∧ plan.Within False (s'.Excuses stack pending)

variable {r : Registry} {stack : List String} {s s' : Search} {pending others : Option Nat}
  {typeName : String}

theorem Reported.merge_left {j : Nat} (h : Reported pending j) :
    Reported (Option.merge min pending others) j := by
  obtain ⟨d, rfl, hle⟩ := h
  cases others with
  | none => exact ⟨d, rfl, hle⟩
  | some other => exact ⟨min d other, rfl, Nat.le_trans (Nat.min_le_left d other) hle⟩

theorem Reported.merge_right {j : Nat} (h : Reported others j) :
    Reported (Option.merge min pending others) j := by
  obtain ⟨d, rfl, hle⟩ := h
  cases pending with
  | none => exact ⟨d, rfl, hle⟩
  | some other => exact ⟨min other d, rfl, Nat.le_trans (Nat.min_le_right other d) hle⟩

theorem not_reported_none {j : Nat} : ¬ Reported none j := by
  rintro ⟨d, h, _⟩
  cases h

theorem lt_length_of_depth? {j : Nat} (h : depth? stack typeName = some j) :
    j < stack.length := by
  induction stack with
  | nil => cases h
  | cons latest rest ih =>
      unfold depth? at h
      split at h
      · cases h
        exact Nat.lt_succ_self _
      · exact Nat.lt_succ_of_lt (ih h)

theorem depth?_cons_of_ne {other : String} (h : typeName ≠ other) :
    depth? (typeName :: stack) other = depth? stack other := by
  rw [depth?, if_neg h]

theorem mem_leaning_of_lookup {d : Nat} (h : s.leaning.lookup typeName = some d) :
    (typeName, d) ∈ s.leaning := by
  obtain ⟨before, after, hsplit, _⟩ := List.lookup_eq_some_iff.1 h
  simp [hsplit]

/-- A walk that changes nothing leans on nothing new. -/
theorem Leans.refl (h : r.Decides s.settled) : Leans r stack s pending s :=
  ⟨h, fun _ hname => hname, fun _ hentry => hentry, fun _ hentry => .inl hentry⟩

/-- Excuses survive a further walk under the same open types, which only adds to them. -/
theorem Excuses.mono {name : String} (h : s.Excuses stack pending name)
    (hsettled : ∀ name, s.settled.get? name = some true → s'.settled.get? name = some true)
    (hkept : ∀ entry ∈ s.leaning, entry ∈ s'.leaning)
    (hreported : ∀ j, Reported pending j → Reported others j) :
    s'.Excuses stack others name := by
  rcases h with hdone | ⟨j, hdepth, hj⟩ | ⟨d, hmem, hd⟩
  · exact .inl (hsettled name hdone)
  · exact .inr (.inl ⟨j, hdepth, hreported j hj⟩)
  · exact .inr (.inr ⟨d, hkept _ hmem, hreported d hd⟩)

/-- Two walks under the same open types, one after the other. -/
theorem Leans.trans {s'' : Search} (h₁ : Leans r stack s pending s')
    (h₂ : Leans r stack s' others s'') :
    Leans r stack s (Option.merge min pending others) s'' := by
  refine ⟨h₂.decides, fun name hname => h₂.settled name (h₁.settled name hname),
    fun entry hentry => h₂.kept entry (h₁.kept entry hentry), ?_⟩
  intro entry hentry
  rcases h₂.leaning entry hentry with hmiddle | ⟨hlt, hreported, plan, hplan, hwithin⟩
  · rcases h₁.leaning entry hmiddle with hfirst | ⟨hlt, hreported, plan, hplan, hwithin⟩
    · exact .inl hfirst
    · refine .inr ⟨hlt, hreported.merge_left, plan, hplan, hwithin.mono id ?_⟩
      exact fun name hname => hname.mono h₂.settled h₂.kept fun _ => Reported.merge_left
  · refine .inr ⟨hlt, hreported.merge_right, plan, hplan, hwithin.mono id ?_⟩
    exact fun name hname =>
      hname.mono (fun _ h => h) (fun _ h => h) fun _ => Reported.merge_right

/-! ## Closing a type -/

section Close

variable {plan : Plan}

theorem mem_release_leaning {depth : Nat} {empty : Bool} {entry : String × Nat} :
    entry ∈ (s.release depth empty).leaning ↔ entry ∈ s.leaning ∧ entry.2 < depth := by
  simp [release, List.partition_eq_filter_filter]

theorem mem_settle_leaning {depth : Nat} {empty : Bool} {entry : String × Nat} :
    entry ∈ (s.settle depth typeName empty).leaning ↔ entry ∈ s.leaning ∧ entry.2 < depth :=
  @mem_release_leaning s depth empty entry

/-- The types that lean on the type at a depth or above it. -/
def released (s : Search) (depth : Nat) : List String :=
  (s.leaning.filter fun entry => !decide (entry.2 < depth)).map Prod.fst

theorem mem_released {depth : Nat} {name : String} :
    name ∈ s.released depth ↔ ∃ d, (name, d) ∈ s.leaning ∧ depth ≤ d := by
  simp [released]

theorem get?_release_settled {depth : Nat} {name : String} :
    (s.release depth true).settled.get? name =
      if name ∈ s.released depth then some true else s.settled.get? name := by
  have hconst : (s.leaning.filter (fun entry => !decide (entry.2 < depth))).map
      (fun entry => (entry.1, true)) = (s.released depth).map fun name => (name, true) := by
    rw [released, List.map_map]
    rfl
  simp only [release, List.partition_eq_filter_filter, if_true, Function.comp_def]
  rw [hconst, OrderedMap.get?_insertAll_const]

/-- Beginning to walk a plan is not seen by what the walk leaves. -/
theorem Leans.of_enter (h : Leans r stack (s.enter typeName) pending s') :
    Leans r stack s pending s' :=
  ⟨h.decides, h.settled, h.kept, h.leaning⟩

/-- The type at the top of the stack turns out to be empty by itself: nothing that its walk left
leaning reports a type below it. -/
theorem Leans.settle (hentry : ∀ entry ∈ s.leaning, entry.2 < stack.length)
    (hplan : r.plan? typeName = some plan)
    (h : Leans r (typeName :: stack) s pending s')
    (hwithin : plan.Within False (s'.Excuses (typeName :: stack) pending))
    (habove : ∀ j, Reported pending j → stack.length ≤ j) :
    Leans r stack s none (s'.settle stack.length typeName true) ∧
      (s'.settle stack.length typeName true).settled.get? typeName = some true := by
  have hget : ∀ name, (s'.settle stack.length typeName true).settled.get? name =
      if name = typeName then some true
      else if name ∈ s'.released stack.length then some true
      else s'.settled.get? name := by
    intro name
    simp only [Search.settle, OrderedMap.get?_insert, get?_release_settled]
  have hmono : ∀ name, s'.settled.get? name = some true →
      (s'.settle stack.length typeName true).settled.get? name = some true := by
    intro name hname
    rw [hget]
    split
    · rfl
    · split
      · rfl
      · exact hname
  -- Whatever the walk leaned on is settled now: no open type under this one was reported.
  have hexcused : ∀ name, s'.Excuses (typeName :: stack) pending name →
      (s'.settle stack.length typeName true).settled.get? name = some true := by
    rintro name (hdone | ⟨j, hdepth, hj⟩ | ⟨d, hmem, hd⟩)
    · exact hmono name hdone
    · by_cases heq : typeName = name
      · rw [hget, if_pos heq.symm]
      · rw [depth?_cons_of_ne heq] at hdepth
        exact absurd (lt_length_of_depth? hdepth) (Nat.not_lt.2 (habove j hj))
    · rw [hget]
      split
      · rfl
      · rw [if_pos (mem_released.2 ⟨d, hmem, habove d hd⟩)]
  refine ⟨⟨?_, fun name hname => hmono name (h.settled name hname), ?_, ?_⟩, ?_⟩
  · refine h.decides.settle_empty ?_ hmono ?_
    · intro name
      rw [hget]
      split
      · exact .inl rfl
      · split
        · exact .inl rfl
        · exact .inr rfl
    · intro name hname hold
      rw [hget] at hname
      split at hname
      · rename_i heq
        exact ⟨plan, heq ▸ hplan, hwithin.mono id hexcused⟩
      · split at hname
        · rename_i hreleased
          obtain ⟨d, hmem, hle⟩ := mem_released.1 hreleased
          rcases h.leaning _ hmem with hfirst | ⟨_, _, found, hfound, hfoundWithin⟩
          · exact absurd (hentry _ hfirst) (Nat.not_lt.2 hle)
          · exact ⟨found, hfound, hfoundWithin.mono id hexcused⟩
        · exact absurd hname hold
  · intro entry hmem
    exact mem_settle_leaning.2 ⟨h.kept entry hmem, hentry entry hmem⟩
  · intro entry hmem
    obtain ⟨hmem, hlt⟩ := mem_settle_leaning.1 hmem
    rcases h.leaning entry hmem with hfirst | ⟨_, hreported, _⟩
    · exact .inl hfirst
    · exact absurd hlt (Nat.not_lt.2 (habove _ hreported))
  · rw [hget, if_pos rfl]

/-- The type at the top of the stack leans on a type under it, and so does now all that leaned on
it. -/
theorem Leans.defer {depth : Nat} (hentry : ∀ entry ∈ s.leaning, entry.2 < stack.length)
    (hplan : r.plan? typeName = some plan)
    (h : Leans r (typeName :: stack) s (some depth) s')
    (hwithin : plan.Within False (s'.Excuses (typeName :: stack) (some depth)))
    (hbelow : depth < stack.length) :
    Leans r stack s (some depth) (s'.defer stack.length typeName depth) := by
  have hself : Reported (some depth) depth := ⟨depth, rfl, Nat.le_refl depth⟩
  have hmem : ∀ name d, (name, d) ∈ s'.leaning → Reported (some depth) d →
      ∃ d', (name, d') ∈ (s'.defer stack.length typeName depth).leaning ∧
        Reported (some depth) d' := by
    intro name d hname hd
    by_cases hle : stack.length ≤ d
    · refine ⟨depth, List.mem_cons_of_mem _ (List.mem_map.2 ⟨(name, d), hname, ?_⟩), hself⟩
      rw [if_pos hle]
    · refine ⟨d, List.mem_cons_of_mem _ (List.mem_map.2 ⟨(name, d), hname, ?_⟩), hd⟩
      rw [if_neg hle]
  -- The type itself is no longer open, but it leans now at the depth that the walk reports.
  have hexcused : ∀ name, s'.Excuses (typeName :: stack) (some depth) name →
      (s'.defer stack.length typeName depth).Excuses stack (some depth) name := by
    rintro name (hdone | ⟨j, hdepth, hj⟩ | ⟨d, hname, hd⟩)
    · exact .inl hdone
    · by_cases heq : typeName = name
      · subst heq
        exact .inr (.inr ⟨depth, List.mem_cons_self, hself⟩)
      · rw [depth?_cons_of_ne heq] at hdepth
        exact .inr (.inl ⟨j, hdepth, hj⟩)
    · exact .inr (.inr (hmem name d hname hd))
  refine ⟨h.decides, h.settled, ?_, ?_⟩
  · intro entry hold
    have hlt := hentry entry hold
    refine List.mem_cons_of_mem _ (List.mem_map.2 ⟨entry, h.kept entry hold, ?_⟩)
    rw [if_neg (Nat.not_le.2 hlt)]
  · intro entry hnew
    rcases List.mem_cons.1 hnew with rfl | hmap
    · exact .inr ⟨hbelow, hself, plan, hplan, hwithin.mono id hexcused⟩
    · obtain ⟨old, hold, rfl⟩ := List.mem_map.1 hmap
      rcases h.leaning old hold with hfirst | ⟨hlt, hreported, found, hfound, hfoundWithin⟩
      · rw [if_neg (Nat.not_le.2 (hentry old hfirst))]
        exact .inl hfirst
      · by_cases hle : stack.length ≤ old.2
        · rw [if_pos hle]
          exact .inr ⟨hbelow, hself, found, hfound, hfoundWithin.mono id hexcused⟩
        · rw [if_neg hle]
          exact .inr ⟨Nat.lt_of_not_le hle, hreported, found, hfound,
            hfoundWithin.mono id hexcused⟩

/-- The conclusion about a type answers for it as the walk of its plan did for the plan. -/
theorem Answers.conclude {nullable : Bool} {answer : Except GenerationError Verdict × Search}
    (hentry : ∀ entry ∈ s.leaning, entry.2 < stack.length)
    (hplan : r.plan? typeName = some plan)
    (h : Answers r (typeName :: stack) plan (s.enter typeName) answer) :
    Answers r stack (.delegate typeName nullable) s
      (Search.conclude stack.length typeName answer) := by
  obtain ⟨result, s'⟩ := answer
  cases result with
  | error e =>
      obtain ⟨hdecides, name, inner, he, hreach, hnone⟩ := h
      exact ⟨hdecides, name, inner, he, .head (.unfold hplan) hreach, hnone⟩
  | ok verdict =>
      cases verdict with
      | holdsDate =>
          obtain ⟨hdecides, hdate⟩ := h
          exact ⟨hdecides.settle_holdsDate hplan hdate,
            (Registry.holdsDate_delegate_iff hplan).2 hdate⟩
      | empty pending =>
          obtain ⟨hentered, hwithin⟩ := h
          have hleans := hentered.of_enter
          cases pending with
          | none =>
              obtain ⟨hsettle, hself⟩ := Leans.settle hentry hplan hleans hwithin
                fun j hj => absurd hj not_reported_none
              exact ⟨hsettle, .delegate (.inl hself)⟩
          | some depth =>
              rw [Search.conclude]
              split
              · rename_i hbelow
                refine ⟨Leans.defer hentry hplan hleans hwithin hbelow, .delegate ?_⟩
                exact .inr (.inr ⟨depth, List.mem_cons_self, depth, rfl, Nat.le_refl depth⟩)
              · rename_i habove
                obtain ⟨hsettle, hself⟩ := Leans.settle hentry hplan hleans hwithin
                  fun j ⟨d, hd, hle⟩ => by cases hd; omega
                exact ⟨hsettle, .delegate (.inl hself)⟩

end Close

/-! ## Walking plans -/

/-- The types that lean on open types do so at depths that are open. -/
def Below (s : Search) (stack : List String) : Prop :=
  ∀ entry ∈ s.leaning, entry.2 < stack.length

theorem Leans.below (hbelow : s.Below stack) (h : Leans r stack s pending s') :
    s'.Below stack := by
  intro entry hentry
  rcases h.leaning entry hentry with hold | ⟨hlt, _⟩
  · exact hbelow entry hold
  · exact hlt

/-- An answer about a part is one about the whole, if the whole has nothing beside the part. -/
theorem Answers.of_step {part whole : Plan} {answer : Except GenerationError Verdict × Search}
    (h : Answers r stack part s answer) (hstep : r.Step whole part)
    (hwhole : ∀ pending s', answer = (.ok (.empty pending), s') →
      part.Within False (s'.Excuses stack pending) →
      whole.Within False (s'.Excuses stack pending)) : Answers r stack whole s answer := by
  obtain ⟨result, s'⟩ := answer
  cases result with
  | error e =>
      obtain ⟨hdecides, name, inner, he, hreach, hnone⟩ := h
      exact ⟨hdecides, name, inner, he, .head hstep hreach, hnone⟩
  | ok verdict =>
      cases verdict with
      | holdsDate => exact ⟨h.1, h.2.of_step hstep⟩
      | empty pending => exact ⟨h.1, hwhole pending s' rfl h.2⟩

/-- What is reached from some properties of an object is reached from the object. -/
theorem reaches_object_of_subset {properties more : List (String × Plan)} {nullable inner : Bool}
    {name : String} (hsubset : ∀ property ∈ properties, property ∈ more)
    (h : r.Reaches (.object properties nullable) (.delegate name inner)) :
    r.Reaches (.object more nullable) (.delegate name inner) := by
  rcases Relation.ReflTransGen.cases_head h with heq | ⟨q, hstep, hrest⟩
  · cases heq
  · cases hstep with
    | property hmem => exact .head (.property (hsubset _ hmem)) hrest

/-- The answer about the further properties of an object is one about all of them, once the first
was found empty. -/
theorem Answers.of_rest {name : String} {plan : Plan} {rest : List (String × Plan)}
    {nullable : Bool} {answer : Except GenerationError Verdict × Search}
    (hfirst : Leans r stack s pending s')
    (hplan : plan.Within False (s'.Excuses stack pending)) :
    Answers r stack (.object rest nullable) s' answer →
      Answers r stack (.object ((name, plan) :: rest) nullable) s
        (match answer with
          | (.ok (.empty others), s'') => (.ok (.empty (Option.merge min pending others)), s'')
          | answer => answer) := by
  intro h
  have hsubset : ∀ property ∈ rest, property ∈ (name, plan) :: rest :=
    fun property hmem => List.mem_cons_of_mem _ hmem
  obtain ⟨result, s''⟩ := answer
  cases result with
  | error e =>
      obtain ⟨hdecides, other, inner, he, hreach, hnone⟩ := h
      exact ⟨hdecides, other, inner, he, reaches_object_of_subset hsubset hreach, hnone⟩
  | ok verdict =>
      cases verdict with
      | holdsDate =>
          obtain ⟨hdecides, hdate⟩ := h
          obtain ⟨property, hmem, hproperty⟩ := Registry.holdsDate_object_iff.1 hdate
          exact ⟨hdecides, Registry.holdsDate_object_iff.2 ⟨property, hsubset _ hmem, hproperty⟩⟩
      | empty others =>
          obtain ⟨hrest, hwithin⟩ := h
          refine ⟨hfirst.trans hrest, .object ?_⟩
          intro property hmem
          rcases List.mem_cons.1 hmem with rfl | hmem
          · exact hplan.mono id fun other hother =>
              hother.mono hrest.settled hrest.kept fun _ => Reported.merge_left
          · cases hwithin with
            | object hall =>
                exact (hall property hmem).mono id fun other hother =>
                  hother.mono (fun _ h => h) (fun _ h => h) fun _ => Reported.merge_right

end Search

open Search

mutual

/-- The search answers for a type by what is reached from it. -/
theorem typeVerdict_answers (r : Registry) (stack : List String) (typeName : String)
    (nullable : Bool) (s : Search) (hdecides : r.Decides s.settled) (hbelow : s.Below stack) :
    Answers r stack (.delegate typeName nullable) s (typeVerdict r stack typeName s) := by
  rw [typeVerdict]
  split
  · rename_i hnone
    exact ⟨hdecides, typeName, nullable, rfl, .refl, hnone⟩
  · rename_i plan hplan
    split
    · rename_i htrue
      exact ⟨Leans.refl hdecides, .delegate (.inl htrue)⟩
    · rename_i hfalse
      exact ⟨hdecides, hdecides.holdsDate_of_false hfalse⟩
    · split
      · rename_i depth hopen
        exact ⟨Leans.refl hdecides,
          .delegate (.inr (.inl ⟨depth, hopen, depth, rfl, Nat.le_refl depth⟩))⟩
      · rename_i hopen
        split
        · rename_i pending hleaning
          exact ⟨Leans.refl hdecides, .delegate (.inr (.inr
            ⟨pending, mem_leaning_of_lookup hleaning, pending, rfl, Nat.le_refl pending⟩))⟩
        -- An unknown type is walked with itself open, and decided only after its whole plan: what
        -- the walk leans on may be open under it.
        · refine Answers.conclude hbelow hplan ?_
          refine planVerdict_answers r (typeName :: stack) plan (s.enter typeName) hdecides ?_
          exact fun entry hentry => Nat.lt_succ_of_lt (hbelow entry hentry)
termination_by (r.methods.countOutside stack, 0)
decreasing_by
  exact Prod.Lex.left _ _ (OrderedMap.countOutside_cons_lt
    (Registry.mem_keys_of_plan? (by assumption)) (contains_eq_false_of_depth? (by assumption)))

/-- The search answers for a plan by what is reached from it. -/
theorem planVerdict_answers (r : Registry) (stack : List String) (plan : Plan) (s : Search)
    (hdecides : r.Decides s.settled) (hbelow : s.Below stack) :
    Answers r stack plan s (planVerdict r stack plan s) := by
  cases plan with
  | primitive =>
      rw [planVerdict]
      exact ⟨Leans.refl hdecides, .primitive⟩
  | date nullable =>
      rw [planVerdict]
      exact ⟨hdecides, Registry.holdsDate_date⟩
  | delegate typeName nullable =>
      rw [planVerdict]
      exact typeVerdict_answers r stack typeName nullable s hdecides hbelow
  | array item nullable =>
      rw [planVerdict]
      have hitem := planVerdict_answers r stack item s hdecides hbelow
      exact hitem.of_step .item fun _ _ _ => .array
  | map values nullable =>
      rw [planVerdict]
      have hvalues := planVerdict_answers r stack values s hdecides hbelow
      exact hvalues.of_step .value fun _ _ _ => .map
  | object properties nullable =>
      rw [planVerdict]
      exact propertiesVerdict_answers r stack properties nullable s hdecides hbelow
termination_by (r.methods.countOutside stack, sizeOf plan)

/-- The search answers for properties by what is reached from an object of them. -/
theorem propertiesVerdict_answers (r : Registry) (stack : List String)
    (properties : List (String × Plan)) (nullable : Bool) (s : Search)
    (hdecides : r.Decides s.settled) (hbelow : s.Below stack) :
    Answers r stack (.object properties nullable) s
      (propertiesVerdict r stack properties s) := by
  cases properties with
  | nil =>
      rw [propertiesVerdict]
      exact ⟨Leans.refl hdecides, .object (by simp)⟩
  | cons property rest =>
      obtain ⟨name, plan⟩ := property
      rw [propertiesVerdict]
      have hown := planVerdict_answers r stack plan s hdecides hbelow
      rcases hfirst : planVerdict r stack plan s with ⟨result, s'⟩
      rw [hfirst] at hown
      have hstep : r.Step (.object ((name, plan) :: rest) nullable) plan :=
        .property List.mem_cons_self
      cases result with
      | error e => exact hown.of_step hstep fun _ _ heq => by cases heq
      | ok verdict =>
          cases verdict with
          | holdsDate => exact hown.of_step hstep fun _ _ heq => by cases heq
          | empty pending =>
              have hothers := propertiesVerdict_answers r stack rest nullable s'
                hown.1.decides (hown.1.below hbelow)
              exact Answers.of_rest hown.1 hown.2 hothers
termination_by (r.methods.countOutside stack, sizeOf properties)

end

end DateReviver
