import DateReviver.Emission
import DateReviver.Proofs.TypeScript.Fuel
import Std.Data.String.ToNat

/-!
# Names in generated functions

The loops of a function body have variables of their own at every level, and these are none of the
names that a body means otherwise. So a body can be followed without looking at names again, if the
parameters keep apart from them too.
-/

namespace DateReviver

open DateReviver.TypeScript

/-- The names of loop variables under so many loops. -/
def LoopName (level : Nat) (name : String) : Prop :=
  name = loopVariable "i" level ∨ name = loopVariable "key" level

theorem toList_loopVariable (base : String) (level : Nat) :
    (loopVariable base level).toList
      = base.toList ++ if level = 0 then [] else level.repr.toList := by
  unfold loopVariable
  split
  · simp
  · rw [String.toList_append]
    rfl

theorem LoopName.head? {level : Nat} {name : String} (h : LoopName level name) :
    name.toList.head? = some 'i' ∨ name.toList.head? = some 'k' := by
  rcases h with rfl | rfl
  · left
    simp [toList_loopVariable]
  · right
    simp [toList_loopVariable]

theorem not_loopName_of_head? {name : String} {c : Char} (h : name.toList.head? = some c)
    (hi : c ≠ 'i') (hk : c ≠ 'k') (level : Nat) : ¬ LoopName level name := by
  intro hloop
  rcases hloop.head? with h' | h'
  · rw [h, Option.some_inj] at h'
    exact hi h'
  · rw [h, Option.some_inj] at h'
    exact hk h'

theorem head?_append_transform (name : String) :
    ("transform" ++ name).toList.head? = some 't' := by
  rw [String.toList_append]
  rfl

theorem head?_functionName (typeName : String) :
    (functionName typeName).toList.head? = some 't' := by
  rw [functionName, String.append_assoc]
  exact head?_append_transform _

theorem loopVariable_injective {base : String} {a b : Nat}
    (h : loopVariable base a = loopVariable base b) : a = b := by
  have hlists := congrArg String.toList h
  rw [toList_loopVariable, toList_loopVariable] at hlists
  have hdigits := List.append_cancel_left hlists
  have hne (n : Nat) : n.repr.toList ≠ [] := by
    rw [Nat.toList_repr]
    exact Nat.toDigits_ne_nil
  by_cases ha : a = 0
  · by_cases hb : b = 0
    · rw [ha, hb]
    · simp only [ha, if_true, if_neg hb] at hdigits
      exact absurd hdigits.symm (hne b)
  · by_cases hb : b = 0
    · simp only [hb, if_true, if_neg ha] at hdigits
      exact absurd hdigits (hne a)
    · simp only [if_neg ha, if_neg hb] at hdigits
      exact Nat.repr_injective (String.toList_inj.1 hdigits)

/-- A loop variable tells its level. -/
theorem LoopName.level_eq {a b : Nat} {name : String} (ha : LoopName a name)
    (hb : LoopName b name) : a = b := by
  rcases ha with rfl | rfl
  · rcases hb with h | h
    · exact loopVariable_injective h
    · have hheads := congrArg (fun name => name.toList.head?) h
      simp [toList_loopVariable] at hheads
  · rcases hb with h | h
    · have hheads := congrArg (fun name => name.toList.head?) h
      simp [toList_loopVariable] at hheads
    · exact loopVariable_injective h

/-- A parameter is none of the names that the body of a function means otherwise. -/
structure ParamApart (m : Module) (param : String) : Prop where
  loops : ∀ level, ¬ LoopName level param
  undefined : param ≠ "undefined"
  date : param ≠ "Date"
  object : param ≠ "Object"
  functions : ∀ f ∈ m, f.name ≠ param

/-- The names of a module are apart: its functions have distinct names, and no parameter has a name
that means something else. -/
structure NamesApart (m : Module) : Prop where
  functions : (m.map Function.name).Nodup
  params : ∀ f ∈ m, ∀ param ∈ f.params, ParamApart m param.name

/-! ## Environments -/

/-- The names of functions begin as no other name that a body means. -/
def FunctionsNamed (m : Module) : Prop :=
  ∀ f ∈ m, f.name.toList.head? = some 't'

/-- What is seen under so many loops: the variables of these loops, over a parameter that is apart
from them. -/
structure Sees (m : Module) (level : Nat) (env : Env) : Prop where
  named : FunctionsNamed m
  param : ParamApart m env.param
  loops : ∀ entry ∈ env.loops, ∃ outer, outer < level ∧ LoopName outer entry.1

/-- Variables of loops that are at a level or deeper. -/
def Deeper (level : Nat) (more : List (String × Option Key)) : Prop :=
  ∀ entry ∈ more, ∃ inner, level ≤ inner ∧ LoopName inner entry.1

theorem Deeper.nil {level : Nat} : Deeper level [] :=
  fun _ h => by cases h

theorem Deeper.lookup {level outer : Nat} {more : List (String × Option Key)} {name : String}
    (h : Deeper level more) (hname : LoopName outer name) (hlt : outer < level) :
    more.lookup name = none := by
  rw [List.lookup_eq_none_iff]
  intro entry hentry
  obtain ⟨inner, hinner, hloop⟩ := h entry hentry
  rw [bne_iff_ne]
  rintro rfl
  have hlevel : inner = outer := hloop.level_eq hname
  omega

section Sees

variable {m : Module} {level : Nat} {env : Env} {name : String}

theorem Sees.function {param : String} (hnamed : FunctionsNamed m) (h : ParamApart m param) :
    Sees m 0 ⟨param, []⟩ :=
  ⟨hnamed, h, fun _ hentry => by cases hentry⟩

theorem Sees.enter (h : Sees m level env) (hname : LoopName level name) (key : Option Key) :
    Sees m (level + 1) (env.under [(name, key)]) := by
  refine ⟨h.named, h.param, fun entry hentry => ?_⟩
  rcases List.mem_cons.1 hentry with rfl | hrest
  · exact ⟨level, by omega, hname⟩
  · obtain ⟨outer, houter, hloop⟩ := h.loops entry hrest
    exact ⟨outer, by omega, hloop⟩

theorem Sees.lookup (h : Sees m level env) (hname : ∀ level, ¬ LoopName level name) :
    env.loops.lookup name = none := by
  rw [List.lookup_eq_none_iff]
  intro entry hentry
  obtain ⟨outer, _, hloop⟩ := h.loops entry hentry
  rw [bne_iff_ne]
  rintro rfl
  exact hname outer hloop

theorem Sees.isParam (h : Sees m level env) : env.isParam env.param = true := by
  simp [Env.isParam, h.lookup h.param.loops]

theorem Sees.isOuter (h : Sees m level env) (hname : ∀ level, ¬ LoopName level name)
    (hparam : name ≠ env.param) : env.isOuter name = true := by
  simp [Env.isOuter, h.lookup hname, hparam]

/-- A name that no function of the module has. -/
theorem FunctionsNamed.not_any {c : Char} (h : FunctionsNamed m)
    (hname : name.toList.head? = some c) (hne : c ≠ 't') :
    (!m.any fun f => f.name == name) = true := by
  rw [Bool.not_eq_true', List.any_eq_false]
  intro f hf heq
  have hhead := h f hf
  rw [beq_iff_eq.1 heq, hname, Option.some_inj] at hhead
  exact hne hhead

/-- A parameter that begins as none of the names that a body means otherwise. -/
theorem ParamApart.of_head? {c : Char} (h : FunctionsNamed m) (hname : name.toList.head? = some c)
    (hc : c ∉ ['i', 'k', 'u', 'D', 'O', 't']) : ParamApart m name := by
  simp only [List.mem_cons, List.not_mem_nil, or_false, not_or] at hc
  obtain ⟨hi, hk, hu, hd, ho, ht⟩ := hc
  have hne {other : String} {d : Char} (hother : other.toList.head? = some d) (hd : c ≠ d) :
      name ≠ other := by
    rintro rfl
    rw [hname, Option.some_inj] at hother
    exact hd hother
  exact ⟨not_loopName_of_head? hname hi hk, hne rfl hu, hne rfl hd, hne rfl ho,
    fun f hf => (hne (h f hf) ht).symm⟩

/-- A name of the language means what it always does. -/
theorem Sees.global {c : Char} (h : Sees m level env) (hname : name.toList.head? = some c)
    (hc : c ≠ 'i' ∧ c ≠ 'k' ∧ c ≠ 't') (hparam : name ≠ env.param) :
    (env.isOuter name && !m.any fun f => f.name == name) = true := by
  rw [Bool.and_eq_true]
  exact ⟨h.isOuter (not_loopName_of_head? hname hc.1 hc.2.1) hparam, h.named.not_any hname hc.2.2⟩

theorem Sees.global_undefined (h : Sees m level env) :
    (env.isOuter "undefined" && !m.any fun f => f.name == "undefined") = true :=
  h.global rfl (by decide) h.param.undefined.symm

theorem Sees.global_date (h : Sees m level env) :
    (env.isOuter "Date" && !m.any fun f => f.name == "Date") = true :=
  h.global rfl (by decide) h.param.date.symm

theorem Sees.global_object (h : Sees m level env) :
    (env.isOuter "Object" && !m.any fun f => f.name == "Object") = true :=
  h.global rfl (by decide) h.param.object.symm

/-- A function of the module can be called. -/
theorem Sees.callable (h : Sees m level env) {f : Function} (hf : f ∈ m) :
    env.isOuter f.name = true :=
  h.isOuter (not_loopName_of_head? (h.named f hf) (by decide) (by decide)) (h.param.functions f hf)

end Sees

end DateReviver
