import DateReviver.Proofs.Emptiness.Search
import DateReviver.Proofs.Emptiness.Walk
import Mathlib.Data.List.Nodup
import Mathlib.Logic.Function.Basic

/-!
# The bookkeeping of the emptiness search

The search is handed the open types by its caller. A search that keeps its books in one store writes
them down instead: it counts the open types and marks each with its depth, and so every way out of a
type has to take the mark away, to lower the count, and to let go of what leaned on the type. Both do
the same. Under the open types of any moment no type stands in two places, settled, leaning or open;
therefore a type that is left without a verdict finds the mark again that it had before it was opened,
and where no type is open when a question is put, none is open and none leaning when it is answered.
-/

namespace DateReviver

namespace Search

/-! ## The standing of a type -/

/-- Under open types, no type stands in two places: what leans does so once, on an open type, and is
neither open nor settled; what is open is not settled. -/
structure Confined (s : Search) (stack : List String) : Prop where
  below : s.Below stack
  distinct : (s.leaning.map Prod.fst).Nodup
  closed : ∀ entry ∈ s.leaning, entry.1 ∉ stack
  waiting : ∀ entry ∈ s.leaning, s.settled.get? entry.1 = none
  opened : ∀ name ∈ stack, s.settled.get? name = none

/-- What is settled stays as it is. -/
def Keeps (s s' : Search) : Prop :=
  ∀ name empty, s.settled.get? name = some empty → s'.settled.get? name = some empty

variable {r : Registry} {stack : List String} {s s' s'' : Search} {typeName : String}

theorem Keeps.refl (s : Search) : s.Keeps s :=
  fun _ _ h => h

theorem Keeps.trans (h : s.Keeps s') (h' : s'.Keeps s'') : s.Keeps s'' :=
  fun name empty hname => h' name empty (h name empty hname)

theorem depth?_eq_none_iff : depth? stack typeName = none ↔ typeName ∉ stack := by
  constructor
  · exact not_mem_of_depth?
  · intro h
    induction stack with
    | nil => rfl
    | cons latest rest ih =>
        rw [List.mem_cons, not_or] at h
        rw [depth?, if_neg fun heq => h.1 heq.symm, ih h.2]

/-- Where nothing leans and no verdict is about an open type, the standing is right. -/
theorem Confined.of_leaning_eq_nil (hleaning : s.leaning = [])
    (hopened : ∀ name ∈ stack, s.settled.get? name = none) : s.Confined stack := by
  constructor
  · simp [Below, hleaning]
  · simp [hleaning]
  · simp [hleaning]
  · simp [hleaning]
  · exact hopened

theorem Confined.leaning_eq_nil (h : s.Confined []) : s.leaning = [] := by
  refine List.eq_nil_iff_forall_not_mem.2 fun entry hmem => ?_
  exact Nat.not_lt_zero _ (h.below entry hmem)

/-- A type is opened that is neither settled, open nor leaning. -/
theorem Confined.enter (h : s.Confined stack) (hsettled : s.settled.get? typeName = none)
    (hleaning : s.leaning.lookup typeName = none) :
    (s.enter typeName).Confined (typeName :: stack) := by
  constructor
  · intro entry hmem
    exact Nat.lt_succ_of_lt (h.below entry hmem)
  · exact h.distinct
  · intro entry hmem hopen
    rcases List.mem_cons.1 hopen with heq | hopen
    · have hne := List.lookup_eq_none_iff.1 hleaning entry hmem
      simp [heq] at hne
    · exact h.closed entry hmem hopen
  · exact h.waiting
  · intro name hmem
    rcases List.mem_cons.1 hmem with rfl | hmem
    · exact hsettled
    · exact h.opened name hmem

theorem get?_settle {depth : Nat} {empty : Bool} {name : String} :
    (s.settle depth typeName empty).settled.get? name =
      if name = typeName then some empty
      else if empty = true ∧ name ∈ s.released depth then some true
      else s.settled.get? name := by
  cases empty with
  | false => simp [Search.settle, release, OrderedMap.get?_insert]
  | true => simp only [Search.settle, OrderedMap.get?_insert, get?_release_settled, true_and]

theorem leaning_release {depth : Nat} {empty : Bool} :
    (s.release depth empty).leaning = s.leaning.filter fun entry => entry.2 < depth := by
  simp [release, List.partition_eq_filter_filter]

/-- A type leans at one depth only, so none is both let go and kept. -/
theorem Confined.not_mem_released (h : s.Confined stack) {depth : Nat} {entry : String × Nat}
    (hmem : entry ∈ s.leaning) (hlt : entry.2 < depth) : entry.1 ∉ s.released depth := by
  intro hreleased
  obtain ⟨d, hother, hle⟩ := mem_released.1 hreleased
  have heq := List.inj_on_of_nodup_map h.distinct hmem hother rfl
  rw [heq] at hlt
  omega

/-- An error closes the type at the top of the stack without a verdict. -/
theorem Confined.release (h : s.Confined (typeName :: stack)) :
    (s.release stack.length false).Confined stack := by
  constructor
  · intro entry hmem
    exact (mem_release_leaning.1 hmem).2
  · rw [leaning_release]
    exact h.distinct.sublist (List.filter_sublist.map Prod.fst)
  · intro entry hmem hopen
    exact h.closed entry (mem_release_leaning.1 hmem).1 (List.mem_cons_of_mem _ hopen)
  · intro entry hmem
    exact h.waiting entry (mem_release_leaning.1 hmem).1
  · intro name hmem
    exact h.opened name (List.mem_cons_of_mem _ hmem)

/-- A verdict about the type at the top of the stack closes it. -/
theorem Confined.settle (h : s.Confined (typeName :: stack)) (hnew : typeName ∉ stack)
    (empty : Bool) : (s.settle stack.length typeName empty).Confined stack := by
  constructor
  · intro entry hmem
    exact (mem_settle_leaning.1 hmem).2
  · have hleaning : (s.settle stack.length typeName empty).leaning =
        s.leaning.filter fun entry => entry.2 < stack.length :=
      @leaning_release s stack.length empty
    rw [hleaning]
    exact h.distinct.sublist (List.filter_sublist.map Prod.fst)
  · intro entry hmem hopen
    exact h.closed entry (mem_settle_leaning.1 hmem).1 (List.mem_cons_of_mem _ hopen)
  · intro entry hmem
    obtain ⟨hold, hlt⟩ := mem_settle_leaning.1 hmem
    have hne : entry.1 ≠ typeName := fun heq => h.closed entry hold (heq ▸ List.mem_cons_self)
    rw [get?_settle, if_neg hne, if_neg fun hboth => h.not_mem_released hold hlt hboth.2]
    exact h.waiting entry hold
  · intro name hmem
    have hne : name ≠ typeName := fun heq => hnew (heq ▸ hmem)
    have hkept : name ∉ s.released stack.length := by
      intro hreleased
      obtain ⟨d, hleaning, _⟩ := mem_released.1 hreleased
      exact h.closed _ hleaning (List.mem_cons_of_mem _ hmem)
    rw [get?_settle, if_neg hne, if_neg fun hboth => hkept hboth.2]
    exact h.opened name (List.mem_cons_of_mem _ hmem)

theorem Confined.keeps_settle (h : s.Confined (typeName :: stack)) (empty : Bool) :
    s.Keeps (s.settle stack.length typeName empty) := by
  intro name own hname
  have hne : name ≠ typeName := by
    intro heq
    rw [heq, h.opened typeName List.mem_cons_self] at hname
    cases hname
  have hkept : name ∉ s.released stack.length := by
    intro hreleased
    obtain ⟨d, hleaning, _⟩ := mem_released.1 hreleased
    rw [h.waiting _ hleaning] at hname
    cases hname
  rw [get?_settle, if_neg hne, if_neg fun hboth => hkept hboth.2]
  exact hname

/-- The type at the top of the stack is closed, and leans from now on. -/
theorem Confined.defer {pending : Nat} (h : s.Confined (typeName :: stack)) (hnew : typeName ∉ stack)
    (hbelow : pending < stack.length) :
    (s.defer stack.length typeName pending).Confined stack := by
  have hcases : ∀ entry ∈ (s.defer stack.length typeName pending).leaning,
      entry = (typeName, pending) ∨
        ∃ old ∈ s.leaning, entry.1 = old.1 ∧ entry.2 < stack.length := by
    intro entry hmem
    rcases List.mem_cons.1 hmem with heq | hmem
    · exact .inl heq
    · obtain ⟨old, hold, heq⟩ := List.mem_map.1 hmem
      refine .inr ⟨old, hold, ?_⟩
      subst heq
      by_cases hle : stack.length ≤ old.2
      · simp [hle, hbelow]
      · simp [hle]
        omega
  constructor
  · intro entry hmem
    rcases hcases entry hmem with rfl | ⟨_, _, _, hlt⟩
    · exact hbelow
    · exact hlt
  · have hnames : (s.defer stack.length typeName pending).leaning.map Prod.fst =
        typeName :: s.leaning.map Prod.fst := by
      simp only [Search.defer, List.map_cons, List.map_map]
      congr 1
      refine List.map_congr_left fun entry _ => ?_
      simp only [Function.comp_apply]
      split <;> rfl
    rw [hnames, List.nodup_cons]
    refine ⟨fun hmem => ?_, h.distinct⟩
    obtain ⟨entry, hentry, heq⟩ := List.mem_map.1 hmem
    exact h.closed entry hentry (heq ▸ List.mem_cons_self)
  · intro entry hmem hopen
    rcases hcases entry hmem with rfl | ⟨old, hold, heq, _⟩
    · exact hnew hopen
    · exact h.closed old hold (heq ▸ List.mem_cons_of_mem _ hopen)
  · intro entry hmem
    rcases hcases entry hmem with rfl | ⟨old, hold, heq, _⟩
    · exact h.opened typeName List.mem_cons_self
    · rw [heq]
      exact h.waiting old hold
  · intro name hmem
    exact h.opened name (List.mem_cons_of_mem _ hmem)

/-- However the walk of its plan has ended, the type at the top of the stack is closed. -/
theorem Confined.conclude {answer : Except GenerationError Verdict × Search}
    (h : answer.2.Confined (typeName :: stack)) (hnew : typeName ∉ stack) :
    (Search.conclude stack.length typeName answer).2.Confined stack ∧
      answer.2.Keeps (Search.conclude stack.length typeName answer).2 := by
  obtain ⟨result, s⟩ := answer
  cases result with
  | error e => exact ⟨h.release, fun _ _ hname => hname⟩
  | ok verdict =>
      cases verdict with
      | holdsDate => exact ⟨h.settle hnew false, h.keeps_settle false⟩
      | empty pending =>
          cases pending with
          | none => exact ⟨h.settle hnew true, h.keeps_settle true⟩
          | some pending =>
              rw [Search.conclude]
              split
              · rename_i hbelow
                exact ⟨h.defer hnew hbelow, fun _ _ hname => hname⟩
              · exact ⟨h.settle hnew true, h.keeps_settle true⟩

/-- A walk leaves the standing of the types right, under the types that were open before, and every
verdict as it was. -/
theorem confined_rule (r : Registry) : Rule r fun stack s answer =>
    s.Confined stack → answer.2.Confined stack ∧ s.Keeps answer.2 := by
  constructor
  case still => exact fun stack s _ h => ⟨h, .refl s⟩
  case opened =>
    intro stack s typeName plan _ hsettled hnew hleaning hwalk h
    obtain ⟨hafter, hkept⟩ := hwalk (h.enter hsettled hleaning)
    obtain ⟨hclosed, hkeeps⟩ := hafter.conclude hnew
    exact ⟨hclosed, Keeps.trans hkept hkeeps⟩
  case further =>
    intro stack s pending s' plan rest _ hown hothers h
    obtain ⟨hmiddle, hkept⟩ := hown h
    obtain ⟨hafter, hkeeps⟩ := hothers hmiddle
    exact ⟨hafter, hkept.trans hkeeps⟩

end Search

open Search

theorem Question.verdict_confined {r : Registry} {stack : List String} {s : Search}
    (h : s.Confined stack) (question : Question) :
    (question.verdict r stack s).2.Confined stack ∧ s.Keeps (question.verdict r stack s).2 :=
  (confined_rule r).verdict question stack s h

theorem planVerdict_confined (r : Registry) {stack : List String} {s : Search}
    (h : s.Confined stack) (plan : Plan) :
    (planVerdict r stack plan s).2.Confined stack ∧ s.Keeps (planVerdict r stack plan s).2 :=
  Question.verdict_confined h (.plan plan)

/-! ## One store for all -/

/-- The mark that a search has set on a type. -/
inductive Mark where
  | idle
  /-- Its plan is being walked, with so many types open before it. -/
  | opened (depth : Nat)
  | settled (empty : Bool)

/-- What a search writes down: how many types are open, the marks of the types, and the types that lean
with the depths of the types they lean on. -/
structure Desk where
  depth : Nat
  mark : String → Mark
  leaning : List (String × Nat)

namespace Desk

def setMark (d : Desk) (typeName : String) (mark : Mark) : Desk :=
  { d with mark := Function.update d.mark typeName mark }

/-- Open a type. -/
def enter (d : Desk) (typeName : String) : Desk :=
  { d.setMark typeName (.opened d.depth) with depth := d.depth + 1 }

/-- Let go of the types that lean on a depth or above it. If the type at that depth is empty they are. -/
def release (d : Desk) (empty : Bool) : Desk :=
  { d with
    mark := fun name =>
      if empty && d.leaning.any fun entry => entry.1 == name && decide (d.depth ≤ entry.2) then
        .settled true
      else d.mark name
    leaning := d.leaning.filter fun entry => entry.2 < d.depth }

/-- Keep a type aside that leans on another one, and let lean on that one whatever leaned on it. -/
def defer (d : Desk) (typeName : String) (pending : Nat) : Desk :=
  { d with
    leaning := (typeName, pending) ::
      d.leaning.map fun entry => if d.depth ≤ entry.2 then (entry.1, pending) else entry }

/-- Take the count of open types back. -/
def leave (d : Desk) (depth : Nat) : Desk :=
  { d with depth }

/-- Close the type that was opened at a depth, as the walk of its plan has ended. -/
def close (d : Desk) (depth : Nat) (typeName : String) :
    Except GenerationError Verdict → Except GenerationError Verdict × Desk
  | .error e => (.error e, ((d.leave depth).setMark typeName .idle).release false)
  | .ok .holdsDate =>
      (.ok .holdsDate, ((d.leave depth).release false).setMark typeName (.settled false))
  | .ok (.empty none) =>
      (.ok (.empty none), ((d.leave depth).release true).setMark typeName (.settled true))
  | .ok (.empty (some pending)) =>
      if pending < depth then
        (.ok (.empty (some pending)),
          ((d.leave depth).setMark typeName .idle).defer typeName pending)
      else (.ok (.empty none), ((d.leave depth).release true).setMark typeName (.settled true))

end Desk

/-- A question is put to a registry and answered, with the books before and after. The first of the
properties that is not empty decides. -/
inductive Desk.Asks (r : Registry) :
    Desk → Question → Except GenerationError Verdict → Desk → Prop
  | unplanned {d : Desk} {typeName : String} (h : r.plan? typeName = none) :
      Asks r d (.type typeName) (.error (.prematureEmptinessCheck typeName)) d
  | settled {d : Desk} {typeName : String} {plan : Plan} {empty : Bool}
      (hplan : r.plan? typeName = some plan) (h : d.mark typeName = .settled empty) :
      Asks r d (.type typeName) (.ok (if empty then .empty none else .holdsDate)) d
  | opened {d : Desk} {typeName : String} {plan : Plan} {depth : Nat}
      (hplan : r.plan? typeName = some plan) (h : d.mark typeName = .opened depth) :
      Asks r d (.type typeName) (.ok (.empty (some depth))) d
  | leaning {d : Desk} {typeName : String} {plan : Plan} {pending : Nat}
      (hplan : r.plan? typeName = some plan) (hidle : d.mark typeName = .idle)
      (h : d.leaning.lookup typeName = some pending) :
      Asks r d (.type typeName) (.ok (.empty (some pending))) d
  | walked {d d' : Desk} {typeName : String} {plan : Plan}
      {answer : Except GenerationError Verdict}
      (hplan : r.plan? typeName = some plan) (hidle : d.mark typeName = .idle)
      (hnew : d.leaning.lookup typeName = none)
      (h : Asks r (d.enter typeName) (.plan plan) answer d') :
      Asks r d (.type typeName) (d'.close d.depth typeName answer).1
        (d'.close d.depth typeName answer).2
  | primitive {d : Desk} : Asks r d (.plan .primitive) (.ok (.empty none)) d
  | date {d : Desk} {nullable : Bool} : Asks r d (.plan (.date nullable)) (.ok .holdsDate) d
  | delegate {d d' : Desk} {typeName : String} {nullable : Bool}
      {answer : Except GenerationError Verdict} (h : Asks r d (.type typeName) answer d') :
      Asks r d (.plan (.delegate typeName nullable)) answer d'
  | array {d d' : Desk} {item : Plan} {nullable : Bool} {answer : Except GenerationError Verdict}
      (h : Asks r d (.plan item) answer d') : Asks r d (.plan (.array item nullable)) answer d'
  | map {d d' : Desk} {values : Plan} {nullable : Bool} {answer : Except GenerationError Verdict}
      (h : Asks r d (.plan values) answer d') : Asks r d (.plan (.map values nullable)) answer d'
  | object {d d' : Desk} {properties : List (String × Plan)} {nullable : Bool}
      {answer : Except GenerationError Verdict} (h : Asks r d (.properties properties) answer d') :
      Asks r d (.plan (.object properties nullable)) answer d'
  | nil {d : Desk} : Asks r d (.properties []) (.ok (.empty none)) d
  | failed {d d' : Desk} {name : String} {plan : Plan} {rest : List (String × Plan)}
      {e : GenerationError} (h : Asks r d (.plan plan) (.error e) d') :
      Asks r d (.properties ((name, plan) :: rest)) (.error e) d'
  | decided {d d' : Desk} {name : String} {plan : Plan} {rest : List (String × Plan)}
      (h : Asks r d (.plan plan) (.ok .holdsDate) d') :
      Asks r d (.properties ((name, plan) :: rest)) (.ok .holdsDate) d'
  | further {d d' d'' : Desk} {name : String} {plan : Plan} {rest : List (String × Plan)}
      {pending : Option Nat} {answer : Except GenerationError Verdict}
      (h : Asks r d (.plan plan) (.ok (.empty pending)) d')
      (hrest : Asks r d' (.properties rest) answer d'') :
      Asks r d (.properties ((name, plan) :: rest)) (joinEmpty pending answer) d''

/-- The books leave nothing open about how a question ends. -/
theorem Desk.Asks.unique {r : Registry} {d e e' : Desk} {question : Question}
    {answer answer' : Except GenerationError Verdict} (h : Desk.Asks r d question answer e)
    (h' : Desk.Asks r d question answer' e') : answer = answer' ∧ e = e' := by
  induction h generalizing answer' e' with
  | unplanned hnone =>
      cases h' with
      | unplanned => exact ⟨rfl, rfl⟩
      | _ => simp_all
  | settled hplan hmark =>
      cases h' with
      | settled _ hmark' =>
          rw [hmark] at hmark'
          cases hmark'
          exact ⟨rfl, rfl⟩
      | _ => simp_all
  | opened hplan hmark =>
      cases h' with
      | opened _ hmark' =>
          rw [hmark] at hmark'
          cases hmark'
          exact ⟨rfl, rfl⟩
      | _ => simp_all
  | leaning hplan hidle hlookup =>
      cases h' with
      | leaning _ _ hlookup' =>
          rw [hlookup] at hlookup'
          cases hlookup'
          exact ⟨rfl, rfl⟩
      | _ => simp_all
  | walked hplan hidle hnew hwalk ih =>
      cases h' with
      | walked hplan' _ _ hwalk' =>
          rw [hplan] at hplan'
          cases hplan'
          obtain ⟨rfl, rfl⟩ := ih hwalk'
          exact ⟨rfl, rfl⟩
      | _ => simp_all
  | primitive =>
      cases h'
      exact ⟨rfl, rfl⟩
  | date =>
      cases h'
      exact ⟨rfl, rfl⟩
  | delegate _ ih =>
      cases h' with
      | delegate h' => exact ih h'
  | array _ ih =>
      cases h' with
      | array h' => exact ih h'
  | map _ ih =>
      cases h' with
      | map h' => exact ih h'
  | object _ ih =>
      cases h' with
      | object h' => exact ih h'
  | nil =>
      cases h'
      exact ⟨rfl, rfl⟩
  | failed _ ih =>
      cases h' with
      | failed h' =>
          obtain ⟨hanswer, hdesk⟩ := ih h'
          cases hanswer
          exact ⟨rfl, hdesk⟩
      | decided h' => cases (ih h').1
      | further h' => cases (ih h').1
  | decided _ ih =>
      cases h' with
      | failed h' => cases (ih h').1
      | decided h' => exact ih h'
      | further h' => cases (ih h').1
  | further _ _ ih ihrest =>
      cases h' with
      | failed h' => cases (ih h').1
      | decided h' => cases (ih h').1
      | further h' hrest' =>
          obtain ⟨hanswer, rfl⟩ := ih h'
          cases hanswer
          obtain ⟨rfl, rfl⟩ := ihrest hrest'
          exact ⟨rfl, rfl⟩

namespace Search

/-- The mark of a type in a search under open types. -/
def mark (s : Search) (stack : List String) (typeName : String) : Mark :=
  match s.settled.get? typeName, depth? stack typeName with
  | some empty, _ => .settled empty
  | none, some depth => .opened depth
  | none, none => .idle

/-- The books of a search under open types. -/
def desk (s : Search) (stack : List String) : Desk :=
  ⟨stack.length, s.mark stack, s.leaning⟩

variable {r : Registry} {stack : List String} {s s' : Search} {typeName : String}

theorem mark_of_settled {empty : Bool} (h : s.settled.get? typeName = some empty) :
    s.mark stack typeName = .settled empty := by
  simp [mark, h]

theorem mark_of_opened {depth : Nat} (h : s.settled.get? typeName = none)
    (hopen : depth? stack typeName = some depth) : s.mark stack typeName = .opened depth := by
  simp [mark, h, hopen]

theorem mark_cons_of_ne {name : String} (h : typeName ≠ name) :
    s.mark (typeName :: stack) name = s.mark stack name := by
  rw [mark, mark, depth?_cons_of_ne h]

theorem mark_cons_self (h : s.settled.get? typeName = none) :
    s.mark (typeName :: stack) typeName = .opened stack.length :=
  mark_of_opened h (if_pos rfl)

theorem mark_eq_idle (h : s.settled.get? typeName = none) (hnew : typeName ∉ stack) :
    s.mark stack typeName = .idle := by
  rw [mark, h, depth?_eq_none_iff.2 hnew]

/-- Where no type is open, none is marked so. -/
theorem mark_nil_ne_opened {depth : Nat} : s.mark [] typeName ≠ .opened depth := by
  intro h
  rw [mark, depth?] at h
  split at h
  · cases h
  · rename_i hopen
    cases hopen
  · cases h

/-- Opening a type sets its mark and no other. -/
theorem desk_enter (h : s.settled.get? typeName = none) :
    (s.enter typeName).desk (typeName :: stack) = (s.desk stack).enter typeName := by
  have hmark : s.mark (typeName :: stack) =
      Function.update (s.mark stack) typeName (.opened stack.length) := by
    refine Function.eq_update_iff.2 ⟨mark_cons_self h, fun name hne => ?_⟩
    exact mark_cons_of_ne hne.symm
  show Desk.mk _ (s.mark (typeName :: stack)) _ = _
  rw [hmark]
  rfl

/-- Taking the mark of the last type away restores those that were there before it was opened. -/
theorem update_mark_idle (h : s.Confined (typeName :: stack)) (hnew : typeName ∉ stack) :
    Function.update (s.mark (typeName :: stack)) typeName .idle = s.mark stack := by
  refine Function.update_eq_iff.2 ⟨?_, fun name hne => mark_cons_of_ne hne.symm⟩
  exact (mark_eq_idle (h.opened typeName List.mem_cons_self) hnew).symm

theorem any_leaning_iff {depth : Nat} {name : String} :
    (s.leaning.any fun entry => entry.1 == name && decide (depth ≤ entry.2)) = true ↔
      name ∈ s.released depth := by
  rw [List.any_eq_true, mem_released]
  constructor
  · intro ⟨entry, hmem, hentry⟩
    simp only [Bool.and_eq_true, beq_iff_eq, decide_eq_true_eq] at hentry
    exact ⟨entry.2, hentry.1 ▸ hmem, hentry.2⟩
  · intro ⟨d, hmem, hle⟩
    exact ⟨(name, d), hmem, by simp [hle]⟩

/-- A type that was opened and gets its verdict is marked with it, and so is what is let go with it. -/
theorem desk_settle (empty : Bool) :
    (((s.desk (typeName :: stack)).leave stack.length).release empty).setMark typeName
      (.settled empty) = (s.settle stack.length typeName empty).desk stack := by
  have hleaning : (s.settle stack.length typeName empty).leaning =
      s.leaning.filter fun entry => entry.2 < stack.length := @leaning_release s stack.length empty
  have hmark : (s.settle stack.length typeName empty).mark stack = Function.update
      (fun name =>
        if empty && s.leaning.any fun entry => entry.1 == name && decide (stack.length ≤ entry.2)
        then .settled true
        else s.mark (typeName :: stack) name) typeName (.settled empty) := by
    refine Function.eq_update_iff.2 ⟨?_, fun name hne => ?_⟩
    · rw [mark, get?_settle, if_pos rfl]
    · rw [mark, get?_settle, if_neg hne, mark_cons_of_ne hne.symm]
      simp only [Bool.and_eq_true, any_leaning_iff]
      by_cases hreleased : empty = true ∧ name ∈ s.released stack.length
      · rw [if_pos hreleased, if_pos hreleased]
      · rw [if_neg hreleased, if_neg hreleased]
        rfl
  rw [Search.desk, Search.desk, hmark, hleaning]
  rfl

/-- The books are closed over a type as the search concludes about it. -/
theorem desk_conclude {answer : Except GenerationError Verdict × Search}
    (h : answer.2.Confined (typeName :: stack)) (hnew : typeName ∉ stack) :
    (answer.2.desk (typeName :: stack)).close stack.length typeName answer.1 =
      ((conclude stack.length typeName answer).1,
        (conclude stack.length typeName answer).2.desk stack) := by
  obtain ⟨result, s⟩ := answer
  have hidle : ((s.desk (typeName :: stack)).leave stack.length).setMark typeName .idle =
      s.desk stack := by
    rw [Search.desk, Search.desk, ← update_mark_idle h hnew]
    rfl
  cases result with
  | error e =>
      rw [Desk.close, conclude, hidle, Search.desk, Search.desk, leaning_release]
      rfl
  | ok verdict =>
      cases verdict with
      | holdsDate => rw [Desk.close, conclude, desk_settle]
      | empty pending =>
          cases pending with
          | none => rw [Desk.close, conclude, desk_settle]
          | some pending =>
              rw [Search.conclude, Desk.close, hidle, desk_settle]
              split
              · rfl
              · rfl

end Search

open Search

mutual

/-- The search keeps the books. -/
theorem typeVerdict_asks (r : Registry) (stack : List String) (typeName : String) (s : Search)
    (h : s.Confined stack) :
    Desk.Asks r (s.desk stack) (.type typeName) (typeVerdict r stack typeName s).1
      ((typeVerdict r stack typeName s).2.desk stack) := by
  rw [typeVerdict]
  split
  · rename_i hnone
    exact .unplanned hnone
  · rename_i plan hplan
    split
    · rename_i hsettled
      have hasks : Desk.Asks r (s.desk stack) (.type typeName) _ (s.desk stack) :=
        .settled hplan (mark_of_settled hsettled)
      exact hasks
    · rename_i hsettled
      have hasks : Desk.Asks r (s.desk stack) (.type typeName) _ (s.desk stack) :=
        .settled hplan (mark_of_settled hsettled)
      exact hasks
    · rename_i hsettled
      split
      · rename_i depth hopen
        exact .opened hplan (mark_of_opened hsettled hopen)
      · rename_i hopen
        have hidle : (s.desk stack).mark typeName = .idle :=
          mark_eq_idle hsettled (not_mem_of_depth? hopen)
        split
        · rename_i pending hleaning
          exact .leaning hplan hidle hleaning
        · rename_i hleaning
          have hentered := h.enter hsettled hleaning
          have hwalk := planVerdict_asks r (typeName :: stack) plan (s.enter typeName) hentered
          have hclosed := desk_conclude
            (planVerdict_confined r hentered plan).1
            (not_mem_of_depth? hopen)
          rw [desk_enter hsettled] at hwalk
          have hasks := Desk.Asks.walked hplan hidle hleaning hwalk
          rw [show (s.desk stack).depth = stack.length from rfl, hclosed] at hasks
          exact hasks
termination_by (r.methods.countOutside stack, 0)
decreasing_by
  exact Prod.Lex.left _ _ (OrderedMap.countOutside_cons_lt
    (Registry.mem_keys_of_plan? (by assumption)) (contains_eq_false_of_depth? (by assumption)))

theorem planVerdict_asks (r : Registry) (stack : List String) (plan : Plan) (s : Search)
    (h : s.Confined stack) :
    Desk.Asks r (s.desk stack) (.plan plan) (planVerdict r stack plan s).1
      ((planVerdict r stack plan s).2.desk stack) := by
  cases plan with
  | primitive =>
      rw [planVerdict]
      exact .primitive
  | date nullable =>
      rw [planVerdict]
      exact .date
  | delegate typeName nullable =>
      rw [planVerdict]
      exact .delegate (typeVerdict_asks r stack typeName s h)
  | array item nullable =>
      rw [planVerdict]
      exact .array (planVerdict_asks r stack item s h)
  | map values nullable =>
      rw [planVerdict]
      exact .map (planVerdict_asks r stack values s h)
  | object properties nullable =>
      rw [planVerdict]
      exact .object (propertiesVerdict_asks r stack properties s h)
termination_by (r.methods.countOutside stack, sizeOf plan)

theorem propertiesVerdict_asks (r : Registry) (stack : List String)
    (properties : List (String × Plan)) (s : Search) (h : s.Confined stack) :
    Desk.Asks r (s.desk stack) (.properties properties) (propertiesVerdict r stack properties s).1
      ((propertiesVerdict r stack properties s).2.desk stack) := by
  cases properties with
  | nil =>
      rw [propertiesVerdict]
      exact .nil
  | cons property rest =>
      obtain ⟨name, plan⟩ := property
      have hown := planVerdict_asks r stack plan s h
      have hconfined := (planVerdict_confined r h plan).1
      rcases hfirst : planVerdict r stack plan s with ⟨e | (_ | pending), s'⟩
      · rw [propertiesVerdict_cons_of_error hfirst]
        rw [hfirst] at hown
        exact .failed hown
      · rw [propertiesVerdict_cons_of_holdsDate hfirst]
        rw [hfirst] at hown
        exact .decided hown
      · rw [propertiesVerdict_cons_of_empty hfirst]
        rw [hfirst] at hown hconfined
        exact .further hown (propertiesVerdict_asks r stack rest s' hconfined)
termination_by (r.methods.countOutside stack, sizeOf properties)

end

/-- A question that is put to the books is answered as the search answers it, and leaves the books of the
search that is left. -/
theorem Desk.asks_iff {r : Registry} {stack : List String} {s : Search} (h : s.Confined stack)
    {question : Question} {answer : Except GenerationError Verdict} {d : Desk} :
    Desk.Asks r (s.desk stack) question answer d ↔
      answer = (question.verdict r stack s).1 ∧ d = (question.verdict r stack s).2.desk stack := by
  have hasks : Desk.Asks r (s.desk stack) question (question.verdict r stack s).1
      ((question.verdict r stack s).2.desk stack) := by
    cases question with
    | type typeName => exact typeVerdict_asks r stack typeName s h
    | plan plan => exact planVerdict_asks r stack plan s h
    | properties properties => exact propertiesVerdict_asks r stack properties s h
  constructor
  · intro hother
    exact hother.unique hasks
  · intro ⟨hanswer, hdesk⟩
    rw [hanswer, hdesk]
    exact hasks

/-- A question fails at a type without a plan, and in no other way. -/
theorem Desk.Asks.exists_premature {r : Registry} {d d' : Desk} {question : Question}
    {answer : Except GenerationError Verdict} (h : Desk.Asks r d question answer d')
    {e : GenerationError} (herror : answer = .error e) :
    ∃ typeName, e = .prematureEmptinessCheck typeName ∧ r.plan? typeName = none := by
  induction h with
  | unplanned hnone =>
      cases herror
      exact ⟨_, rfl, hnone⟩
  | settled | opened | leaning | primitive | date | nil | decided => cases herror
  | @walked _ d' typeName _ answer _ _ _ _ ih =>
      rcases answer with e' | (_ | (_ | pending))
      · exact ih herror
      · cases herror
      · cases herror
      · rw [Desk.close] at herror
        split at herror
        · cases herror
        · cases herror
  | delegate _ ih => exact ih herror
  | array _ ih => exact ih herror
  | map _ ih => exact ih herror
  | object _ ih => exact ih herror
  | failed _ ih => exact ih herror
  | @further _ _ _ _ _ _ _ answer _ _ _ ih =>
      rcases answer with e' | (_ | others)
      · exact ih herror
      · cases herror
      · cases herror

end DateReviver
