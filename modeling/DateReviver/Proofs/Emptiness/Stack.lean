import DateReviver.Proofs.Emptiness.Economy
import Mathlib.Logic.Relation

/-!
# The stack of a search

A question is answered moment by moment: a question is put, which may put another one first, or an
answer goes to whatever waits for it. Types that wait for the verdict about their plans are open. At each
moment the books show this pile: every depth under the count of open types is the mark of one type, and no
other depth is a mark; what leans is a type with a plan that is neither open nor settled, once, on a type
that is open. An answer that a date was met, or a type without a plan, goes down the pile to its bottom:
each open type is closed by it, and no further question is put.
-/

namespace DateReviver

/-- What waits for an answer. -/
inductive Waiting where
  /-- A type that was opened at a depth, for the answer about its plan. -/
  | type (depth : Nat) (typeName : String)
  /-- The further ones of some properties, for the answer about the first. -/
  | properties (rest : List (String × Plan))
  /-- The first of some properties, found empty, for the answer about the further ones. -/
  | first (pending : Option Nat)

inductive Turn where
  | asks (question : Question)
  | answers (answer : Except GenerationError Verdict)

/-- A moment of a search that keeps its books: what is written in them, whose turn it is, and what waits
for an answer, the latest first. -/
structure Moment where
  desk : Desk
  turn : Turn
  waiting : List Waiting

/-- The types that are open, the latest first. -/
def openTypes : List Waiting → List String
  | [] => []
  | .type _ typeName :: below => typeName :: openTypes below
  | .properties _ :: below | .first _ :: below => openTypes below

/-- Nothing more is asked after such an answer: a date was met, or a type without a plan. -/
def endsSearch : Except GenerationError Verdict → Bool
  | .ok (.empty _) => false
  | .ok .holdsDate | .error _ => true

/-- The mark that an answer which ends a search leaves on an open type. -/
def markLeft : Except GenerationError Verdict → Mark
  | .ok _ => .settled false
  | .error _ => .idle

namespace Moment

/-- A question about a type is answered from the books, or the type is opened. -/
def ofType (r : Registry) (d : Desk) (typeName : String) (waiting : List Waiting) : Moment :=
  match r.plan? typeName with
  | none => ⟨d, .answers (.error (.prematureEmptinessCheck typeName)), waiting⟩
  | some plan =>
      match d.mark typeName with
      | .settled empty => ⟨d, .answers (.ok (if empty then .empty none else .holdsDate)), waiting⟩
      | .opened depth => ⟨d, .answers (.ok (.empty (some depth))), waiting⟩
      | .idle =>
          match d.leaning.lookup typeName with
          | some pending => ⟨d, .answers (.ok (.empty (some pending))), waiting⟩
          | none => ⟨d.enter typeName, .asks (.plan plan), .type d.depth typeName :: waiting⟩

def ofPlan (d : Desk) (waiting : List Waiting) : Plan → Moment
  | .primitive => ⟨d, .answers (.ok (.empty none)), waiting⟩
  | .date _ => ⟨d, .answers (.ok .holdsDate), waiting⟩
  | .delegate typeName _ => ⟨d, .asks (.type typeName), waiting⟩
  | .array item _ => ⟨d, .asks (.plan item), waiting⟩
  | .map values _ => ⟨d, .asks (.plan values), waiting⟩
  | .object properties _ => ⟨d, .asks (.properties properties), waiting⟩

def ofProperties (d : Desk) (waiting : List Waiting) : List (String × Plan) → Moment
  | [] => ⟨d, .answers (.ok (.empty none)), waiting⟩
  | (_, plan) :: rest => ⟨d, .asks (.plan plan), .properties rest :: waiting⟩

/-- An answer goes to what waits for it. -/
def ofAnswer (d : Desk) (answer : Except GenerationError Verdict) (below : List Waiting) :
    Waiting → Moment
  | .type depth typeName =>
      let closed := d.close depth typeName answer
      ⟨closed.2, .answers closed.1, below⟩
  | .properties rest =>
      match answer with
      | .ok (.empty pending) => ⟨d, .asks (.properties rest), .first pending :: below⟩
      | _ => ⟨d, .answers answer, below⟩
  | .first pending => ⟨d, .answers (joinEmpty pending answer), below⟩

/-- The moment after a moment, unless an answer is there for which nothing waits. -/
def next (r : Registry) : Moment → Option Moment
  | ⟨d, .asks (.type typeName), waiting⟩ => some (ofType r d typeName waiting)
  | ⟨d, .asks (.plan plan), waiting⟩ => some (ofPlan d waiting plan)
  | ⟨d, .asks (.properties properties), waiting⟩ => some (ofProperties d waiting properties)
  | ⟨d, .answers answer, top :: below⟩ => some (ofAnswer d answer below top)
  | ⟨_, .answers _, []⟩ => none

end Moment

/-- One moment after another. -/
abbrev Registry.Proceeds (r : Registry) : Moment → Moment → Prop :=
  Relation.ReflTransGen fun m m' => m.next r = some m'

/-! ## The moments answer as the books do -/

/-- Whatever waits, a question that is put is answered in the end as the books have it. -/
theorem Desk.Asks.proceeds {r : Registry} {d d' : Desk} {question : Question}
    {answer : Except GenerationError Verdict} (h : Desk.Asks r d question answer d')
    (waiting : List Waiting) :
    r.Proceeds ⟨d, .asks question, waiting⟩ ⟨d', .answers answer, waiting⟩ := by
  -- Parts of a question are put with more waiting below, so the induction is for whatever waits.
  induction h generalizing waiting with
  | unplanned hnone =>
      refine .single ?_
      rw [Moment.next, Moment.ofType, hnone]
  | settled hplan hmark =>
      refine .single ?_
      rw [Moment.next, Moment.ofType, hplan]
      dsimp only
      rw [hmark]
  | opened hplan hmark =>
      refine .single ?_
      rw [Moment.next, Moment.ofType, hplan]
      dsimp only
      rw [hmark]
  | leaning hplan hidle hlookup =>
      refine .single ?_
      rw [Moment.next, Moment.ofType, hplan]
      dsimp only
      rw [hidle]
      dsimp only
      rw [hlookup]
  | @walked d _ typeName plan _ hplan hidle hnew _ ih =>
      have hopens : Moment.next r ⟨d, .asks (.type typeName), waiting⟩ =
          some ⟨d.enter typeName, .asks (.plan plan), .type d.depth typeName :: waiting⟩ := by
        rw [Moment.next, Moment.ofType, hplan]
        dsimp only
        rw [hidle]
        dsimp only
        rw [hnew]
      exact .head hopens ((ih _).tail rfl)
  | primitive | date | nil => exact .single rfl
  | delegate _ ih | array _ ih | map _ ih | object _ ih => exact .head rfl (ih waiting)
  | failed _ ih | decided _ ih => exact .head rfl ((ih _).tail rfl)
  | further _ _ ih ihrest => exact .head rfl ((ih _).trans (.head rfl ((ihrest _).tail rfl)))

/-- What a moment leads to when nothing waits any more, every moment on the way there leads to. -/
theorem Registry.Proceeds.to_end {r : Registry} {m m' : Moment} {d : Desk}
    {answer : Except GenerationError Verdict} (h : r.Proceeds m m')
    (hend : r.Proceeds m ⟨d, .answers answer, []⟩) : r.Proceeds m' ⟨d, .answers answer, []⟩ := by
  induction h with
  | refl => exact hend
  | tail _ hnext ih =>
      rcases Relation.ReflTransGen.cases_head ih with rfl | ⟨after, hother, hrest⟩
      · cases hnext
      · rw [hnext, Option.some.injEq] at hother
        exact hother ▸ hrest

/-! ## Answers that end a search -/

section Ends

variable {r : Registry} {d : Desk} {answer : Except GenerationError Verdict}

/-- Such an answer closes a type: it sets the mark of that type and no other. -/
theorem Desk.close_of_endsSearch (h : endsSearch answer = true) (depth : Nat) (typeName : String) :
    (d.close depth typeName answer).1 = answer ∧
      (d.close depth typeName answer).2.mark =
        Function.update d.mark typeName (markLeft answer) := by
  rcases answer with e | (_ | _)
  · exact ⟨rfl, rfl⟩
  · exact ⟨rfl, rfl⟩
  · cases h

theorem joinEmpty_of_endsSearch (h : endsSearch answer = true) (pending : Option Nat) :
    joinEmpty pending answer = answer := by
  rcases answer with e | (_ | _)
  · rfl
  · rfl
  · cases h

/-- Such an answer is passed on by whatever waits. Only the marks of types change by it. -/
theorem Moment.ofAnswer_of_endsSearch (h : endsSearch answer = true) (top : Waiting)
    (below : List Waiting) :
    ∃ d', Moment.ofAnswer d answer below top = ⟨d', .answers answer, below⟩ ∧
      ∀ name, d'.mark name = if name ∈ openTypes [top] then markLeft answer else d.mark name := by
  cases top with
  | type depth typeName =>
      obtain ⟨hsame, hmark⟩ := Desk.close_of_endsSearch (d := d) h depth typeName
      refine ⟨_, by rw [Moment.ofAnswer, hsame], fun name => ?_⟩
      simp [hmark, Function.update_apply, openTypes]
  | properties rest =>
      refine ⟨d, ?_, fun name => by simp [openTypes]⟩
      rcases answer with e | (_ | _)
      · rfl
      · rfl
      · cases h
  | first pending =>
      refine ⟨d, ?_, fun name => by simp [openTypes]⟩
      rw [Moment.ofAnswer, joinEmpty_of_endsSearch h]

theorem openTypes_append (above below : List Waiting) :
    openTypes (above ++ below) = openTypes above ++ openTypes below := by
  induction above with
  | nil => rfl
  | cons top rest ih => cases top <;> simp [openTypes, ih]

/-- After an answer that ends a search there are only moments of the same answer. What has waited above
got it: types that were open among this are marked by it, and no mark has changed otherwise. -/
theorem Registry.Proceeds.unwinds {waiting : List Waiting} {m : Moment}
    (h : endsSearch answer = true) (hproceeds : r.Proceeds ⟨d, .answers answer, waiting⟩ m) :
    m.turn = .answers answer ∧ ∃ above, waiting = above ++ m.waiting ∧ ∀ name,
      m.desk.mark name = if name ∈ openTypes above then markLeft answer else d.mark name := by
  induction hproceeds with
  | refl => exact ⟨rfl, [], rfl, fun name => by simp [openTypes]⟩
  | @tail m m' _ hnext ih =>
      obtain ⟨desk, turn, left⟩ := m
      obtain ⟨rfl, above, rfl, hmarks⟩ := ih
      -- As long as something waits, the next moment takes one from the pile.
      cases left with
      | nil => cases hnext
      | cons top below =>
          obtain ⟨d', hanswer, hmark⟩ := Moment.ofAnswer_of_endsSearch (d := desk) h top below
          rw [Moment.next, hanswer, Option.some.injEq] at hnext
          subst hnext
          refine ⟨rfl, above ++ [top], by simp, fun name => ?_⟩
          simp only [hmark, openTypes_append, List.mem_append]
          by_cases htop : name ∈ openTypes [top]
          · rw [if_pos htop, if_pos (.inr htop)]
          · simp only [htop, if_false, or_false]
            exact hmarks name

end Ends

/-! ## The books show the pile -/

namespace Search

variable {stack : List String} {s : Search} {typeName name : String} {depth : Nat}

theorem mem_of_depth? (h : depth? stack typeName = some depth) : typeName ∈ stack := by
  by_contra hnot
  rw [depth?_eq_none_iff.2 hnot] at h
  cases h

/-- No two types have one depth. -/
theorem depth?_injective (h : depth? stack typeName = some depth) (h' : depth? stack name = some depth) :
    typeName = name := by
  induction stack with
  | nil => cases h
  | cons latest rest ih =>
      rw [depth?] at h h'
      split at h
      · rename_i hlatest
        split at h'
        · rename_i hother
          exact hlatest.symm.trans hother
        · cases h
          exact absurd (lt_length_of_depth? h') (Nat.lt_irrefl _)
      · split at h'
        · cases h'
          exact absurd (lt_length_of_depth? h) (Nat.lt_irrefl _)
        · exact ih h h'

/-- Every depth is that of a type. -/
theorem exists_depth? (hnodup : stack.Nodup) (h : depth < stack.length) :
    ∃ name, depth? stack name = some depth := by
  induction stack with
  | nil => cases h
  | cons latest rest ih =>
      rw [List.nodup_cons] at hnodup
      rcases Nat.lt_succ_iff_lt_or_eq.1 h with hlt | rfl
      · obtain ⟨name, hname⟩ := ih hnodup.2 hlt
        refine ⟨name, ?_⟩
        -- The latest type stands nowhere below, where this one has its depth.
        rw [depth?, if_neg, hname]
        rintro rfl
        rw [depth?_eq_none_iff.2 hnodup.1] at hname
        cases hname
      · exact ⟨latest, if_pos rfl⟩

theorem Confined.mark_eq_opened_iff (h : s.Confined stack) :
    s.mark stack typeName = .opened depth ↔ depth? stack typeName = some depth := by
  constructor
  · intro hmark
    rw [mark] at hmark
    split at hmark
    · cases hmark
    · rename_i hopen
      cases hmark
      exact hopen
    · cases hmark
  · intro hopen
    exact mark_of_opened (h.opened typeName (mem_of_depth? hopen)) hopen

theorem mark_eq_idle_iff :
    s.mark stack typeName = .idle ↔ s.settled.get? typeName = none ∧ typeName ∉ stack := by
  constructor
  · intro hmark
    rw [mark] at hmark
    split at hmark
    · cases hmark
    · cases hmark
    · rename_i hsettled hopen
      exact ⟨hsettled, not_mem_of_depth? hopen⟩
  · intro h
    exact mark_eq_idle h.1 h.2

end Search

/-- The books show a pile of open types with plans: every depth under their count is the mark of one type
and no other depth is a mark. What leans is a built type, once, and leans on a type of this pile. -/
structure Desk.Disciplined (r : Registry) (d : Desk) : Prop where
  opened : ∀ depth < d.depth, ∃! typeName, d.mark typeName = .opened depth
  below : ∀ typeName depth, d.mark typeName = .opened depth →
    depth < d.depth ∧ ∃ plan, r.plan? typeName = some plan
  distinct : (d.leaning.map Prod.fst).Nodup
  built : ∀ entry ∈ d.leaning, d.mark entry.1 = .idle ∧ ∃ plan, r.plan? entry.1 = some plan
  leaning : ∀ entry ∈ d.leaning,
    entry.2 < d.depth ∧ ∃ typeName, d.mark typeName = .opened entry.2

/-- Each type in a pile stands at the depth that it was opened at. -/
def AtDepths : List Waiting → Prop
  | [] => True
  | .type depth _ :: below => depth = (openTypes below).length ∧ AtDepths below
  | .properties _ :: below | .first _ :: below => AtDepths below

/-- The books at a moment are those of a search under the types that are open then, all of which have
plans, as all that leans has. -/
structure Desk.Mirrors (r : Registry) (d : Desk) (waiting : List Waiting) (s : Search) : Prop where
  desk : d = s.desk (openTypes waiting)
  confined : s.Confined (openTypes waiting)
  nodup : (openTypes waiting).Nodup
  depths : AtDepths waiting
  planned : ∀ name ∈ openTypes waiting, ∃ plan, r.plan? name = some plan
  leaning : ∀ entry ∈ s.leaning, ∃ plan, r.plan? entry.1 = some plan

namespace Desk.Mirrors

variable {r : Registry} {d : Desk} {waiting : List Waiting} {s : Search} {typeName : String}

theorem disciplined (h : d.Mirrors r waiting s) : d.Disciplined r := by
  obtain ⟨rfl, hconfined, hnodup, _, hplanned, hleaning⟩ := h
  constructor
  · intro depth hlt
    obtain ⟨name, hname⟩ := Search.exists_depth? hnodup hlt
    refine ⟨name, hconfined.mark_eq_opened_iff.2 hname, fun other hother => ?_⟩
    exact Search.depth?_injective (hconfined.mark_eq_opened_iff.1 hother) hname
  · intro name depth hmark
    have hopen := hconfined.mark_eq_opened_iff.1 hmark
    exact ⟨Search.lt_length_of_depth? hopen, hplanned name (Search.mem_of_depth? hopen)⟩
  · exact hconfined.distinct
  · intro entry hmem
    exact ⟨Search.mark_eq_idle (hconfined.waiting entry hmem) (hconfined.closed entry hmem),
      hleaning entry hmem⟩
  · intro entry hmem
    obtain ⟨name, hname⟩ := Search.exists_depth? hnodup (hconfined.below entry hmem)
    exact ⟨hconfined.below entry hmem, name, hconfined.mark_eq_opened_iff.2 hname⟩

/-- What waits without being open is not seen in the books. -/
theorem cons_iff {top : Waiting} (hopen : openTypes [top] = []) :
    d.Mirrors r (top :: waiting) s ↔ d.Mirrors r waiting s := by
  have hsame : openTypes (top :: waiting) = openTypes waiting := by
    rw [← List.singleton_append, openTypes_append, hopen, List.nil_append]
  have hdepths : AtDepths (top :: waiting) ↔ AtDepths waiting := by
    cases top with
    | type => cases hopen
    | properties => exact Iff.rfl
    | first => exact Iff.rfl
  constructor
  · intro ⟨hdesk, hconfined, hnodup, hown, hplanned, hleaning⟩
    rw [hsame] at hdesk hconfined hnodup hplanned
    exact ⟨hdesk, hconfined, hnodup, hdepths.1 hown, hplanned, hleaning⟩
  · intro ⟨hdesk, hconfined, hnodup, hown, hplanned, hleaning⟩
    rw [← hsame] at hdesk hconfined hnodup hplanned
    exact ⟨hdesk, hconfined, hnodup, hdepths.2 hown, hplanned, hleaning⟩

/-- A type that the books do not know yet is opened. -/
theorem enter {plan : Plan} (h : d.Mirrors r waiting s) (hplan : r.plan? typeName = some plan)
    (hidle : d.mark typeName = .idle) (hnew : d.leaning.lookup typeName = none) :
    (d.enter typeName).Mirrors r (.type d.depth typeName :: waiting) (s.enter typeName) := by
  obtain ⟨rfl, hconfined, hnodup, hdepths, hplanned, hleaning⟩ := h
  obtain ⟨hsettled, hclosed⟩ := Search.mark_eq_idle_iff.1 hidle
  constructor
  · exact (Search.desk_enter hsettled).symm
  · exact hconfined.enter hsettled hnew
  · exact List.nodup_cons.2 ⟨hclosed, hnodup⟩
  · exact ⟨rfl, hdepths⟩
  · exact List.forall_mem_cons.2 ⟨⟨plan, hplan⟩, hplanned⟩
  · exact hleaning

/-- The latest type is closed, as the search concludes about it. -/
theorem close {depth : Nat} (h : d.Mirrors r (.type depth typeName :: waiting) s)
    (answer : Except GenerationError Verdict) :
    (d.close depth typeName answer).2.Mirrors r waiting
      (Search.conclude depth typeName (answer, s)).2 := by
  obtain ⟨rfl, hconfined, hnodup, ⟨rfl, hdepths⟩, hplanned, hleaning⟩ := h
  obtain ⟨hnew, hrest⟩ := List.nodup_cons.1 hnodup
  obtain ⟨hown, hothers⟩ := List.forall_mem_cons.1 hplanned
  have hafter : (answer, s).2.Confined (typeName :: openTypes waiting) := hconfined
  constructor
  · exact congrArg Prod.snd (Search.desk_conclude hafter hnew)
  · exact (hafter.conclude hnew).1
  · exact hrest
  · exact hdepths
  · exact hothers
  · intro entry hmem
    rcases Search.leaning_conclude hmem with heq | ⟨old, hold, heq⟩
    · exact heq ▸ hown
    · exact heq ▸ hleaning old hold

end Desk.Mirrors

/-- The books mirror a search at the next moment as well. -/
theorem Moment.mirrors_next {r : Registry} {m m' : Moment} {s : Search}
    (h : m.desk.Mirrors r m.waiting s) (hnext : m.next r = some m') :
    ∃ s', m'.desk.Mirrors r m'.waiting s' := by
  obtain ⟨d, question | answer, waiting⟩ := m
  · cases question with
    | type typeName =>
        rw [Moment.next, Moment.ofType, Option.some.injEq] at hnext
        subst hnext
        split
        · exact ⟨s, h⟩
        · rename_i plan hplan
          split
          · exact ⟨s, h⟩
          · exact ⟨s, h⟩
          · rename_i hidle
            split
            · exact ⟨s, h⟩
            · rename_i hnew
              exact ⟨_, h.enter hplan hidle hnew⟩
    | plan plan =>
        cases hnext
        cases plan <;> exact ⟨s, h⟩
    | properties properties =>
        cases hnext
        rcases properties with _ | ⟨property, rest⟩
        · exact ⟨s, h⟩
        · exact ⟨s, (Desk.Mirrors.cons_iff rfl).2 h⟩
  · cases waiting with
    | nil => cases hnext
    | cons top below =>
        cases hnext
        cases top with
        | type depth typeName => exact ⟨_, h.close answer⟩
        | properties rest =>
            have hbelow : d.Mirrors r below s := (Desk.Mirrors.cons_iff rfl).1 h
            rcases answer with e | (_ | pending)
            · exact ⟨s, hbelow⟩
            · exact ⟨s, hbelow⟩
            · exact ⟨s, (Desk.Mirrors.cons_iff rfl).2 hbelow⟩
        | first pending => exact ⟨s, (Desk.Mirrors.cons_iff rfl).1 h⟩

theorem Registry.Proceeds.mirrors {r : Registry} {m m' : Moment} {s : Search}
    (h : m.desk.Mirrors r m.waiting s) (hproceeds : r.Proceeds m m') :
    ∃ s', m'.desk.Mirrors r m'.waiting s' := by
  induction hproceeds with
  | refl => exact ⟨s, h⟩
  | tail _ hnext ih =>
      obtain ⟨s', hmirrors⟩ := ih
      exact Moment.mirrors_next hmirrors hnext

/-! ## A type that turns out to hold dates -/

section Settles

variable {r : Registry} {d : Desk} {typeName name : String} {depth : Nat}
  {answer : Except GenerationError Verdict}

theorem Desk.settled_of_setMark {new : Mark} (hnew : new ≠ .settled false)
    (h : (d.setMark typeName new).mark name = .settled false) : d.mark name = .settled false := by
  change Function.update d.mark typeName new name = _ at h
  rw [Function.update_apply] at h
  split at h
  · exact absurd h hnew
  · exact h

theorem Desk.settled_of_release {empty : Bool}
    (h : (d.release empty).mark name = .settled false) : d.mark name = .settled false := by
  rw [Desk.release] at h
  dsimp only at h
  split at h
  · cases h
  · exact h

/-- A type that is closed with another answer than that a date was met leaves no type settled as holding
dates that was not. -/
theorem Desk.settled_of_close (hbefore : d.mark name ≠ .settled false)
    (h : (d.close depth typeName answer).2.mark name = .settled false) : answer = .ok .holdsDate := by
  have hempty (h : (((d.leave depth).release true).setMark typeName (.settled true)).mark name =
      .settled false) : False :=
    hbefore (settled_of_release (d := d.leave depth) (settled_of_setMark (by simp) h))
  rcases answer with e | (_ | (_ | pending))
  · have hopen := settled_of_release (d := (d.leave depth).setMark typeName .idle) h
    exact (hbefore (settled_of_setMark (d := d.leave depth) (by simp) hopen)).elim
  · rfl
  · exact (hempty h).elim
  · rw [Desk.close] at h
    split at h
    · exact (hbefore (settled_of_setMark (d := d.leave depth) (by simp) h)).elim
    · exact (hempty h).elim

/-- A type is settled as holding dates only in passing on the answer that a date was met. -/
theorem Moment.turn_of_settled {m m' : Moment} (hnext : m.next r = some m')
    (hbefore : m.desk.mark name ≠ .settled false) (hafter : m'.desk.mark name = .settled false) :
    m'.turn = .answers (.ok .holdsDate) := by
  obtain ⟨d, question | answer, waiting⟩ := m
  · cases question with
    | type typeName =>
        rw [Moment.next, Moment.ofType, Option.some.injEq] at hnext
        subst hnext
        split at hafter
        · exact absurd hafter hbefore
        · split at hafter
          · exact absurd hafter hbefore
          · exact absurd hafter hbefore
          · split at hafter
            · exact absurd hafter hbefore
            · exact absurd (Desk.settled_of_setMark (d := d) (by simp) hafter) hbefore
    | plan plan =>
        cases hnext
        cases plan <;> exact absurd hafter hbefore
    | properties properties =>
        cases hnext
        cases properties <;> exact absurd hafter hbefore
  · cases waiting with
    | nil => cases hnext
    | cons top below =>
        cases hnext
        cases top with
        | type depth typeName =>
            cases Desk.settled_of_close hbefore hafter
            rfl
        | properties rest => rcases answer with e | (_ | pending) <;> exact absurd hafter hbefore
        | first pending => exact absurd hafter hbefore

end Settles

/-- From a moment on there is one answer only, up to the last moment, and every type that is open is
closed by it. -/
structure Moment.Unwinds (r : Registry) (m : Moment) (answer : Except GenerationError Verdict)
    (last : Moment) : Prop where
  only : ∀ m', r.Proceeds m m' → m'.turn = .answers answer
  closes : ∀ m', r.Proceeds m m' → ∀ typeName depth, m.desk.mark typeName = .opened depth →
    m'.desk.mark typeName = .opened depth ∨ m'.desk.mark typeName = markLeft answer
  closed : ∀ typeName depth, m.desk.mark typeName = .opened depth →
    last.desk.mark typeName = markLeft answer

theorem Desk.Mirrors.unwinds {r : Registry} {d desk : Desk} {s : Search} {waiting : List Waiting}
    {answer result : Except GenerationError Verdict} (h : d.Mirrors r waiting s)
    (hends : endsSearch answer = true)
    (hlast : r.Proceeds ⟨d, .answers answer, waiting⟩ ⟨desk, .answers result, []⟩) :
    Moment.Unwinds r ⟨d, .answers answer, waiting⟩ answer ⟨desk, .answers result, []⟩ := by
  constructor
  · exact fun m' hproceeds => (hproceeds.unwinds hends).1
  · intro m' hproceeds typeName depth hopen
    obtain ⟨_, above, _, hmarks⟩ := hproceeds.unwinds hends
    rw [hmarks]
    split
    · exact .inr rfl
    · exact .inl hopen
  · intro typeName depth hopen
    obtain ⟨_, above, hwaiting, hmarks⟩ := hlast.unwinds hends
    rw [List.append_nil] at hwaiting
    subst hwaiting
    have hmem : typeName ∈ openTypes waiting := by
      have hmark : s.mark (openTypes waiting) typeName = .opened depth :=
        (congrArg (Desk.mark · typeName) h.desk).symm.trans hopen
      exact Search.mem_of_depth? (h.confined.mark_eq_opened_iff.1 hmark)
    rw [hmarks, if_pos hmem]

/-- A question that is put under open types is answered in the end as the search under them answers it. -/
theorem Desk.Mirrors.answers {r : Registry} {d : Desk} {waiting : List Waiting} {s : Search}
    (h : d.Mirrors r waiting s) (question : Question) :
    let given := question.verdict r (openTypes waiting) s
    r.Proceeds ⟨d, .asks question, waiting⟩
      ⟨given.2.desk (openTypes waiting), .answers given.1, waiting⟩ := by
  intro given
  have hasks : Desk.Asks r (s.desk (openTypes waiting)) question given.1
      (given.2.desk (openTypes waiting)) := (Desk.asks_iff h.confined).2 ⟨rfl, rfl⟩
  rw [← h.desk] at hasks
  exact hasks.proceeds waiting

theorem Registry.start_mirrors (r : Registry) : r.desk.Mirrors r [] r.start := by
  constructor
  · rfl
  · exact r.start_confined
  · exact List.nodup_nil
  · trivial
  · exact fun _ hmem => absurd hmem List.not_mem_nil
  · exact fun _ hmem => absurd hmem List.not_mem_nil

/-- A call leaves the books of a search that has come to its end. -/
theorem Question.desk_call (question : Question) (r : Registry) :
    (question.call.run r).2.desk = (question.verdict r [] r.start).2.desk [] := by
  have hleaning := (question.verdict_confined (r := r) r.start_confined).1.leaning_eq_nil
  rw [Search.desk, hleaning, Question.call, Generation.run_search]
  rfl

/-- A question that is put to a registry between calls is answered moment by moment, whatever circles its
types form. Each moment leads to the last one, at which the books are those of the registry that the call
leaves and the answer is that of the call. A question that is put on the way is answered as the search
under the types that are open then answers it. At each moment the books are in order: as many types are
open as are counted, one at each depth, and what leans is a built type that leans on an open one. A type
is settled as holding dates only by the answer that a date was met. Once this is the answer, or that a
type without a plan was met, it stays the answer at every further moment, so that no type is opened any
more, and every type that is open is closed by it: settled as holding dates, or left built as before. -/
theorem search_disciplined (r : Registry) (question : Question) :
    let start : Moment := ⟨r.desk, .asks question, []⟩
    let answer := (question.verdict r [] r.start).1
    let last : Moment := ⟨(question.call.run r).2.desk, .answers answer, []⟩
    (question.call.run r).1 = answer.map Verdict.isEmpty ∧
    ∀ m, r.Proceeds start m → r.Proceeds m last ∧ m.desk.Disciplined r ∧
      (∀ asked, m.turn = .asks asked → ∃ s : Search, m.desk = s.desk (openTypes m.waiting) ∧
        let given := asked.verdict r (openTypes m.waiting) s
        r.Proceeds m ⟨given.2.desk (openTypes m.waiting), .answers given.1, m.waiting⟩) ∧
      (∀ m' typeName, m.next r = some m' → m.desk.mark typeName ≠ .settled false →
        m'.desk.mark typeName = .settled false → m'.turn = .answers (.ok .holdsDate)) ∧
      ∀ given, m.turn = .answers given → endsSearch given = true → m.Unwinds r given last := by
  intro start answer last
  have hlast : r.Proceeds start last := by
    have hanswers := r.start_mirrors.answers question
    dsimp only [openTypes] at hanswers
    rw [← question.desk_call r] at hanswers
    exact hanswers
  refine ⟨?_, fun m hproceeds => ?_⟩
  · rw [Question.call, Generation.run_search]
    rfl
  · have hstart : start.desk.Mirrors r start.waiting r.start := r.start_mirrors
    obtain ⟨s, hmirrors⟩ := hproceeds.mirrors hstart
    have hend := hproceeds.to_end hlast
    obtain ⟨d, turn, waiting⟩ := m
    refine ⟨hend, hmirrors.disciplined, ?_, ?_, ?_⟩
    · rintro asked rfl
      exact ⟨s, hmirrors.desk, hmirrors.answers asked⟩
    · exact fun m' typeName => Moment.turn_of_settled
    · rintro given rfl hends
      exact hmirrors.unwinds hends hend

end DateReviver
