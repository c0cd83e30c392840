import DateReviver.Proofs.Capture
import DateReviver.Proofs.TypeScript.Printed

/-!
# Which names are identifiers

The names of functions, parameters and loops are made so that they are identifiers, and a property is
written after a dot only if its name is one. The type of a parameter is the only name that is printed as
the document has it. So if the document keeps to letters, digits, `.`, `-` and `_`, what is generated has
identifiers where it should exactly if the types that are declared have names that are identifiers.
-/

namespace DateReviver

open DateReviver.OpenApi DateReviver.TypeScript DateReviver.Text Registry

/-- A letter or digit of ASCII, `.`, `-` or `_`. -/
def isComponentChar (c : Char) : Bool :=
  c.isAlphanum || c == '.' || c == '-' || c == '_'

/-- The names of components, the identifiers of operations and the segments of paths have no other
characters, but that a segment may be a parameter. -/
structure OpenApi.Document.Lettered (doc : Document) : Prop where
  components : ∀ typeName ∈ doc.typeNames, typeName.toList.all isComponentChar = true
  operationIds : ∀ endpoint ∈ endpoints doc, ∀ id, endpoint.operation.operationId = some id →
    id.toList.all isComponentChar = true
  segments : ∀ endpoint ∈ endpoints doc, ∀ segment ∈ endpoint.path.toList.splitOn '/',
    segment.all isComponentChar = true ∨ segment.head? = some '\x7b'

/-- A type that the parameter of a function is declared with: one that is converted, or one in the
declared response of an operation that is converted. -/
inductive Options.Declares (options : Options) (doc : Document) : String → Prop
  | type {typeName : String} (h : options.ConvertsType doc typeName) : Declares options doc typeName
  | response {endpoint : Endpoint} {schema : Schema} {typeName : String}
      (hresponse : (endpoint, schema) ∈ options.responses doc) (hdate : schema.HoldsDate doc)
      (hname : typeName ∈ (responseType schema).names) : Declares options doc typeName

/-- The names in a module and in the calls beside it. -/
def Output.printed (output : Output) : List (Role × String) :=
  output.toModule.flatMap Function.printed ++
    output.callSites.flatMap fun site => site.statement.printed

/-! ## Names from a document -/

section Document

variable {doc : Document}

theorem all_isWordChar {chars : List Char} (h : chars.all isComponentChar = true) :
    chars.all isWordChar = true := by
  rw [List.all_eq_true] at h ⊢
  intro c hc
  have hchar := h c hc
  simp only [isComponentChar, isWordChar, isIdentPart, isSeparator, Bool.or_eq_true] at hchar ⊢
  grind

theorem all_intercalate {p : Char → Bool} {separator : List Char} {words : List (List Char)}
    (hseparator : separator.all p = true) (hwords : ∀ word ∈ words, word.all p = true) :
    (List.intercalate separator words).all p = true := by
  induction words with
  | nil => rfl
  | cons word rest ih =>
      obtain ⟨hword, hrest⟩ := List.forall_mem_cons.1 hwords
      cases rest with
      | nil => rwa [List.intercalate_singleton]
      | cons next others =>
          rw [List.intercalate_cons_cons, List.all_append, List.all_append, hword, hseparator,
            ih hrest]
          rfl

theorem OpenApi.Document.Lettered.name_isUnreserved (h : doc.Lettered) {endpoint : Endpoint}
    (hmem : endpoint ∈ endpoints doc) : IsUnreserved endpoint.name := by
  unfold Endpoint.name operationName
  split
  · rename_i id hid
    exact identifier_isUnreserved (all_isWordChar (h.operationIds endpoint hmem id hid))
  · refine identifier_isUnreserved ?_
    rw [String.toList_ofList]
    refine all_intercalate rfl fun segment hsegment => ?_
    rcases List.mem_cons.1 hsegment with rfl | hstatic
    · cases endpoint.method <;> decide
    · obtain ⟨hpath, hplain⟩ := List.mem_filter.1 hstatic
      rcases h.segments endpoint hmem segment hpath with hall | hparameter
      · exact all_isWordChar hall
      · cases segment with
        | nil => rfl
        | cons c rest =>
            cases hparameter
            simp at hplain

theorem Registry.Faithful.all_isWordChar {r : Registry} (h : r.Faithful doc) (hdoc : doc.Lettered) :
    ∀ typeName ∈ r.typeNames, typeName.toList.all isWordChar = true := by
  intro typeName hmem
  obtain ⟨schema, _, hschema, _, _⟩ := h.mirrors typeName hmem
  exact DateReviver.all_isWordChar (hdoc.components typeName (OrderedMap.mem_keys_of_get? hschema))

end Document

/-! ## Names in statements -/

section Statements

variable {r : Registry} {policy : GuardPolicy} {nullable : Bool} {value : Expr} {body : List Stmt}

theorem globalNames_isUnreserved : ∀ name ∈ globalNames, IsUnreserved name := by
  decide

theorem test_proper {test : Expr} (hvalue : value.Proper)
    (htest : policy.test? nullable value = some test) : test.Proper := by
  have hundefined : (Expr.ident "undefined").Proper :=
    Expr.proper_ident (globalNames_isUnreserved _ (by simp [globalNames]))
  unfold GuardPolicy.test? at htest
  split at htest
  · cases htest
    simp [isNotNull, hvalue]
  · cases htest
  · cases htest
    simp [isDefined, isNotNull, hvalue, hundefined]
  · cases htest
    simp [isDefined, hvalue, hundefined]

theorem guarded_proper (hvalue : value.Proper) (hbody : Stmt.ProperAll body) :
    Stmt.ProperAll (policy.guarded nullable value body) := by
  unfold GuardPolicy.guarded
  split
  · rename_i test htest
    simp [test_proper hvalue htest, hbody]
  · exact hbody

theorem dateStatements_proper (hvalue : value.Proper) :
    Stmt.ProperAll (dateStatements policy nullable value) := by
  have hdate : (Expr.ident "Date").Proper :=
    Expr.proper_ident (globalNames_isUnreserved _ (by simp [globalNames]))
  refine guarded_proper hvalue ?_
  simp [convertDate, hvalue, hdate]

theorem callStatement_proper {typeName : String} (hname : IsUnreserved (functionName typeName))
    (hvalue : value.Proper) : (callStatement typeName nullable value).Proper := by
  have hundefined : (Expr.ident "undefined").Proper :=
    Expr.proper_ident (globalNames_isUnreserved _ (by simp [globalNames]))
  have hcallee := Expr.proper_ident hname
  cases nullable <;> simp [callStatement, isDefined, isNotNull, hvalue, hundefined, hcallee]

theorem loopName_index (level : Nat) : LoopName level (loopVariable "i" level) :=
  .inl rfl

theorem loopName_key (level : Nat) : LoopName level (loopVariable "key" level) :=
  .inr rfl

mutual

/-- If the names in a value are proper, so are those in the statements for it. The induction is on the
plan. -/
theorem statements_proper (hnames : ∀ typeName ∈ r.typeNames, typeName.toList.all isWordChar = true)
    (scope : Scope) (plan : Plan) {value : Expr} (hvalue : value.Proper) :
    Stmt.ProperAll (r.statements policy scope plan value) := by
  cases plan with
  | primitive => exact Stmt.properAll_nil
  | date nullable => exact dateStatements_proper hvalue
  | delegate typeName nullable =>
      rw [statements_delegate]
      split
      · exact dateStatements_proper hvalue
      · split
        · rename_i hdate
          obtain ⟨plan, hplan, _⟩ := hdate.of_delegate
          have hword := hnames typeName (mem_typeNames_of_plan? hplan)
          exact Stmt.properAll_singleton.2
            (callStatement_proper (functionName_isUnreserved hword) hvalue)
        · exact Stmt.properAll_nil
  | array item nullable =>
      have hindex := (loopName_index scope.loops).isUnreserved
      have hitem := Expr.proper_index.2 ⟨hvalue, Expr.proper_ident hindex⟩
      have hbody := statements_proper hnames scope.enterLoop item hitem
      rw [statements_array]
      split
      · exact Stmt.properAll_nil
      · refine guarded_proper hvalue ?_
        simp [hindex, hvalue, hbody]
  | map values nullable =>
      have hkey := (loopName_key scope.loops).isUnreserved
      have hentry := Expr.proper_index.2 ⟨hvalue, Expr.proper_ident hkey⟩
      have hbody := statements_proper hnames scope.enterLoop values hentry
      have hobject : (Expr.ident "Object").Proper :=
        Expr.proper_ident (globalNames_isUnreserved _ (by simp [globalNames]))
      have hkeys : IsIdentifier "keys" := by decide
      rw [statements_map]
      split
      · exact Stmt.properAll_nil
      · refine guarded_proper hvalue ?_
        simp [hkey, hvalue, hbody, hobject, hkeys]
  | object properties nullable =>
      have hbody := propertyStatements_proper hnames scope.enterProperty properties hvalue
      rw [statements_object]
      split
      · exact hbody
      · exact guarded_proper hvalue hbody

theorem propertyStatements_proper
    (hnames : ∀ typeName ∈ r.typeNames, typeName.toList.all isWordChar = true) (scope : Scope)
    (properties : List (String × Plan)) {object : Expr} (hobject : object.Proper) :
    Stmt.ProperAll (r.propertyStatements policy scope properties object) := by
  cases properties with
  | nil => exact Stmt.properAll_nil
  | cons property rest =>
      obtain ⟨name, plan⟩ := property
      rw [propertyStatements_cons, Stmt.properAll_append]
      exact ⟨statements_proper hnames scope plan (Expr.proper_property hobject),
        propertyStatements_proper hnames scope rest hobject⟩

end

end Statements

/-! ## Names in functions -/

/-- The name of a type in the declaration of a parameter. -/
theorem mem_printed_param {param : Param} {name : String} :
    (.type, name) ∈ param.printed ↔ ∃ type, param.type = some type ∧ name ∈ type.names := by
  unfold Param.printed
  cases param.type with
  | none => simp
  | some type => simp

theorem Function.mem_printed_type {f : Function} {param : Param} {type : Ty} {name : String}
    (hparam : param ∈ f.params) (htype : param.type = some type) (hname : name ∈ type.names) :
    (.type, name) ∈ f.printed :=
  List.mem_append_left _ (List.mem_cons_of_mem _ (List.mem_flatMap.2
    ⟨param, hparam, mem_printed_param.2 ⟨type, htype, hname⟩⟩))

/-- The names in a function with one parameter are its own, those of the parameter and its type, and
those in the statements. -/
theorem Function.proper_or_type {name paramName : String} {type : Ty} {body : List Stmt}
    {exported : Bool} (hname : IsUnreserved name) (hparam : IsUnreserved paramName)
    (hbody : Stmt.ProperAll body) :
    ∀ entry ∈ (Function.mk name [⟨paramName, some type⟩] body exported).printed,
      Proper entry ∨ ∃ typeName ∈ type.names, entry = (.type, typeName) := by
  intro entry hentry
  rw [Function.printed, List.flatMap_singleton, List.mem_append, List.mem_cons] at hentry
  rcases hentry with (rfl | hentry) | hentry
  · exact .inl hname.proper
  · rw [Param.printed, List.mem_cons] at hentry
    rcases hentry with rfl | hentry
    · exact .inl hparam.proper
    · obtain ⟨typeName, hmem, rfl⟩ := List.mem_map.1 hentry
      exact .inr ⟨typeName, hmem, rfl⟩
  · exact .inl (hbody entry hentry)

section Functions

variable {r : Registry} {policy : GuardPolicy}

theorem functionOfType_proper
    (hnames : ∀ typeName ∈ r.typeNames, typeName.toList.all isWordChar = true) {typeName : String}
    {plan : Plan} (hneeds : r.NeedsFunction typeName plan) :
    ∀ entry ∈ (r.functionOfType policy typeName plan).printed,
      Proper entry ∨ entry = (.type, typeName) := by
  have hword := hnames typeName (mem_typeNames_of_plan? hneeds.plan?)
  have hparam := parameterName_isUnreserved hword
  have hbody : Stmt.ProperAll (r.functionOfType policy typeName plan).body :=
    statements_proper hnames .root plan (Expr.proper_ident hparam)
  intro entry hentry
  rcases Function.proper_or_type (functionName_isUnreserved hword) hparam hbody entry hentry
    with hproper | ⟨name, hname, rfl⟩
  · exact .inl hproper
  · rw [Ty.names, List.mem_singleton] at hname
    exact .inr (by rw [hname])

theorem response_proper : (Expr.ident "response").Proper :=
  Expr.proper_ident (by decide)

theorem functionOfOperation_proper
    (hnames : ∀ typeName ∈ r.typeNames, typeName.toList.all isWordChar = true)
    {operation : OperationPlan} (hname : IsUnreserved operation.name) :
    ∀ entry ∈ (r.functionOfOperation policy operation).printed,
      Proper entry ∨ ∃ name ∈ operation.responseType.names, entry = (.type, name) := by
  have hcapital := all_capitalize (fun _ => all_upperChar_identPart) hname.identifier.all_identPart
  have hbody : Stmt.ProperAll (r.functionOfOperation policy operation).body :=
    Stmt.properAll_append.2 ⟨statements_proper hnames .root operation.plan response_proper,
      Stmt.properAll_singleton.2 (Stmt.proper_ret.2 response_proper)⟩
  exact Function.proper_or_type (transform_isUnreserved hcapital (by decide) (by decide)) (by decide)
    hbody

end Functions

section Output

variable {options : Options} {doc : Document} {r : Registry} {operations : List OperationPlan}
  {output : Output}

/-- Every name is proper, or that of a type that is declared. -/
theorem Output.MadeFrom.proper_or_declares (h : output.MadeFrom options doc r operations)
    (hanswers : List.Forall₂ (OperationPlan.Answers doc r) (options.responses doc) operations)
    (hdoc : doc.Lettered) : ∀ entry ∈ output.printed,
      Proper entry ∨ ∃ name, options.Declares doc name ∧ entry = (.type, name) := by
  have hnames := h.faithful.all_isWordChar hdoc
  intro entry hentry
  rcases List.mem_append.1 hentry with hmodule | hsites
  · obtain ⟨f, hf, hentry⟩ := List.mem_flatMap.1 hmodule
    rcases List.mem_append.1 hf with htype | hoperation
    · obtain ⟨typeNames, _, hiff, hfunctions⟩ := h.typeFunctions
      obtain ⟨typeName, hmem, own, hneeds, rfl⟩ := exists_of_mem_right hfunctions htype
      rcases functionOfType_proper hnames hneeds entry hentry with hproper | rfl
      · exact .inl hproper
      · exact .inr ⟨typeName, .type ((hiff typeName).1 hmem), rfl⟩
    · obtain ⟨operation, hmem, hdate, rfl⟩ := h.written.mem_operationFunctions hoperation
      obtain ⟨⟨endpoint, schema⟩, hmade, hconverts, htype⟩ := exists_of_mem_right hanswers hmem
      have hoperation : IsUnreserved operation.name := by
        rw [hconverts.name]
        exact hdoc.name_isUnreserved hconverts.mem
      rcases functionOfOperation_proper hnames hoperation entry hentry
        with hproper | ⟨name, hname, rfl⟩
      · exact .inl hproper
      · rw [htype] at hname
        have hdates := (h.faithful.holdsDate_iff hconverts.translates hconverts.knows).1 hdate
        exact .inr ⟨name, .response hmade hdates hname, rfl⟩
  · obtain ⟨site, hsite, hentry⟩ := List.mem_flatMap.1 hsites
    have hstatement := callSite?_eq_some_iff.1 (h.mem_callSites_iff.1 hsite).2
    have hproper : site.statement.Proper := by
      rw [← Stmt.properAll_singleton, ← hstatement]
      exact statements_proper hnames .root (.delegate site.typeName false) response_proper
    exact .inl (hproper entry hentry)

/-- The name of every type that is declared is printed. -/
theorem Output.MadeFrom.mem_printed (h : output.MadeFrom options doc r operations)
    (hanswers : List.Forall₂ (OperationPlan.Answers doc r) (options.responses doc) operations)
    {name : String} (hdeclares : options.Declares doc name) : (.type, name) ∈ output.printed := by
  refine List.mem_append_left _ (List.mem_flatMap.2 ?_)
  cases hdeclares with
  | type hconverts =>
      obtain ⟨typeNames, _, hiff, hfunctions⟩ := h.typeFunctions
      obtain ⟨f, hf, own, _, rfl⟩ := exists_of_mem_left hfunctions ((hiff name).2 hconverts)
      exact ⟨_, List.mem_append_left _ hf,
        Function.mem_printed_type List.mem_cons_self rfl List.mem_cons_self⟩
  | response hresponse hdate hname =>
      obtain ⟨operation, hmem, hconverts, htype⟩ := exists_of_mem_left hanswers hresponse
      rw [← htype] at hname
      have hf : r.functionOfOperation options.policy operation ∈ output.operationFunctions := by
        rw [h.written.operationFunctions, List.mem_filterMap]
        exact ⟨operation, hmem,
          if_pos ((h.faithful.holdsDate_iff hconverts.translates hconverts.knows).2 hdate)⟩
      exact ⟨_, List.mem_append_right _ hf,
        Function.mem_printed_type List.mem_cons_self rfl hname⟩

end Output

/-- If the names in a document keep to the characters of component names, all names in what is
generated are identifiers, and those of functions, parameters and loops are not reserved, but for the
types that parameters are declared with. These are printed as they are in the document: so all names
are as they should be exactly if the declared types have names that are identifiers and not reserved. -/
theorem generate_proper_iff {options : Options} {doc : Document} {output : Output}
    (hdoc : doc.Lettered) (hrun : generate options doc = .ok output) :
    (∀ entry ∈ output.printed, entry.1 ≠ .type → Proper entry) ∧
      ((∀ entry ∈ output.printed, Proper entry) ↔
        ∀ name, options.Declares doc name → IsUnreserved name) := by
  obtain ⟨operations, r, hplanning⟩ := generate_ok_iff.1 ⟨output, hrun⟩
  have hmade := madeFrom_of_planning hplanning hrun
  have hanswers := (planning_answers hplanning).2
  have hcases := hmade.proper_or_declares hanswers hdoc
  refine ⟨fun entry hentry hrole => ?_, fun h name hdeclares => ?_, fun h entry hentry => ?_⟩
  · rcases hcases entry hentry with hproper | ⟨name, _, rfl⟩
    · exact hproper
    · exact absurd rfl hrole
  · exact (proper_iff (by decide)).1 (h _ (hmade.mem_printed hanswers hdeclares))
  · rcases hcases entry hentry with hproper | ⟨name, hdeclares, rfl⟩
    · exact hproper
    · exact (h name hdeclares).proper

/-- The only type that is declared is that of entries. -/
theorem generate_proper_chained : ∃ output, generate {} (chained true) = .ok output ∧
    ∀ entry ∈ output.printed, Proper entry := by
  obtain ⟨output, hrun⟩ := generate_ok_iff.2 ⟨_, _, planning_chained true⟩
  have hlettered : (chained true).Lettered := by
    constructor
    · intro typeName hmem
      obtain ⟨schema, hschema⟩ := OrderedMap.mem_keys_iff.1 hmem
      rw [(eq_of_schema?_chained true hschema).1]
      decide
    · rw [endpoints_chained, List.forall_mem_singleton]
      rintro id hid
      cases hid
      decide
    · rw [endpoints_chained, List.forall_mem_singleton]
      decide
  have hdeclares : ∀ name, Options.Declares {} (chained true) name → name = "Entry" := by
    intro name hdeclares
    cases hdeclares with
    | type hconverts =>
        obtain ⟨_, schema, _, _, hschema, _⟩ := hconverts
        exact (eq_of_schema?_chained true hschema).1
    | @response endpoint schema _ hresponse _ hname =>
        obtain ⟨hmem, hoffer⟩ := Options.mem_responses_iff.1 hresponse
        have hendpoint : endpoint ∈ endpoints (chained true) := hmem
        rw [endpoints_chained, List.mem_singleton] at hendpoint
        subst hendpoint
        have hschema : schema = .referring "Entry" := by
          cases hoffer
          rfl
        rwa [hschema, responseType_referring, Ty.names, List.mem_singleton] at hname
  refine ⟨output, hrun, (generate_proper_iff hlettered hrun).2.2 fun name hname => ?_⟩
  rw [hdeclares name hname]
  decide

/-- The name of a component with a dash in it is printed as it is. -/
theorem not_proper_lone : (lone "pet-shop").Lettered ∧
    ∃ output, generate { types := ["pet-shop"] } (lone "pet-shop") = .ok output ∧
      (.type, "pet-shop") ∈ output.printed ∧ ¬ IsIdentifier "pet-shop" := by
  obtain ⟨output, hrun⟩ := generate_lone "pet-shop"
  obtain ⟨operations, r, hplanning⟩ := generate_ok_iff.1 ⟨output, hrun⟩
  have hmade := madeFrom_of_planning hplanning hrun
  have hlettered : (lone "pet-shop").Lettered := by
    constructor
    · have hnames : (lone "pet-shop").typeNames = ["pet-shop"] := rfl
      rw [hnames]
      decide
    · simp [endpoints_lone]
    · simp [endpoints_lone]
  refine ⟨hlettered, output, hrun, ?_, by decide⟩
  exact hmade.mem_printed (planning_answers hplanning).2 (.type (convertsType_lone "pet-shop"))

end DateReviver
