import DateReviver.Proofs.TypeScript.Execution

/-!
# Runs that have fuel enough

A run settles to an outcome if it has that outcome with any fuel from some amount on. Each kind of
statement settles where its parts settle, so that a run is followed without counting its steps. A
run that does not use up its fuel does the same with more, so what it settles to is all that it can
do.
-/

namespace DateReviver.TypeScript

/-- With fuel enough, a run has an outcome. -/
def Settles {α : Type} (run : Nat → Except Fault α) (outcome : Except Fault α) : Prop :=
  ∃ enough, ∀ fuel, enough ≤ fuel → run fuel = outcome

section Sequence

variable {α β : Type} {run : Nat → Except Fault α} {outcome : Except Fault α}

theorem Settles.of_succ {next : Nat → Except Fault α} (h : Settles next outcome)
    (hrun : ∀ fuel, run (fuel + 1) = next fuel) : Settles run outcome := by
  obtain ⟨enough, henough⟩ := h
  refine ⟨enough + 1, fun fuel hfuel => ?_⟩
  obtain ⟨rest, rfl⟩ : ∃ rest, fuel = rest + 1 := ⟨fuel - 1, by omega⟩
  rw [hrun]
  exact henough rest (by omega)

theorem Settles.const (hrun : ∀ fuel, run (fuel + 1) = outcome) : Settles run outcome :=
  Settles.of_succ ⟨0, fun _ _ => rfl⟩ hrun

theorem Settles.comp (h : Settles run outcome) (next : Except Fault α → Except Fault β) :
    Settles (fun fuel => next (run fuel)) (next outcome) := by
  obtain ⟨enough, henough⟩ := h
  exact ⟨enough, fun fuel hfuel => congrArg next (henough fuel hfuel)⟩

/-- A run settles to one outcome only. -/
theorem Settles.outcome_eq {other : Except Fault α} (h : Settles run outcome)
    (hother : Settles run other) : outcome = other := by
  obtain ⟨first, hfirst⟩ := h
  obtain ⟨second, hsecond⟩ := hother
  rw [← hfirst (max first second) (by omega), hsecond (max first second) (by omega)]

theorem Settles.andThen {run : Nat → Outcome} {next : Frame → Nat → Outcome} {frame : Frame}
    {outcome : Outcome} (h : Settles run (.ok (frame, none)))
    (hnext : Settles (next frame) outcome) :
    Settles (fun fuel => (run fuel).andThen fun frame => next frame fuel) outcome := by
  obtain ⟨first, hfirst⟩ := h
  obtain ⟨second, hsecond⟩ := hnext
  refine ⟨max first second, fun fuel hfuel => ?_⟩
  dsimp only
  rw [hfirst fuel (by omega)]
  exact hsecond fuel (by omega)

/-- What comes after a fault, or after a value is returned, is not run. -/
theorem Settles.andThen_stop {run : Nat → Outcome} {outcome : Outcome} (h : Settles run outcome)
    (hstop : ∀ next, outcome.andThen next = outcome) (next : Frame → Nat → Outcome) :
    Settles (fun fuel => (run fuel).andThen fun frame => next frame fuel) outcome := by
  obtain ⟨enough, henough⟩ := h
  refine ⟨enough, fun fuel hfuel => ?_⟩
  dsimp only
  rw [henough fuel hfuel]
  exact hstop _

end Sequence

/-! ## Statements -/

section Statements

variable {m : Module} {env : Env} {frame frame' : Frame} {s : Stmt} {body rest : List Stmt}
  {outcome : Outcome} {fault : Fault}

theorem settles_nil : Settles (exec m · env frame []) (.ok (frame, none)) :=
  .const fun _ => exec_nil

theorem settles_cons (h : Settles (execStmt m · env frame s) (.ok (frame', none)))
    (hrest : Settles (exec m · env frame' rest) outcome) :
    Settles (exec m · env frame (s :: rest)) outcome :=
  (h.andThen hrest).of_succ fun _ => exec_cons

theorem settles_cons_error (h : Settles (execStmt m · env frame s) (.error fault)) :
    Settles (exec m · env frame (s :: rest)) (.error fault) :=
  (h.andThen_stop (fun _ => rfl) fun frame fuel => exec m fuel env frame rest).of_succ
    fun _ => exec_cons

section Guarded

variable {test : Expr} (body)

theorem settles_guarded (htest : test.holds m env frame.current = .ok true)
    (h : Settles (exec m · env frame body) outcome) :
    Settles (execStmt m · env frame (.guarded test body)) outcome :=
  h.of_succ fun fuel => by
    rw [execStmt_guarded, htest]
    rfl

theorem settles_guarded_skip (htest : test.holds m env frame.current = .ok false) :
    Settles (execStmt m · env frame (.guarded test body)) (.ok (frame, none)) :=
  .const fun fuel => by
    rw [execStmt_guarded, htest]
    rfl

theorem settles_guarded_error (htest : test.holds m env frame.current = .error fault) :
    Settles (execStmt m · env frame (.guarded test body)) (.error fault) :=
  .const fun fuel => by
    rw [execStmt_guarded, htest]
    rfl

end Guarded

theorem settles_expr {e : Expr} {result : Except Fault Frame}
    (h : Settles (execExpr m · env frame e) result) :
    Settles (execStmt m · env frame (.expr e)) (result.map fun frame => (frame, none)) :=
  (h.comp fun result => result.map fun frame => (frame, none)).of_succ fun _ => execStmt_expr

theorem settles_ret {e : Expr} {value : Value} (h : e.read env frame.current = .ok value) :
    Settles (exec m · env frame (.ret e :: rest)) (.ok (frame, some value)) := by
  have hreturn : Settles (execStmt m · env frame (.ret e)) (.ok (frame, some value)) :=
    .const fun fuel => by
      rw [execStmt_ret, h]
      rfl
  have hrest := hreturn.andThen_stop (fun _ => rfl) fun frame fuel => exec m fuel env frame rest
  exact hrest.of_succ fun _ => exec_cons

/-! ### Loops -/

section Loops

variable {name key : String} {array iterable : Expr} {position length : Nat}
  {keys : List String}

theorem settles_forIndex (h : Settles (execFrom m · env frame name array body 0) outcome) :
    Settles (execStmt m · env frame (.forIndex name array body)) outcome :=
  h.of_succ fun _ => execStmt_forIndex

section From

variable (hlength : array.length (env.under [(name, some (.index position))]) frame.current
  = .ok length)

include hlength

theorem settles_from_end (hposition : ¬ position < length) :
    Settles (execFrom m · env frame name array body position) (.ok (frame, none)) :=
  .const fun fuel => by
    rw [execFrom_succ, hlength]
    exact if_neg hposition

theorem settles_from_step (hposition : position < length)
    (h : Settles (exec m · (env.under [(name, some (.index position))]) frame body)
      (.ok (frame', none)))
    (hrest : Settles (execFrom m · env frame' name array body (position + 1)) outcome) :
    Settles (execFrom m · env frame name array body position) outcome :=
  (h.andThen hrest).of_succ fun fuel => by
    rw [execFrom_succ, hlength]
    exact if_pos hposition

theorem settles_from_error (hposition : position < length)
    (h : Settles (exec m · (env.under [(name, some (.index position))]) frame body)
      (.error fault)) :
    Settles (execFrom m · env frame name array body position) (.error fault) :=
  (h.andThen_stop (fun _ => rfl) fun frame fuel =>
      execFrom m fuel env frame name array body (position + 1)).of_succ fun fuel => by
    rw [execFrom_succ, hlength]
    exact if_pos hposition

end From

theorem settles_from_fault
    (hlength : array.length (env.under [(name, some (.index position))]) frame.current
      = .error fault) :
    Settles (execFrom m · env frame name array body position) (.error fault) :=
  .const fun fuel => by
    rw [execFrom_succ, hlength]
    rfl

theorem settles_forOf (hkeys : iterable.keys m (env.under [(name, none)]) frame.current = .ok keys)
    (h : Settles (execOver m · env frame name body keys) outcome) :
    Settles (execStmt m · env frame (.forOf name iterable body)) outcome :=
  h.of_succ fun fuel => by
    rw [execStmt_forOf, hkeys]
    rfl

theorem settles_forOf_fault
    (hkeys : iterable.keys m (env.under [(name, none)]) frame.current = .error fault) :
    Settles (execStmt m · env frame (.forOf name iterable body)) (.error fault) :=
  .const fun fuel => by
    rw [execStmt_forOf, hkeys]
    rfl

theorem settles_over_nil :
    Settles (execOver m · env frame name body []) (.ok (frame, none)) :=
  .const fun _ => execOver_nil

theorem settles_over_cons
    (h : Settles (exec m · (env.under [(name, some (.name key))]) frame body)
      (.ok (frame', none)))
    (hrest : Settles (execOver m · env frame' name body keys) outcome) :
    Settles (execOver m · env frame name body (key :: keys)) outcome :=
  (h.andThen hrest).of_succ fun _ => execOver_cons

theorem settles_over_error
    (h : Settles (exec m · (env.under [(name, some (.name key))]) frame body) (.error fault)) :
    Settles (execOver m · env frame name body (key :: keys)) (.error fault) :=
  (h.andThen_stop (fun _ => rfl) fun frame fuel => execOver m fuel env frame name body keys).of_succ
    fun _ => execOver_cons

end Loops

/-! ### Assignments and calls -/

section Assignments

variable {target : Expr} {value after : Value}

theorem settles_assign
    (hdate : (env.isOuter "Date" && !(m.any fun f => f.name == "Date")) = true)
    (htarget : ∀ name, target ≠ .ident name)
    (hread : target.read env frame.current = .ok value)
    (hwrite : target.write env frame.current (.date value) = .ok after) :
    Settles (execExpr m · env frame (.assign target (.new (.ident "Date") [target])))
      (.ok (frame.change after)) :=
  .const fun fuel => by
    rw [execExpr_assign, if_pos hdate, hread]
    cases target with
    | ident name => exact absurd rfl (htarget name)
    | _ =>
        dsimp only [bind, Except.bind]
        rw [hwrite]

theorem settles_rebind {name : String}
    (hdate : (env.isOuter "Date" && !(m.any fun f => f.name == "Date")) = true)
    (hparam : env.isParam name = true) :
    Settles (execExpr m · env frame (.assign (.ident name) (.new (.ident "Date") [.ident name])))
      (.ok { frame with rebound := some (.date frame.current) }) :=
  .const fun fuel => by
    rw [execExpr_assign, if_pos hdate, Expr.read, if_pos hparam]
    exact if_pos hparam

end Assignments

section Calls

variable {function : String} {argument : Expr} {value : Value}
  {result : Except Fault (Value × Option Value)}

/-- A call runs the body of the function on the value, and leaves what the body has changed. -/
theorem settles_call {param : Param} {exported : Bool}
    (hfunction : (m.find? fun f => f.name == function) = some ⟨function, [param], body, exported⟩)
    (h : Settles (exec m · ⟨param.name, []⟩ ⟨value, none⟩ body) outcome) :
    Settles (call m · function value)
      (outcome.map fun ended => (ended.1.value, ended.2)) :=
  (h.comp fun outcome => outcome.map fun ended => (ended.1.value, ended.2)).of_succ
    fun fuel => by
      rw [call_succ, hfunction]
      dsimp only
      cases exec m fuel ⟨param.name, []⟩ ⟨value, none⟩ body <;> rfl

theorem settles_callExpr {changed after : Value} {returned : Option Value}
    (hfunction : env.isOuter function = true)
    (hread : argument.read env frame.current = .ok value)
    (h : Settles (call m · function value) (.ok (changed, returned)))
    (hwrite : argument.write env frame.current changed = .ok after) :
    Settles (execExpr m · env frame (.call (.ident function) [argument]))
      (.ok (frame.change after)) := by
  have hcall := h.comp fun result => result >>= fun changed => do
    .ok (frame.change (← argument.write env frame.current changed.1))
  dsimp only [bind, Except.bind] at hcall
  rw [hwrite] at hcall
  refine hcall.of_succ fun fuel => ?_
  rw [execExpr_call, if_pos hfunction, hread]
  rfl

theorem settles_callExpr_error (hfunction : env.isOuter function = true)
    (hread : argument.read env frame.current = .ok value)
    (h : Settles (call m · function value) (.error fault)) :
    Settles (execExpr m · env frame (.call (.ident function) [argument])) (.error fault) := by
  have hcall := h.comp fun result => result >>= fun changed => do
    .ok (frame.change (← argument.write env frame.current changed.1))
  refine hcall.of_succ fun fuel => ?_
  rw [execExpr_call, if_pos hfunction, hread]
  rfl

end Calls

end Statements

/-! ## Statements in a row -/

/-- Statements end, whatever follows them: what follows goes on where they left the parameter, or
they stop with a fault. -/
def Ends (m : Module) (env : Env) (frame : Frame) (body : List Stmt) :
    Except Fault Frame → Prop
  | .ok after => ∀ rest outcome, Settles (exec m · env after rest) outcome →
      Settles (exec m · env frame (body ++ rest)) outcome
  | .error fault => ∀ rest, Settles (exec m · env frame (body ++ rest)) (.error fault)

section Ends

variable {m : Module} {env : Env} {frame after : Frame} {s : Stmt} {body more : List Stmt}
  {result : Except Fault Frame} {fault : Fault}

theorem Ends.nil : Ends m env frame [] (.ok frame) :=
  fun _ _ h => h

theorem Ends.append (h : Ends m env frame body (.ok after)) (hmore : Ends m env after more result) :
    Ends m env frame (body ++ more) result := by
  cases result with
  | ok last =>
      intro rest outcome hrest
      rw [List.append_assoc]
      exact h _ outcome (hmore rest outcome hrest)
  | error fault =>
      intro rest
      rw [List.append_assoc]
      exact h _ _ (hmore rest)

theorem Ends.append_error (h : Ends m env frame body (.error fault)) :
    Ends m env frame (body ++ more) (.error fault) := by
  intro rest
  rw [List.append_assoc]
  exact h _

theorem Ends.single (h : Settles (execStmt m · env frame s)
    (result.map fun frame => (frame, none))) : Ends m env frame [s] result := by
  cases result with
  | ok after => exact fun rest outcome hrest => settles_cons h hrest
  | error fault => exact fun rest => settles_cons_error h

theorem Ends.settles (h : Ends m env frame body result) :
    Settles (exec m · env frame body) (result.map fun frame => (frame, none)) := by
  rw [← List.append_nil body]
  cases result with
  | ok after => exact h [] _ settles_nil
  | error fault => exact h []

end Ends

/-! ## More fuel -/

/-- A run that has not used up its fuel does the same with one more unit of it. -/
def Steady {α : Type} (run : Nat → Except Fault α) (fuel : Nat) : Prop :=
  run fuel ≠ .error .exhausted → run (fuel + 1) = run fuel

section Steady

variable {α β : Type} {run : Nat → Except Fault α} {fuel : Nat}

theorem Steady.zero (h : run 0 = .error .exhausted) : Steady run 0 :=
  fun hne => absurd h hne

theorem Steady.const (a : Except Fault α) : Steady (fun _ => a) fuel :=
  fun _ => rfl

theorem Steady.of_succ {next : Nat → Except Fault α} (h : Steady next fuel)
    (hrun : ∀ fuel, run (fuel + 1) = next fuel) : Steady run (fuel + 1) := by
  intro hne
  rw [hrun] at hne
  rw [hrun, hrun]
  exact h hne

theorem Steady.bind {next : α → Nat → Except Fault β} (h : Steady run fuel)
    (hnext : ∀ a, Steady (next a) fuel) :
    Steady (fun fuel => run fuel >>= fun a => next a fuel) fuel := by
  intro hne
  dsimp only at hne ⊢
  rcases hresult : run fuel with fault | a
  · rw [h, hresult]
    · rfl
    · intro hexhausted
      rw [hexhausted] at hne
      exact hne rfl
  · rw [hresult] at hne
    rw [h, hresult]
    · exact hnext a hne
    · rw [hresult]
      exact fun habsurd => by cases habsurd

theorem Steady.andThen {run : Nat → Outcome} {next : Frame → Nat → Outcome}
    (h : Steady run fuel) (hnext : ∀ frame, Steady (next frame) fuel) :
    Steady (fun fuel => (run fuel).andThen fun frame => next frame fuel) fuel := by
  intro hne
  dsimp only at hne ⊢
  rcases hresult : run fuel with fault | ⟨frame, _ | value⟩
  · rw [h, hresult]
    · rfl
    · intro hexhausted
      rw [hexhausted] at hne
      exact hne rfl
  · rw [hresult] at hne
    rw [h, hresult]
    · exact hnext frame hne
    · rw [hresult]
      exact fun habsurd => by cases habsurd
  · rw [h, hresult]
    · rfl
    · rw [hresult]
      exact fun habsurd => by cases habsurd

end Steady

/-- Whatever a module runs is steady. -/
structure Module.Steady (m : Module) (fuel : Nat) : Prop where
  exec : ∀ env frame body, TypeScript.Steady (exec m · env frame body) fuel
  execStmt : ∀ env frame s, TypeScript.Steady (execStmt m · env frame s) fuel
  execFrom : ∀ env frame name array body position,
    TypeScript.Steady (execFrom m · env frame name array body position) fuel
  execOver : ∀ env frame name body keys,
    TypeScript.Steady (execOver m · env frame name body keys) fuel
  execExpr : ∀ env frame e, TypeScript.Steady (execExpr m · env frame e) fuel
  call : ∀ function value, TypeScript.Steady (call m · function value) fuel

theorem Module.Steady.zero (m : Module) : m.Steady 0 := by
  constructor
  · exact fun _ _ body => .zero rfl
  · exact fun _ _ s => .zero rfl
  · exact fun _ _ _ _ _ _ => .zero rfl
  · exact fun _ _ _ _ keys => .zero rfl
  · exact fun _ _ e => .zero rfl
  · exact fun _ _ => .zero rfl

theorem Module.Steady.succ {m : Module} {fuel : Nat} (h : m.Steady fuel) :
    m.Steady (fuel + 1) := by
  constructor
  · intro env frame body
    cases body with
    | nil => exact (TypeScript.Steady.const _).of_succ fun _ => exec_nil
    | cons s rest =>
        refine ((h.execStmt env frame s).andThen fun frame => h.exec env frame rest).of_succ ?_
        exact fun _ => exec_cons
  · intro env frame s
    cases s with
    | expr value =>
        refine ((h.execExpr env frame value).bind fun frame =>
          .const (.ok (frame, none))).of_succ ?_
        exact fun _ => execStmt_expr
    | guarded test body =>
        rcases htest : test.holds m env frame.current with fault | _ | _
        · refine (TypeScript.Steady.const (.error fault)).of_succ fun fuel => ?_
          rw [execStmt_guarded, htest]
          rfl
        · refine (TypeScript.Steady.const (.ok (frame, none))).of_succ fun fuel => ?_
          rw [execStmt_guarded, htest]
          rfl
        · refine (h.exec env frame body).of_succ fun fuel => ?_
          rw [execStmt_guarded, htest]
          rfl
    | forIndex name array body =>
        refine (h.execFrom env frame name array body 0).of_succ fun _ => ?_
        exact execStmt_forIndex
    | forOf name iterable body =>
        rcases hkeys : iterable.keys m (env.under [(name, none)]) frame.current with fault | keys
        · refine (TypeScript.Steady.const (.error fault)).of_succ fun fuel => ?_
          rw [execStmt_forOf, hkeys]
          rfl
        · refine (h.execOver env frame name body keys).of_succ fun fuel => ?_
          rw [execStmt_forOf, hkeys]
          rfl
    | ret value =>
        refine (TypeScript.Steady.const
          ((value.read env frame.current).map fun value => (frame, some value))).of_succ ?_
        exact fun _ => execStmt_ret
  · intro env frame name array body position
    rcases hlength : array.length (env.under [(name, some (.index position))]) frame.current with
      fault | length
    · refine (TypeScript.Steady.const (.error fault)).of_succ fun fuel => ?_
      rw [execFrom_succ, hlength]
      rfl
    · by_cases hposition : position < length
      · refine ((h.exec (env.under [(name, some (.index position))]) frame body).andThen
          fun frame => h.execFrom env frame name array body (position + 1)).of_succ fun fuel => ?_
        rw [execFrom_succ, hlength]
        exact if_pos hposition
      · refine (TypeScript.Steady.const (.ok (frame, none))).of_succ fun fuel => ?_
        rw [execFrom_succ, hlength]
        exact if_neg hposition
  · intro env frame name body keys
    cases keys with
    | nil => exact (TypeScript.Steady.const _).of_succ fun _ => execOver_nil
    | cons key rest =>
        refine ((h.exec (env.under [(name, some (.name key))]) frame body).andThen fun frame =>
          h.execOver env frame name body rest).of_succ fun _ => ?_
        exact execOver_cons
  · intro env frame e
    by_cases hcall : ∃ function argument, e = .call (.ident function) [argument]
    · obtain ⟨function, argument, rfl⟩ := hcall
      by_cases houter : env.isOuter function = true
      · rcases hread : argument.read env frame.current with fault | value
        · refine (TypeScript.Steady.const (.error fault)).of_succ fun fuel => ?_
          rw [execExpr_call, if_pos houter, hread]
          rfl
        · refine ((h.call function value).bind fun changed => .const (do
            .ok (frame.change (← argument.write env frame.current changed.1)))).of_succ ?_
          intro fuel
          rw [execExpr_call, if_pos houter, hread]
          rfl
      · refine (TypeScript.Steady.const (.error .unsupported)).of_succ fun fuel => ?_
        rw [execExpr_call, if_neg houter]
    -- All other expressions are done at once, whatever fuel is left.
    · refine (TypeScript.Steady.const (TypeScript.execExpr m 1 env frame e)).of_succ fun fuel => ?_
      unfold TypeScript.execExpr
      split
      · contradiction
      · split <;> simp_all
      · exact absurd ⟨_, _, rfl⟩ hcall
      · rfl
  · intro function value
    rcases hfunction : m.find? fun f => f.name == function with _ | ⟨name, params, body, exported⟩
    · refine (TypeScript.Steady.const (.error .unsupported)).of_succ fun fuel => ?_
      rw [call_succ, hfunction]
    · rcases params with _ | ⟨param, _ | ⟨other, more⟩⟩
      · refine (TypeScript.Steady.const (.error .unsupported)).of_succ fun fuel => ?_
        rw [call_succ, hfunction]
      · refine ((h.exec ⟨param.name, []⟩ ⟨value, none⟩ body).bind fun ended =>
          .const (.ok (ended.1.value, ended.2))).of_succ fun fuel => ?_
        rw [call_succ, hfunction]
      · refine (TypeScript.Steady.const (.error .unsupported)).of_succ fun fuel => ?_
        rw [call_succ, hfunction]

theorem Module.steady (m : Module) (fuel : Nat) : m.Steady fuel := by
  induction fuel with
  | zero => exact .zero m
  | succ fuel ih => exact ih.succ

/-- What a run settles to is all that it can do. -/
theorem Settles.unique {α : Type} {run : Nat → Except Fault α} {outcome : Except Fault α}
    (hsteady : ∀ fuel, TypeScript.Steady run fuel) (h : Settles run outcome) (fuel : Nat) :
    run fuel = .error .exhausted ∨ run fuel = outcome := by
  by_cases hexhausted : run fuel = .error .exhausted
  · exact .inl hexhausted
  · right
    have hmore (extra : Nat) : run (fuel + extra) = run fuel := by
      induction extra with
      | zero => rfl
      | succ extra ih =>
          rw [← Nat.add_assoc, hsteady, ih]
          rw [ih]
          exact hexhausted
    obtain ⟨enough, henough⟩ := h
    rw [← hmore enough]
    exact henough _ (by omega)

end DateReviver.TypeScript
