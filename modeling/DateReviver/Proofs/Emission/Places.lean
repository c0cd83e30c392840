import DateReviver.Proofs.Emission.Names

/-!
# The places that emitted expressions stand for

An expression that is handed down while statements are emitted stands for one place in the value of
the parameter, whatever loops the statements open under it. The place is given as the value of the
parameter in which it is left open.
-/

namespace DateReviver

open DateReviver.TypeScript

/-- An expression reads and writes the open place of a value, also under deeper loops. -/
def Denotes (env : Env) (level : Nat) (e : Expr) (context : Value → Value) : Prop :=
  ∀ more, Deeper level more → ∀ value, e.read (env.under more) (context value) = .ok value ∧
    ∀ other, e.write (env.under more) (context value) other = .ok (context other)

/-- An expression finds nothing to be read from on its way, also under deeper loops. -/
def ReadsNothing (env : Env) (level : Nat) (root : Value) (e : Expr) : Prop :=
  ∀ more, Deeper level more → e.read (env.under more) root = .error .nothingRead

variable {m : Module} {env : Env} {level : Nat} {e : Expr} {context : Value → Value}
  {root : Value}

theorem Env.under_under (env : Env) (outer inner : List (String × Option Key)) :
    (env.under outer).under inner = env.under (inner ++ outer) := by
  simp [Env.under]

theorem Denotes.read (h : Denotes env level e context) (value : Value) :
    e.read env (context value) = .ok value :=
  (h [] .nil value).1

theorem Denotes.write (h : Denotes env level e context) (value other : Value) :
    e.write env (context value) other = .ok (context other) :=
  (h [] .nil value).2 other

theorem ReadsNothing.read (h : ReadsNothing env level root e) :
    e.read env root = .error .nothingRead :=
  h [] .nil

theorem denotes_param {param : String} (h : ParamApart m param) :
    Denotes ⟨param, []⟩ 0 (.ident param) id := by
  intro more hmore value
  have hlookup : more.lookup param = none := by
    rw [List.lookup_eq_none_iff]
    intro entry hentry
    obtain ⟨inner, _, hloop⟩ := hmore entry hentry
    rw [bne_iff_ne]
    rintro rfl
    exact h.loops inner hloop
  have hparam : (Env.under ⟨param, []⟩ more).isParam param = true := by
    simp [Env.isParam, Env.under, hlookup]
  exact ⟨if_pos hparam, fun other => if_pos hparam⟩

/-! ## Properties -/

theorem read_property (env : Env) (root : Value) (object : Expr) (name : String) :
    (object.property name).read env root
      = object.read env root >>= fun value => value.get (.name name) := by
  unfold Expr.property
  split
  · rw [Expr.read]
    rfl
  · rw [Expr.read]

theorem write_property (env : Env) (root : Value) (object : Expr) (name : String)
    (value : Value) :
    (object.property name).write env root value
      = object.read env root >>= fun own => own.put (.name name) value >>=
          object.write env root := by
  unfold Expr.property
  split
  · rw [Expr.write]
    rfl
  · rw [Expr.write]

theorem property_ne_ident (object : Expr) (name other : String) :
    object.property name ≠ .ident other := by
  unfold Expr.property
  split <;> exact fun h => by cases h

theorem Denotes.property (h : Denotes env level e context) (fields : List (String × Value))
    (name : String) : Denotes env level (e.property name)
      fun value => context (.object (OrderedMap.put name value fields)) := by
  intro more hmore value
  constructor
  · rw [read_property, (h more hmore _).1]
    exact Value.get_object_put fields name value
  · intro other
    have hput := Value.put_object_put fields name value other
    rw [write_property, (h more hmore _).1]
    dsimp only [bind, Except.bind]
    rw [hput]
    exact (h more hmore _).2 _

theorem ReadsNothing.property (h : ReadsNothing env level root e) (name : String) :
    ReadsNothing env level root (e.property name) := by
  intro more hmore
  rw [read_property, h more hmore]
  rfl

/-- A property of an expression at which nothing stands. -/
theorem Denotes.readsNothing (h : Denotes env level e context) {value : Value}
    (hvalue : value.IsNothing) (name : String) :
    ReadsNothing env level (context value) (e.property name) := by
  intro more hmore
  rw [read_property, (h more hmore value).1]
  exact hvalue.get _

/-! ## Elements -/

section Elements

variable {name : String} {key : Key}

theorem key_under (hname : LoopName level name) {more : List (String × Option Key)}
    (hmore : Deeper (level + 1) more) :
    (Expr.ident name).key ((env.under [(name, some key)]).under more) = .ok key := by
  have hlookup : more.lookup name = none := hmore.lookup hname (by omega)
  have hkey : ((env.under [(name, some key)]).under more).key? name = some key := by
    simp [Env.under, Env.key?, List.lookup_append, hlookup]
  rw [Expr.key, hkey]

theorem Deeper.enter (hname : LoopName level name) {more : List (String × Option Key)}
    (hmore : Deeper (level + 1) more) (own : Option Key) :
    Deeper level (more ++ [(name, own)]) := by
  intro entry hentry
  rcases List.mem_append.1 hentry with hinner | hlast
  · obtain ⟨inner, hinner, hloop⟩ := hmore entry hinner
    exact ⟨inner, by omega, hloop⟩
  · rw [List.mem_singleton] at hlast
    subst hlast
    exact ⟨level, by omega, hname⟩

/-- The element under a loop variable, where the key that it holds opens a place in a container. -/
theorem Denotes.element (h : Denotes env level e context) (hname : LoopName level name)
    {container : Value → Value} (hget : ∀ value, (container value).get key = .ok value)
    (hput : ∀ value other, (container value).put key other = .ok (container other)) :
    Denotes (env.under [(name, some key)]) (level + 1) (.index e (.ident name))
      fun value => context (container value) := by
  intro more hmore value
  have hplace := h (more ++ [(name, some key)]) (hmore.enter hname _) (container value)
  rw [← Env.under_under] at hplace
  constructor
  · rw [Expr.read, hplace.1, key_under hname hmore]
    exact hget value
  · intro other
    rw [Expr.write, hplace.1, key_under hname hmore]
    show (Value.put _ _ _ >>= _) = _
    rw [hput]
    exact hplace.2 _

theorem Denotes.item (h : Denotes env level e context) (before after : List Value) :
    Denotes (env.under [(loopVariable "i" level, some (.index before.length))]) (level + 1)
      (.index e (.ident (loopVariable "i" level)))
      fun value => context (.array (before ++ value :: after)) :=
  h.element (.inl rfl) (fun value => Value.get_array_middle before after value)
    fun value other => Value.put_array_middle before after value other

theorem Denotes.entry (h : Denotes env level e context) (fields : List (String × Value))
    (name : String) :
    Denotes (env.under [(loopVariable "key" level, some (.name name))]) (level + 1)
      (.index e (.ident (loopVariable "key" level)))
      fun value => context (.object (OrderedMap.put name value fields)) :=
  h.element (.inr rfl) (fun value => Value.get_object_put fields name value)
    fun value other => Value.put_object_put fields name value other

theorem Denotes.length (h : Denotes env level e context) (hname : LoopName level name)
    (own : Option Key) (value : Value) :
    e.length (env.under [(name, own)]) (context value) = value.length := by
  have hread := (h [(name, own)] (Deeper.nil.enter hname own) value).1
  rw [Expr.length, hread]
  rfl

end Elements

end DateReviver
