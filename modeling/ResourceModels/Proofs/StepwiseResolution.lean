import Mathlib
import ResourceModels.Proofs.Failures

/-!
# A resolver in use, step by step

`Resolver.type` and `Resolver.model?` are functions of the schemas with a bound on how many
replacements are nested. A resolver in use has no such bound and a memory instead: the schema that
was declared last and a stack of the schemas being replaced, which every step can read and change
(`resolveType`). How deep its calls may be nested is left open: steps that would go deeper than
`depth` have no answer, and they return when there is a depth from which on they have one
(`Returns`).

They always return, because no name is put on the stack twice and all names on it are schemas of
the document (`follow_returns`), and every step takes off what it has put on, also after an error.
So a resolver answers as the functions do, whatever it was asked before (`calls_independent`).
-/

namespace ResourceModels

namespace Resolver

/-- What a resolver keeps from step to step. -/
structure Memory where
  /-- The schema that was declared last. -/
  current : String := ""
  /-- The schemas being replaced, the innermost first. -/
  inlining : List String := []
  deriving DecidableEq, Repr

/-- Steps that read and change the memory, and may have no answer. -/
abbrev Steps := StateT Memory Option

mutual

/-- The type of a node. An error is an answer like any other, so the steps behind it are seen. -/
def resolveType (resolver : Resolver) :
    Nat → String → Node → Steps (Except DerivationError ModelType)
  | 0, _, _ => failure
  | depth + 1, context, ⟨.reference path, _⟩ => resolveReference resolver depth path context
  | depth + 1, context, ⟨.array items, _⟩ => do
    return (← resolveType resolver depth (context ++ "Item") items).map .array
  | _ + 1, context, ⟨.scalar shape, notes⟩ =>
    if shape.variants.isEmpty then return .ok (.ofScalar shape)
    else return .ok (.enum (enumModel context notes shape))
  | depth + 1, context, ⟨.object shape, notes⟩ =>
    if shape.properties.isEmpty then do
      match shape.additional with
      | none => return .ok (.map .any)
      | some values => return (← resolveType resolver depth context values).map .map
    else do
      return (← resolveFields resolver depth shape.required shape.properties).map fun fields =>
        .object ⟨context, notes.description, fields⟩
  | depth + 1, context, ⟨.union variants, _⟩ => do
    return (← resolveVariants resolver depth context variants).map .unite
  | _ + 1, _, ⟨.any, _⟩ => return .ok .any

def resolveVariants (resolver : Resolver) :
    Nat → String → List Node → Steps (Except DerivationError (List ModelType))
  | 0, _, _ => failure
  | _ + 1, _, [] => return .ok []
  | depth + 1, context, node :: rest => do
    match ← resolveType resolver depth context node with
    | .error error => return .error error
    | .ok type => return (← resolveVariants resolver depth context rest).map (type :: ·)

def resolveFields (resolver : Resolver) :
    Nat → List String → List (String × Node) →
      Steps (Except DerivationError (List (Field ModelType)))
  | 0, _, _ => failure
  | _ + 1, _, [] => return .ok []
  | depth + 1, required, property :: rest => do
    match ← resolveType resolver depth (suggestedClassName property.1) property.2 with
    | .error error => return .error error
    | .ok type =>
      let field := fieldOf resolver.conventions required property type
      return (← resolveFields resolver depth required rest).map (field :: ·)

def resolveReference (resolver : Resolver) :
    Nat → String → String → Steps (Except DerivationError ModelType)
  | 0, _, _ => failure
  | depth + 1, path, context => do
    match Reference.target path with
    | .error error => return .error error
    | .ok target =>
      match Entries.get? resolver.nodes target with
      | none => return .error (.unresolvedReference path (← get).current)
      | some node =>
        if resolver.isCollapsed node then replace resolver depth target context node
        else return .ok (.ref (resolver.classRef target))

/-- The name is taken off the stack whatever came of the replacement. -/
def replace (resolver : Resolver) :
    Nat → String → String → Node → Steps (Except DerivationError ModelType)
  | 0, _, _, _ => failure
  | depth + 1, target, context, node => do
    if target ∈ (← get).inlining then return .ok .any
    modify fun memory => { memory with inlining := target :: memory.inlining }
    let resolved ← resolveType resolver depth context node
    modify fun memory => { memory with inlining := memory.inlining.tail }
    return resolved

end

/-- Steps come to an outcome when nothing stops them from going as deep as they need. -/
def Returns {α : Type} (steps : Nat → Steps α) (memory : Memory) (outcome : α × Memory) : Prop :=
  ∃ depth, ∀ deeper, depth ≤ deeper → (steps deeper).run memory = some outcome

namespace Returns

variable {α β : Type} {steps : Nat → Steps α} {memory between : Memory} {value : α}

theorem of_run {outcome : α × Memory} (runs : ∀ depth, (steps depth).run memory = some outcome) :
    Returns steps memory outcome :=
  ⟨0, fun deeper _ => runs deeper⟩

/-- A call goes one deeper. -/
theorem of_succ {outcome : α × Memory}
    (returns : Returns (fun depth => steps (depth + 1)) memory outcome) :
    Returns steps memory outcome := by
  obtain ⟨depth, runs⟩ := returns
  refine ⟨depth + 1, fun deeper long => ?_⟩
  obtain ⟨less, rfl⟩ := Nat.exists_eq_add_of_le' (Nat.le_of_add_left_le long)
  exact runs less (Nat.le_of_succ_le_succ long)

theorem bind {next : Nat → α → Steps β} {outcome : β × Memory}
    (first : Returns steps memory (value, between))
    (second : Returns (fun depth => next depth value) between outcome) :
    Returns (fun depth => steps depth >>= next depth) memory outcome := by
  obtain ⟨depth, runs⟩ := first
  obtain ⟨depth', runs'⟩ := second
  refine ⟨max depth depth', fun deeper long => ?_⟩
  obtain ⟨enough, enough'⟩ := Nat.max_le.mp long
  dsimp only
  rw [run_bind_of (runs deeper enough)]
  exact runs' deeper enough'

/-- A last step that only changes the answer. -/
theorem map (returns : Returns steps memory (value, between)) (change : α → β) :
    Returns (fun depth => do return change (← steps depth)) memory (change value, between) :=
  returns.bind (.of_run fun _ => rfl)

end Returns

variable {resolver : Resolver} {memory : Memory} {follow : Follow}

theorem resolveVariants_returns {context : String} {nodes : List Node}
    (each : ∀ node ∈ nodes, Returns (resolveType resolver · context node) memory
      (typeOf resolver.conventions follow context node, memory)) :
    Returns (resolveVariants resolver · context nodes) memory
      (typesOf resolver.conventions follow context nodes, memory) := by
  refine .of_succ ?_
  induction nodes with
  | nil => exact .of_run fun _ => by rw [resolveVariants]; rfl
  | cons node rest ih =>
    obtain ⟨here, later⟩ := List.forall_mem_cons.mp each
    simp only [resolveVariants, typesOf_cons]
    refine here.bind ?_
    cases typeOf resolver.conventions follow context node with
    | error error => exact .of_run fun _ => rfl
    | ok type => exact (Returns.of_succ (ih later)).map _

theorem resolveFields_returns {required : List String} {properties : List (String × Node)}
    (each : ∀ property ∈ properties, ∀ context,
      Returns (resolveType resolver · context property.2) memory
        (typeOf resolver.conventions follow context property.2, memory)) :
    Returns (resolveFields resolver · required properties) memory
      (fieldsOf resolver.conventions follow required properties, memory) := by
  refine .of_succ ?_
  induction properties with
  | nil => exact .of_run fun _ => by rw [resolveFields]; rfl
  | cons property rest ih =>
    obtain ⟨here, later⟩ := List.forall_mem_cons.mp each
    simp only [resolveFields, fieldsOf_cons]
    refine (here _).bind ?_
    cases typeOf resolver.conventions follow (suggestedClassName property.1) property.2 with
    | error error => exact .of_run fun _ => rfl
    | ok type => exact (Returns.of_succ (ih later)).map _

/-- One case for each shape: where every reference is followed to an answer, and the memory is the
same afterwards, that holds for the whole node. -/
theorem resolveType_returns
    (follows : ∀ path context,
      Returns (resolveReference resolver · path context) memory (follow path context, memory))
    (context : String) (node : Node) :
    Returns (resolveType resolver · context node) memory
      (typeOf resolver.conventions follow context node, memory) := by
  refine .of_succ ?_
  induction node generalizing context with
  | reference path notes =>
    simp only [resolveType, typeOf]
    exact follows path context
  | array items notes ih =>
    simp only [resolveType, typeOf_array]
    exact (Returns.of_succ (ih _)).map _
  | scalar shape notes =>
    simp only [resolveType, typeOf]
    split <;> exact .of_run fun _ => rfl
  | object shape notes properties_return additional_returns =>
    simp only [resolveType, typeOf_object]
    split
    · cases given : shape.additional with
      | none => exact .of_run fun _ => rfl
      | some values => exact (Returns.of_succ (additional_returns values given context)).map _
    · refine (resolveFields_returns fun property inside context => ?_).map _
      exact .of_succ (properties_return property inside context)
  | union variants notes ih =>
    simp only [resolveType, typeOf_union]
    exact (resolveVariants_returns fun node inside => .of_succ (ih node inside context)).map _
  | any notes =>
    simp only [resolveType, typeOf]
    exact .of_run fun _ => rfl

theorem returns_get {memory : Memory} : Returns (fun _ => get) memory (memory, memory) :=
  .of_run fun _ => rfl

/-- A reference is followed as the functions follow it, given their answers for replacements. -/
theorem resolveReference_returns
    {inline : String → String → Node → Except DerivationError ModelType}
    (replaced : ∀ target node, Entries.get? resolver.nodes target = some node → ∀ context,
      Returns (replace resolver · target context node) memory
        (inline target context node, memory)) (path context : String) :
    Returns (resolveReference resolver · path context) memory
      (resolver.reference memory.current inline path context, memory) := by
  refine .of_succ ?_
  simp only [resolveReference]
  cases valid : Reference.target path with
  | error error =>
    rw [reference, valid]
    exact .of_run fun _ => rfl
  | ok target =>
    dsimp only
    cases found : Entries.get? resolver.nodes target with
    | none =>
      rw [reference, valid]
      dsimp only
      rw [found]
      exact .of_run fun _ => rfl
    | some node =>
      rw [reference_of_target valid found]
      dsimp only
      split
      · exact replaced target node found context
      · exact .of_run fun _ => rfl

theorem replace_returns_of_mem {target : String} (inside : target ∈ memory.inlining)
    (context : String) (node : Node) :
    Returns (replace resolver · target context node) memory (.ok .any, memory) := by
  refine .of_succ ?_
  simp only [replace]
  refine returns_get.bind ?_
  simp only [if_pos inside]
  exact .of_run fun _ => rfl

theorem replace_returns_of_not_mem {target : String} (fresh : target ∉ memory.inlining)
    {context : String} {node : Node} {outcome : Except DerivationError ModelType}
    (resolved : Returns (resolveType resolver · context node)
      { memory with inlining := target :: memory.inlining }
      (outcome, { memory with inlining := target :: memory.inlining })) :
    Returns (replace resolver · target context node) memory (outcome, memory) := by
  have pushed : Returns
      (fun _ => modify fun memory => { memory with inlining := target :: memory.inlining })
      memory ((), { memory with inlining := target :: memory.inlining }) := .of_run fun _ => rfl
  refine .of_succ ?_
  simp only [replace]
  refine returns_get.bind ?_
  simp only [if_neg fresh]
  exact pushed.bind (resolved.bind (.of_run fun _ => rfl))

/-- A reference is followed to the end, and the stack is then as it was. The induction is on the
budget: every replacement uses one up and puts a new name on the stack, so without any left all
schemas are on it. -/
theorem follow_returns (current : String) {budget : Nat} {inlining : List String}
    (distinct : inlining.Nodup) (schemas : inlining ⊆ Entries.keys resolver.nodes)
    (enough : resolver.nodes.length ≤ budget + inlining.length) (path context : String) :
    Returns (resolveReference resolver · path context) ⟨current, inlining⟩
      (resolver.followWithin current budget inlining path context, ⟨current, inlining⟩) := by
  induction budget generalizing inlining path context with
  | zero =>
    rw [followWithin]
    refine resolveReference_returns (fun target node found context => ?_) path context
    have inside : target ∈ inlining := by
      by_contra fresh
      have room := (Entries.cons_of_new_key distinct schemas found fresh).2.2
      omega
    exact replace_returns_of_mem inside context node
  | succ budget ih =>
    rw [followWithin]
    refine resolveReference_returns (fun target node found context => ?_) path context
    split
    next inside => exact replace_returns_of_mem inside context node
    next fresh =>
      obtain ⟨longer, within, -⟩ := Entries.cons_of_new_key distinct schemas found fresh
      have follows := ih longer within (by rw [List.length_cons]; omega)
      have resolved := resolveType_returns follows context node
      rw [typeWithin_eq]
      exact @replace_returns_of_not_mem resolver ⟨current, inlining⟩ target fresh _ _ _ resolved

/-- With an empty stack the budget is the number of schemas. -/
theorem type_returns (current context : String) (node : Node) :
    Returns (resolveType resolver · context node) ⟨current, []⟩
      (resolver.type current context node, ⟨current, []⟩) := by
  rw [Resolver.type, typeWithin_eq]
  exact resolveType_returns (follow_returns current List.nodup_nil (List.nil_subset _) (by simp)) ..

theorem fields_return (current : String) (required : List String)
    (properties : List (String × Node)) :
    Returns (resolveFields resolver · required properties) ⟨current, []⟩
      (fieldsOf resolver.conventions (resolver.follow current) required properties,
        ⟨current, []⟩) := by
  rw [follow_eq]
  refine resolveFields_returns fun property _ context =>
    resolveType_returns ?_ context property.2
  exact follow_returns current List.nodup_nil (List.nil_subset _) (Nat.le_refl _)

/-- The declaration of a schema. -/
def resolveDeclaration (resolver : Resolver) (depth : Nat) (name : String) (node : Node) :
    Steps (Except DerivationError Model) :=
  let class_ := (resolver.classRef name).name
  let asAlias : Steps (Except DerivationError Model) := do
    return (← resolveType resolver depth class_ node).map fun target =>
      .alias ⟨class_, node.notes.description, target⟩
  match node.kind with
  | .object shape =>
    if node.isModel then do
      return (← resolveFields resolver depth shape.required shape.properties).map fun fields =>
        .object ⟨class_, node.notes.description, fields⟩
    else asAlias
  | .scalar shape =>
    if shape.variants.isEmpty then asAlias
    else return .ok (.enum (enumModel class_ node.notes shape))
  | _ => asAlias

/-- The declaration of a named schema, which is the current one from then on. -/
def resolveSchema (resolver : Resolver) (depth : Nat) (name : String) :
    Steps (Except DerivationError (Option Model)) := do
  match Entries.get? resolver.nodes name with
  | none => return .error (.unresolvedReference name name)
  | some node =>
    if resolver.isCollapsed node then return .ok none
    modify fun memory => { memory with current := name }
    return (← resolveDeclaration resolver depth name node).map some

theorem resolveDeclaration_returns (name : String) (node : Node) :
    Returns (resolveDeclaration resolver · name node) ⟨name, []⟩
      (resolver.declare name node, ⟨name, []⟩) := by
  have typed := @type_returns resolver name (resolver.classRef name).name node
  unfold resolveDeclaration declare
  simp only [bind_ok_eq_map]
  cases node.kind with
  | object shape =>
    dsimp only
    split
    next => exact (fields_return name shape.required shape.properties).map _
    next => exact typed.map _
  | scalar shape =>
    dsimp only
    split
    next => exact typed.map _
    next => exact .of_run fun _ => rfl
  | _ => exact typed.map _

/-- What a resolver can be asked. -/
inductive Call where
  | schema (name : String)
  | type (context : String) (node : Node)

inductive Answer where
  | schema (outcome : Except DerivationError (Option Model))
  | type (outcome : Except DerivationError ModelType)

def serve (resolver : Resolver) (depth : Nat) : Call → Steps Answer
  | .schema name => return .schema (← resolveSchema resolver depth name)
  | .type context node => return .type (← resolveType resolver depth context node)

end Resolver

/-- What a session answers, and the session afterwards. -/
def Resolver.Session.answer (session : Session) : Call → Session × Answer
  | .schema name => ((session.model? name).1, .schema (session.model? name).2)
  | .type context node => (session, .type (session.type context node))

/-- The answers to a row of calls. -/
def Resolver.Session.answers (session : Session) : List Call → Session × List Answer
  | [] => (session, [])
  | call :: rest =>
    let (next, answer) := session.answer call
    let (last, others) := next.answers rest
    (last, answer :: others)

namespace Resolver

theorem resolveSchema_returns (session : Session) (name : String) :
    Returns (resolveSchema session.resolver · name) ⟨session.current, []⟩
      ((session.model? name).2, ⟨(session.model? name).1.current, []⟩) := by
  obtain ⟨resolver, current⟩ := session
  unfold resolveSchema Session.model? model?
  cases Entries.get? resolver.nodes name with
  | none => exact .of_run fun _ => rfl
  | some node =>
    dsimp only
    cases resolver.isCollapsed node with
    | true => exact .of_run fun _ => rfl
    | false =>
      have renamed : Returns (fun _ => modify fun memory => { memory with current := name })
        ⟨current, []⟩ ((), ⟨name, []⟩) := .of_run fun _ => rfl
      simp only [if_neg Bool.false_ne_true]
      exact renamed.bind ((resolveDeclaration_returns name node).map _)

/-- Every call returns what a session answers, and leaves nothing on the stack. -/
theorem serve_returns (session : Session) (call : Call) :
    Returns (serve session.resolver · call) ⟨session.current, []⟩
      ((session.answer call).2, ⟨(session.answer call).1.current, []⟩) := by
  cases call with
  | schema name => exact (resolveSchema_returns session name).map _
  | type context node => exact (type_returns session.current context node).map _

theorem answer_resolver (session : Session) (call : Call) :
    (session.answer call).1.resolver = session.resolver := by
  cases call <;> rfl

theorem answers_resolver (session : Session) (calls : List Call) :
    (session.answers calls).1.resolver = session.resolver := by
  induction calls generalizing session with
  | nil => rfl
  | cons call rest ih => exact (ih _).trans (answer_resolver session call)

/-- The same for a row of calls, by induction on it. -/
theorem serveAll_returns (session : Session) (calls : List Call) :
    Returns (fun depth => calls.mapM (serve session.resolver depth)) ⟨session.current, []⟩
      ((session.answers calls).2, ⟨(session.answers calls).1.current, []⟩) := by
  induction calls generalizing session with
  | nil => exact .of_run fun _ => rfl
  | cons call rest ih =>
    have others := ih (session.answer call).1
    rw [answer_resolver] at others
    simp only [List.mapM_cons]
    exact (serve_returns session call).bind (others.map _)

end Resolver

/-- The same error, reported in another schema. -/
def DerivationError.reportedIn (schema : String) : DerivationError → DerivationError
  | .unresolvedReference path _ => .unresolvedReference path schema
  | .invalidReference path => .invalidReference path
  | .invalidSchema name => .invalidSchema name

theorem mapError_map {ε α β : Type} (change : ε → ε) (further : α → β) (first : Except ε α) :
    (first.map further).mapError change = (first.mapError change).map further := by
  cases first <;> rfl

theorem mapError_bind {ε α β : Type} (change : ε → ε) (first : Except ε α)
    (next : α → Except ε β) : (first >>= next).mapError change =
      first.mapError change >>= fun value => (next value).mapError change := by
  cases first <;> rfl

namespace Resolver

section

variable {conventions : Conventions} {follow followed : Follow}
  {change : DerivationError → DerivationError}

theorem typesOf_mapError {context : String} {nodes : List Node}
    (each : ∀ node ∈ nodes, typeOf conventions followed context node =
      (typeOf conventions follow context node).mapError change) :
    typesOf conventions followed context nodes =
      (typesOf conventions follow context nodes).mapError change := by
  induction nodes with
  | nil => rfl
  | cons node rest ih =>
    obtain ⟨here, later⟩ := List.forall_mem_cons.mp each
    simp only [typesOf_cons, mapError_bind, mapError_map, here, ih later]

theorem fieldsOf_mapError {required : List String} {properties : List (String × Node)}
    (each : ∀ property ∈ properties, ∀ context, typeOf conventions followed context property.2 =
      (typeOf conventions follow context property.2).mapError change) :
    fieldsOf conventions followed required properties =
      (fieldsOf conventions follow required properties).mapError change := by
  induction properties with
  | nil => rfl
  | cons property rest ih =>
    obtain ⟨here, later⟩ := List.forall_mem_cons.mp each
    simp only [fieldsOf_cons, mapError_bind, mapError_map, here, ih later]

/-- What is changed in the errors of following is changed in the errors of the type. -/
theorem typeOf_mapError
    (follows : ∀ path context, followed path context = (follow path context).mapError change)
    (context : String) (node : Node) :
    typeOf conventions followed context node =
      (typeOf conventions follow context node).mapError change := by
  induction node generalizing context with
  | reference path notes =>
    rw [typeOf, typeOf]
    exact follows path context
  | array items notes ih => rw [typeOf_array, typeOf_array, mapError_map, ih]
  | scalar shape notes =>
    rw [typeOf, typeOf]
    split <;> rfl
  | object shape notes properties_changed additional_changed =>
    have values : mapType conventions followed context shape.additional =
        (mapType conventions follow context shape.additional).mapError change := by
      cases given : shape.additional with
      | none => rfl
      | some values => exact additional_changed values given context
    rw [typeOf_object, typeOf_object, values, fieldsOf_mapError properties_changed]
    split <;> rw [mapError_map]
  | union variants notes ih =>
    rw [typeOf_union, typeOf_union, mapError_map,
      typesOf_mapError fun node inside => ih node inside context]
  | any notes =>
    rw [typeOf, typeOf]
    rfl

end

variable {resolver : Resolver}

theorem reference_reportedIn (current other : String)
    {inline renamed : String → String → Node → Except DerivationError ModelType}
    (inlines : ∀ target context node,
      renamed target context node = (inline target context node).mapError (.reportedIn current))
    (path context : String) :
    resolver.reference current renamed path context =
      (resolver.reference other inline path context).mapError (.reportedIn current) := by
  unfold reference
  cases valid : Reference.target path with
  | error error =>
    rw [Reference.target_eq_error valid]
    rfl
  | ok target =>
    dsimp only
    cases Entries.get? resolver.nodes target with
    | none => rfl
    | some node =>
      dsimp only
      split
      · rfl
      · exact inlines target context node

theorem followWithin_reportedIn (current other : String) (budget : Nat) (inlining : List String)
    (path context : String) :
    resolver.followWithin current budget inlining path context =
      (resolver.followWithin other budget inlining path context).mapError
        (.reportedIn current) := by
  induction budget generalizing inlining path context with
  | zero =>
    rw [followWithin, followWithin]
    refine reference_reportedIn current other (fun _ _ _ => ?_) path context
    rfl
  | succ budget ih =>
    rw [followWithin, followWithin]
    refine reference_reportedIn current other (fun target context node => ?_) path context
    split
    · rfl
    · rw [typeWithin_eq, typeWithin_eq]
      exact typeOf_mapError (ih _) context node

/-- The schema declared last is no more than the name in the errors. -/
theorem type_reportedIn (current other context : String) (node : Node) :
    resolver.type current context node =
      (resolver.type other context node).mapError (.reportedIn current) := by
  rw [Resolver.type, Resolver.type, typeWithin_eq, typeWithin_eq]
  exact typeOf_mapError (followWithin_reportedIn current other _ _) context node

/-- The same answer, with the errors of types reported in another schema. -/
def Answer.reportedIn (schema : String) : Answer → Answer
  | .schema outcome => .schema outcome
  | .type outcome => .type (outcome.mapError (.reportedIn schema))

theorem answer_reportedIn (current other : String) (call : Call) :
    ((⟨resolver, current⟩ : Session).answer call).2 =
      (((⟨resolver, other⟩ : Session).answer call).2).reportedIn current := by
  cases call with
  | schema name => rfl
  | type context node => exact congrArg Answer.type (type_reportedIn current other context node)

theorem reportedIn_eq_type_iff {answer : Answer} {schema : String} {type : ModelType} :
    answer.reportedIn schema = .type (.ok type) ↔ answer = .type (.ok type) := by
  rcases answer with outcome | error | found
  · exact ⟨nofun, nofun⟩
  · exact ⟨nofun, nofun⟩
  · exact Iff.rfl

/-- A resolver always terminates and carries nothing over but the name that its errors are reported
in. Whatever it has been asked before, and whether or not that succeeded, it has returned each
time with nothing left on the stack. The next call returns as well, with the answer of the
session, and with nothing left on the stack. That is the answer of a fresh resolver, except
that an error of a type is reported in the schema that was declared last. -/
theorem calls_independent (resolver : Resolver) (earlier : List Call) (call : Call) :
    ∃ answers current answer after fresh first,
      Returns (fun depth => earlier.mapM (serve resolver depth)) {} (answers, ⟨current, []⟩) ∧
      Returns (serve resolver · call) ⟨current, []⟩ (answer, ⟨after, []⟩) ∧
      Returns (serve resolver · call) {} (fresh, ⟨first, []⟩) ∧
      (⟨resolver, current⟩, answers) = (⟨resolver, ""⟩ : Session).answers earlier ∧
      (⟨resolver, after⟩, answer) = (⟨resolver, current⟩ : Session).answer call ∧
      answer = fresh.reportedIn current ∧
      (∀ name, call = .schema name → answer = fresh) ∧
      ∀ type, answer = .type (.ok type) ↔ fresh = .type (.ok type) := by
  obtain ⟨⟨same, current⟩, answers, asked⟩ : ∃ session answers,
    (⟨resolver, ""⟩ : Session).answers earlier = (session, answers) := ⟨_, _, rfl⟩
  obtain rfl : same = resolver := by
    have kept := answers_resolver ⟨resolver, ""⟩ earlier
    rwa [asked] at kept
  have earlier_return := serveAll_returns ⟨same, ""⟩ earlier
  rw [asked] at earlier_return
  have renamed := @answer_reportedIn same current "" call
  refine ⟨answers, current, _, _, _, _, earlier_return, serve_returns ⟨same, current⟩ call,
    serve_returns ⟨same, ""⟩ call, asked.symm, ?_, renamed, ?_, ?_⟩
  · exact Prod.ext (congrArg (Session.mk · _) (answer_resolver ⟨same, current⟩ call).symm) rfl
  · rintro name rfl
    exact renamed
  · intro type
    rw [renamed]
    exact reportedIn_eq_type_iff

/-- Two schemas that stand for lists of each other: the second time nothing is known of the
items. -/
example : Resolver.type
    { bucket := "k8s"
      nodes := [
        ("A", .bare (.array (.bare (.reference "#/components/schemas/B")))),
        ("B", .bare (.array (.bare (.reference "#/components/schemas/A"))))]
      conventions := .kubernetes
      collapse := true }
    "Holder" "Items" (.bare (.reference "#/components/schemas/A")) =
      .ok (.array (.array .any)) := by
  rfl

end Resolver

end ResourceModels
