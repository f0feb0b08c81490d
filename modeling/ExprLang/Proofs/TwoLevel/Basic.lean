import ExprLang.Eval.Program

/-! An interpreter with two levels of names and no scopes. -/

namespace ExprLang.TwoLevel

structure Function where
  name : String
  params : List String
  body : Expr

inductive Value
  | integer (n : Int64)
  | vector (elements : Array Value)
  | function (f : Function)

abbrev Globals := List (String × Function)

abbrev Locals := List (String × Value)

def Locals.ofArguments (params : List String) (args : List Value) : Locals := (params.zip args).reverse

namespace Value

def ofLiteral : Literal → Value
  | .integer n => .integer n
  | .boolean b => .integer (if b then 1 else 0)

def shape : Value → Shape
  | integer n => .integer n
  | vector vs => .vector vs.size
  | function f => .function f.name

def negate (line : Nat) : Value → Outcome Value
  | integer a => located line ((fit (-a.toInt)).map integer)
  | v => .error ⟨.invalidOperand v.shape, line⟩

def apply (line : Nat) (op : BinaryOp) : Value → Value → Outcome Value
  | integer a, integer b => located line ((op.compute a b).map integer)
  | v, w => .error ⟨.invalidOperands op v.shape w.shape, line⟩

def position (line : Nat) : Value → Outcome Int64
  | integer k => .ok k
  | v => .error ⟨.indexNotInteger v.shape, line⟩

def select (line : Nat) (k : Int64) : Value → Outcome Value
  | vector vs => (element? vs k).elim (.error ⟨.indexOutOfBounds k vs.size, line⟩) .ok
  | v => .error ⟨.notIndexable v.shape, line⟩

def callee (line : Nat) : Value → Outcome Function
  | function f => .ok f
  | v => .error ⟨.notCallable v.shape, line⟩

end Value

def resolve (globals : Globals) (locals : Locals) (x : String) (line : Nat) : Outcome Value :=
  match locals.lookup x with
  | some v => .ok v
  | none =>
    match globals.lookup x with
    | some f => .ok (.function f)
    | none => .error ⟨.unknownIdentifier x, line⟩

mutual

def eval (limit : Nat) (globals : Globals) (active : Nat) (locals : Locals) : Expr → Outcome Value
  | .literal v _ => .ok (.ofLiteral v)
  | .identifier x line => resolve globals locals x line
  | .negate a line => do
    let v ← eval limit globals active locals a
    v.negate line
  | .binary op a b line => do
    let v ← eval limit globals active locals a
    let w ← eval limit globals active locals b
    v.apply line op w
  | .vector ⟨es⟩ _ => do
    let vs ← evalAll limit globals active locals es
    .ok (.vector vs.toArray)
  | .index (.vector es _) i line => do
    let v ← eval limit globals active locals i
    let k ← v.position line
    match _h : element? es k with
    | some e => eval limit globals active locals e
    | none => .error ⟨.indexOutOfBounds k es.size, line⟩
  | .index a i line => do
    let v ← eval limit globals active locals i
    let k ← v.position line
    let w ← eval limit globals active locals a
    w.select line k
  | .call f as line => do
    let v ← eval limit globals active locals f
    let g ← v.callee line
    if as.length = g.params.length then
      let vs ← evalAll limit globals active locals as
      if active < limit then eval limit globals (active + 1) (.ofArguments g.params vs) g.body
      else .error ⟨.callDepth limit, line⟩
    else .error ⟨.argumentCount g.params.length as.length, line⟩
termination_by e => (limit - active, sizeOf e)
decreasing_by
  all_goals try decreasing_tactic
  have := Array.sizeOf_lt_of_mem (mem_of_element? _h)
  decreasing_tactic

def evalAll (limit : Nat) (globals : Globals) (active : Nat) (locals : Locals) :
    List Expr → Outcome (List Value)
  | [] => .ok []
  | e :: es => do
    let v ← eval limit globals active locals e
    let vs ← evalAll limit globals active locals es
    .ok (v :: vs)
termination_by es => (limit - active, sizeOf es)

end

def evalStatements (limit : Nat) (globals : Globals) (last : Value) : Program → Outcome Value
  | [] => .ok last
  | .definition d :: p =>
    let f := ⟨d.name, d.params, d.body⟩
    evalStatements limit ((d.name, f) :: globals) (.function f) p
  | .expression e _ :: p => do
    let v ← eval limit globals 0 [] e
    evalStatements limit globals v p

def evalProgram (limit : Nat) (p : Program) : Outcome Value :=
  evalStatements limit [] (.integer 0) p

end ExprLang.TwoLevel
