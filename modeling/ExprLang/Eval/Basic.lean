import ExprLang.Arithmetic
import ExprLang.Deferred
import ExprLang.Store

/-! Evaluation: a value or the first error, and the state after it. -/

namespace ExprLang

abbrev Outcome (α : Type) := Except EvalError α

def located {α : Type} (line : Nat) (r : Except EvalCause α) : Outcome α := r.mapError (⟨·, line⟩)

structure State where
  store : Store
  depth : Nat

abbrev StateAt (d : Nat) := { s : State // s.depth = d }

namespace StateAt

variable {d : Nat}

def store (s : StateAt d) : Store := s.1.store

def enter (sc : Scope) (b : Bindings) : StateAt d → Scope × StateAt (d + 1)
  | ⟨⟨store, depth⟩, h⟩ =>
    let (inner, store) := store.child sc b
    (inner, ⟨⟨store, depth + 1⟩, congrArg (· + 1) h⟩)

/-- No closure is made while a body is evaluated, so nothing holds on to the scope that is given up. -/
def leave : StateAt (d + 1) → StateAt d
  | ⟨⟨store, depth⟩, h⟩ => ⟨⟨store.release, depth - 1⟩, congrArg (· - 1) h⟩

end StateAt

abbrev Evaluation (d : Nat) (α : Type) := Deferred (Outcome α × StateAt d)

namespace Evaluation

variable {d : Nat} {α β : Type}

def andThen (part : Unit → Evaluation d α) (next : α → StateAt d → Evaluation d β) : Evaluation d β :=
  .call part fun
    | (.ok a, s) => next a s
    | (.error e, s) => .done (.error e, s)

def answer (line : Nat) (r : Except EvalCause α) (s : StateAt d) : Evaluation d α :=
  .done (located line r, s)

end Evaluation

def Store.resolve (store : Store) (sc : Scope) (x : String) (line : Nat) : Outcome Value :=
  match store.lookup sc x with
  | some v => .ok v
  | none => .error ⟨.unknownIdentifier x, line⟩

@[inline] def atom? (store : Store) (sc : Scope) : Expr → Option (Outcome Value)
  | .literal v _ => some (.ok v.value)
  | .identifier x line => some (store.resolve sc x line)
  | _ => none

/-- Only an operand that has parts is put off. -/
@[macro_inline] def Evaluation.operand {d : Nat} {β : Type} (sc : Scope) (e : Expr) (s : StateAt d)
    (part : Unit → Evaluation d Value) (next : Value → StateAt d → Evaluation d β) : Evaluation d β :=
  match atom? s.store sc e with
  | some (.ok v) => next v s
  | some (.error err) => .done (.error err, s)
  | none => andThen part next

open Evaluation

mutual

def eval (limit d : Nat) (sc : Scope) : Expr → StateAt d → Evaluation d Value
  | .literal v _, s => .done (.ok v.value, s)
  | .identifier x line, s => .done (s.store.resolve sc x line, s)
  | .negate a line, s =>
    operand sc a s (fun _ => eval limit d sc a s) fun v s => answer line v.negate s
  | .binary op a b line, s =>
    operand sc a s (fun _ => eval limit d sc a s) fun v s =>
      operand sc b s (fun _ => eval limit d sc b s) fun w s => answer line (op.apply v w) s
  | .vector es _, s =>
    andThen (fun _ => evalAll limit d sc #[] es.toList s) fun vs s => .done (.ok (.vector vs), s)
  | .index (.vector es _) i line, s =>
    operand sc i s (fun _ => eval limit d sc i s) fun
      | .integer k, s =>
        match _h : element? es k with
        | some e => eval limit d sc e s
        | none => answer line (.error (.indexOutOfBounds k es.size)) s
      | v, s => answer line (.error (.indexNotInteger v.shape)) s
  | .index a i line, s =>
    operand sc i s (fun _ => eval limit d sc i s) fun
      | .integer k, s =>
        operand sc a s (fun _ => eval limit d sc a s) fun
          | .vector vs, s =>
            answer line ((element? vs k).elim (.error (.indexOutOfBounds k vs.size)) .ok) s
          | v, s => answer line (.error (.notIndexable v.shape)) s
      | v, s => answer line (.error (.indexNotInteger v.shape)) s
  | .call f as line, s =>
    operand sc f s (fun _ => eval limit d sc f s) fun
      | .function c, s =>
        if as.length = c.params.length then
          andThen (fun _ => evalAll limit d sc #[] as s) fun vs s =>
            if d < limit then
              .call
                (fun _ =>
                  let (inner, s) := s.enter c.scope (Bindings.ofArguments c.params vs.toList)
                  eval limit (d + 1) inner c.body s)
                fun (r, s) => .done (r, s.leave)
            else answer line (.error (.callDepth limit)) s
        else answer line (.error (.argumentCount c.params.length as.length)) s
      | v, s => answer line (.error (.notCallable v.shape)) s
termination_by e => (limit - d, sizeOf e)
decreasing_by
  all_goals try decreasing_tactic
  · cases es
    decreasing_tactic
  · have := Array.sizeOf_lt_of_mem (mem_of_element? _h)
    decreasing_tactic

def evalAll (limit d : Nat) (sc : Scope) (found : Array Value) :
    List Expr → StateAt d → Evaluation d (Array Value)
  | [], s => .done (.ok found, s)
  | e :: es, s =>
    operand sc e s (fun _ => eval limit d sc e s) fun v s =>
      evalAll limit d sc (found.push v) es s
termination_by es => (limit - d, sizeOf es)

end

def evalExpr (limit : Nat) (sc : Scope) (e : Expr) (s : State) : Outcome Value × State :=
  let (r, s) := (eval limit s.depth sc e ⟨s, rfl⟩).result
  (r, s.1)

def evalList (limit : Nat) (sc : Scope) (es : List Expr) (s : State) : Outcome (List Value) × State :=
  let (r, s) := (evalAll limit s.depth sc #[] es ⟨s, rfl⟩).result
  (r.map Array.toList, s.1)

end ExprLang
