import ExprLang.Eval.Program

/-! Several scopes over one store, and the last value seen. -/

namespace ExprLang

structure Session where
  limit : Nat
  state : State
  scopes : Array Scope
  last : Option Value

inductive Handed
  | integer (n : Int64)
  | boolean (b : Bool)
  | vector (elements : List Handed)
  | function (name : String) (params : List String)
  | last

namespace Session

def start (limit : Nat) : Session :=
  let (sc, store) := Store.empty.root
  ⟨limit, ⟨store, 0⟩, #[sc], none⟩

def store (s : Session) : Store := s.state.store

def withStore (s : Session) (store : Store) : Session := { s with state := { s.state with store } }

mutual

def receive (s : Session) : Handed → Value × Session
  | .integer n => (.integer n, s)
  | .boolean b => (.ofBool b, s)
  | .last => (s.last.getD (.integer 0), s)
  | .function name params =>
    let (sc, store) := s.store.root
    let (c, store) := store.close name params (.literal (.integer 0) 1) sc
    (.function c, s.withStore store)
  | .vector hs =>
    let (vs, s) := receiveAll s hs
    (.vector vs.toArray, s)

def receiveAll (s : Session) : List Handed → List Value × Session
  | [] => ([], s)
  | h :: hs =>
    let (v, s) := receive s h
    let (vs, s) := receiveAll s hs
    (v :: vs, s)

end

def child (s : Session) (sc : Scope) : Nat × Session :=
  let (inner, store) := s.store.child sc ∅
  (s.scopes.size, { s.withStore store with scopes := s.scopes.push inner })

def define (s : Session) (sc : Scope) (x : String) (v : Value) : Session :=
  s.withStore (s.store.define sc x v)

def parent? (s : Session) (sc : Scope) : Option Nat :=
  sc.parent?.bind fun p => s.scopes.findIdx? (· == p)

def identifier (s : Session) (sc : Scope) (x : String) (line : Nat) : Except Error Value :=
  (s.store.resolve sc x line).mapError .eval

def remember (s : Session) (v : Option Value) : Session := { s with last := v <|> s.last }

def run (s : Session) (sc : Scope) (source : String) : Except Error Value × Session :=
  match readProgram source with
  | .error e => (.error e, s)
  | .ok p =>
    let (r, state) := evalProgram s.limit sc p s.state
    (r.mapError .eval, { s with state })

def runAfresh (s : Session) (sc : Scope) (source : String) : Except Error Value × Session :=
  let (r, t) := { s with limit := defaultLimit, state := { s.state with depth := 0 } }.run sc source
  (r, { t with limit := s.limit, state := { t.state with depth := s.state.depth } })

def same (s : Session) (sc : Scope) (left right : String) : Except Error Bool × Session :=
  match s.run sc left with
  | (.error e, s) => (.error e, s)
  | (.ok v, s) =>
    match s.run sc right with
    | (.error e, s) => (.error e, s)
    | (.ok w, s) => (.ok (v.same w), s)

end Session

end ExprLang
