import ExprLang.Session.Basic
import ExprLang.Value.Listing

namespace ExprLang.Session

inductive Step
  | child (scope : Nat)
  | define (scope : Nat) (name : String) (value : Handed)
  | lookup (scope : Nat) (name : String)
  | binds (scope : Nat) (name : String)
  | parent (scope : Nat)
  | identifier (scope : Nat) (name : String) (line : Nat)
  | eval (scope : Nat) (source : String)
  | evalAfresh (scope : Nat) (source : String)
  | same (scope : Nat) (left right : String)
  | settings
  | listScope (scope : Nat)
  | listLast

inductive Answer
  | scope (place : Nat)
  | defined (name : String)
  | found (value : Option Value)
  | bound (b : Bool)
  | parent (place : Option Nat)
  | named (r : Except Error Value)
  | result (r : Except Error Value) (depth : Nat)
  | same (r : Except Error Bool)
  | settings (limit depth : Nat)
  | listing (text : Option String)
  | noScope

def within (s : Session) (place : Nat) (next : Scope → Answer × Session) : Answer × Session :=
  match s.scopes[place]? with
  | some sc => next sc
  | none => (.noScope, s)

def conclude : Except Error Value × Session → Answer × Session
  | (r, s) => (.result r s.state.depth, s.remember r.toOption)

def perform (s : Session) : Step → Answer × Session
  | .child e => s.within e fun sc => let (place, s) := s.child sc; (.scope place, s)
  | .define e x h => s.within e fun sc => let (v, s) := s.receive h; (.defined x, s.define sc x v)
  | .lookup e x => s.within e fun sc => let v := s.store.lookup sc x; (.found v, s.remember v)
  | .binds e x => s.within e fun sc => (.bound (s.store.binds sc x), s)
  | .parent e => s.within e fun sc => (.parent (s.parent? sc), s)
  | .identifier e x line => s.within e fun sc => (.named (s.identifier sc x line), s)
  | .eval e source => s.within e fun sc => conclude (s.run sc source)
  | .evalAfresh e source => s.within e fun sc => conclude (s.runAfresh sc source)
  | .same e left right => s.within e fun sc => let (r, s) := s.same sc left right; (.same r, s)
  | .settings => (.settings s.limit s.state.depth, s)
  | .listScope e => s.within e fun sc => (.listing (some (s.store.listing sc)), s)
  | .listLast => (.listing (s.last.map Value.listing), s)

def performAll (s : Session) : List Step → List Answer × Session
  | [] => ([], s)
  | st :: sts =>
    let (a, s) := s.perform st
    let (as, s) := s.performAll sts
    (a :: as, s)

end ExprLang.Session
