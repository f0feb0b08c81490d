import ExprLang.Expr.Basic
import ExprLang.Text.Decimal

/-! Values. Closures are told apart by their numbers. -/

namespace ExprLang

structure Scope where
  frame : Nat
  enclosing : List Nat
deriving DecidableEq

structure Closure where
  number : Nat
  name : String
  params : List String
  body : Expr
  scope : Scope

inductive Value
  | integer (n : Int64)
  | vector (elements : Array Value)
  | function (c : Closure)

inductive Shape
  | integer (n : Int64)
  | vector (length : Nat)
  | function (name : String)
deriving DecidableEq

def Shape.text : Shape → String
  | integer n => "integer " ++ Text.decimal n.toInt
  | vector n => "vector of length " ++ Text.decimal n
  | function f => "function " ++ f

def Literal.value : Literal → Value
  | integer n => .integer n
  | boolean b => .integer (if b then 1 else 0)

namespace Value

def ofBool (b : Bool) : Value := (Literal.boolean b).value

def integer? : Value → Option Int64
  | integer n => some n
  | _ => none

def shape : Value → Shape
  | integer n => .integer n
  | vector vs => .vector vs.size
  | function c => .function c.name

def render : Value → String
  | integer n => Text.decimal n.toInt
  | vector vs => " ".intercalate ((vs.toList.filterMap integer?).map fun n => Text.decimal n.toInt)
  | function c => "<function " ++ c.name ++ "(" ++ ", ".intercalate c.params ++ ")>"

mutual

def size : Value → Nat
  | integer _ | function _ => 1
  | vector ⟨vs⟩ => sizeAll vs + 1

def sizeAll : List Value → Nat
  | [] => 0
  | v :: vs => v.size + sizeAll vs

end

theorem sizeAll_append (vs ws : List Value) : sizeAll (vs ++ ws) = sizeAll vs + sizeAll ws := by
  induction vs with
  | nil => simp [sizeAll]
  | cons v vs ih => simp [sizeAll, ih, Nat.add_assoc]

def sameAll : List Value → List Value → Bool
  | [], [] => true
  | integer m :: vs, integer n :: ws => m == n && sameAll vs ws
  | vector as :: vs, vector bs :: ws =>
      as.size == bs.size && sameAll (as.toListAppend vs) (bs.toListAppend ws)
  | function c :: vs, function d :: ws => c.number == d.number && sameAll vs ws
  | _, _ => false
termination_by vs => sizeAll vs
decreasing_by all_goals simp only [sizeAll, size, sizeAll_append, Array.toListAppend_eq]; omega

def same (v w : Value) : Bool := sameAll [v] [w]

end Value

end ExprLang
