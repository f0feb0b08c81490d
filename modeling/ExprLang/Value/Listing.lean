import ExprLang.Expr.Listing
import ExprLang.Store

namespace ExprLang

def listNames (names : List String) : String :=
  "[" ++ ", ".intercalate (names.map Text.quoted) ++ "]"

def Closure.list (text : String) (c : Closure) : String :=
  c.body.list (text ++ "Function \x7b name: " ++ Text.quoted c.name ++ ", params: " ++
    listNames c.params ++ ", body: ") ++ ", .. \x7d"

namespace Value

mutual

def list (text : String) : Value → String
  | integer n => text ++ "Integer(" ++ Text.decimal n.toInt ++ ")"
  | vector ⟨vs⟩ => listAll (text ++ "Vector([") vs ++ "])"
  | function c => c.list (text ++ "Function(") ++ ")"

def listAll (text : String) : List Value → String
  | [] => text
  | v :: vs => listMore (v.list text) vs

def listMore (text : String) : List Value → String
  | [] => text
  | v :: vs => listMore (v.list (text ++ ", ")) vs

end

def listing (v : Value) : String := v.list ""

end Value

def Store.listing (s : Store) (sc : Scope) : String :=
  "Environment \x7b names: " ++ listNames (s.names sc) ++ ", has_parent: " ++
    (if sc.enclosing.isEmpty then "false" else "true") ++ " \x7d"

end ExprLang
