import ExprLang.Deferred
import ExprLang.Error

/-! Reading a list of tokens from the left. -/

namespace ExprLang.Parser

inductive Parsed (ts : List Token) (α : Type)
  | ok (value : α) (rest : List Token) (shorter : rest.length < ts.length)
  | fail (error : ParseError) (rest : List Token) (bound : rest.length ≤ ts.length)

abbrev Reader (all : List Token) (α : Type) :=
  (ts : List Token) → ts.length ≤ all.length → Deferred (Parsed ts α)

abbrev InnerReader (all : List Token) (α : Type) :=
  (ts : List Token) → ts.length < all.length → Deferred (Parsed ts α)

theorem le_self (ts : List Token) : ts.length ≤ ts.length := Nat.le_refl _

theorem lt_cons (ts : List Token) : ts.length < ts.length + 1 := Nat.lt_succ_self _

variable {α β : Type} {ts us : List Token}

def follow (part : Unit → Deferred (Parsed us α)) (hu : us.length ≤ ts.length)
    (next : (a : α) → (rest : List Token) → rest.length < us.length → Deferred (Parsed ts β)) :
    Deferred (Parsed ts β) :=
  .call part fun
    | .ok a rest h => next a rest h
    | .fail e rest h => .done (.fail e rest (Nat.le_trans h hu))

theorem follow_run_ok {part : Unit → Deferred (Parsed us α)} {hu : us.length ≤ ts.length}
    {next : (a : α) → (rest : List Token) → rest.length < us.length → Deferred (Parsed ts β)}
    {a : α} {rest : List Token} {h : rest.length < us.length}
    (hp : (part ()).run = .ok a rest h) : (follow part hu next).run = (next a rest h).run := by
  simp [follow, hp]

theorem follow_run_fail {part : Unit → Deferred (Parsed us α)} {hu : us.length ≤ ts.length}
    {next : (a : α) → (rest : List Token) → rest.length < us.length → Deferred (Parsed ts β)}
    {e : ParseError} {rest : List Token} {h : rest.length ≤ us.length}
    (hp : (part ()).run = .fail e rest h) :
    (follow part hu next).run = .fail e rest (Nat.le_trans h hu) := by
  simp [follow, hp]

def unexpected (last : Nat) (x : Expectation) : List Token → ParseError
  | [] => ⟨.unexpectedEnd x, last⟩
  | t :: _ => ⟨.unexpectedToken t.lexeme x, t.line⟩

def expect (last : Nat) (l : Lexeme) (x : Expectation) : (ts : List Token) → Parsed ts Unit
  | [] => .fail (unexpected last x []) [] (Nat.le_refl _)
  | t :: ts =>
    if t.lexeme = l then .ok () ts (lt_cons ts)
    else .fail (unexpected last x (t :: ts)) (t :: ts) (Nat.le_refl _)

end ExprLang.Parser
