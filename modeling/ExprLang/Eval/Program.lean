import ExprLang.Eval.Basic
import ExprLang.Parser.Program
import ExprLang.Token.Lexer

namespace ExprLang

def evalStatement (limit : Nat) (sc : Scope) : Statement → State → Outcome Value × State
  | .definition d, ⟨store, depth⟩ =>
    let (c, store) := store.close d.name d.params d.body sc
    (.ok (.function c), ⟨store.define sc d.name (.function c), depth⟩)
  | .expression e _, s => evalExpr limit sc e s

def evalStatements (limit : Nat) (sc : Scope) (last : Value) : Program → State → Outcome Value × State
  | [], s => (.ok last, s)
  | st :: p, s =>
    match evalStatement limit sc st s with
    | (.ok v, s) => evalStatements limit sc v p s
    | (.error e, s) => (.error e, s)

theorem evalStatements_preserves {limit : Nat} {sc : Scope} {P : State → Prop}
    (h : ∀ st s, P s → P (evalStatement limit sc st s).2) (p : Program) (last : Value) (s : State)
    (hs : P s) : P (evalStatements limit sc last p s).2 := by
  induction p generalizing last s with
  | nil => exact hs
  | cons st p ih =>
    have ht := h st s hs
    rw [evalStatements]
    cases hst : evalStatement limit sc st s with
    | mk r t =>
      rw [hst] at ht
      cases r with
      | ok v => exact ih v t ht
      | error e => exact ht

def evalProgram (limit : Nat) (sc : Scope) (p : Program) (s : State) : Outcome Value × State :=
  evalStatements limit sc (.integer 0) p s

def defaultLimit : Nat := 10000

def readProgram (source : String) : Except Error Program := do
  let ts ← (tokenize source).mapError .lex
  (parse ts).mapError .parse

def run (limit : Nat) (source : String) : Except Error Value := do
  let p ← readProgram source
  let (sc, store) := Store.empty.root
  (evalProgram limit sc p ⟨store, 0⟩).1.mapError .eval

end ExprLang
