import ExprLang.Proofs.Evaluation.Related
import ExprLang.Proofs.Identity.Equality

namespace ExprLang

def State.afterAll (limit : Nat) : List (Scope × Expr) → State → State
  | [], s => s
  | (sc, e) :: es, s => afterAll limit es (evalExpr limit sc e s).2

variable {limit : Nat}

lemma afterAll_eq (es : List (Scope × Expr)) (s : State) : s.afterAll limit es = s := by
  induction es with
  | nil => rfl
  | cons q es ih =>
    obtain ⟨sc, e⟩ := q
    rw [State.afterAll, evalExpr_snd, ih]

lemma agree_same (r : Outcome Value) : Agree (fun v w => v.same w = true) r r := by
  cases r with
  | ok v => exact .ok v.same_refl
  | error e => exact .error e

theorem evalExpr_again (limit : Nat) (sc : Scope) (e : Expr) (others : List (Scope × Expr)) (s : State) :
    let first := evalExpr limit sc e s
    let second := evalExpr limit sc e (first.2.afterAll limit others)
    Agree (fun v w => v.same w = true) first.1 second.1 ∧ second.2 = first.2 := by
  intro first second
  have hs : first.2.afterAll limit others = s := by
    rw [afterAll_eq]
    exact evalExpr_snd e s
  have h : second = first := congrArg (evalExpr limit sc e) hs
  rw [h]
  exact ⟨agree_same first.1, rfl⟩

end ExprLang
