import ExprLang.Proofs.Identity.Transport
import ExprLang.Proofs.Spelling.Program

/-! Two runs of one program, side by side. -/

namespace ExprLang

def Definition.closure (d : Definition) (n : Nat) (sc : Scope) : Closure :=
  ⟨n, d.name, d.params, d.body, sc⟩

structure Closure.Twin (c d : Closure) : Prop where
  name_eq : d.name = c.name
  params_eq : d.params = c.params
  body_eq : d.body = c.body
  scope_eq : d.scope = c.scope

variable {excused : EvalCause → Prop} {R : Closure → Closure → Prop}
  {Q : Scope × State → Scope × State → Prop} {sc : Scope} {s t : State} {c d : Closure}

lemma Closure.Twin.refl (c : Closure) : c.Twin c := ⟨rfl, rfl, rfl, rfl⟩

lemma Closure.Twin.eq_number (h : c.Twin d) : d = { c with number := d.number } := by
  obtain ⟨hn, hp, hb, hs⟩ := h
  rw [← hn, ← hp, ← hb, ← hs]

lemma Definition.closure_twin (d : Definition) (m n : Nat) (sc : Scope) :
    (d.closure m sc).Twin (d.closure n sc) := ⟨rfl, rfl, rfl, rfl⟩

lemma Store.Twin.refl (hR : ∀ c, R c c) (s : Store) : s.Twin R s where
  size_eq := rfl
  bindings _ _ := rel_self fun _ _ => Value.Alike.refl fun c _ => hR c

lemma Store.Twin.bind (h : s.store.Twin R t.store) (hc : R c d) (sc : Scope) (x : String) :
    (s.bind sc x c).store.Twin R (t.bind sc x d).store where
  size_eq := by simpa [State.bind, Store.define] using h.size_eq
  bindings f y := by
    rw [getElem?_bind, getElem?_bind, h.size_eq]
    split
    · exact .some (.function hc)
    · exact h.bindings f y

inductive Ends (excused : EvalCause → Prop) (R : Closure → Closure → Prop)
    (Q : Scope × State → Scope × State → Prop) (sc : Scope) :
    Outcome Value × State → Outcome Value × State → Prop
  | ok {v w s t} : Value.Alike R v w → Q (sc, s) (sc, t) → Ends excused R Q sc (.ok v, s) (.ok w, t)
  | error {e s t} : Q (sc, s) (sc, t) → Ends excused R Q sc (.error e, s) (.error e, t)
  | excused {e s r} : excused e.cause → Ends excused R Q sc (.error e, s) r

lemma Ends.agreeUnless {r q : Outcome Value × State} (h : Ends excused R Q sc r q) :
    AgreeUnless excused (Value.Alike R) r.1 q.1 := by
  cases h with
  | ok hv _ => exact .ok hv
  | error _ => exact .error _
  | excused he => exact .excused he

lemma Ends.related {r q : Outcome Value × State} (h : Ends (fun _ => False) R Q sc r q) :
    Q (sc, r.2) (sc, q.2) := by
  cases h with
  | ok _ h => exact h
  | error h => exact h
  | excused he => exact he.elim

theorem Simulation.statements (limit : Nat) (hQ : Simulation excused R Q)
    (hmade : ∀ (d : Definition) (m n : Nat), R (d.closure m sc) (d.closure n sc))
    (hbind : ∀ (s t : State) (x : String) (c d : Closure), Q (sc, s) (sc, t) → R c d →
      Q (sc, s.bind sc x c) (sc, t.bind sc x d))
    (p : Program) {v w : Value} (h : Q (sc, s) (sc, t)) (hv : v.Alike R w) :
    Ends excused R Q sc (evalStatements limit sc v p s) (evalStatements limit sc w p t) := by
  induction p generalizing s t v w with
  | nil => exact .ok hv h
  | cons st p ih =>
    rw [evalStatements, evalStatements]
    cases st with
    | definition d =>
      have hc := hmade d s.store.closures t.store.closures
      exact ih (hbind s t d.name _ _ h hc) (.function hc)
    | expression e line =>
      have he : AgreeUnless excused (Value.Alike R) (outcome limit sc e s)
        (outcome limit sc e t) := hQ.expression e h
      rw [evalStatement, evalStatement, evalExpr_eq, evalExpr_eq]
      generalize outcome limit sc e s = a at he ⊢
      generalize outcome limit sc e t = b at he ⊢
      cases he with
      | ok hw => exact ih h hw
      | error err => exact .error h
      | excused hx => exact .excused hx

end ExprLang
