import ExprLang.Proofs.Evaluation.Purity
import Mathlib.Data.Prod.Lex

/-! What is done with one expression, told without what is done with others. -/

namespace ExprLang

structure Request where
  scope : Scope
  expr : Expr
  state : State

/-- Either there is a result, or the value of an expression is asked for. -/
inductive Plan (α : Type)
  | ended (r : Outcome α)
  | ask (q : Request) (next : Value → Plan α)

namespace Plan

variable {α β : Type}

def bind : Plan α → (α → Plan β) → Plan β
  | ended (.ok a), f => f a
  | ended (.error e), _ => ended (.error e)
  | ask q next, f => ask q fun v => (next v).bind f

instance : Monad Plan where
  pure a := ended (.ok a)
  bind := Plan.bind

def value (q : Request) : Plan Value := ask q fun v => ended (.ok v)

def values (sc : Scope) (s : State) : List Expr → Plan (List Value)
  | [] => ended (.ok [])
  | e :: es => do
    let v ← value ⟨sc, e, s⟩
    let vs ← values sc s es
    ended (.ok (v :: vs))

inductive Asks : Plan α → Request → Prop
  | now {q next} : Asks (ask q next) q
  | later {q next v r} : Asks (next v) r → Asks (ask q next) r

def given (answer : Request → Outcome Value) : Plan α → Outcome α
  | ended r => r
  | ask q next => answer q >>= fun v => (next v).given answer

end Plan

namespace Request

def plan (limit : Nat) : Request → Plan Value
  | ⟨_, .literal v _, _⟩ => .ended (.ok v.value)
  | ⟨sc, .identifier x line, s⟩ => .ended (s.store.resolve sc x line)
  | ⟨sc, .negate a line, s⟩ => do
    let v ← .value ⟨sc, a, s⟩
    .ended (located line v.negate)
  | ⟨sc, .binary op a b line, s⟩ => do
    let v ← .value ⟨sc, a, s⟩
    let w ← .value ⟨sc, b, s⟩
    .ended (located line (op.apply v w))
  | ⟨sc, .vector es _, s⟩ => do
    let vs ← .values sc s es.toList
    .ended (.ok (.vector vs.toArray))
  | ⟨sc, .index (.vector es _) i line, s⟩ => do
    let v ← .value ⟨sc, i, s⟩
    let k ← .ended (v.position line)
    match element? es k with
    | some e => .value ⟨sc, e, s⟩
    | none => .ended (.error ⟨.indexOutOfBounds k es.size, line⟩)
  | ⟨sc, .index a i line, s⟩ => do
    let v ← .value ⟨sc, i, s⟩
    let k ← .ended (v.position line)
    let w ← .value ⟨sc, a, s⟩
    .ended (w.select line k)
  | ⟨sc, .call f as line, s⟩ => do
    let v ← .value ⟨sc, f, s⟩
    let c ← .ended (v.callee line)
    if as.length = c.params.length then
      let vs ← .values sc s as
      if s.depth < limit then
        -- The body comes from the store and may be any expression.
        let (inner, t) := c.inside vs s
        .value ⟨inner, c.body, t⟩
      else .ended (.error ⟨.callDepth limit, line⟩)
    else .ended (.error ⟨.argumentCount c.params.length as.length, line⟩)

def outcome (limit : Nat) (q : Request) : Outcome Value := ExprLang.outcome limit q.scope q.expr q.state

def measure (limit : Nat) (q : Request) : ℕ ×ₗ ℕ := toLex (limit - q.state.depth, q.expr.size)

end Request

variable {limit : Nat} {α β : Type} {sc : Scope} {s : State}

section Answers

variable {answer : Request → Outcome Value}

lemma given_bind (p : Plan α) (f : α → Plan β) :
    (p >>= f).given answer = p.given answer >>= fun a => (f a).given answer := by
  induction p with
  | ended r => cases r <;> rfl
  | ask q next ih =>
    have hq : (Plan.ask q next >>= f).given answer =
        answer q >>= fun v => (next v >>= f).given answer := rfl
    rw [hq, Plan.given]
    cases answer q with
    | ok v => exact ih v
    | error e => rfl

@[simp] lemma given_value (q : Request) : (Plan.value q).given answer = answer q := by
  rw [Plan.value, Plan.given]
  cases answer q <;> rfl

lemma given_values (es : List Expr) :
    (Plan.values sc s es).given answer = es.mapM fun e => answer ⟨sc, e, s⟩ := by
  induction es with
  | nil => rfl
  | cons e es ih =>
    rw [Plan.values, given_bind, given_value, List.mapM_cons]
    congr 1
    funext v
    rw [given_bind, ih]
    rfl

end Answers

theorem given_plan (q : Request) : (q.plan limit).given (Request.outcome limit) = q.outcome limit := by
  obtain ⟨sc, e, s⟩ := q
  rw [Request.outcome]
  cases e with
  | literal v line => rw [outcome_literal]; rfl
  | identifier x line => rw [outcome_identifier]; rfl
  | negate a line =>
    rw [Request.plan, outcome_negate, given_bind, given_value]
    rfl
  | binary op a b line =>
    rw [Request.plan, outcome_binary, given_bind, given_value]
    rfl
  | vector es line =>
    rw [Request.plan, outcome_vector, given_bind, given_values]
    rfl
  | index a i line =>
    by_cases h : ∃ es l, a = .vector es l
    · obtain ⟨es, l, rfl⟩ := h
      rw [Request.plan, outcome_element, given_bind, given_value]
      congr 1
      funext v
      rw [given_bind]
      congr 1
      funext k
      cases element? es k with
      | some e => exact given_value _
      | none => rfl
    · have ha : ∀ es l, a ≠ .vector es l := fun es l he => h ⟨es, l, he⟩
      rw [Request.plan, outcome_index a i line s ha, given_bind, given_value]
      · congr 1
        funext v
        rw [given_bind]
        rfl
      · exact ha
  | call f as line =>
    rw [Request.plan, outcome_call, given_bind, given_value]
    congr 1
    funext v
    rw [given_bind]
    congr 1
    funext c
    split
    · rw [given_bind, given_values]
      congr 1
      funext vs
      split
      · exact given_value _
      · rfl
    · rfl

section Asked

variable {P : Request → Prop} {p : Plan α}

def Plan.Every (P : Request → Prop) (p : Plan α) : Prop := ∀ r, p.Asks r → P r

lemma every_ended (o : Outcome α) : (Plan.ended o).Every P := nofun

lemma every_value {q : Request} (h : P q) : (Plan.value q).Every P := by
  intro r hr
  cases hr with
  | now => exact h
  | later hr => exact every_ended _ r hr

lemma Plan.Every.bind {f : α → Plan β} (h : p.Every P) (hf : ∀ a, (f a).Every P) : (p >>= f).Every P := by
  induction p with
  | ended o =>
    cases o with
    | ok a => exact hf a
    | error e => exact every_ended _
  | ask q next ih =>
    intro r hr
    have hr : (Plan.ask q fun v => next v >>= f).Asks r := hr
    cases hr with
    | now => exact h q .now
    | @later _ _ v _ hr => exact ih v (fun r hr => h r (.later hr)) r hr

lemma every_values (es : List Expr) (h : ∀ e ∈ es, P ⟨sc, e, s⟩) : (Plan.values sc s es).Every P := by
  induction es with
  | nil => exact every_ended _
  | cons e es ih =>
    refine (every_value (h e List.mem_cons_self)).bind fun v => ?_
    exact (ih fun a ha => h a (List.mem_cons_of_mem e ha)).bind fun vs => every_ended _

lemma size_of_mem {es : Array Expr} {e : Expr} (l : Nat) (h : e ∈ es.toList) :
    e.size < (Expr.vector es l).size := by
  obtain ⟨es⟩ := es
  have he : e.size ≤ Expr.sizeAll es := Expr.size_le_sizeAll h
  rw [Expr.size]
  omega

lemma size_index (a i : Expr) (line : Nat) : (Expr.index a i line).size = a.size + i.size + 1 := by
  rw [Expr.size]

inductive Request.Below (limit : Nat) (q : Request) : Request → Prop
  | part {e : Expr} : e.size < q.expr.size → Below limit q ⟨q.scope, e, q.state⟩
  | body {c : Closure} {vs : List Value} : q.state.depth < limit →
      Below limit q ⟨(c.inside vs q.state).1, c.body, (c.inside vs q.state).2⟩

theorem every_plan (q : Request) : (q.plan limit).Every (q.Below limit) := by
  obtain ⟨sc, e, s⟩ := q
  have part (a : Expr) (h : a.size < e.size) : Request.Below limit ⟨sc, e, s⟩ ⟨sc, a, s⟩ := .part h
  cases e with
  | literal v line => exact every_ended _
  | identifier x line => exact every_ended _
  | negate a line =>
    have ha : a.size < (Expr.negate a line).size := by
      rw [Expr.size]
      omega
    exact (every_value (part a ha)).bind fun v => every_ended _
  | binary op a b line =>
    have hab : a.size + b.size < (Expr.binary op a b line).size := by
      rw [Expr.size]
      omega
    refine (every_value (part a (by omega))).bind fun v => ?_
    exact (every_value (part b (by omega))).bind fun w => every_ended _
  | vector es line =>
    exact (every_values es.toList fun e he => part e (size_of_mem line he)).bind fun vs => every_ended _
  | index a i line =>
    have hs := size_index a i line
    by_cases ha : ∃ es l, a = .vector es l
    · obtain ⟨es, l, rfl⟩ := ha
      refine (every_value (part i (by omega))).bind fun v => (every_ended _).bind fun k => ?_
      split
      · rename_i e he
        have he := size_of_mem l (Array.mem_toList_iff.2 (mem_of_element? he))
        exact every_value (part e (by omega))
      · exact every_ended _
    · rw [Request.plan]
      · refine (every_value (part i (by omega))).bind fun v => (every_ended _).bind fun k => ?_
        exact (every_value (part a (by omega))).bind fun w => every_ended _
      · exact fun es l he => ha ⟨es, l, he⟩
  | call f as line =>
    have hfas : f.size + Expr.sizeAll as < (Expr.call f as line).size := by
      rw [Expr.size]
      omega
    have has (a : Expr) (ha : a ∈ as) : a.size < (Expr.call f as line).size := by
      have hs := Expr.size_le_sizeAll ha
      omega
    refine (every_value (part f (by omega))).bind fun v => (every_ended _).bind fun c => ?_
    dsimp only
    split
    · refine (every_values as fun a ha => part a (has a ha)).bind fun vs => ?_
      split
      · rename_i hd
        exact every_value (.body hd)
      · exact every_ended _
    · exact every_ended _

end Asked

lemma Request.Below.measure_lt {q r : Request} (h : q.Below limit r) : r.measure limit < q.measure limit := by
  rw [Request.measure, Request.measure, Prod.Lex.toLex_lt_toLex]
  cases h with
  | part hs => exact .inr ⟨rfl, hs⟩
  | body hd =>
    rw [inside_depth]
    exact .inl (by omega)

lemma Request.Below.depth_le {q r : Request} (h : q.Below limit r) (hq : q.state.depth ≤ limit) :
    r.state.depth ≤ limit := by
  cases h with
  | part _ => exact hq
  | body hd => exact hd

end ExprLang
