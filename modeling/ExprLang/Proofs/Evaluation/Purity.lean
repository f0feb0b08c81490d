import ExprLang.Eval.Lemmas
import Mathlib.Tactic.Lemma

/-! An expression leaves the state as it was, so it has an outcome in a state. -/

namespace ExprLang

variable {limit : Nat} {sc : Scope} {α β : Type}

@[simp] lemma ok_bind (a : α) (f : α → Outcome β) : (Except.ok a >>= f) = f a := rfl

@[simp] lemma error_bind (e : EvalError) (f : α → Outcome β) : (Except.error e >>= f) = .error e := rfl

@[simp] lemma located_ok (line : Nat) (a : α) : located line (.ok a) = .ok a := rfl

@[simp] lemma located_error (line : Nat) (c : EvalCause) :
    located line (.error c : Except EvalCause α) = .error ⟨c, line⟩ := rfl

/-- The body of a function may be any expression, but one call fewer is left to it. -/
theorem call_induction (limit : Nat) {P : Nat → Expr → Prop}
    (literal : ∀ d v line, P d (.literal v line))
    (identifier : ∀ d x line, P d (.identifier x line))
    (negate : ∀ d a line, P d a → P d (.negate a line))
    (binary : ∀ d op a b line, P d a → P d b → P d (.binary op a b line))
    (vector : ∀ d es line, (∀ e ∈ es.toList, P d e) → P d (.vector es line))
    (element : ∀ d es l i line, P d i → (∀ e ∈ es.toList, P d e) → P d (.index (.vector es l) i line))
    (index : ∀ d a i line, (∀ es l, a ≠ .vector es l) → P d i → P d a → P d (.index a i line))
    (call : ∀ d f as line, P d f → (∀ a ∈ as, P d a) → (d < limit → ∀ b, P (d + 1) b) →
      P d (.call f as line)) :
    ∀ d e, P d e :=
  go
where
  go : ∀ d e, P d e
    | d, .literal v line => literal d v line
    | d, .identifier x line => identifier d x line
    | d, .negate a line => negate d a line (go d a)
    | d, .binary op a b line => binary d op a b line (go d a) (go d b)
    | d, .vector ⟨es⟩ line => vector d ⟨es⟩ line fun e _ => go d e
    | d, .index a i line => by
      by_cases h : ∃ es l, a = .vector es l
      · obtain ⟨⟨es⟩, l, rfl⟩ := h
        exact element d ⟨es⟩ l i line (go d i) fun e _ => go d e
      · exact index d a i line (fun es l ha => h ⟨es, l, ha⟩) (go d i) (go d a)
    | d, .call f as line => call d f as line (go d f) (fun a _ => go d a) fun _ b => go (d + 1) b
  termination_by d e => (limit - d, sizeOf e)
  decreasing_by all_goals subst_vars; decreasing_tactic

lemma andThenState_snd {p : Outcome α × State} {f : α → State → Outcome β × State} {s : State}
    (hp : p.2 = s) (hf : ∀ a, (f a s).2 = s) : (andThenState p f).2 = s := by
  obtain ⟨r, s⟩ := p
  subst hp
  cases r with
  | ok a => exact hf a
  | error e => rfl

lemma andThenState_fst {p : Outcome α × State} {f : α → State → Outcome β × State} {s : State}
    (hp : p.2 = s) : (andThenState p f).1 = p.1 >>= fun a => (f a s).1 := by
  obtain ⟨r, s⟩ := p
  subst hp
  cases r <;> rfl

lemma evalList_snd_of (es : List Expr) (s : State) (h : ∀ e ∈ es, (evalExpr limit sc e s).2 = s) :
    (evalList limit sc es s).2 = s := by
  induction es with
  | nil => simp
  | cons e es ih =>
    have hs := ih fun a ha => h a (List.mem_cons_of_mem e ha)
    rw [evalList_cons]
    exact andThenState_snd (h e List.mem_cons_self) fun v => andThenState_snd hs fun vs => rfl

theorem evalExpr_snd (e : Expr) (s : State) : (evalExpr limit sc e s).2 = s := by
  obtain ⟨d, hd⟩ : ∃ d, s.depth = d := ⟨_, rfl⟩
  induction d, e using call_induction limit generalizing sc s with
  | literal d v line => simp
  | identifier d x line => rw [evalExpr_identifier]
  | negate d a line ih =>
    rw [evalExpr_negate]
    exact andThenState_snd (ih s hd) fun v => rfl
  | binary d op a b line iha ihb =>
    rw [evalExpr_binary]
    exact andThenState_snd (iha s hd) fun v => andThenState_snd (ihb s hd) fun w => rfl
  | vector d es line ih =>
    rw [evalExpr_vector]
    exact andThenState_snd (evalList_snd_of _ s fun e he => ih e he s hd) fun vs => rfl
  | element d es l i line ihi ih =>
    rw [evalExpr_index_vector]
    refine andThenState_snd (ihi s hd) fun v => ?_
    cases v with
    | integer k =>
      dsimp only [asIndex]
      split
      · rename_i e he
        exact ih e (Array.mem_toList_iff.2 (mem_of_element? he)) s hd
      · rfl
    | vector vs => rfl
    | function c => rfl
  | index d a i line ha ihi iha =>
    rw [evalExpr_index a i line s ha]
    refine andThenState_snd (ihi s hd) fun v => ?_
    cases v with
    | integer k => exact andThenState_snd (iha s hd) fun w => by cases w <;> rfl
    | vector vs => rfl
    | function c => rfl
  | call d f as line ihf ihas ihb =>
    rw [evalExpr_call]
    refine andThenState_snd (ihf s hd) fun v => ?_
    cases v with
    | integer k => rfl
    | vector vs => rfl
    | function c =>
      dsimp only
      split
      · refine andThenState_snd (evalList_snd_of as s fun a h => ihas a h s hd) fun vs => ?_
        split
        · rename_i hl
          have hb := fun sc t => @ihb (hd ▸ hl) c.body sc t
          simp only [hb _ ⟨_, s.depth + 1⟩ (by simp [hd]), Store.release_child]
          rfl
        · rfl
      · rfl

lemma evalList_snd (es : List Expr) (s : State) : (evalList limit sc es s).2 = s :=
  evalList_snd_of es s fun e _ => evalExpr_snd e s

def outcome (limit : Nat) (sc : Scope) (e : Expr) (s : State) : Outcome Value :=
  (evalExpr limit sc e s).1

theorem evalExpr_eq (e : Expr) (s : State) : evalExpr limit sc e s = (outcome limit sc e s, s) :=
  Prod.ext rfl (evalExpr_snd e s)

lemma evalList_fst (es : List Expr) (s : State) :
    (evalList limit sc es s).1 = es.mapM fun e => outcome limit sc e s := by
  induction es with
  | nil => simp; rfl
  | cons e es ih =>
    rw [evalList_cons, andThenState_fst (evalExpr_snd e s), List.mapM_cons]
    congr 1
    funext v
    rw [andThenState_fst (evalList_snd es s), ih]
    rfl

def Value.position (line : Nat) : Value → Outcome Int64
  | .integer k => .ok k
  | v => located line (.error (.indexNotInteger v.shape))

def Value.select (line : Nat) (k : Int64) : Value → Outcome Value
  | .vector vs => located line ((element? vs k).elim (.error (.indexOutOfBounds k vs.size)) .ok)
  | v => located line (.error (.notIndexable v.shape))

def Value.callee (line : Nat) : Value → Outcome Closure
  | .function c => .ok c
  | v => located line (.error (.notCallable v.shape))

def Closure.inside (c : Closure) (vs : List Value) (s : State) : Scope × State :=
  let (inner, store) := s.store.child c.scope (Bindings.ofArguments c.params vs)
  (inner, ⟨store, s.depth + 1⟩)

@[simp] lemma inside_depth (c : Closure) (vs : List Value) (s : State) :
    (c.inside vs s).2.depth = s.depth + 1 := rfl

lemma getElem?_inside (c : Closure) (vs : List Value) (s : State) (f : Nat) (x : String) :
    ((c.inside vs s).2.store.frame f)[x]? =
      if f = s.store.frames.size then (c.params.zip vs).reverse.lookup x else (s.store.frame f)[x]? := by
  rw [Closure.inside, Store.frame_child]
  split
  · exact getElem?_ofArguments c.params vs x
  · rfl

lemma size_inside (c : Closure) (vs : List Value) (s : State) :
    (c.inside vs s).2.store.frames.size = s.store.frames.size + 1 :=
  Array.size_push _

@[simp] theorem outcome_literal (v : Literal) (line : Nat) (s : State) :
    outcome limit sc (.literal v line) s = .ok v.value := by
  simp [outcome]

@[simp] theorem outcome_identifier (x : String) (line : Nat) (s : State) :
    outcome limit sc (.identifier x line) s = s.store.resolve sc x line := by
  simp [outcome, evalExpr_identifier]

@[simp] theorem outcome_negate (a : Expr) (line : Nat) (s : State) :
    outcome limit sc (.negate a line) s = (do
      let v ← outcome limit sc a s
      located line v.negate) := by
  rw [outcome, evalExpr_negate]
  exact andThenState_fst (evalExpr_snd a s)

@[simp] theorem outcome_binary (op : BinaryOp) (a b : Expr) (line : Nat) (s : State) :
    outcome limit sc (.binary op a b line) s = (do
      let v ← outcome limit sc a s
      let w ← outcome limit sc b s
      located line (op.apply v w)) := by
  rw [outcome, evalExpr_binary, andThenState_fst (evalExpr_snd a s)]
  congr 1
  funext v
  exact andThenState_fst (evalExpr_snd b s)

@[simp] theorem outcome_vector (es : Array Expr) (line : Nat) (s : State) :
    outcome limit sc (.vector es line) s = (do
      let vs ← es.toList.mapM fun e => outcome limit sc e s
      .ok (.vector vs.toArray)) := by
  rw [outcome, evalExpr_vector, andThenState_fst (evalList_snd _ s), evalList_fst]

@[simp] theorem outcome_element (es : Array Expr) (i : Expr) (l line : Nat) (s : State) :
    outcome limit sc (.index (.vector es l) i line) s = (do
      let v ← outcome limit sc i s
      let k ← v.position line
      match element? es k with
      | some e => outcome limit sc e s
      | none => .error ⟨.indexOutOfBounds k es.size, line⟩) := by
  rw [outcome, evalExpr_index_vector, andThenState_fst (evalExpr_snd i s)]
  congr 1
  funext v
  cases v with
  | integer k =>
    dsimp only [asIndex, Value.position, ok_bind]
    cases element? es k <;> rfl
  | vector vs => rfl
  | function c => rfl

theorem outcome_index (a i : Expr) (line : Nat) (s : State) (ha : ∀ es l, a ≠ .vector es l) :
    outcome limit sc (.index a i line) s = (do
      let v ← outcome limit sc i s
      let k ← v.position line
      let w ← outcome limit sc a s
      w.select line k) := by
  rw [outcome, evalExpr_index a i line s ha, andThenState_fst (evalExpr_snd i s)]
  congr 1
  funext v
  cases v with
  | integer k =>
    dsimp only [asIndex, Value.position, ok_bind]
    rw [andThenState_fst (evalExpr_snd a s)]
    congr 1
    funext w
    cases w <;> rfl
  | vector vs => rfl
  | function c => rfl

@[simp] theorem outcome_call (f : Expr) (as : List Expr) (line : Nat) (s : State) :
    outcome limit sc (.call f as line) s = (do
      let v ← outcome limit sc f s
      let c ← v.callee line
      if as.length = c.params.length then
        let vs ← as.mapM fun a => outcome limit sc a s
        if s.depth < limit then outcome limit (c.inside vs s).1 c.body (c.inside vs s).2
        else .error ⟨.callDepth limit, line⟩
      else .error ⟨.argumentCount c.params.length as.length, line⟩) := by
  rw [outcome, evalExpr_call, andThenState_fst (evalExpr_snd f s)]
  congr 1
  funext v
  cases v with
  | integer k => rfl
  | vector vs => rfl
  | function c =>
    dsimp only [Value.callee, ok_bind]
    split
    · rw [andThenState_fst (evalList_snd as s), evalList_fst]
      congr 1
      funext vs
      split <;> rfl
    · rfl

end ExprLang
