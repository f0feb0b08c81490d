import ExprLang.Eval.Basic

namespace ExprLang

open Evaluation

variable {limit : Nat} {sc : Scope} {α β : Type}

def andThenState (p : Outcome α × State) (next : α → State → Outcome β × State) : Outcome β × State :=
  match p with
  | (.ok a, s) => next a s
  | (.error e, s) => (.error e, s)

@[simp] theorem andThenState_ok (a : α) (s : State) (next : α → State → Outcome β × State) :
    andThenState (.ok a, s) next = next a s := rfl

def plain {d : Nat} (p : Outcome α × StateAt d) : Outcome α × State := (p.1, p.2.1)

theorem plain_andThen {d : Nat} (part : Unit → Evaluation d α) (next : α → StateAt d → Evaluation d β) :
    plain (andThen part next).run =
      match (part ()).run with
      | (.ok a, s) => plain (next a s).run
      | (.error e, s) => (.error e, s.1) := by
  unfold andThen
  rw [Deferred.run_call]
  rcases (part ()).run with ⟨_ | a, s⟩ <;> rfl

theorem plain_eval {d : Nat} (e : Expr) (s : StateAt d) :
    plain (eval limit d sc e s).run = evalExpr limit sc e s.1 := by
  obtain ⟨s, rfl⟩ := s
  simp [evalExpr, plain]

theorem eval_atom {d : Nat} {e : Expr} {s : StateAt d} {r : Outcome Value}
    (h : atom? s.store sc e = some r) : eval limit d sc e s = .done (r, s) := by
  cases e <;> simp only [atom?, Option.some.injEq, reduceCtorEq] at h <;> subst h <;> rw [eval]

theorem operand_run {d : Nat} (e : Expr) (s : StateAt d) (next : Value → StateAt d → Evaluation d β) :
    (operand sc e s (fun _ => eval limit d sc e s) next).run =
      (andThen (fun _ => eval limit d sc e s) next).run := by
  unfold operand
  split
  · rename_i v h
    rw [andThen, Deferred.run_call, eval_atom h]
    rfl
  · rename_i err h
    rw [andThen, Deferred.run_call, eval_atom h]
    rfl
  · rfl

theorem plain_operand {d : Nat} (e : Expr) (s : StateAt d)
    (next : Value → StateAt d → Evaluation d β) (f : Value → State → Outcome β × State)
    (h : ∀ v t, plain (next v t).run = f v t.1) :
    plain (operand sc e s (fun _ => eval limit d sc e s) next).run =
      andThenState (evalExpr limit sc e s.1) f := by
  rw [operand_run, plain_andThen, ← plain_eval]
  rcases (eval limit d sc e s).run with ⟨_ | v, t⟩
  · rfl
  · exact h v t

theorem evalAll_run {d : Nat} (found : Array Value) (es : List Expr) (s : StateAt d) :
    (evalAll limit d sc found es s).run =
      let p := (evalAll limit d sc #[] es s).run
      (p.1.map (found ++ ·), p.2) := by
  induction es generalizing found s with
  | nil => simp [evalAll, Except.map]
  | cons e es ih =>
      rw [evalAll, evalAll, operand_run, operand_run, andThen, andThen, Deferred.run_call,
        Deferred.run_call]
      rcases (eval limit d sc e s).run with ⟨err | v, t⟩
      · rfl
      · dsimp only
        rw [ih (found.push v), ih (#[].push v)]
        rcases (evalAll limit d sc #[] es t).run with ⟨err | vs, u⟩
        · rfl
        · simp [Except.map]

theorem evalList_eq_run {d : Nat} (es : List Expr) (s : StateAt d) :
    evalList limit sc es s.1 =
      let p := (evalAll limit d sc #[] es s).run
      (p.1.map Array.toList, p.2.1) := by
  obtain ⟨s, rfl⟩ := s
  simp only [evalList, Deferred.result_eq_run]

theorem plain_andThen_evalAll {d : Nat} (es : List Expr) (s : StateAt d)
    (next : Array Value → StateAt d → Evaluation d β) (f : List Value → State → Outcome β × State)
    (h : ∀ vs t, plain (next vs t).run = f vs.toList t.1) :
    plain (andThen (fun _ => evalAll limit d sc #[] es s) next).run =
      andThenState (evalList limit sc es s.1) f := by
  rw [plain_andThen, evalList_eq_run]
  rcases (evalAll limit d sc #[] es s).run with ⟨err | vs, t⟩
  · rfl
  · exact h vs t

theorem evalExpr_eq_plain (e : Expr) (s : State) :
    evalExpr limit sc e s = plain (eval limit s.depth sc e ⟨s, rfl⟩).run :=
  (plain_eval e ⟨s, rfl⟩).symm

theorem evalExpr_depth (e : Expr) (s : State) : (evalExpr limit sc e s).2.depth = s.depth :=
  (eval limit s.depth sc e ⟨s, rfl⟩).result.2.2

@[simp] theorem evalExpr_literal (v : Literal) (line : Nat) (s : State) :
    evalExpr limit sc (.literal v line) s = (.ok v.value, s) := by
  rw [evalExpr_eq_plain, eval]; rfl

theorem evalExpr_identifier (x : String) (line : Nat) (s : State) :
    evalExpr limit sc (.identifier x line) s =
      (s.store.resolve sc x line, s) := by
  rw [evalExpr_eq_plain, eval]; rfl

theorem evalExpr_negate (a : Expr) (line : Nat) (s : State) :
    evalExpr limit sc (.negate a line) s =
      andThenState (evalExpr limit sc a s) fun v s => (located line v.negate, s) := by
  rw [evalExpr_eq_plain, eval]
  exact plain_operand a _ _ _ fun v t => rfl

theorem evalExpr_binary (op : BinaryOp) (a b : Expr) (line : Nat) (s : State) :
    evalExpr limit sc (.binary op a b line) s =
      andThenState (evalExpr limit sc a s) fun v s =>
        andThenState (evalExpr limit sc b s) fun w s => (located line (op.apply v w), s) := by
  rw [evalExpr_eq_plain, eval]
  exact plain_operand a _ _ _ fun v t => plain_operand b _ _ _ fun w t => rfl

theorem evalExpr_vector (es : Array Expr) (line : Nat) (s : State) :
    evalExpr limit sc (.vector es line) s =
      andThenState (evalList limit sc es.toList s) fun vs s => (.ok (.vector vs.toArray), s) := by
  rw [evalExpr_eq_plain, eval]
  exact plain_andThen_evalAll es.toList _ _ _ fun v t => rfl

def asIndex (line : Nat) (v : Value) (s : State) (next : Int64 → Outcome β × State) :
    Outcome β × State :=
  match v with
  | .integer k => next k
  | v => (located line (.error (.indexNotInteger v.shape)), s)

theorem evalExpr_index_vector (es : Array Expr) (i : Expr) (l line : Nat) (s : State) :
    evalExpr limit sc (.index (.vector es l) i line) s =
      andThenState (evalExpr limit sc i s) fun v s => asIndex line v s fun k =>
        match element? es k with
        | some e => evalExpr limit sc e s
        | none => (located line (.error (.indexOutOfBounds k es.size)), s) := by
  rw [evalExpr_eq_plain, eval]
  refine plain_operand i _ _ _ fun v t => ?_
  cases v with
  | integer k =>
      dsimp only [asIndex]
      split
      · rename_i e h
        simp only [h]
        exact plain_eval e t
      · rename_i h
        simp only [h]
        rfl
  | vector vs => rfl
  | function c => rfl

theorem evalExpr_index (a i : Expr) (line : Nat) (s : State) (ha : ∀ es l, a ≠ .vector es l) :
    evalExpr limit sc (.index a i line) s =
      andThenState (evalExpr limit sc i s) fun v s => asIndex line v s fun k =>
        andThenState (evalExpr limit sc a s) fun w s =>
          match w with
          | .vector vs =>
            (located line ((element? vs k).elim (.error (.indexOutOfBounds k vs.size)) .ok), s)
          | w => (located line (.error (.notIndexable w.shape)), s) := by
  rw [evalExpr_eq_plain, eval]
  · refine plain_operand i _ _ _ fun v t => ?_
    cases v with
    | integer k =>
        refine plain_operand a _ _ _ fun w t => ?_
        cases w <;> rfl
    | vector vs => rfl
    | function c => rfl
  · exact ha

theorem plain_enter {d : Nat} (outer : Scope) (b : Bindings) (e : Expr) (t : StateAt d) :
    plain (d := d) (Deferred.call
      (fun _ =>
        let (inner, s) := t.enter outer b
        eval limit (d + 1) inner e s)
      fun (r, s) => .done (r, s.leave)).run =
      let p := t.1.store.child outer b
      let q := evalExpr limit p.1 e ⟨p.2, t.1.depth + 1⟩
      (q.1, ⟨q.2.store.release, q.2.depth - 1⟩) := by
  obtain ⟨⟨store, _⟩, rfl⟩ := t
  dsimp only
  rw [evalExpr_eq_plain]
  rfl

theorem evalExpr_call (f : Expr) (as : List Expr) (line : Nat) (s : State) :
    evalExpr limit sc (.call f as line) s =
      andThenState (evalExpr limit sc f s) fun v s =>
        match v with
        | .function c =>
          if as.length = c.params.length then
            andThenState (evalList limit sc as s) fun vs s =>
              if s.depth < limit then
                let p := s.store.child c.scope (Bindings.ofArguments c.params vs)
                let q := evalExpr limit p.1 c.body ⟨p.2, s.depth + 1⟩
                (q.1, ⟨q.2.store.release, q.2.depth - 1⟩)
              else (located line (.error (.callDepth limit)), s)
          else (located line (.error (.argumentCount c.params.length as.length)), s)
        | v => (located line (.error (.notCallable v.shape)), s) := by
  rw [evalExpr_eq_plain, eval]
  refine plain_operand f _ _ _ fun v t => ?_
  cases v with
  | integer k => rfl
  | vector vs => rfl
  | function c =>
      dsimp only
      split
      · refine plain_andThen_evalAll as _ _ _ fun vs t => ?_
        have hd : t.1.depth = s.depth := t.2
        split
        · rename_i h
          rw [if_pos (by omega)]
          exact plain_enter _ _ _ t
        · rename_i h
          rw [if_neg (by omega)]
          rfl
      · rfl

@[simp] theorem evalList_nil (s : State) : evalList limit sc [] s = (.ok [], s) := by
  rw [evalList_eq_run (d := s.depth) [] ⟨s, rfl⟩, evalAll]
  rfl

theorem evalList_cons (e : Expr) (es : List Expr) (s : State) :
    evalList limit sc (e :: es) s =
      andThenState (evalExpr limit sc e s) fun v s =>
        andThenState (evalList limit sc es s) fun vs s => (.ok (v :: vs), s) := by
  rw [evalList_eq_run (e :: es) ⟨s, rfl⟩, evalExpr_eq_plain, evalAll, operand_run, andThen,
    Deferred.run_call]
  rcases (eval limit s.depth sc e ⟨s, rfl⟩).run with ⟨err | v, t⟩
  · rfl
  · simp only [plain, andThenState_ok, evalAll_run (#[].push v), evalList_eq_run es t]
    rcases (evalAll limit s.depth sc #[] es t).run with ⟨err | vs, u⟩
    · rfl
    · simp [Except.map]

end ExprLang
