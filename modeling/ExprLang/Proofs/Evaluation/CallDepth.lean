import ExprLang.Eval.Program
import ExprLang.Proofs.Evaluation.Purity
import Mathlib.Data.List.Permutation

/-! Evaluation with a trace of the bodies that begin. -/

namespace ExprLang

/-- A body that begins: how many are active from then on, and the line of the call. -/
structure Activation where
  active : Nat
  line : Nat

structure Traced (α : Type) where
  result : Outcome α
  activations : List Activation

namespace Traced

variable {α β : Type}

def quiet (r : Outcome α) : Traced α := ⟨r, []⟩

def entering (a : Activation) (t : Traced α) : Traced α := ⟨t.result, a :: t.activations⟩

def andThen (t : Traced α) (f : α → Traced β) : Traced β :=
  match t.result with
  | .ok a => ⟨(f a).result, t.activations ++ (f a).activations⟩
  | .error e => ⟨.error e, t.activations⟩

instance : Monad Traced where
  pure a := quiet (.ok a)
  bind := andThen

end Traced

mutual

def traced (limit : Nat) (sc : Scope) : Expr → State → Traced Value
  | .literal v _, _ => .quiet (.ok v.value)
  | .identifier x line, s => .quiet (s.store.resolve sc x line)
  | .negate a line, s => do
    let v ← traced limit sc a s
    .quiet (located line v.negate)
  | .binary op a b line, s => do
    let v ← traced limit sc a s
    let w ← traced limit sc b s
    .quiet (located line (op.apply v w))
  | .vector ⟨es⟩ _, s => do
    let vs ← tracedAll limit sc es s
    .quiet (.ok (.vector vs.toArray))
  | .index (.vector es _) i line, s => do
    let v ← traced limit sc i s
    let k ← Traced.quiet (v.position line)
    match _h : element? es k with
    | some e => traced limit sc e s
    | none => .quiet (.error ⟨.indexOutOfBounds k es.size, line⟩)
  | .index a i line, s => do
    let v ← traced limit sc i s
    let k ← Traced.quiet (v.position line)
    let w ← traced limit sc a s
    .quiet (w.select line k)
  | .call f as line, s => do
    let v ← traced limit sc f s
    let c ← Traced.quiet (v.callee line)
    if as.length = c.params.length then
      let vs ← tracedAll limit sc as s
      if s.depth < limit then
        .entering ⟨s.depth + 1, line⟩ (traced limit (c.inside vs s).1 c.body (c.inside vs s).2)
      else .quiet (.error ⟨.callDepth limit, line⟩)
    else .quiet (.error ⟨.argumentCount c.params.length as.length, line⟩)
termination_by e s => (limit - s.depth, sizeOf e)
decreasing_by
  all_goals try decreasing_tactic
  have := Array.sizeOf_lt_of_mem (mem_of_element? _h)
  decreasing_tactic

def tracedAll (limit : Nat) (sc : Scope) : List Expr → State → Traced (List Value)
  | [], _ => .quiet (.ok [])
  | e :: es, s => do
    let v ← traced limit sc e s
    let vs ← tracedAll limit sc es s
    .quiet (.ok (v :: vs))
termination_by es s => (limit - s.depth, sizeOf es)

end

namespace Traced

variable {limit : Nat} {α β : Type}

def cut (limit : Nat) (t : Traced α) : Outcome α :=
  match t.activations.find? (limit < ·.active) with
  | some a => .error ⟨.callDepth limit, a.line⟩
  | none => t.result

@[simp] lemma cut_quiet (r : Outcome α) : (quiet r).cut limit = r := rfl

@[simp] lemma cut_bind (t : Traced α) (f : α → Traced β) :
    (t >>= f).cut limit = t.cut limit >>= fun a => (f a).cut limit := by
  obtain ⟨r, as⟩ := t
  change (andThen ⟨r, as⟩ f).cut limit = _
  cases r with
  | error e => simp only [andThen, cut]; split <;> rfl
  | ok a =>
    simp only [andThen, cut, List.find?_append]
    cases as.find? (limit < ·.active) <;> rfl

lemma cut_entering_of_lt {a : Activation} (h : limit < a.active) (t : Traced α) :
    (entering a t).cut limit = .error ⟨.callDepth limit, a.line⟩ := by
  simp [cut, entering, h]

lemma cut_entering_of_le {a : Activation} (h : a.active ≤ limit) (t : Traced α) :
    (entering a t).cut limit = t.cut limit := by
  simp [cut, entering, Nat.not_lt.2 h]

end Traced

variable {limit low : Nat} {sc : Scope}

lemma cut_tracedAll (es : List Expr) (s : State)
    (h : ∀ e ∈ es, (traced limit sc e s).cut low = outcome low sc e s) :
    (tracedAll limit sc es s).cut low = es.mapM fun e => outcome low sc e s := by
  induction es with
  | nil => rw [tracedAll]; rfl
  | cons e es ih =>
    rw [tracedAll, List.mapM_cons, Traced.cut_bind, h e List.mem_cons_self]
    simp only [Traced.cut_bind, Traced.cut_quiet, ih fun a ha => h a (List.mem_cons_of_mem e ha)]
    rfl

theorem cut_traced (hl : low ≤ limit) (e : Expr) (s : State) (hs : s.depth ≤ low) :
    (traced limit sc e s).cut low = outcome low sc e s := by
  obtain ⟨d, hd⟩ : ∃ d, s.depth = d := ⟨_, rfl⟩
  induction d, e using call_induction limit generalizing sc s with
  | literal d v line => simp [traced]
  | identifier d x line => simp [traced]
  | negate d a line ih => simp [traced, @ih sc s hs hd]
  | binary d op a b line iha ihb => simp [traced, @iha sc s hs hd, @ihb sc s hs hd]
  | vector d es line ih =>
    obtain ⟨es⟩ := es
    simp [traced, cut_tracedAll es s fun e he => @ih e he sc s hs hd]
  | element d es l i line ihi ih =>
    rw [traced, outcome_element, Traced.cut_bind, @ihi sc s hs hd]
    congr 1
    funext v
    rw [Traced.cut_bind, Traced.cut_quiet]
    congr 1
    funext k
    cases he : element? es k with
    | some e => exact @ih e (Array.mem_toList_iff.2 (mem_of_element? he)) sc s hs hd
    | none => rfl
  | index d a i line hn ihi iha =>
    rw [traced, outcome_index a i line s hn]
    · simp [@ihi sc s hs hd, @iha sc s hs hd]
    · exact hn
  | call d f as line ihf ihas ihb =>
    rw [traced, outcome_call, Traced.cut_bind, @ihf sc s hs hd]
    congr 1
    funext v
    rw [Traced.cut_bind, Traced.cut_quiet]
    congr 1
    funext c
    split
    · rw [Traced.cut_bind, cut_tracedAll as s fun a ha => @ihas a ha sc s hs hd]
      congr 1
      funext vs
      by_cases hlow : s.depth < low
      · rw [if_pos (by omega), if_pos hlow, Traced.cut_entering_of_le hlow]
        exact ihb (by omega) c.body _ hlow (congrArg (· + 1) hd)
      · rw [if_neg hlow]
        split
        · exact Traced.cut_entering_of_lt (by dsimp only; omega) _
        · rw [Traced.cut_quiet, show low = limit by omega]
    · rfl

/-- The bodies entered inside `d` others, nested and one after another. -/
inductive Nested (limit : Nat) : Nat → List Activation → Prop
  | nil {d} : Nested limit d []
  | append {d as bs} : Nested limit d as → Nested limit d bs → Nested limit d (as ++ bs)
  | body {d line as} : d < limit → Nested limit (d + 1) as → Nested limit d (⟨d + 1, line⟩ :: as)

lemma Nested.le_limit {d : Nat} {as : List Activation} (h : Nested limit d as) :
    ∀ a ∈ as, a.active ≤ limit := by
  induction h with
  | nil => simp
  | append _ _ iha ihb =>
    intro a ha
    exact (List.mem_append.1 ha).elim (iha a) (ihb a)
  | body hd _ ih =>
    intro a ha
    rcases List.mem_cons.1 ha with rfl | ha
    · exact hd
    · exact ih a ha

lemma Nested.active_eq {d : Nat} {as : List Activation} {a : Activation} (h : Nested limit d as)
    (hd : d ≤ low) (ha : as.find? (low < ·.active) = some a) : a.active = low + 1 := by
  induction h with
  | nil => cases ha
  | @append d as bs _ _ iha ihb =>
    rw [List.find?_append] at ha
    cases has : as.find? (low < ·.active) with
    | none => exact ihb hd (by simpa [has] using ha)
    | some b => exact iha hd (by simpa [has] using ha)
  | @body d line as _ _ ih =>
    by_cases hlow : low < d + 1
    · simp only [List.find?_cons, hlow, decide_true, Option.some.injEq] at ha
      subst ha
      dsimp only
      omega
    · have hd : d + 1 ≤ low := Nat.not_lt.1 hlow
      have has : as.find? (low < ·.active) = some a := by
        simpa [List.find?_cons, hlow] using ha
      exact ih hd has

lemma nested_bind {α β : Type} {d : Nat} {t : Traced α} {f : α → Traced β}
    (ht : Nested limit d t.activations) (hf : ∀ a, Nested limit d (f a).activations) :
    Nested limit d (t >>= f).activations := by
  obtain ⟨r, as⟩ := t
  change Nested limit d (Traced.andThen ⟨r, as⟩ f).activations
  cases r with
  | ok a => exact .append ht (hf a)
  | error e => exact ht

lemma nested_tracedAll (es : List Expr) (s : State)
    (h : ∀ e ∈ es, Nested limit s.depth (traced limit sc e s).activations) :
    Nested limit s.depth (tracedAll limit sc es s).activations := by
  induction es with
  | nil => rw [tracedAll]; exact .nil
  | cons e es ih =>
    rw [tracedAll]
    refine nested_bind (h e List.mem_cons_self) fun v => ?_
    exact nested_bind (ih fun a ha => h a (List.mem_cons_of_mem e ha)) fun vs => .nil

theorem nested_traced (e : Expr) (s : State) :
    Nested limit s.depth (traced limit sc e s).activations := by
  obtain ⟨d, hd⟩ : ∃ d, s.depth = d := ⟨_, rfl⟩
  induction d, e using call_induction limit generalizing sc s with
  | literal d v line => rw [traced]; exact .nil
  | identifier d x line => rw [traced]; exact .nil
  | negate d a line ih => rw [traced]; exact nested_bind (ih s hd) fun v => .nil
  | binary d op a b line iha ihb =>
    rw [traced]
    exact nested_bind (iha s hd) fun v => nested_bind (ihb s hd) fun w => .nil
  | vector d es line ih =>
    obtain ⟨es⟩ := es
    rw [traced]
    exact nested_bind (nested_tracedAll es s fun e he => ih e he s hd) fun vs => .nil
  | element d es l i line ihi ih =>
    rw [traced]
    refine nested_bind (ihi s hd) fun v => nested_bind .nil fun k => ?_
    split
    · rename_i e he
      exact ih e (Array.mem_toList_iff.2 (mem_of_element? he)) s hd
    · exact .nil
  | index d a i line hn ihi iha =>
    rw [traced]
    · refine nested_bind (ihi s hd) fun v => nested_bind .nil fun k => ?_
      exact nested_bind (iha s hd) fun w => .nil
    · exact hn
  | call d f as line ihf ihas ihb =>
    rw [traced]
    refine nested_bind (ihf s hd) fun v => nested_bind .nil fun c => ?_
    split
    · refine nested_bind (nested_tracedAll as s fun a ha => ihas a ha s hd) fun vs => ?_
      split
      · rename_i hl
        exact .body hl (ihb (hd ▸ hl) c.body (c.inside vs s).2 (congrArg (· + 1) hd))
      · exact .nil
    · exact .nil

theorem traced_result (e : Expr) (s : State) (hs : s.depth ≤ limit) :
    (traced limit sc e s).result = outcome limit sc e s := by
  rw [← cut_traced (Nat.le_refl limit) e s hs, Traced.cut, List.find?_eq_none.2]
  intro a ha
  simpa using (nested_traced e s).le_limit a ha

def Statement.activations (limit : Nat) (sc : Scope) : Statement → State → List Activation
  | .definition _, _ => []
  | .expression e _, s => (traced limit sc e s).activations

def activations (limit : Nat) (sc : Scope) : Program → State → List Activation
  | [], _ => []
  | st :: p, s =>
    st.activations limit sc s ++
      match evalStatement limit sc st s with
      | (.ok _, t) => activations limit sc p t
      | (.error _, _) => []

def peak (d : Nat) (as : List Activation) : Nat := (as.map (·.active)).foldr max d

lemma peak_le_iff {d n : Nat} {as : List Activation} :
    peak d as ≤ n ↔ d ≤ n ∧ ∀ a ∈ as, a.active ≤ n := by
  induction as with
  | nil => simp [peak]
  | cons a as ih =>
    simp only [peak, List.map_cons, List.foldr_cons, Nat.max_le, List.forall_mem_cons] at ih ⊢
    rw [ih]
    exact and_left_comm

lemma evalStatement_depth {st : Statement} {s t : State} {r : Outcome Value}
    (h : evalStatement limit sc st s = (r, t)) : t.depth = s.depth := by
  have hd : (evalStatement limit sc st s).2.depth = s.depth := by
    cases st with
    | definition d => rfl
    | expression e line => exact evalExpr_depth e s
  rwa [h] at hd

lemma nested_statement (st : Statement) (s : State) :
    Nested limit s.depth (st.activations limit sc s) := by
  cases st with
  | definition d => exact .nil
  | expression e line => exact nested_traced e s

lemma nested_activations (p : Program) (s : State) :
    Nested limit s.depth (activations limit sc p s) := by
  induction p generalizing s with
  | nil => exact .nil
  | cons st p ih =>
    refine .append (nested_statement st s) ?_
    split
    · rename_i v t h
      exact evalStatement_depth h ▸ ih t
    · exact .nil

lemma evalStatement_within (hl : low ≤ limit) (st : Statement) (s : State) (hs : s.depth ≤ low)
    (h : (st.activations limit sc s).find? (low < ·.active) = none) :
    evalStatement low sc st s = evalStatement limit sc st s := by
  cases st with
  | definition d => rfl
  | expression e line =>
    simp only [evalStatement, evalExpr_eq]
    have hlimit : s.depth ≤ limit := Nat.le_trans hs hl
    rw [← cut_traced hl e s hs, ← traced_result e s hlimit, Traced.cut]
    rw [Statement.activations] at h
    rw [h]

lemma evalStatement_beyond (hl : low ≤ limit) (st : Statement) (s : State) (hs : s.depth ≤ low)
    {a : Activation} (h : (st.activations limit sc s).find? (low < ·.active) = some a) :
    (evalStatement low sc st s).1 = .error ⟨.callDepth low, a.line⟩ := by
  cases st with
  | definition d => cases h
  | expression e line =>
    simp only [evalStatement, evalExpr_eq]
    rw [← cut_traced hl e s hs, Traced.cut]
    rw [Statement.activations] at h
    rw [h]

lemma evalStatements_within (hl : low ≤ limit) (p : Program) (v : Value) (s : State)
    (hs : s.depth ≤ low) (h : (activations limit sc p s).find? (low < ·.active) = none) :
    evalStatements low sc v p s = evalStatements limit sc v p s := by
  induction p generalizing v s with
  | nil => rfl
  | cons st p ih =>
    rw [activations, List.find?_append, Option.or_eq_none_iff] at h
    rw [evalStatements, evalStatements, evalStatement_within hl st s hs h.1]
    cases hst : evalStatement limit sc st s with
    | mk r t =>
      cases r with
      | error e => rfl
      | ok w =>
        have ht : t.depth ≤ low := (evalStatement_depth hst).le.trans hs
        have hp : (activations limit sc p t).find? (low < ·.active) = none := by
          simpa [hst] using h.2
        exact ih w t ht hp

lemma evalStatements_beyond (hl : low ≤ limit) (p : Program) (v : Value) (s : State)
    (hs : s.depth ≤ low) {a : Activation}
    (h : (activations limit sc p s).find? (low < ·.active) = some a) :
    (evalStatements low sc v p s).1 = .error ⟨.callDepth low, a.line⟩ := by
  induction p generalizing v s with
  | nil => cases h
  | cons st p ih =>
    rw [activations, List.find?_append] at h
    rw [evalStatements]
    cases hf : (st.activations limit sc s).find? (low < ·.active) with
    | some b =>
      obtain rfl : b = a := by simpa [hf] using h
      have hst := evalStatement_beyond hl st s hs hf
      split
      · rename_i w t hw
        simp [hw] at hst
      · rename_i e t he
        simpa [he] using hst
    | none =>
      rw [evalStatement_within hl st s hs hf]
      cases hst : evalStatement limit sc st s with
      | mk r t =>
        cases r with
        | error e => simp [hf, hst] at h
        | ok w =>
          have ht : t.depth ≤ low := (evalStatement_depth hst).le.trans hs
          have hp : (activations limit sc p t).find? (low < ·.active) = some a := by
            simpa [hf, hst] using h
          exact ih w t ht hp

theorem evalProgram_of_le_limit {low limit : Nat} (hl : low ≤ limit) (sc : Scope) (p : Program)
    (s : State) (hs : s.depth ≤ low) :
    (peak s.depth (activations limit sc p s) ≤ low →
      evalProgram low sc p s = evalProgram limit sc p s) ∧
    (low < peak s.depth (activations limit sc p s) →
      ∃ a, (activations limit sc p s).find? (low < ·.active) = some a ∧ a.active = low + 1 ∧
        (evalProgram low sc p s).1 = .error ⟨.callDepth low, a.line⟩) ∧
    ((∀ line, (evalProgram low sc p s).1 ≠ .error ⟨.callDepth low, line⟩) →
      evalProgram limit sc p s = evalProgram low sc p s) := by
  cases h : (activations limit sc p s).find? (low < ·.active) with
  | none =>
    have he := evalStatements_within hl p (.integer 0) s hs h
    have hp : peak s.depth (activations limit sc p s) ≤ low :=
      peak_le_iff.2 ⟨hs, by simpa using h⟩
    exact ⟨fun _ => he, fun hlow => absurd hp (Nat.not_le.2 hlow), fun _ => he.symm⟩
  | some a =>
    have he := evalStatements_beyond hl p (.integer 0) s hs h
    have ha := (nested_activations p s).active_eq hs h
    refine ⟨fun hp => ?_, fun _ => ⟨a, rfl, ha, he⟩, fun hne => absurd he (hne a.line)⟩
    have := (peak_le_iff.1 hp).2 a (List.mem_of_find?_eq_some h)
    omega

def relay : Program :=
  [.definition ⟨"f", ["n"], .call (.identifier "g" 1) [.identifier "n" 1] 1, 1⟩,
   .definition ⟨"g", ["n"], .identifier "n" 2, 2⟩,
   .expression (.call (.identifier "f" 3) [.literal (.integer 7) 3] 3) 3]

theorem evalProgram_relay :
    (1 ≤ 2 ∧ (⟨Store.empty.root.2, 0⟩ : State).depth ≤ 1) ∧
      (evalProgram 1 Store.empty.root.1 relay ⟨Store.empty.root.2, 0⟩).1 =
        .error ⟨.callDepth 1, 1⟩ := by
  have hl : 1 ≤ 2 := by decide
  have hs : (⟨Store.empty.root.2, 0⟩ : State).depth ≤ 1 := by decide
  have ha : activations 2 Store.empty.root.1 relay ⟨Store.empty.root.2, 0⟩ =
      [⟨1, 3⟩, ⟨2, 1⟩] := by cbv
  obtain ⟨a, hf, _, he⟩ := (evalProgram_of_le_limit hl Store.empty.root.1 relay _ hs).2.1 (by
    rw [ha]; decide)
  rw [ha] at hf
  obtain rfl : ⟨2, 1⟩ = a := Option.some.inj hf
  exact ⟨⟨hl, hs⟩, he⟩

end ExprLang
