import ExprLang.Eval.Program
import ExprLang.Proofs.Evaluation.Purity
import Mathlib.Data.List.Permutation

/-! What a program does to the store. -/

namespace ExprLang

def Statement.definition? : Statement → Option Definition
  | definition d => some d
  | expression _ _ => none

def definitions (p : Program) : List Definition := p.filterMap Statement.definition?

def closures (sc : Scope) (n : Nat) : List Definition → List Closure
  | [] => []
  | d :: ds => ⟨n, d.name, d.params, d.body, sc⟩ :: closures sc (n + 1) ds

def Bindings.overwrite (b : Bindings) (cs : List Closure) : Bindings :=
  cs.foldl (fun b c => b.insert c.name (.function c)) b

def State.after (s : State) (sc : Scope) (p : Program) : State :=
  let ds := definitions p
  ⟨⟨s.store.frames.modify sc.frame (·.overwrite (closures sc s.store.closures ds)),
    s.store.closures + ds.length⟩, s.depth⟩

variable {limit : Nat} {sc : Scope}

lemma closures_append (sc : Scope) (n : Nat) (ds es : List Definition) :
    closures sc n (ds ++ es) = closures sc n ds ++ closures sc (n + ds.length) es := by
  induction ds generalizing n with
  | nil => rfl
  | cons d ds ih =>
    have hn : n + (d :: ds).length = n + 1 + ds.length := by simp; omega
    rw [List.cons_append, closures, closures, ih, hn, List.cons_append]

lemma definitions_append (p q : Program) : definitions (p ++ q) = definitions p ++ definitions q :=
  List.filterMap_append

lemma overwrite_append (b : Bindings) (cs ds : List Closure) :
    b.overwrite (cs ++ ds) = (b.overwrite cs).overwrite ds :=
  List.foldl_append

lemma getElem?_overwrite (b : Bindings) (cs : List Closure) (x : String) :
    (b.overwrite cs)[x]? = ((cs.map fun c => (c.name, Value.function c)).reverse.lookup x).or b[x]? := by
  rw [← getElem?_foldl_insert, Bindings.overwrite, List.foldl_map]

lemma modify_modify {α : Type} (xs : Array α) (i : Nat) (f g : α → α) :
    (xs.modify i f).modify i g = xs.modify i fun x => g (f x) := by
  apply Array.ext_getElem?
  intro j
  rw [Array.getElem?_modify, Array.getElem?_modify, Array.getElem?_modify]
  split
  · rw [Option.map_map]
    rfl
  · rfl

lemma after_append (s : State) (sc : Scope) (p q : Program) :
    (s.after sc p).after sc q = s.after sc (p ++ q) := by
  simp only [State.after, definitions_append, closures_append, overwrite_append, List.length_append,
    modify_modify, Nat.add_assoc]

@[simp] lemma after_nil (s : State) (sc : Scope) : s.after sc [] = s := by
  have hm : s.store.frames.modify sc.frame (fun b => b) = s.store.frames := by
    apply Array.ext_getElem?
    intro j
    rw [Array.getElem?_modify]
    split <;> simp
  exact congrArg (fun frames => (⟨⟨frames, s.store.closures⟩, s.depth⟩ : State)) hm

lemma after_expression (s : State) (sc : Scope) (e : Expr) (line : Nat) :
    s.after sc [.expression e line] = s :=
  after_nil s sc

lemma evalStatement_snd (st : Statement) (s : State) :
    (evalStatement limit sc st s).2 = s.after sc [st] := by
  cases st with
  | definition d => rfl
  | expression e line => exact (evalExpr_snd e s).trans (after_expression s sc e line).symm

lemma evalStatements_append (limit : Nat) (sc : Scope) (p q : Program) (v : Value) (s : State) :
    evalStatements limit sc v (p ++ q) s =
      match evalStatements limit sc v p s with
      | (.ok w, t) => evalStatements limit sc w q t
      | (.error e, t) => (.error e, t) := by
  induction p generalizing v s with
  | nil => rfl
  | cons st p ih =>
    rw [List.cons_append, evalStatements, evalStatements]
    rcases evalStatement limit sc st s with ⟨e | w, t⟩
    · rfl
    · exact ih w t

lemma evalStatements_of_ne_nil {p : Program} (hp : p ≠ []) (v w : Value) (s : State) :
    evalStatements limit sc v p s = evalStatements limit sc w p s := by
  cases p with
  | nil => exact (hp rfl).elim
  | cons st p => rfl

inductive Yields (limit : Nat) (sc : Scope) (s : State) : Program → Value → Prop
  | nil : Yields limit sc s [] (.integer 0)
  | concat {p st u v} : Yields limit sc s p u →
      (evalStatement limit sc st (s.after sc p)).1 = .ok v → Yields limit sc s (p ++ [st]) v

inductive Halts (limit : Nat) (sc : Scope) (s : State) : Value → Program → Outcome Value → Prop
  | finished {v} : Halts limit sc s v [] (.ok v)
  | failed {v e line later err} : outcome limit sc e s = .error err →
      Halts limit sc s v (.expression e line :: later) (.error err)

theorem evalStatements_split (p : Program) {prior : Program} {v : Value} {s : State}
    (h : Yields limit sc s prior v) :
    ∃ done rest w, p = done ++ rest ∧ Yields limit sc s (prior ++ done) w ∧
      Halts limit sc (s.after sc (prior ++ done)) w rest
        (evalStatements limit sc v p (s.after sc prior)).1 ∧
      (evalStatements limit sc v p (s.after sc prior)).2 = s.after sc (prior ++ done) := by
  induction p generalizing prior v with
  | nil =>
    have hp : prior ++ [] = prior := List.append_nil prior
    exact ⟨[], [], v, rfl, hp.symm ▸ h, .finished, hp.symm ▸ rfl⟩
  | cons st p ih =>
    have hs : (evalStatement limit sc st (s.after sc prior)).2 = s.after sc (prior ++ [st]) := by
      rw [evalStatement_snd, after_append]
    rw [evalStatements]
    cases hst : evalStatement limit sc st (s.after sc prior) with
    | mk r t =>
      obtain rfl : t = s.after sc (prior ++ [st]) := by rw [← hs, hst]
      cases r with
      | ok u =>
        have hu : Yields limit sc s (prior ++ [st]) u := h.concat (congrArg Prod.fst hst)
        obtain ⟨done, rest, w, rfl, hw, he, ht⟩ := ih hu
        rw [List.append_assoc, List.singleton_append] at hw he ht
        exact ⟨st :: done, rest, w, rfl, hw, he, ht⟩
      | error err =>
        cases st with
        | definition d => cases hst
        | expression e line =>
          have he : outcome limit sc e (s.after sc prior) = .error err := congrArg Prod.fst hst
          have hp : s.after sc (prior ++ [.expression e line]) = s.after sc prior := by
            rw [← after_append, after_expression]
          refine ⟨[], .expression e line :: p, v, rfl, ?_, ?_, ?_⟩
          · rwa [List.append_nil]
          · rw [List.append_nil]
            exact .failed he
          · rw [List.append_nil]
            exact hp

lemma frame_after_ite (s : State) (sc : Scope) (p : Program) (f : Nat) :
    (s.after sc p).store.frame f = if f = sc.frame ∧ f < s.store.frames.size
      then (s.store.frame f).overwrite (closures sc s.store.closures (definitions p))
      else s.store.frame f := by
  simp only [State.after, Store.frame, Array.getD_eq_getD_getElem?, Array.getElem?_modify]
  by_cases hf : sc.frame = f
  · subst hf
    by_cases hn : sc.frame < s.store.frames.size <;> simp [hn]
  · simp [hf, Ne.symm hf]

lemma frame_after (s : State) (sc : Scope) (p : Program) (f : Nat) (h : sc.frame < s.store.frames.size) :
    (s.after sc p).store.frame f = if f = sc.frame
      then (s.store.frame f).overwrite (closures sc s.store.closures (definitions p))
      else s.store.frame f := by
  have hf : (f = sc.frame ∧ f < s.store.frames.size) ↔ f = sc.frame := and_iff_left_of_imp (· ▸ h)
  rw [frame_after_ite, if_congr hf rfl rfl]

theorem evalProgram_effect (limit : Nat) (sc : Scope) (p : Program) (s : State)
    (hsc : sc.frame < s.store.frames.size) :
    ∃ done rest v, p = done ++ rest ∧ Yields limit sc s done v ∧
      Halts limit sc (s.after sc done) v rest (evalProgram limit sc p s).1 ∧
      (evalProgram limit sc p s).2.store.frame sc.frame = (s.store.frame sc.frame).overwrite
        (closures sc s.store.closures (definitions done)) ∧
      (∀ f, f ≠ sc.frame → (evalProgram limit sc p s).2.store.frame f = s.store.frame f) ∧
      (evalProgram limit sc p s).2.store.frames.size = s.store.frames.size ∧
      (evalProgram limit sc p s).2.depth = s.depth := by
  have hnil : Yields limit sc s [] (.integer 0) := .nil
  obtain ⟨done, rest, v, hp, hv, hr, ht⟩ := evalStatements_split p hnil
  rw [after_nil, List.nil_append] at hr ht
  have hs : (evalProgram limit sc p s).2 = s.after sc done := ht
  rw [hs]
  refine ⟨done, rest, v, hp, hv, hr, ?_, fun f hf => ?_, ?_, rfl⟩
  · rw [frame_after s sc done _ hsc, if_pos rfl]
  · rw [frame_after s sc done f hsc, if_neg hf]
  · exact Array.size_modify

def interrupted : Program :=
  [.definition ⟨"f", ["x"], .identifier "x" 1, 1⟩,
   .definition ⟨"f", [], .binary .div (.literal (.integer 1) 2) (.literal (.integer 0) 2) 2, 2⟩,
   .expression (.call (.identifier "f" 3) [] 3) 3,
   .definition ⟨"g", [], .literal (.integer 4) 4, 4⟩]

theorem evalProgram_effect_interrupted :
    Store.empty.root.1.frame < (⟨Store.empty.root.2, 0⟩ : State).store.frames.size ∧
      ∃ done rest v, interrupted = done ++ rest ∧
        Yields 5 Store.empty.root.1 ⟨Store.empty.root.2, 0⟩ done v ∧
        Halts 5 Store.empty.root.1 (State.after ⟨Store.empty.root.2, 0⟩ Store.empty.root.1 done) v rest
          (.error ⟨.divisionByZero, 2⟩) := by
  have hsc : Store.empty.root.1.frame < (⟨Store.empty.root.2, 0⟩ : State).store.frames.size := by decide
  have hr : (evalProgram 5 Store.empty.root.1 interrupted ⟨Store.empty.root.2, 0⟩).1 =
      .error ⟨.divisionByZero, 2⟩ := by cbv
  obtain ⟨done, rest, v, hp, hv, he, _⟩ := evalProgram_effect 5 Store.empty.root.1 interrupted _ hsc
  exact ⟨hsc, done, rest, v, hp, hv, hr ▸ he⟩

end ExprLang
