import ExprLang.Proofs.Evaluation.Related
import ExprLang.Proofs.TwoLevel.Basic

namespace ExprLang

namespace TwoLevel

inductive Similar (f : Nat) : ExprLang.Value → Value → Prop
  | integer (n) : Similar f (.integer n) (.integer n)
  | vector {vs ws} (size_eq : vs.size = ws.size)
      (element : ∀ i (hv : i < vs.size) (hw : i < ws.size), Similar f vs[i] ws[i]) :
      Similar f (.vector vs) (.vector ws)
  | function (c) : c.scope = ⟨f, []⟩ → Similar f (.function c) (.function ⟨c.name, c.params, c.body⟩)

variable {f line : Nat} {v w : ExprLang.Value} {v' w' : Value}

lemma Similar.shape_eq (h : Similar f v v') : v.shape = v'.shape := by
  cases h with
  | integer n => rfl
  | vector hs _ => exact congrArg _ hs
  | function c _ => rfl

lemma similar_literal (l : Literal) : Similar f l.value (.ofLiteral l) := by
  cases l <;> exact .integer _

lemma Similar.negate (h : Similar f v v') :
    Agree (Similar f) (located line v.negate) (v'.negate line) := by
  have hs := h.shape_eq
  cases h with
  | integer n => exact agree_located line _ .integer
  | vector => simp only [ExprLang.Value.negate, located_error, Value.negate, hs]; exact .error _
  | function c => exact .error _

lemma Similar.apply (op : BinaryOp) (hv : Similar f v v') (hw : Similar f w w') :
    Agree (Similar f) (located line (op.apply v w)) (v'.apply line op w') := by
  have hsv := hv.shape_eq
  have hsw := hw.shape_eq
  cases hv <;> cases hw
  case integer.integer a b => exact agree_located line _ .integer
  all_goals
    simp only [BinaryOp.apply, located_error, Value.apply, hsv, hsw]
    exact .error _

lemma Similar.position (h : Similar f v v') : Agree Eq (v.position line) (v'.position line) := by
  have hs := h.shape_eq
  cases h with
  | integer n => exact .ok rfl
  | vector => simp only [ExprLang.Value.position, located_error, Value.position, hs]; exact .error _
  | function c => exact .error _

lemma Similar.select (k : Int64) (h : Similar f v v') :
    Agree (Similar f) (v.select line k) (v'.select line k) := by
  cases h with
  | integer n => exact .error _
  | @vector vs ws hs he =>
    simp only [ExprLang.Value.select, Value.select, element?, hs]
    cases hk : offset? k ws.size with
    | none => exact .error _
    | some j =>
      have hj := (offset?_eq_some_iff.1 hk).2
      have hj' : j < vs.size := hs ▸ hj
      simp only [Option.bind_some, Array.getElem?_eq_getElem hj, Array.getElem?_eq_getElem hj']
      exact .ok (he j hj' hj)
  | function c => exact .error _

def Captures (f : Nat) (c : Closure) (g : Function) : Prop :=
  c.scope = ⟨f, []⟩ ∧ g = ⟨c.name, c.params, c.body⟩

lemma Similar.callee (h : Similar f v v') : Agree (Captures f) (v.callee line) (v'.callee line) := by
  have hs := h.shape_eq
  cases h with
  | integer n => exact .error _
  | vector => simp only [ExprLang.Value.callee, located_error, Value.callee, hs]; exact .error _
  | function c hc => exact .ok ⟨hc, rfl⟩

structure Models (f : Nat) (globals : Globals) (locals : Locals) (sc : Scope) (s : State) : Prop where
  frame_lt : f < s.store.frames.size
  global (x : String) :
    Option.Rel (Similar f) (s.store.frame f)[x]? ((globals.lookup x).map .function)
  name (x : String) :
    Option.Rel (Similar f) (s.store.lookup sc x) ((locals.lookup x).or ((globals.lookup x).map .function))

variable {limit : Nat} {sc : Scope} {s : State} {globals : Globals} {locals : Locals}

lemma Models.resolve (h : Models f globals locals sc s) (x : String) (line : Nat) :
    Agree (Similar f) (s.store.resolve sc x line) (resolve globals locals x line) := by
  have hx := h.name x
  rw [Store.resolve, TwoLevel.resolve]
  cases hl : locals.lookup x with
  | some v =>
    rw [hl] at hx
    cases hv : s.store.lookup sc x with
    | none => rw [hv] at hx; cases hx
    | some w => rw [hv] at hx; cases hx with | some hx => exact .ok hx
  | none =>
    rw [hl, Option.none_or] at hx
    cases hv : s.store.lookup sc x <;> cases hg : globals.lookup x <;> rw [hv, hg] at hx
    case none.none => exact .error _
    case some.some => cases hx with | some hx => exact .ok hx
    all_goals cases hx

lemma Models.inside (h : Models f globals locals sc s) {c : Closure} (hc : c.scope = ⟨f, []⟩)
    {vs : List ExprLang.Value} {ws : List Value} (hv : List.Forall₂ (Similar f) vs ws) :
    Models f globals (.ofArguments c.params ws) (c.inside vs s).1 (c.inside vs s).2 := by
  have hframe (g : Nat) : (c.inside vs s).2.store.frame g =
      if g = s.store.frames.size then Bindings.ofArguments c.params vs else s.store.frame g :=
    s.store.frame_child c.scope _ g
  have hchain : (c.inside vs s).1.chain = [s.store.frames.size, f] := by
    simp [Closure.inside, Store.child, Scope.chain, hc]
  have hne : f ≠ s.store.frames.size := Nat.ne_of_lt h.frame_lt
  refine ⟨?_, fun x => ?_, fun x => ?_⟩
  · have := h.frame_lt
    simp only [Closure.inside, Store.child, Array.size_push]
    omega
  · rw [hframe, if_neg hne]
    exact h.global x
  · have hl : (c.inside vs s).2.store.lookup (c.inside vs s).1 x =
        ((Bindings.ofArguments c.params vs)[x]?).or (s.store.frame f)[x]? := by
      rw [Store.lookup, hchain]
      simp only [List.findSome?_cons, List.findSome?_nil, hframe, if_true, if_neg hne]
      cases (Bindings.ofArguments c.params vs)[x]? <;> cases (s.store.frame f)[x]? <;> rfl
    rw [hl, getElem?_ofArguments]
    exact rel_or (rel_lookup_zip hv c.params x) (h.global x)

lemma evalAll_eq_mapM (n : Nat) (es : List Expr) :
    evalAll limit globals n locals es = es.mapM fun e => eval limit globals n locals e := by
  induction es with
  | nil => rw [evalAll]; rfl
  | cons e es ih => rw [evalAll, List.mapM_cons, ih]; rfl

theorem agree_eval (e : Expr) (h : Models f globals locals sc s) :
    Agree (Similar f) (outcome limit sc e s) (eval limit globals s.depth locals e) := by
  obtain ⟨d, hd⟩ : ∃ d, s.depth = d := ⟨_, rfl⟩
  induction d, e using call_induction limit generalizing sc s locals with
  | literal d v line =>
    rw [outcome_literal, eval]
    exact .ok (similar_literal v)
  | identifier d x line =>
    rw [outcome_identifier, eval]
    exact h.resolve x line
  | negate d a line ih =>
    rw [outcome_negate, eval]
    exact (ih h hd).bind fun v w hv => hv.negate
  | binary d op a b line iha ihb =>
    rw [outcome_binary, eval]
    refine (iha h hd).bind fun v v' hv => ?_
    exact (ihb h hd).bind fun w w' hw => hv.apply op hw
  | vector d es line ih =>
    obtain ⟨es⟩ := es
    rw [outcome_vector, eval, evalAll_eq_mapM]
    refine (agree_mapM es fun e he => ih e he h hd).bind fun vs ws hvs => .ok (.vector ?_ ?_)
    · simpa using hvs.length_eq
    · intro i hi hj
      simpa using hvs.get (by simpa using hi) (by simpa using hj)
  | element d es l i line ihi ih =>
    rw [outcome_element, eval]
    refine (ihi h hd).bind fun v v' hv => hv.position.bind ?_
    rintro k _ rfl
    cases he : element? es k with
    | none => exact .error _
    | some e => exact ih e (Array.mem_toList_iff.2 (mem_of_element? he)) h hd
  | index d a i line hn ihi iha =>
    rw [outcome_index a i line s hn, eval]
    · refine (ihi h hd).bind fun v v' hv => hv.position.bind ?_
      rintro k _ rfl
      exact (iha h hd).bind fun w w' hw => hw.select k
    · exact hn
  | call d g as line ihg ihas ihb =>
    rw [outcome_call, eval]
    simp only [evalAll_eq_mapM]
    refine (ihg h hd).bind fun v v' hv => hv.callee.bind ?_
    rintro c _ ⟨hc, rfl⟩
    dsimp only
    split
    · refine (agree_mapM as fun a ha => ihas a ha h hd).bind fun vs ws hvs => ?_
      split
      · rename_i hl
        exact ihb (hd ▸ hl) c.body (h.inside hc hvs) (congrArg (· + 1) hd)
      · exact .error _
    · exact .error _

lemma Models.outermost (hf : f < s.store.frames.size)
    (hg : ∀ x, Option.Rel (Similar f) (s.store.frame f)[x]? ((globals.lookup x).map .function)) :
    Models f globals [] ⟨f, []⟩ s := by
  refine ⟨hf, hg, fun x => ?_⟩
  have hl : s.store.lookup ⟨f, []⟩ x = (s.store.frame f)[x]? := by
    simp only [Store.lookup, Scope.chain, List.findSome?_cons, List.findSome?_nil]
    cases (s.store.frame f)[x]? <;> rfl
  rw [hl]
  exact hg x

lemma Models.define (h : Models f globals [] ⟨f, []⟩ s) (d : Definition) {c : Closure}
    (hc : c.scope = ⟨f, []⟩) (n : Nat) :
    Models f ((d.name, ⟨c.name, c.params, c.body⟩) :: globals) [] ⟨f, []⟩
      ⟨({ s.store with closures := n }).define ⟨f, []⟩ d.name (.function c), s.depth⟩ := by
  refine .outermost (by simpa [Store.define] using h.frame_lt) fun x => ?_
  rw [Store.frame_define _ _ _ _ _ h.frame_lt, if_pos rfl, Std.TreeMap.getElem?_insert,
    List.lookup_cons]
  by_cases hx : x = d.name
  · simpa [hx] using Similar.function c hc
  · have hb : (x == d.name) = false := beq_eq_false_iff_ne.2 hx
    simpa [hb, Ne.symm hx, Store.frame] using h.global x

theorem agree_evalStatements (p : Program) (hv : Similar f v v') (h : Models f globals [] ⟨f, []⟩ s)
    (hs : s.depth = 0) :
    Agree (Similar f) (ExprLang.evalStatements limit ⟨f, []⟩ v p s).1
      (evalStatements limit globals v' p) := by
  induction p generalizing v v' globals s with
  | nil => exact .ok hv
  | cons st p ih =>
    cases st with
    | definition d =>
      let c : Closure := ⟨s.store.closures, d.name, d.params, d.body, ⟨f, []⟩⟩
      exact ih (.function c rfl) (h.define d (c := c) rfl _) hs
    | expression e line =>
      have he : Agree _ (outcome limit _ e s) _ := agree_eval e h
      rw [hs] at he
      rw [ExprLang.evalStatements, ExprLang.evalStatement, evalExpr_eq, evalStatements]
      generalize outcome limit ⟨f, []⟩ e s = r at he ⊢
      generalize eval limit globals 0 [] e = q at he ⊢
      cases he with
      | ok hw => exact ih hw h hs
      | error err => exact .error err

mutual

def erase : ExprLang.Value → Value
  | .integer n => .integer n
  | .vector ⟨vs⟩ => .vector ⟨eraseAll vs⟩
  | .function c => .function ⟨c.name, c.params, c.body⟩

def eraseAll : List ExprLang.Value → List Value
  | [] => []
  | v :: vs => erase v :: eraseAll vs

end

lemma eraseAll_eq_map (vs : List ExprLang.Value) : eraseAll vs = vs.map erase := by
  induction vs with
  | nil => rfl
  | cons v vs ih => simp [eraseAll, ih]

lemma erase_vector (vs : Array ExprLang.Value) : erase (.vector vs) = .vector (vs.map erase) := by
  obtain ⟨vs⟩ := vs
  simp [erase, eraseAll_eq_map]

lemma Similar.erase_eq (h : Similar f v v') : erase v = v' := by
  induction h with
  | integer n => rfl
  | vector hs _ ih =>
    rw [erase_vector]
    congr 1
    exact Array.ext (by simpa using hs) fun i hi hj => by
      simpa using ih i (by simpa using hi) hj
  | function c _ => rfl

lemma Agree.map_erase {r : Outcome ExprLang.Value} {q : Outcome Value} (h : Agree (Similar f) r q) :
    r.map erase = q := by
  cases h with
  | ok h => rw [Except.map, h.erase_eq]
  | error e => rfl

theorem evalProgram_root (limit : Nat) (p : Program) (s : Store) :
    (ExprLang.evalProgram limit s.root.1 p ⟨s.root.2, 0⟩).1.map erase = evalProgram limit p := by
  have hf : s.frames.size < (⟨s.root.2, 0⟩ : State).store.frames.size := by simp [Store.root]
  have hg (x : String) : Option.Rel (Similar s.frames.size)
      ((⟨s.root.2, 0⟩ : State).store.frame s.frames.size)[x]? ((List.lookup x []).map .function) := by
    simp [Store.root, Store.frame]
  exact Agree.map_erase (agree_evalStatements p (.integer 0) (.outermost hf hg) rfl)

end TwoLevel

end ExprLang
