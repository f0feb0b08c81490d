import ExprLang.Proofs.Evaluation.Related
import ExprLang.Proofs.Identity.Equality

/-! Two stores that hold the same but for the numbers of functions. -/

namespace ExprLang

variable {R : Closure → Closure → Prop} {v w v' w' : Value} {line : Nat}

namespace Value

lemma alike_literal (l : Literal) : Alike R l.value l.value := by
  cases l <;> exact .integer _

variable (hR : ∀ c d, R c d → d = { c with number := d.number })
include hR

lemma Alike.shape_eq (h : Alike R v w) : v.shape = w.shape := by
  cases h with
  | integer n => rfl
  | vector hs _ => exact congrArg Shape.vector hs
  | @function c d h =>
    have hd : d = { c with number := d.number } := hR c d h
    rw [hd]
    rfl

lemma Alike.negate (h : Alike R v w) :
    Agree (Alike R) (located line v.negate) (located line w.negate) := by
  have hs := h.shape_eq hR
  cases h with
  | integer n => exact agree_located line _ .integer
  | vector => simp only [Value.negate, located_error, hs]; exact .error _
  | function => simp only [Value.negate, located_error, hs]; exact .error _

lemma Alike.apply (op : BinaryOp) (hv : Alike R v v') (hw : Alike R w w') :
    Agree (Alike R) (located line (op.apply v w)) (located line (op.apply v' w')) := by
  have hsv := hv.shape_eq hR
  have hsw := hw.shape_eq hR
  cases hv <;> cases hw
  case integer.integer a b => exact agree_located line _ .integer
  all_goals
    simp only [BinaryOp.apply, located_error, hsv, hsw]
    exact .error _

lemma Alike.position (h : Alike R v w) : Agree Eq (v.position line) (w.position line) := by
  have hs := h.shape_eq hR
  cases h with
  | integer n => exact .ok rfl
  | vector => simp only [Value.position, located_error, hs]; exact .error _
  | function => simp only [Value.position, located_error, hs]; exact .error _

lemma Alike.select (k : Int64) (h : Alike R v w) :
    Agree (Alike R) (v.select line k) (w.select line k) := by
  have hs := h.shape_eq hR
  cases h with
  | integer n => exact .error _
  | @vector vs ws hsize he =>
    simp only [Value.select, element?, hsize]
    cases hk : offset? k ws.size with
    | none => exact .error _
    | some j =>
      have hj := (offset?_eq_some_iff.1 hk).2
      have hj' : j < vs.size := hsize ▸ hj
      simp only [Option.bind_some, Array.getElem?_eq_getElem hj, Array.getElem?_eq_getElem hj']
      exact .ok (he j hj' hj)
  | function => simp only [Value.select, located_error, hs]; exact .error _

lemma Alike.callee (h : Alike R v w) : Agree R (v.callee line) (w.callee line) := by
  have hs := h.shape_eq hR
  cases h with
  | integer n => exact .error _
  | vector => simp only [Value.callee, located_error, hs]; exact .error _
  | function h => exact .ok h

end Value

structure Store.Twin (R : Closure → Closure → Prop) (s t : Store) : Prop where
  size_eq : t.frames.size = s.frames.size
  bindings (f : Nat) (x : String) : Option.Rel (Value.Alike R) (s.frame f)[x]? (t.frame f)[x]?

variable {limit : Nat} {sc : Scope} {s t : State}

lemma agree_resolve {s t : Store} {sc sc' : Scope} {x : String} (line : Nat)
    (h : Option.Rel (Value.Alike R) (s.lookup sc x) (t.lookup sc' x)) :
    Agree (Value.Alike R) (s.resolve sc x line) (t.resolve sc' x line) := by
  rw [Store.resolve, Store.resolve]
  generalize s.lookup sc x = a at h ⊢
  generalize t.lookup sc' x = b at h ⊢
  cases h with
  | some hv => exact .ok hv
  | none => exact .error _

lemma Store.Twin.inside (h : s.store.Twin R t.store) (c : Closure) (n : Nat) {vs ws : List Value}
    (hv : List.Forall₂ (Value.Alike R) vs ws) :
    (c.inside vs s).2.store.Twin R (({ c with number := n } : Closure).inside ws t).2.store := by
  refine ⟨?_, fun f x => ?_⟩
  · rw [size_inside, size_inside, h.size_eq]
  · rw [getElem?_inside, getElem?_inside, h.size_eq]
    split
    · exact rel_lookup_zip hv c.params x
    · exact h.bindings f x

structure Simulation (excused : EvalCause → Prop) (R : Closure → Closure → Prop)
    (Q : Scope × State → Scope × State → Prop) : Prop where
  function_eq (c d : Closure) : R c d → d = { c with number := d.number }
  depth_eq {p q : Scope × State} : Q p q → q.2.depth = p.2.depth
  resolve {p q : Scope × State} (h : Q p q) (x : String) (line : Nat) :
    AgreeUnless excused (Value.Alike R) (p.2.store.resolve p.1 x line) (q.2.store.resolve q.1 x line)
  inside {p q : Scope × State} {c d : Closure} {vs ws : List Value} (h : Q p q) (hc : R c d)
    (hv : List.Forall₂ (Value.Alike R) vs ws) : Q (c.inside vs p.2) (d.inside ws q.2)

theorem Simulation.expression {excused : EvalCause → Prop} {Q : Scope × State → Scope × State → Prop}
    (hQ : Simulation excused R Q) (e : Expr) {p q : Scope × State} (h : Q p q) :
    AgreeUnless excused (Value.Alike R) (outcome limit p.1 e p.2) (outcome limit q.1 e q.2) := by
  have hR := hQ.function_eq
  obtain ⟨d, hd⟩ : ∃ d, p.2.depth = d := ⟨_, rfl⟩
  induction d, e using call_induction limit generalizing p q with
  | literal d v line =>
    rw [outcome_literal, outcome_literal]
    exact .ok (Value.alike_literal v)
  | identifier d x line =>
    rw [outcome_identifier, outcome_identifier]
    exact hQ.resolve h x line
  | negate d a line ih =>
    rw [outcome_negate, outcome_negate]
    exact (ih h hd).bind fun v w hv => (hv.negate hR).unless
  | binary d op a b line iha ihb =>
    rw [outcome_binary, outcome_binary]
    refine (iha h hd).bind fun v v' hv => ?_
    exact (ihb h hd).bind fun w w' hw => (hv.apply hR op hw).unless
  | vector d es line ih =>
    rw [outcome_vector, outcome_vector]
    refine (agreeUnless_mapM es.toList fun e he => ih e he h hd).bind fun vs ws hvs => .ok ?_
    exact Value.alike_vector_iff.2 hvs
  | element d es l i line ihi ih =>
    rw [outcome_element, outcome_element]
    refine (ihi h hd).bind fun v w hv => (hv.position hR).unless.bind ?_
    rintro k _ rfl
    cases he : element? es k with
    | none => exact .error _
    | some e => exact ih e (Array.mem_toList_iff.2 (mem_of_element? he)) h hd
  | index d a i line hn ihi iha =>
    rw [outcome_index a i line p.2 hn, outcome_index a i line q.2 hn]
    refine (ihi h hd).bind fun v w hv => (hv.position hR).unless.bind ?_
    rintro k _ rfl
    exact (iha h hd).bind fun w w' hw => (hw.select hR k).unless
  | call d f as line ihf ihas ihb =>
    rw [outcome_call, outcome_call]
    refine (ihf h hd).bind fun v w hv => (hv.callee hR).unless.bind fun c c' hc => ?_
    -- The two functions differ in number alone, so both calls check the same and go on with the same body.
    have hl : c'.params = c.params ∧ c'.body = c.body := by
      rw [hR c c' hc]
      exact ⟨rfl, rfl⟩
    rw [hl.1, hl.2, hQ.depth_eq h]
    split
    · refine (agreeUnless_mapM as fun a ha => ihas a ha h hd).bind fun vs ws hvs => ?_
      split
      · rename_i hlt
        exact ihb (hd ▸ hlt) c.body (hQ.inside h hc hvs) (congrArg (· + 1) hd)
      · exact .error _
    · exact .error _

def AtTwins (R : Closure → Closure → Prop) (p q : Scope × State) : Prop :=
  q.1 = p.1 ∧ p.2.store.Twin R q.2.store ∧ q.2.depth = p.2.depth

lemma simulation_atTwins (hR : ∀ c d, R c d → d = { c with number := d.number }) :
    Simulation (fun _ => False) R (AtTwins R) where
  function_eq := hR
  depth_eq h := h.2.2
  resolve := by
    rintro ⟨_, s⟩ ⟨sc, t⟩ ⟨rfl, h, -⟩ x line
    exact (agree_resolve line (rel_findSome? sc.chain fun f _ => h.bindings f x)).unless
  inside := by
    rintro ⟨_, s⟩ ⟨_, t⟩ c c' vs ws ⟨rfl, h, ht⟩ hc hv
    obtain ⟨n, rfl⟩ : ∃ n, c' = { c with number := n } := ⟨c'.number, hR c c' hc⟩
    refine ⟨?_, h.inside c n hv, congrArg (· + 1) ht⟩
    exact congrArg (fun n => (⟨n, c.scope.chain⟩ : Scope)) h.size_eq

theorem agree_outcome (hR : ∀ c d, R c d → d = { c with number := d.number }) (e : Expr)
    (h : s.store.Twin R t.store) (ht : t.depth = s.depth) :
    Agree (Value.Alike R) (outcome limit sc e s) (outcome limit sc e t) := by
  have hq : AtTwins R (sc, s) (sc, t) := ⟨rfl, h, ht⟩
  exact agree_iff_agreeUnless.2 ((simulation_atTwins hR).expression e hq)

theorem outcome_congr (e : Expr) (hn : t.store.frames.size = s.store.frames.size)
    (hf : ∀ (f : Nat) (x : String), (t.store.frame f)[x]? = (s.store.frame f)[x]?) (hd : t.depth = s.depth) :
    outcome limit sc e s = outcome limit sc e t := by
  have ht : s.store.Twin Eq t.store :=
    ⟨hn, fun f x => hf f x ▸ rel_self fun v _ => Value.Alike.refl fun c _ => rfl⟩
  have hR (c d : Closure) (h : c = d) : d = { c with number := d.number } := h ▸ rfl
  have ha : Agree (Value.Alike Eq) (outcome limit sc e s) (outcome limit sc e t) := agree_outcome hR e ht hd
  generalize outcome limit sc e s = r at ha ⊢
  generalize outcome limit sc e t = q at ha ⊢
  cases ha with
  | ok h => exact congrArg Except.ok h.eq
  | error err => rfl

end ExprLang
