import ExprLang.Proofs.Identity.Transport

/-! A big-step semantics with one rule for each way in which a form can end. -/

namespace ExprLang

inductive Resolves (s : Store) (x : String) : List Nat → Option Value → Prop
  | here {f fs v} : (s.frame f)[x]? = some v → Resolves s x (f :: fs) (some v)
  | outward {f fs r} : (s.frame f)[x]? = none → Resolves s x fs r → Resolves s x (f :: fs) r
  | nowhere : Resolves s x [] none

def BinaryOp.arithmetic? : BinaryOp → Int → Int → Option Int
  | add, a, b => some (a + b)
  | sub, a, b => some (a - b)
  | mul, a, b => some (a * b)
  | div, a, b => some (a.tdiv b)
  | _, _, _ => none

def BinaryOp.test? : BinaryOp → Int64 → Int64 → Option Prop
  | equal, a, b => some (a.toInt = b.toInt)
  | greater, a, b => some (b.toInt < a.toInt)
  | less, a, b => some (a.toInt < b.toInt)
  | and, a, b => some (a &&& b ≠ 0)
  | or, a, b => some (a ||| b ≠ 0)
  | _, _, _ => none

inductive Applies : BinaryOp → Value → Value → Except EvalCause Value → Prop
  | exact {op a b k} : (op = .div → b ≠ 0) → op.arithmetic? a.toInt b.toInt = some k.toInt →
      Applies op (.integer a) (.integer b) (.ok (.integer k))
  | overflow {op a b n} : (op = .div → b ≠ 0) → op.arithmetic? a.toInt b.toInt = some n →
      ¬ (Int64.minValue.toInt ≤ n ∧ n ≤ Int64.maxValue.toInt) → Applies op (.integer a) (.integer b) (.error .overflow)
  | division {a} : Applies .div (.integer a) (.integer 0) (.error .divisionByZero)
  | holds {op a b p} : op.test? a b = some p → p →
      Applies op (.integer a) (.integer b) (.ok (.integer 1))
  | fails {op a b p} : op.test? a b = some p → ¬ p →
      Applies op (.integer a) (.integer b) (.ok (.integer 0))
  | operands {op v w} : v.integer? = none ∨ w.integer? = none →
      Applies op v w (.error (.invalidOperands op v.shape w.shape))

inductive Negates : Value → Except EvalCause Value → Prop
  | exact {a k} : k.toInt = -a.toInt → Negates (.integer a) (.ok (.integer k))
  | overflow {a} : a = .minValue → Negates (.integer a) (.error .overflow)
  | operand {v} : v.integer? = none → Negates v (.error (.invalidOperand v.shape))

/-- What parameters with their arguments give a name: of the parameters so named the last counts. -/
inductive Receives (x : String) : List String → List Value → Option Value → Prop
  | nothing : Receives x [] [] none
  | later {p ps v vs w} : Receives x ps vs (some w) → Receives x (p :: ps) (v :: vs) (some w)
  | last {ps v vs} : Receives x ps vs none → Receives x (x :: ps) (v :: vs) (some v)
  | other {p ps v vs} : p ≠ x → Receives x ps vs none → Receives x (p :: ps) (v :: vs) none

/-- A new frame for the arguments inside the scope that the function was made in, and one more call. -/
structure Enters (c : Closure) (vs : List Value) (s : State) (sc : Scope) (t : State) : Prop where
  enclosing : sc.enclosing = c.scope.frame :: c.scope.enclosing
  frame : sc.frame = s.store.frames.size
  size : t.store.frames.size = s.store.frames.size + 1
  own (x : String) : Receives x c.params vs (t.store.frame sc.frame)[x]?
  other (f : Nat) (x : String) : f ≠ sc.frame → (t.store.frame f)[x]? = (s.store.frame f)[x]?
  closures : t.store.closures = s.store.closures
  depth : t.depth = s.depth + 1

mutual

inductive Evaluates (limit : Nat) : Scope → Expr → State → Outcome Value → Prop
  | integer {sc n line s} : Evaluates limit sc (.literal (.integer n) line) s (.ok (.integer n))
  | yes {sc line s} : Evaluates limit sc (.literal (.boolean true) line) s (.ok (.integer 1))
  | no {sc line s} : Evaluates limit sc (.literal (.boolean false) line) s (.ok (.integer 0))
  | bound {sc x line s v} : Resolves s.store x (sc.frame :: sc.enclosing) (some v) →
      Evaluates limit sc (.identifier x line) s (.ok v)
  | unbound {sc x line s} : Resolves s.store x (sc.frame :: sc.enclosing) none →
      Evaluates limit sc (.identifier x line) s (.error ⟨.unknownIdentifier x, line⟩)
  | negate {sc a line s v r} : Evaluates limit sc a s (.ok v) → Negates v r →
      Evaluates limit sc (.negate a line) s (located line r)
  | negate_error {sc a line s err} : Evaluates limit sc a s (.error err) →
      Evaluates limit sc (.negate a line) s (.error err)
  | binary {sc op a b line s v w r} : Evaluates limit sc a s (.ok v) → Evaluates limit sc b s (.ok w) →
      Applies op v w r → Evaluates limit sc (.binary op a b line) s (located line r)
  | left_error {sc op a b line s err} : Evaluates limit sc a s (.error err) →
      Evaluates limit sc (.binary op a b line) s (.error err)
  | right_error {sc op a b line s v err} : Evaluates limit sc a s (.ok v) →
      Evaluates limit sc b s (.error err) → Evaluates limit sc (.binary op a b line) s (.error err)
  | vector {sc es line s vs} : EvaluatesAll limit sc es.toList s (.ok vs) →
      Evaluates limit sc (.vector es line) s (.ok (.vector vs.toArray))
  | vector_error {sc es line s err} : EvaluatesAll limit sc es.toList s (.error err) →
      Evaluates limit sc (.vector es line) s (.error err)
  | index_error {sc a i line s err} : Evaluates limit sc i s (.error err) →
      Evaluates limit sc (.index a i line) s (.error err)
  | index_kind {sc a i line s v} : Evaluates limit sc i s (.ok v) → v.integer? = none →
      Evaluates limit sc (.index a i line) s (.error ⟨.indexNotInteger v.shape, line⟩)
  | written {sc es l i line s k j e r} : Evaluates limit sc i s (.ok (.integer k)) →
      k.toInt = (j : Nat) → es[j]? = some e → Evaluates limit sc e s r →
      Evaluates limit sc (.index (.vector es l) i line) s r
  | written_bounds {sc es l i line s k} : Evaluates limit sc i s (.ok (.integer k)) →
      ¬ (0 ≤ k.toInt ∧ k.toInt < es.size) →
      Evaluates limit sc (.index (.vector es l) i line) s (.error ⟨.indexOutOfBounds k es.size, line⟩)
  | target_error {sc a i line s k err} : (∀ es l, a ≠ .vector es l) →
      Evaluates limit sc i s (.ok (.integer k)) → Evaluates limit sc a s (.error err) →
      Evaluates limit sc (.index a i line) s (.error err)
  | target_kind {sc a i line s k w} : (∀ es l, a ≠ .vector es l) →
      Evaluates limit sc i s (.ok (.integer k)) → Evaluates limit sc a s (.ok w) →
      (∀ vs, w ≠ .vector vs) →
      Evaluates limit sc (.index a i line) s (.error ⟨.notIndexable w.shape, line⟩)
  | element {sc a i line s k vs j v} : (∀ es l, a ≠ .vector es l) →
      Evaluates limit sc i s (.ok (.integer k)) → Evaluates limit sc a s (.ok (.vector vs)) →
      k.toInt = (j : Nat) → vs[j]? = some v → Evaluates limit sc (.index a i line) s (.ok v)
  | element_bounds {sc a i line s k vs} : (∀ es l, a ≠ .vector es l) →
      Evaluates limit sc i s (.ok (.integer k)) → Evaluates limit sc a s (.ok (.vector vs)) →
      ¬ (0 ≤ k.toInt ∧ k.toInt < vs.size) →
      Evaluates limit sc (.index a i line) s (.error ⟨.indexOutOfBounds k vs.size, line⟩)
  | callee_error {sc f as line s err} : Evaluates limit sc f s (.error err) →
      Evaluates limit sc (.call f as line) s (.error err)
  | callee_kind {sc f as line s v} : Evaluates limit sc f s (.ok v) → (∀ c, v ≠ .function c) →
      Evaluates limit sc (.call f as line) s (.error ⟨.notCallable v.shape, line⟩)
  | arity {sc f as line s c} : Evaluates limit sc f s (.ok (.function c)) →
      as.length ≠ c.params.length →
      Evaluates limit sc (.call f as line) s
        (.error ⟨.argumentCount c.params.length as.length, line⟩)
  | argument_error {sc f as line s c err} : Evaluates limit sc f s (.ok (.function c)) →
      as.length = c.params.length → EvaluatesAll limit sc as s (.error err) →
      Evaluates limit sc (.call f as line) s (.error err)
  | depth {sc f as line s c vs} : Evaluates limit sc f s (.ok (.function c)) →
      as.length = c.params.length → EvaluatesAll limit sc as s (.ok vs) → limit ≤ s.depth →
      Evaluates limit sc (.call f as line) s (.error ⟨.callDepth limit, line⟩)
  | body {sc f as line s c vs inner t r} : Evaluates limit sc f s (.ok (.function c)) →
      as.length = c.params.length → EvaluatesAll limit sc as s (.ok vs) → s.depth < limit →
      Enters c vs s inner t → Evaluates limit inner c.body t r →
      Evaluates limit sc (.call f as line) s r

inductive EvaluatesAll (limit : Nat) : Scope → List Expr → State → Outcome (List Value) → Prop
  | nil {sc s} : EvaluatesAll limit sc [] s (.ok [])
  | cons {sc e es s v vs} : Evaluates limit sc e s (.ok v) → EvaluatesAll limit sc es s (.ok vs) →
      EvaluatesAll limit sc (e :: es) s (.ok (v :: vs))
  | head_error {sc e es s err} : Evaluates limit sc e s (.error err) →
      EvaluatesAll limit sc (e :: es) s (.error err)
  | tail_error {sc e es s v err} : Evaluates limit sc e s (.ok v) →
      EvaluatesAll limit sc es s (.error err) → EvaluatesAll limit sc (e :: es) s (.error err)

end

variable {limit : Nat} {sc : Scope}

lemma resolves_findSome? (s : Store) (x : String) (fs : List Nat) :
    Resolves s x fs (fs.findSome? fun f => (s.frame f)[x]?) := by
  induction fs with
  | nil => exact .nowhere
  | cons f fs ih =>
    rw [List.findSome?_cons]
    cases h : (s.frame f)[x]? with
    | none => exact .outward h ih
    | some v => exact .here h

lemma Resolves.eq_findSome? {s : Store} {x : String} {fs : List Nat} {r : Option Value}
    (h : Resolves s x fs r) : r = fs.findSome? fun f => (s.frame f)[x]? := by
  induction h with
  | here h => simp [h]
  | outward h _ ih => simpa [h] using ih
  | nowhere => rfl

lemma resolve_of_resolves {s : Store} {x : String} {line : Nat} {r : Option Value}
    (h : Resolves s x sc.chain r) :
    s.resolve sc x line = r.elim (.error ⟨.unknownIdentifier x, line⟩) .ok := by
  rw [h.eq_findSome?, Store.resolve, Store.lookup]
  cases List.findSome? _ sc.chain <;> rfl

lemma fit_eq_error_iff {n : Int} {e : EvalCause} :
    fit n = .error e ↔ e = .overflow ∧ ¬ (Int64.minValue.toInt ≤ n ∧ n ≤ Int64.maxValue.toInt) := by
  unfold fit
  split
  · rename_i h
    exact iff_of_false (by simp) fun he => he.2 h
  · rename_i h
    simp only [h, Except.error.injEq, not_false_eq_true, and_true]
    exact eq_comm

lemma compute_of_exact {op : BinaryOp} {a b : Int64} {n : Int} (h0 : op = .div → b ≠ 0)
    (h : op.arithmetic? a.toInt b.toInt = some n) : op.compute a b = fit n := by
  cases op <;> simp only [BinaryOp.arithmetic?, Option.some.injEq, reduceCtorEq] at h <;> subst h
  case div => exact if_neg (h0 rfl)
  all_goals rfl

lemma compute_of_test {op : BinaryOp} {a b : Int64} {p : Prop} [Decidable p]
    (h : op.test? a b = some p) : op.compute a b = .ok (truth (decide p)) := by
  cases op <;> simp only [BinaryOp.test?, Option.some.injEq, reduceCtorEq] at h <;> subst h
  all_goals simp only [BinaryOp.compute, Except.ok.injEq]; congr 1
  all_goals grind [Int64.toInt_inj, Int64.lt_iff_toInt_lt]

lemma exact_or_test (op : BinaryOp) (a b : Int64) :
    (∃ n, op.arithmetic? a.toInt b.toInt = some n) ∨ ∃ p, op.test? a b = some p := by
  cases op <;> first | exact .inl ⟨_, rfl⟩ | exact .inr ⟨_, rfl⟩

lemma applies_compute (op : BinaryOp) (a b : Int64) :
    Applies op (.integer a) (.integer b) ((op.compute a b).map .integer) := by
  rcases exact_or_test op a b with ⟨n, hn⟩ | ⟨p, hp⟩
  · by_cases h0 : op = .div → b ≠ 0
    · rw [compute_of_exact h0 hn]
      cases h : fit n with
      | ok k => exact .exact h0 (fit_eq_ok_iff.1 h ▸ hn)
      | error e =>
        obtain ⟨rfl, hb⟩ := fit_eq_error_iff.1 h
        exact .overflow h0 hn hb
    · obtain ⟨rfl, rfl⟩ : op = .div ∧ b = 0 := by simpa using h0
      exact .division
  · classical
    rw [compute_of_test hp]
    by_cases h : p
    · rw [decide_eq_true h]
      exact .holds hp h
    · rw [decide_eq_false h]
      exact .fails hp h

theorem applies_apply (op : BinaryOp) (v w : Value) : Applies op v w (op.apply v w) := by
  cases v with
  | integer a =>
    cases w with
    | integer b => exact applies_compute op a b
    | vector ws => exact .operands (.inr rfl)
    | function d => exact .operands (.inr rfl)
  | vector vs => exact .operands (.inl rfl)
  | function c => exact .operands (.inl rfl)

lemma Applies.eq_apply {op : BinaryOp} {v w : Value} {r : Except EvalCause Value}
    (h : Applies op v w r) : r = op.apply v w := by
  cases h with
  | exact h0 h => rw [BinaryOp.apply, compute_of_exact h0 h, fit_eq_ok_iff.2 rfl]; rfl
  | overflow h0 h hb => rw [BinaryOp.apply, compute_of_exact h0 h, fit_eq_error_iff.2 ⟨rfl, hb⟩]; rfl
  | division => rfl
  | holds h hp => classical rw [BinaryOp.apply, compute_of_test h, decide_eq_true hp]; rfl
  | fails h hp => classical rw [BinaryOp.apply, compute_of_test h, decide_eq_false hp]; rfl
  | operands h =>
    cases v <;> cases w <;> first | rfl | simp [Value.integer?] at h

lemma neg_outside_iff (a : Int64) :
    ¬ (Int64.minValue.toInt ≤ -a.toInt ∧ -a.toInt ≤ Int64.maxValue.toInt) ↔ a = .minValue := by
  have := Int64.le_toInt a
  have := Int64.toInt_lt a
  rw [← Int64.toInt_inj, Int64.toInt_minValue, Int64.toInt_maxValue]
  omega

theorem negates_negate (v : Value) : Negates v v.negate := by
  cases v with
  | integer a =>
    rw [Value.negate]
    cases h : fit (-a.toInt) with
    | ok k => exact .exact (fit_eq_ok_iff.1 h)
    | error e =>
      obtain ⟨rfl, hb⟩ := fit_eq_error_iff.1 h
      exact .overflow ((neg_outside_iff a).1 hb)
  | vector vs => exact .operand rfl
  | function c => exact .operand rfl

lemma Negates.eq_negate {v : Value} {r : Except EvalCause Value} (h : Negates v r) :
    r = v.negate := by
  cases h with
  | exact h => rw [Value.negate, fit_eq_ok_iff.2 h]; rfl
  | overflow h => rw [Value.negate, fit_eq_error_iff.2 ⟨rfl, (neg_outside_iff _).2 h⟩]; rfl
  | operand h => cases v <;> first | rfl | simp [Value.integer?] at h

lemma element?_eq_some_iff {α : Type} {xs : Array α} {k : Int64} {x : α} :
    element? xs k = some x ↔ ∃ j : Nat, k.toInt = j ∧ xs[j]? = some x := by
  rw [element?, Option.bind_eq_some_iff]
  refine exists_congr fun j => ?_
  rw [offset?_eq_some_iff]
  constructor
  · rintro ⟨⟨hk, _⟩, hx⟩
    exact ⟨hk, hx⟩
  · rintro ⟨hk, hx⟩
    exact ⟨⟨hk, (Array.getElem?_eq_some_iff.1 hx).1⟩, hx⟩

lemma element?_eq_none_iff {α : Type} {xs : Array α} {k : Int64} :
    element? xs k = none ↔ ¬ (0 ≤ k.toInt ∧ k.toInt < xs.size) := by
  rw [Option.eq_none_iff_forall_ne_some]
  constructor
  · rintro h ⟨h0, hk⟩
    have hj : k.toInt.toNat < xs.size := by omega
    exact h _ (element?_eq_some_iff.2 ⟨k.toInt.toNat, by omega, Array.getElem?_eq_getElem hj⟩)
  · intro h x hx
    obtain ⟨j, hk, hj⟩ := element?_eq_some_iff.1 hx
    obtain ⟨hj, _⟩ := Array.getElem?_eq_some_iff.1 hj
    omega

lemma Value.position_eq_error {v : Value} (line : Nat) (h : v.integer? = none) :
    v.position line = .error ⟨.indexNotInteger v.shape, line⟩ := by
  cases v with
  | integer k => simp [Value.integer?] at h
  | vector vs => rfl
  | function c => rfl

lemma Value.select_eq_error {v : Value} (line : Nat) (k : Int64) (h : ∀ vs, v ≠ .vector vs) :
    v.select line k = .error ⟨.notIndexable v.shape, line⟩ := by
  cases v with
  | integer k => rfl
  | vector vs => exact (h vs rfl).elim
  | function c => rfl

lemma Value.callee_eq_error {v : Value} (line : Nat) (h : ∀ c, v ≠ .function c) :
    v.callee line = .error ⟨.notCallable v.shape, line⟩ := by
  cases v with
  | integer k => rfl
  | vector vs => rfl
  | function c => exact (h c rfl).elim

section Enters

variable {c : Closure} {vs : List Value} {s t : State}

lemma Receives.eq_lookup {x : String} {ps : List String} {r : Option Value} (h : Receives x ps vs r) :
    r = (ps.zip vs).reverse.lookup x := by
  induction h with
  | nothing => rfl
  | later _ ih => simp [List.lookup_append, ← ih]
  | last _ ih => simp [List.lookup_append, ← ih]
  | other hp _ ih => simp [List.lookup_append, ← ih, List.lookup_cons, beq_eq_false_iff_ne.2 (Ne.symm hp)]

lemma receives_lookup (x : String) {ps : List String} (h : vs.length = ps.length) :
    Receives x ps vs ((ps.zip vs).reverse.lookup x) := by
  induction ps generalizing vs with
  | nil =>
    cases List.eq_nil_of_length_eq_zero h
    exact .nothing
  | cons p ps ih =>
    obtain ⟨v, vs, rfl⟩ := List.exists_cons_of_length_eq_add_one h
    have hr := ih (Nat.succ.inj h)
    rw [List.zip_cons_cons, List.reverse_cons, List.lookup_append]
    cases hw : (ps.zip vs).reverse.lookup x with
    | some w => exact .later (hw ▸ hr)
    | none =>
      rw [hw] at hr
      by_cases hp : p = x
      · subst hp
        simpa using Receives.last (v := v) hr
      · simpa [List.lookup_cons, beq_eq_false_iff_ne.2 (Ne.symm hp)] using Receives.other (v := v) hp hr

lemma enters_inside (s : State) (h : vs.length = c.params.length) :
    Enters c vs s (c.inside vs s).1 (c.inside vs s).2 where
  enclosing := rfl
  frame := rfl
  size := size_inside c vs s
  own x := by
    have hx : ((c.inside vs s).2.store.frame s.store.frames.size)[x]? = (c.params.zip vs).reverse.lookup x := by
      rw [getElem?_inside, if_pos rfl]
    exact hx ▸ receives_lookup x h
  other f x hf := (getElem?_inside c vs s f x).trans (if_neg hf)
  closures := rfl
  depth := rfl

lemma Enters.outcome_eq {inner : Scope} (h : Enters c vs s inner t) (e : Expr) :
    outcome limit (c.inside vs s).1 e (c.inside vs s).2 = outcome limit inner e t := by
  have hsc : inner = (c.inside vs s).1 := congrArg₂ Scope.mk h.frame h.enclosing
  rw [hsc]
  -- The frames need not be built alike: that they answer alike is enough.
  refine outcome_congr e (h.size.trans (size_inside c vs s).symm) (fun f x => ?_) h.depth
  rw [getElem?_inside]
  split
  · rename_i hf
    rw [hf, ← h.frame]
    exact (h.own x).eq_lookup
  · rename_i hf
    exact h.other f x (h.frame ▸ hf)

end Enters

mutual

theorem Evaluates.outcome_eq {sc : Scope} {e : Expr} {s : State} {r : Outcome Value} :
    Evaluates limit sc e s r → outcome limit sc e s = r
  | .integer => by simp [Literal.value]
  | .yes => by simp [Literal.value]
  | .no => by simp [Literal.value]
  | .bound h => by simp [resolve_of_resolves h]
  | .unbound h => by simp [resolve_of_resolves h]
  | .negate ha hn => by simp [ha.outcome_eq, hn.eq_negate]
  | .negate_error ha => by simp [ha.outcome_eq]
  | .binary ha hb hr => by simp [ha.outcome_eq, hb.outcome_eq, hr.eq_apply]
  | .left_error ha => by simp [ha.outcome_eq]
  | .right_error ha hb => by simp [ha.outcome_eq, hb.outcome_eq]
  | .vector hs => by simp [hs.mapM_eq]
  | .vector_error hs => by simp [hs.mapM_eq]
  | .index_error (a := a) hi => by
    by_cases ha : ∃ es l, a = .vector es l
    · obtain ⟨es, l, rfl⟩ := ha
      simp [hi.outcome_eq]
    · simp [outcome_index _ _ _ _ fun es l h => ha ⟨es, l, h⟩, hi.outcome_eq]
  | .index_kind (a := a) hi hv => by
    by_cases ha : ∃ es l, a = .vector es l
    · obtain ⟨es, l, rfl⟩ := ha
      simp [hi.outcome_eq, Value.position_eq_error _ hv]
    · simp [outcome_index _ _ _ _ fun es l h => ha ⟨es, l, h⟩, hi.outcome_eq,
        Value.position_eq_error _ hv]
  | .written hi hk he hr => by
    simp [hi.outcome_eq, Value.position, element?_eq_some_iff.2 ⟨_, hk, he⟩, hr.outcome_eq]
  | .written_bounds hi hk => by
    simp [hi.outcome_eq, Value.position, element?_eq_none_iff.2 hk]
  | .target_error hn hi ha => by
    simp [outcome_index _ _ _ _ hn, hi.outcome_eq, Value.position, ha.outcome_eq]
  | .target_kind hn hi ha hw => by
    simp [outcome_index _ _ _ _ hn, hi.outcome_eq, Value.position, ha.outcome_eq,
      Value.select_eq_error _ _ hw]
  | .element hn hi ha hk hv => by
    simp [outcome_index _ _ _ _ hn, hi.outcome_eq, Value.position, ha.outcome_eq, Value.select,
      element?_eq_some_iff.2 ⟨_, hk, hv⟩]
  | .element_bounds hn hi ha hk => by
    simp [outcome_index _ _ _ _ hn, hi.outcome_eq, Value.position, ha.outcome_eq, Value.select,
      element?_eq_none_iff.2 hk]
  | .callee_error hf => by simp [hf.outcome_eq]
  | .callee_kind hf hv => by simp [hf.outcome_eq, Value.callee_eq_error _ hv]
  | .arity hf ha => by simp [hf.outcome_eq, Value.callee, ha]
  | .argument_error hf ha hs => by simp [hf.outcome_eq, Value.callee, ha, hs.mapM_eq]
  | .depth hf ha hs hd => by
    simp [hf.outcome_eq, Value.callee, ha, hs.mapM_eq, Nat.not_lt.2 hd]
  | .body hf ha hs hd hc hb => by
    simp [hf.outcome_eq, Value.callee, ha, hs.mapM_eq, hd, hc.outcome_eq, hb.outcome_eq]

theorem EvaluatesAll.mapM_eq {sc : Scope} {es : List Expr} {s : State} {r : Outcome (List Value)} :
    EvaluatesAll limit sc es s r → es.mapM (fun e => outcome limit sc e s) = r
  | .nil => rfl
  | .cons he hs => by
    rw [List.mapM_cons, he.outcome_eq, ok_bind, hs.mapM_eq]
    rfl
  | .head_error he => by simp [he.outcome_eq]
  | .tail_error he hs => by
    rw [List.mapM_cons, he.outcome_eq, ok_bind, hs.mapM_eq]
    rfl

end

lemma evaluatesAll_mapM (es : List Expr) (s : State)
    (h : ∀ e ∈ es, Evaluates limit sc e s (outcome limit sc e s)) :
    EvaluatesAll limit sc es s (es.mapM fun e => outcome limit sc e s) := by
  induction es with
  | nil => exact .nil
  | cons e es ih =>
    have he := h e List.mem_cons_self
    have hs := ih fun a ha => h a (List.mem_cons_of_mem e ha)
    rw [List.mapM_cons]
    cases hv : outcome limit sc e s with
    | error err => exact .head_error (hv ▸ he)
    | ok v =>
      cases hvs : es.mapM fun e => outcome limit sc e s with
      | error err => exact .tail_error (hv ▸ he) (hvs ▸ hs)
      | ok vs => exact .cons (hv ▸ he) (hvs ▸ hs)

lemma evaluates_identifier (x : String) (line : Nat) (s : State) :
    Evaluates limit sc (.identifier x line) s (s.store.resolve sc x line) := by
  have h := resolves_findSome? s.store x sc.chain
  rw [resolve_of_resolves h]
  cases hr : sc.chain.findSome? fun f => (s.store.frame f)[x]? with
  | none => exact .unbound (hr ▸ h)
  | some v => exact .bound (hr ▸ h)

theorem evaluates_outcome (e : Expr) (s : State) : Evaluates limit sc e s (outcome limit sc e s) := by
  obtain ⟨d, hd⟩ : ∃ d, s.depth = d := ⟨_, rfl⟩
  induction d, e using call_induction limit generalizing sc s with
  | literal d v line =>
    rw [outcome_literal]
    cases v with
    | integer n => exact .integer
    | boolean b => cases b with
      | true => exact .yes
      | false => exact .no
  | identifier d x line =>
    rw [outcome_identifier]
    exact evaluates_identifier x line s
  | negate d a line ih =>
    have ha := @ih sc s hd
    rw [outcome_negate]
    cases hv : outcome limit sc a s with
    | error err => exact .negate_error (hv ▸ ha)
    | ok v => exact .negate (hv ▸ ha) (negates_negate v)
  | binary d op a b line iha ihb =>
    have ha := @iha sc s hd
    have hb := @ihb sc s hd
    rw [outcome_binary]
    cases hv : outcome limit sc a s with
    | error err => exact .left_error (hv ▸ ha)
    | ok v =>
      cases hw : outcome limit sc b s with
      | error err => exact .right_error (hv ▸ ha) (hw ▸ hb)
      | ok w => exact .binary (hv ▸ ha) (hw ▸ hb) (applies_apply op v w)
  | vector d es line ih =>
    have h := evaluatesAll_mapM es.toList s fun e he => @ih e he sc s hd
    rw [outcome_vector]
    cases hvs : es.toList.mapM fun e => outcome limit sc e s with
    | error err => exact .vector_error (hvs ▸ h)
    | ok vs => exact .vector (hvs ▸ h)
  | element d es l i line ihi ih =>
    have hi := @ihi sc s hd
    rw [outcome_element]
    cases hv : outcome limit sc i s with
    | error err => exact .index_error (hv ▸ hi)
    | ok v =>
      cases v with
      | integer k =>
        dsimp only [Value.position, ok_bind]
        cases he : element? es k with
        | none => exact .written_bounds (hv ▸ hi) (element?_eq_none_iff.1 he)
        | some e =>
          obtain ⟨j, hk, hj⟩ := element?_eq_some_iff.1 he
          exact .written (hv ▸ hi) hk hj (ih e (Array.mem_toList_iff.2 (mem_of_element? he)) s hd)
      | vector vs => exact .index_kind (hv ▸ hi) rfl
      | function c => exact .index_kind (hv ▸ hi) rfl
  | index d a i line hn ihi iha =>
    have hi := @ihi sc s hd
    have ha := @iha sc s hd
    rw [outcome_index a i line s hn]
    cases hv : outcome limit sc i s with
    | error err => exact .index_error (hv ▸ hi)
    | ok v =>
      cases v with
      | integer k =>
        dsimp only [Value.position, ok_bind]
        cases hw : outcome limit sc a s with
        | error err => exact .target_error hn (hv ▸ hi) (hw ▸ ha)
        | ok w =>
          cases w with
          | vector vs =>
            dsimp only [Value.select, ok_bind]
            cases he : element? vs k with
            | none => exact .element_bounds hn (hv ▸ hi) (hw ▸ ha) (element?_eq_none_iff.1 he)
            | some x =>
              obtain ⟨j, hk, hj⟩ := element?_eq_some_iff.1 he
              exact .element hn (hv ▸ hi) (hw ▸ ha) hk hj
          | integer m => exact .target_kind hn (hv ▸ hi) (hw ▸ ha) (by simp)
          | function c => exact .target_kind hn (hv ▸ hi) (hw ▸ ha) (by simp)
      | vector vs => exact .index_kind (hv ▸ hi) rfl
      | function c => exact .index_kind (hv ▸ hi) rfl
  | call d f as line ihf ihas ihb =>
    have hf := @ihf sc s hd
    have has := evaluatesAll_mapM as s fun a ha => @ihas a ha sc s hd
    rw [outcome_call]
    cases hv : outcome limit sc f s with
    | error err => exact .callee_error (hv ▸ hf)
    | ok v =>
      cases v with
      | integer m => exact .callee_kind (hv ▸ hf) (by simp)
      | vector vs => exact .callee_kind (hv ▸ hf) (by simp)
      | function c =>
        dsimp only [Value.callee, ok_bind]
        split
        · rename_i hn
          cases hvs : as.mapM fun a => outcome limit sc a s with
          | error err => exact .argument_error (hv ▸ hf) hn (hvs ▸ has)
          | ok vs =>
            dsimp only [ok_bind]
            split
            · rename_i hl
              have hc := enters_inside s ((length_of_mapM hvs).trans hn)
              exact .body (hv ▸ hf) hn (hvs ▸ has) hl hc (ihb (hd ▸ hl) c.body _ (congrArg (· + 1) hd))
            · rename_i hl
              exact .depth (hv ▸ hf) hn (hvs ▸ has) (Nat.not_lt.1 hl)
        · rename_i hn
          exact .arity (hv ▸ hf) hn

theorem evalExpr_eq_iff_evaluates (limit : Nat) (sc : Scope) (e : Expr) (s t : State)
    (r : Outcome Value) :
    evalExpr limit sc e s = (r, t) ↔ Evaluates limit sc e s r ∧ t = s := by
  rw [evalExpr_eq, Prod.mk.injEq]
  constructor
  · rintro ⟨rfl, rfl⟩
    exact ⟨evaluates_outcome e s, rfl⟩
  · rintro ⟨h, rfl⟩
    exact ⟨h.outcome_eq, rfl⟩

end ExprLang
