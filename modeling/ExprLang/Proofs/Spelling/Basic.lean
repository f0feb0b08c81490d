import ExprLang.Proofs.Evaluation.Purity

/-! Other names for parameters, and other numbers for lines. -/

namespace ExprLang

namespace Expr

mutual

def respell (name : String → String) (line : Nat → Nat) : Expr → Expr
  | literal v l => literal v (line l)
  | identifier x l => identifier (name x) (line l)
  | negate a l => negate (a.respell name line) (line l)
  | binary op a b l => binary op (a.respell name line) (b.respell name line) (line l)
  | call f as l => call (f.respell name line) (respellAll name line as) (line l)
  | vector ⟨es⟩ l => vector ⟨respellAll name line es⟩ (line l)
  | index a i l => index (a.respell name line) (i.respell name line) (line l)

def respellAll (name : String → String) (line : Nat → Nat) : List Expr → List Expr
  | [] => []
  | e :: es => e.respell name line :: respellAll name line es

end

mutual

def names : Expr → List String
  | literal _ _ => []
  | identifier x _ => [x]
  | negate a _ => a.names
  | binary _ a b _ => a.names ++ b.names
  | call f as _ => f.names ++ namesAll as
  | vector ⟨es⟩ _ => namesAll es
  | index a i _ => a.names ++ i.names

def namesAll : List Expr → List String
  | [] => []
  | e :: es => e.names ++ namesAll es

end

variable {name : String → String} {line : Nat → Nat}

lemma respellAll_eq_map (es : List Expr) :
    respellAll name line es = es.map (respell name line) := by
  induction es with
  | nil => rfl
  | cons e es ih => rw [respellAll, ih, List.map_cons]

lemma respell_vector (es : Array Expr) (l : Nat) :
    (vector es l).respell name line = vector (es.map (respell name line)) (line l) := by
  obtain ⟨es⟩ := es
  simp [respell, respellAll_eq_map]

lemma mem_namesAll {x : String} {es : List Expr} {e : Expr} (he : e ∈ es) (hx : x ∈ e.names) :
    x ∈ namesAll es := by
  induction es with
  | nil => cases he
  | cons d es ih =>
    rw [namesAll, List.mem_append]
    rcases List.mem_cons.1 he with rfl | he
    · exact .inl hx
    · exact .inr (ih he)

lemma mem_names_vector {x : String} {es : Array Expr} {l : Nat} {e : Expr} (he : e ∈ es.toList)
    (hx : x ∈ e.names) : x ∈ (vector es l).names :=
  mem_namesAll he hx

lemma respell_ne_vector {a : Expr} (h : ∀ es l, a ≠ vector es l) (es : Array Expr) (l : Nat) :
    a.respell name line ≠ vector es l := by
  cases a with
  | vector ds m => exact (h ds m rfl).elim
  | _ => exact nofun

mutual

@[simp] theorem respell_id : (e : Expr) → e.respell id id = e
  | literal _ _ | identifier _ _ => rfl
  | negate a _ => by rw [respell, respell_id a]; rfl
  | binary _ a b _ => by rw [respell, respell_id a, respell_id b]; rfl
  | call f as _ => by rw [respell, respell_id f, respellAll_id as]; rfl
  | vector ⟨es⟩ _ => by rw [respell, respellAll_id es]; rfl
  | index a i _ => by rw [respell, respell_id a, respell_id i]; rfl

theorem respellAll_id : (es : List Expr) → respellAll id id es = es
  | [] => rfl
  | e :: es => by rw [respellAll, respell_id e, respellAll_id es]

end

mutual

theorem respell_respell (n m : String → String) (f g : Nat → Nat) :
    (e : Expr) → (e.respell n f).respell m g = e.respell (m ∘ n) (g ∘ f)
  | literal _ _ | identifier _ _ => rfl
  | negate a _ => by simp only [respell, respell_respell n m f g a, Function.comp_apply]
  | binary _ a b _ => by
    simp only [respell, respell_respell n m f g a, respell_respell n m f g b, Function.comp_apply]
  | call a as _ => by
    simp only [respell, respell_respell n m f g a, respellAll_respellAll n m f g as,
      Function.comp_apply]
  | vector ⟨es⟩ _ => by simp only [respell, respellAll_respellAll n m f g es, Function.comp_apply]
  | index a i _ => by
    simp only [respell, respell_respell n m f g a, respell_respell n m f g i, Function.comp_apply]

theorem respellAll_respellAll (n m : String → String) (f g : Nat → Nat) :
    (es : List Expr) → respellAll m g (respellAll n f es) = respellAll (m ∘ n) (g ∘ f) es
  | [] => rfl
  | e :: es => by
    rw [respellAll, respellAll, respell_respell n m f g e, respellAll_respellAll n m f g es, respellAll]

end

end Expr

structure Spelling where
  name : Closure → String → String
  line : Nat → Nat

def Closure.respell (σ : Spelling) (c : Closure) : Closure :=
  { c with params := c.params.map (σ.name c), body := c.body.respell (σ.name c) σ.line }

namespace Value

mutual

def respell (σ : Spelling) : Value → Value
  | integer n => integer n
  | vector ⟨vs⟩ => vector ⟨respellAll σ vs⟩
  | function c => function (c.respell σ)

def respellAll (σ : Spelling) : List Value → List Value
  | [] => []
  | v :: vs => v.respell σ :: respellAll σ vs

end

lemma respellAll_eq_map (σ : Spelling) (vs : List Value) : respellAll σ vs = vs.map (respell σ) := by
  induction vs with
  | nil => rfl
  | cons v vs ih => rw [respellAll, ih, List.map_cons]

lemma respell_vector (σ : Spelling) (vs : Array Value) :
    (vector vs).respell σ = vector (vs.map (respell σ)) := by
  obtain ⟨vs⟩ := vs
  simp [respell, respellAll_eq_map]

@[simp] lemma shape_respell (σ : Spelling) (v : Value) : (v.respell σ).shape = v.shape := by
  cases v with
  | integer n => rfl
  | vector vs => simp [respell_vector, shape]
  | function c => rfl

@[simp] lemma integer?_respell (σ : Spelling) (v : Value) : (v.respell σ).integer? = v.integer? := by
  cases v with
  | integer n => rfl
  | vector vs =>
    obtain ⟨vs⟩ := vs
    rfl
  | function c => rfl

lemma apply_eq_error {op : BinaryOp} {v w : Value} (h : v.integer? = none ∨ w.integer? = none) :
    op.apply v w = .error (.invalidOperands op v.shape w.shape) := by
  cases v <;> cases w <;> first | rfl | simp [integer?] at h

end Value

def respelled {α β : Type} (line : Nat → Nat) (f : α → β) : Outcome α → Outcome β
  | .ok a => .ok (f a)
  | .error e => .error ⟨e.cause, line e.line⟩

section Respelled

variable {α β γ δ : Type} {line : Nat → Nat} {f : α → β}

@[simp] lemma respelled_ok (a : α) : respelled line f (.ok a) = .ok (f a) := rfl

@[simp] lemma respelled_error (e : EvalError) :
    respelled line f (.error e) = .error ⟨e.cause, line e.line⟩ := rfl

lemma respelled_bind {r : Outcome α} {k : α → Outcome γ} {g : β → Outcome δ} {h : γ → δ}
    (hk : ∀ a, r = .ok a → g (f a) = respelled line h (k a)) :
    (respelled line f r >>= g) = respelled line h (r >>= k) := by
  cases r with
  | ok a => exact hk a rfl
  | error e => rfl

lemma located_map (l : Nat) (r : Except EvalCause α) :
    located (line l) (r.map f) = respelled line f (located l r) := by
  cases r <;> rfl

lemma mapM_respelled {g : α → Outcome γ} {h : β → Outcome δ} {k : γ → δ} (as : List α)
    (hg : ∀ a ∈ as, h (f a) = respelled line k (g a)) :
    (as.map f).mapM h = respelled line (List.map k) (as.mapM g) := by
  induction as with
  | nil => rfl
  | cons a as ih =>
    rw [List.map_cons, List.mapM_cons, List.mapM_cons, hg a List.mem_cons_self,
      ih fun b hb => hg b (List.mem_cons_of_mem a hb)]
    exact respelled_bind fun c _ => respelled_bind fun cs _ => rfl

lemma element?_map (f : α → β) (xs : Array α) (k : Int64) :
    element? (xs.map f) k = (element? xs k).map f := by
  rw [element?, element?, Array.size_map]
  cases offset? k xs.size with
  | none => rfl
  | some j => simp

end Respelled

namespace Value

variable (σ : Spelling)

lemma negate_respell (v : Value) (l : Nat) :
    located (σ.line l) (v.respell σ).negate = respelled σ.line (respell σ) (located l v.negate) := by
  rw [← located_map]
  cases v with
  | integer n =>
    rw [respell, negate]
    cases fit (-n.toInt) <;> rfl
  | vector vs => simp [respell_vector, negate, shape, Except.map]
  | function c => rfl

lemma apply_respell (op : BinaryOp) (v w : Value) (l : Nat) :
    located (σ.line l) (op.apply (v.respell σ) (w.respell σ)) =
      respelled σ.line (respell σ) (located l (op.apply v w)) := by
  rw [← located_map]
  by_cases h : v.integer? = none ∨ w.integer? = none
  · have h' : (v.respell σ).integer? = none ∨ (w.respell σ).integer? = none := by simpa using h
    rw [apply_eq_error h, apply_eq_error h', shape_respell, shape_respell]
    rfl
  · cases v with
    | integer m =>
      cases w with
      | integer n =>
        rw [respell, respell, BinaryOp.apply]
        cases op.compute m n <;> rfl
      | _ => exact (h (.inr rfl)).elim
    | _ => exact (h (.inl rfl)).elim

lemma position_respell (v : Value) (l : Nat) :
    (v.respell σ).position (σ.line l) = respelled σ.line id (v.position l) := by
  cases v with
  | integer k => rfl
  | vector vs => simp [respell_vector, position, shape]
  | function c => rfl

lemma select_respell (v : Value) (l : Nat) (k : Int64) :
    (v.respell σ).select (σ.line l) k = respelled σ.line (respell σ) (v.select l k) := by
  cases v with
  | integer n => rfl
  | vector vs =>
    rw [respell_vector, select, select, ← located_map, element?_map, Array.size_map]
    cases element? vs k <;> rfl
  | function c => rfl

lemma callee_respell (v : Value) (l : Nat) :
    (v.respell σ).callee (σ.line l) = respelled σ.line (Closure.respell σ) (v.callee l) := by
  cases v with
  | integer n => rfl
  | vector vs => simp [respell_vector, callee, shape]
  | function c => rfl

end Value

end ExprLang
