import ExprLang.Proofs.Evaluation.Reach

namespace ExprLang

namespace Value

inductive Alike (R : Closure → Closure → Prop) : Value → Value → Prop
  | integer (n) : Alike R (.integer n) (.integer n)
  | vector {vs ws} (size_eq : vs.size = ws.size)
      (element : ∀ i (hv : i < vs.size) (hw : i < ws.size), Alike R vs[i] ws[i]) :
      Alike R (.vector vs) (.vector ws)
  | function {c d} : R c d → Alike R (.function c) (.function d)

variable {R S : Closure → Closure → Prop} {u v w : Value}

theorem element_induction {P : Value → Prop} (integer : ∀ n, P (.integer n))
    (vector : ∀ vs : Array Value, (∀ v ∈ vs, P v) → P (.vector vs)) (function : ∀ c, P (.function c)) :
    ∀ v, P v
  | .integer n => integer n
  | .vector vs => vector vs fun v hv =>
    have := Array.sizeOf_lt_of_mem hv
    element_induction integer vector function v
  | .function c => function c

lemma Alike.refl (h : ∀ c, v.Holds c → R c c) : Alike R v v := by
  induction v using element_induction with
  | integer n => exact .integer n
  | vector vs ih =>
    refine .vector rfl fun i hi _ => ?_
    have hv : vs[i] ∈ vs := Array.getElem_mem hi
    exact ih _ hv fun c hc => h c (.element hv hc)
  | function c => exact .function (h c .function)

lemma Alike.eq (h : Alike Eq v w) : v = w := by
  induction h with
  | integer n => rfl
  | vector hs _ ih => exact congrArg Value.vector (Array.ext hs ih)
  | function h => exact congrArg Value.function h

lemma Alike.symm (hR : ∀ c d, R c d → R d c) (h : Alike R v w) : Alike R w v := by
  induction h with
  | integer n => exact .integer n
  | vector hs _ ih => exact .vector hs.symm fun i hw hv => ih i hv hw
  | function h => exact .function (hR _ _ h)

lemma Alike.trans (hR : ∀ c d e, R c d → R d e → R c e) (h : Alike R u v) (h' : Alike R v w) :
    Alike R u w := by
  induction h generalizing w with
  | integer n => exact h'
  | vector hs _ ih =>
    cases h' with
    | vector hs' he =>
      refine .vector (hs.trans hs') fun i hu hw => ?_
      have hv := hs ▸ hu
      exact ih i hu hv (he i hv hw)
  | function h =>
    cases h' with
    | function h' => exact .function (hR _ _ _ h h')

lemma Alike.mono (h : Alike R v w) (hR : ∀ c d, v.Holds c → w.Holds d → R c d → S c d) : Alike S v w := by
  induction h with
  | integer n => exact .integer n
  | vector hs _ ih =>
    refine .vector hs fun i hv hw => ih i hv hw fun c d hc hd => ?_
    exact hR c d (.element (Array.getElem_mem hv) hc) (.element (Array.getElem_mem hw) hd)
  | function h => exact .function (hR _ _ .function .function h)

def SameNumber (c d : Closure) : Prop := c.number = d.number

lemma forall₂_append {α β : Type} {P : α → β → Prop} {as cs : List α} {bs ds : List β}
    (h : as.length = bs.length) :
    List.Forall₂ P (as ++ cs) (bs ++ ds) ↔ List.Forall₂ P as bs ∧ List.Forall₂ P cs ds := by
  induction as generalizing bs with
  | nil =>
    cases List.eq_nil_of_length_eq_zero h.symm
    simp
  | cons a as ih =>
    cases bs with
    | nil => cases h
    | cons b bs => simp [ih (Nat.succ.inj h), and_assoc]

lemma alike_vector_iff {vs ws : Array Value} :
    Alike R (.vector vs) (.vector ws) ↔ List.Forall₂ (Alike R) vs.toList ws.toList := by
  rw [List.forall₂_iff_get]
  constructor
  · rintro (_ | ⟨hs, he⟩)
    exact ⟨hs, fun i hv hw => he i hv hw⟩
  · rintro ⟨hs, he⟩
    exact .vector hs fun i hv hw => he i hv hw

lemma alike_integer_iff {m n : Int64} : Alike R (.integer m) (.integer n) ↔ m = n := by
  constructor
  · rintro ⟨⟩
    rfl
  · rintro rfl
    exact .integer m

lemma alike_function_iff {c d : Closure} : Alike R (.function c) (.function d) ↔ R c d := by
  constructor
  · rintro ⟨⟩
    assumption
  · exact .function

lemma sameAll_iff_alike (vs ws : List Value) :
    sameAll vs ws = true ↔ List.Forall₂ (Alike SameNumber) vs ws := by
  fun_induction sameAll vs ws with
  | case1 => simp
  | case2 m vs n ws ih =>
    rw [Bool.and_eq_true, beq_iff_eq, ih, List.forall₂_cons, alike_integer_iff]
  | case3 as vs bs ws ih =>
    rw [Bool.and_eq_true, beq_iff_eq, ih, List.forall₂_cons, alike_vector_iff]
    rw [Array.toListAppend_eq, Array.toListAppend_eq]
    constructor
    · rintro ⟨hs, h⟩
      exact (forall₂_append hs).1 h
    · rintro ⟨h, hvs⟩
      have hs : as.size = bs.size := h.length_eq
      exact ⟨hs, (forall₂_append hs).2 ⟨h, hvs⟩⟩
  | case4 c vs d ws ih =>
    rw [Bool.and_eq_true, beq_iff_eq, ih, List.forall₂_cons, alike_function_iff, SameNumber]
  | case5 vs ws hnil hinteger hvector hfunction =>
    refine iff_of_false Bool.false_ne_true fun h => ?_
    cases h with
    | nil => exact hnil rfl rfl
    | cons h _ =>
      cases h with
      | integer n => exact hinteger _ _ _ _ rfl rfl
      | vector => exact hvector _ _ _ _ rfl rfl
      | function => exact hfunction _ _ _ _ rfl rfl

theorem same_iff_alike (v w : Value) : v.same w = true ↔ Alike SameNumber v w := by
  rw [same, sameAll_iff_alike, List.forall₂_cons]
  simp

theorem same_refl (v : Value) : v.same v = true := by
  rw [same_iff_alike]
  apply Alike.refl
  intro c _
  rfl

theorem same_symm (h : v.same w = true) : w.same v = true := by
  rw [same_iff_alike] at h ⊢
  apply h.symm
  intro c d
  exact Eq.symm

theorem same_trans (h : u.same v = true) (h' : v.same w = true) : u.same w = true := by
  rw [same_iff_alike] at h h' ⊢
  apply h.trans _ h'
  intro c d e
  exact Eq.trans

end Value

end ExprLang
