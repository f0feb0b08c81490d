import ExprLang.Proofs.Evaluation.Purity
import Mathlib.Data.List.Forall2

/-! Outcomes of two evaluations side by side. -/

namespace ExprLang

inductive Agree {α β : Type} (R : α → β → Prop) : Outcome α → Outcome β → Prop
  | ok {a b} : R a b → Agree R (.ok a) (.ok b)
  | error (e) : Agree R (.error e) (.error e)

lemma Agree.bind {α β γ δ : Type} {R : α → β → Prop} {S : γ → δ → Prop} {r : Outcome α} {q : Outcome β}
    {f : α → Outcome γ} {g : β → Outcome δ} (h : Agree R r q) (hf : ∀ a b, R a b → Agree S (f a) (g b)) :
    Agree S (r >>= f) (q >>= g) := by
  cases h with
  | ok h => exact hf _ _ h
  | error e => exact .error e

inductive AgreeUnless {α β : Type} (excused : EvalCause → Prop) (R : α → β → Prop) :
    Outcome α → Outcome β → Prop
  | ok {a b} : R a b → AgreeUnless excused R (.ok a) (.ok b)
  | error (e) : AgreeUnless excused R (.error e) (.error e)
  | excused {e r} : excused e.cause → AgreeUnless excused R (.error e) r

lemma AgreeUnless.bind {α β γ δ : Type} {excused : EvalCause → Prop} {R : α → β → Prop}
    {S : γ → δ → Prop} {r : Outcome α} {q : Outcome β} {f : α → Outcome γ} {g : β → Outcome δ}
    (h : AgreeUnless excused R r q) (hf : ∀ a b, R a b → AgreeUnless excused S (f a) (g b)) :
    AgreeUnless excused S (r >>= f) (q >>= g) := by
  cases h with
  | ok h => exact hf _ _ h
  | error e => exact .error e
  | excused he => exact .excused he

section Related

variable {α β γ : Type} {R : α → β → Prop} {excused : EvalCause → Prop} {r : Outcome α} {q : Outcome β}

lemma Agree.unless (h : Agree R r q) : AgreeUnless excused R r q := by
  cases h with
  | ok h => exact .ok h
  | error e => exact .error e

lemma AgreeUnless.or_agree (h : AgreeUnless excused R r q) :
    (∃ e, r = .error e ∧ excused e.cause) ∨ Agree R r q := by
  cases h with
  | ok h => exact .inr (.ok h)
  | error e => exact .inr (.error e)
  | excused he => exact .inl ⟨_, rfl, he⟩

lemma Agree.mono {S : α → β → Prop} (h : Agree R r q) (hR : ∀ a b, R a b → S a b) : Agree S r q := by
  cases h with
  | ok h => exact .ok (hR _ _ h)
  | error e => exact .error e

lemma agree_iff_agreeUnless : Agree R r q ↔ AgreeUnless (fun _ => False) R r q := by
  refine ⟨Agree.unless, fun h => h.or_agree.resolve_left ?_⟩
  rintro ⟨e, -, he⟩
  exact he

lemma agreeUnless_mapM {f : γ → Outcome α} {g : γ → Outcome β} (as : List γ)
    (h : ∀ a ∈ as, AgreeUnless excused R (f a) (g a)) :
    AgreeUnless excused (List.Forall₂ R) (as.mapM f) (as.mapM g) := by
  induction as with
  | nil => exact .ok .nil
  | cons a as ih =>
    rw [List.mapM_cons, List.mapM_cons]
    refine (h a List.mem_cons_self).bind fun b c hb => ?_
    exact (ih fun d hd => h d (List.mem_cons_of_mem a hd)).bind fun bs cs hbs => .ok (.cons hb hbs)

lemma agree_mapM {f : γ → Outcome α} {g : γ → Outcome β} (as : List γ)
    (h : ∀ a ∈ as, Agree R (f a) (g a)) : Agree (List.Forall₂ R) (as.mapM f) (as.mapM g) :=
  agree_iff_agreeUnless.2 (agreeUnless_mapM as fun a ha => (h a ha).unless)

lemma forall₂_of_mapM {f : α → Outcome β} {as : List α} {bs : List β} (h : as.mapM f = .ok bs) :
    List.Forall₂ (fun a b => f a = .ok b) as bs := by
  induction as generalizing bs with
  | nil =>
    cases h
    exact .nil
  | cons a as ih =>
    rw [List.mapM_cons] at h
    cases ha : f a with
    | error e =>
      rw [ha] at h
      cases h
    | ok b =>
      cases has : as.mapM f with
      | error e =>
        rw [ha, has] at h
        cases h
      | ok cs =>
        rw [ha, has] at h
        cases h
        exact .cons ha (ih has)

lemma length_of_mapM {f : α → Outcome β} {as : List α} {bs : List β} (h : as.mapM f = .ok bs) :
    bs.length = as.length :=
  (forall₂_of_mapM h).length_eq.symm

lemma agree_located {f : γ → α} {g : γ → β} (line : Nat) (r : Except EvalCause γ)
    (h : ∀ c, R (f c) (g c)) : Agree R (located line (r.map f)) (located line (r.map g)) := by
  cases r with
  | ok c => exact .ok (h c)
  | error e => exact .error _

lemma rel_self {R : α → α → Prop} {a : Option α} (h : ∀ v, a = some v → R v v) : Option.Rel R a a := by
  cases a with
  | none => exact .none
  | some v => exact .some (h v rfl)

lemma rel_or {a b : Option α} {c d : Option β} (h : Option.Rel R a c) (h' : Option.Rel R b d) :
    Option.Rel R (a.or b) (c.or d) := by
  cases h with
  | some h => exact .some h
  | none => exact h'

lemma rel_findSome? {f : γ → Option α} {g : γ → Option β} (cs : List γ)
    (h : ∀ c ∈ cs, Option.Rel R (f c) (g c)) : Option.Rel R (cs.findSome? f) (cs.findSome? g) := by
  induction cs with
  | nil => exact .none
  | cons c cs ih =>
    have hc := h c List.mem_cons_self
    rw [List.findSome?_cons, List.findSome?_cons]
    generalize f c = a at hc ⊢
    generalize g c = b at hc ⊢
    cases hc with
    | some hr => exact .some hr
    | none => exact ih fun d hd => h d (List.mem_cons_of_mem c hd)

lemma rel_lookup_zip {as : List α} {bs : List β} (h : List.Forall₂ R as bs) (params : List String)
    (x : String) :
    Option.Rel R ((params.zip as).reverse.lookup x) ((params.zip bs).reverse.lookup x) := by
  induction h generalizing params with
  | nil => simp
  | cons hv _ ih =>
    cases params with
    | nil => simp
    | cons p params =>
      simp only [List.zip_cons_cons, List.reverse_cons, List.lookup_append, List.lookup_cons,
        List.lookup_nil]
      refine rel_or (ih params) ?_
      split
      · exact .some hv
      · exact .none

end Related

end ExprLang
