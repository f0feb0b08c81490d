import ExprLang.Store
import Mathlib.Tactic.Lemma

namespace ExprLang

/-- An operation names an environment by its place among those made so far. -/
inductive History : Nat → Type
  | nil : History 0
  | root {n : Nat} (h : History n) : History (n + 1)
  | child {n : Nat} (h : History n) (outer : Fin n) : History (n + 1)
  | define {n : Nat} (h : History n) (e : Fin n) (x : String) (v : Value) : History n

namespace History

def run : {n : Nat} → History n → Store × Vector Scope n
  | _, nil => (.empty, #v[])
  | _, root h =>
    let (store, scopes) := h.run
    let (sc, store) := store.root
    (store, scopes.push sc)
  | _, child h outer =>
    let (store, scopes) := h.run
    let (sc, store) := store.child (scopes.get outer) ∅
    (store, scopes.push sc)
  | _, define h e x v =>
    let (store, scopes) := h.run
    (store.define (scopes.get e) x v, scopes)

variable {n : Nat}

def store (h : History n) : Store := h.run.1

def scopes (h : History n) : Vector Scope n := h.run.2

def lookup (h : History n) (e : Fin n) (x : String) : Option Value := h.store.lookup (h.scopes.get e) x

def binds (h : History n) (e : Fin n) (x : String) : Bool := h.store.binds (h.scopes.get e) x

def writes : {n : Nat} → History n → Nat → String → List Value
  | _, nil, _, _ => []
  | _, root h, e, x => h.writes e x
  | _, child h _, e, x => h.writes e x
  | _, define h f y v, e, x => if e = f ∧ y = x then v :: h.writes e x else h.writes e x

def parent? : {n : Nat} → History n → Nat → Option Nat
  | _, nil, _ => none
  | n + 1, root h, e => if e = n then none else h.parent? e
  | n + 1, child h outer, e => if e = n then some outer else h.parent? e
  | _, define h _ _ _, e => h.parent? e

def ancestor? (h : History n) : Nat → Nat → Option Nat
  | 0, e => some e
  | k + 1, e => (h.parent? e).bind (h.ancestor? k)

/-- The environment `f` is `e` or lies around it, and none that is nearer was ever given a value for `x`. -/
def Exposes (h : History n) (e : Nat) (x : String) (f : Nat) : Prop :=
  ∃ k, h.ancestor? k e = some f ∧ ∀ j < k, ∀ g, h.ancestor? j e = some g → h.writes g x = []

structure Tracked (h : History n) : Prop where
  size_eq : h.store.frames.size = n
  frame_eq (e : Nat) (he : e < n) : h.scopes[e].frame = e
  bindings (e : Nat) (x : String) : (h.store.frame e)[x]? = (h.writes e x).head?
  outermost (e : Nat) (he : e < n) : h.parent? e = none → h.scopes[e].enclosing = []
  inner (e : Nat) (he : e < n) (p : Nat) : h.parent? e = some p →
    ∃ hp : p < e, h.scopes[e].enclosing = h.scopes[p].chain

variable {h : History n} {e f k p : Nat} {x : String}

lemma Tracked.push {h' : History (n + 1)} {enclosing : List Nat} (t : h.Tracked)
    (scopes_eq : h'.scopes = h.scopes.push ⟨h.store.frames.size, enclosing⟩)
    (size_eq : h'.store.frames.size = h.store.frames.size + 1)
    (bindings_eq : ∀ (e : Nat) (x : String), (h'.store.frame e)[x]? = (h.store.frame e)[x]?)
    (writes_eq : ∀ e x, h'.writes e x = h.writes e x)
    (parent_eq : ∀ e, h'.parent? e = if e = n then h'.parent? n else h.parent? e)
    (outermost : h'.parent? n = none → enclosing = [])
    (inner : ∀ p, h'.parent? n = some p → ∃ hp : p < n, enclosing = h.scopes[p].chain) :
    h'.Tracked where
  size_eq := by rw [size_eq, t.size_eq]
  frame_eq e he := by
    have hs := t.size_eq
    simp only [scopes_eq, Vector.getElem_push]
    split
    · rename_i hn
      exact t.frame_eq e hn
    · dsimp only
      omega
  bindings e x := by rw [bindings_eq, writes_eq, t.bindings]
  outermost e he hp := by
    rw [parent_eq] at hp
    simp only [scopes_eq, Vector.getElem_push]
    split
    · rename_i hn
      rw [if_neg (Nat.ne_of_lt hn)] at hp
      exact t.outermost e hn hp
    · rw [if_pos (by omega)] at hp
      exact outermost hp
  inner e he p hp := by
    rw [parent_eq] at hp
    simp only [scopes_eq, Vector.getElem_push]
    split
    · rename_i hn
      rw [if_neg (Nat.ne_of_lt hn)] at hp
      obtain ⟨hpe, hc⟩ := t.inner e hn p hp
      have hpn : p < n := Nat.lt_trans hpe hn
      exact ⟨hpe, by rw [dif_pos hpn, hc]⟩
    · rw [if_pos (by omega)] at hp
      obtain ⟨hpn, hc⟩ := inner p hp
      exact ⟨by omega, by rw [dif_pos hpn, hc]⟩

lemma Tracked.define (t : h.Tracked) (f : Fin n) (y : String) (v : Value) :
    (h.define f y v).Tracked where
  size_eq := Array.size_modify.trans t.size_eq
  frame_eq := t.frame_eq
  bindings e x := by
    have hf : (h.scopes.get f).frame = f := t.frame_eq f f.isLt
    have hn : h.store.frames.size = n := t.size_eq
    have hd := getElem?_define h.store (h.scopes.get f) y v e x
    rw [hf, hn, t.bindings] at hd
    refine hd.trans ?_
    rw [writes]
    by_cases he : e = f ∧ y = x
    · rw [if_pos he, if_pos ⟨⟨he.1, he.1 ▸ f.isLt⟩, he.2⟩]
      rfl
    · rw [if_neg he, if_neg fun hc => he ⟨hc.1.1, hc.2⟩]
  outermost := t.outermost
  inner := t.inner

theorem tracked : {n : Nat} → (h : History n) → h.Tracked
  | _, nil => by
    refine ⟨rfl, nofun, fun e x => ?_, nofun, nofun⟩
    simp [store, run, Store.empty, Store.frame, writes]
  | _, root h => by
    refine h.tracked.push rfl ?_ ?_ (fun _ _ => rfl) ?_ (fun _ => rfl) ?_
    · exact Array.size_push _
    · intro e x
      exact congrArg (·[x]?) (h.store.frame_root e)
    · intro e
      simp only [parent?, if_true]
    · intro p hp
      simp [parent?] at hp
  | _, child h outer => by
    have t := h.tracked
    refine t.push rfl ?_ ?_ (fun _ _ => rfl) ?_ ?_ ?_
    · exact Array.size_push _
    · intro e x
      refine (congrArg (·[x]?) (h.store.frame_child (h.scopes.get outer) ∅ e)).trans ?_
      split
      · rename_i he
        subst he
        simp [Store.frame]
      · rfl
    · intro e
      simp only [parent?, if_true]
    · intro hp
      simp [parent?] at hp
    · intro p hp
      simp only [parent?, if_true, Option.some.injEq] at hp
      subst hp
      exact ⟨outer.isLt, rfl⟩
  | _, define h f y v => h.tracked.define f y v

lemma parent?_lt (h : History n) (e : Fin n) (hp : h.parent? e = some p) : p < e :=
  (h.tracked.inner e e.isLt p hp).1

theorem inward_induction (h : History n) {P : Fin n → Prop}
    (outermost : ∀ e : Fin n, h.parent? e = none → P e)
    (inner : ∀ e p : Fin n, h.parent? e = some p.val → P p → P e) (e : Fin n) : P e := by
  obtain ⟨e, he⟩ := e
  induction e using Nat.strongRecOn with
  | ind e ih =>
    cases hp : h.parent? e with
    | none => exact outermost ⟨e, he⟩ hp
    | some p =>
      have hpe : p < e := h.parent?_lt ⟨e, he⟩ hp
      have hpn : p < n := Nat.lt_trans hpe he
      exact inner ⟨e, he⟩ ⟨p, hpn⟩ hp (ih p hpe hpn)

lemma lookup_eq (h : History n) (e : Fin n) (x : String) : h.lookup e x =
    ((h.writes e x).head?).or ((h.scopes.get e).enclosing.findSome? fun f => (h.store.frame f)[x]?) := by
  have hf : (h.scopes.get e).frame = e := h.tracked.frame_eq e e.isLt
  have hl : h.lookup e x = ((h.store.frame (h.scopes.get e).frame)[x]?).or
      ((h.scopes.get e).enclosing.findSome? fun f => (h.store.frame f)[x]?) := lookup_cons h.store _ _ x
  rw [hl, hf, h.tracked.bindings]

lemma lookup_outermost (h : History n) (e : Fin n) (x : String) (hp : h.parent? e = none) :
    h.lookup e x = (h.writes e x).head? := by
  have hs : (h.scopes.get e).enclosing = [] := h.tracked.outermost e e.isLt hp
  rw [lookup_eq, hs]
  exact Option.or_none

lemma lookup_inner (h : History n) (e p : Fin n) (x : String) (hp : h.parent? e = some p.val) :
    h.lookup e x = ((h.writes e x).head?).or (h.lookup p x) := by
  obtain ⟨_, hs⟩ := h.tracked.inner e e.isLt p hp
  have hc : (h.scopes.get e).enclosing = (h.scopes.get p).chain := hs
  rw [lookup_eq, hc]
  rfl

lemma ancestor?_le (h : History n) (e : Fin n) : ∀ k f, h.ancestor? k e = some f → f + k ≤ e := by
  induction e using h.inward_induction with
  | outermost e hp =>
    intro k f hf
    cases k with
    | zero =>
      cases hf
      exact Nat.le_refl _
    | succ k => simp [ancestor?, hp] at hf
  | inner e p hp ih =>
    intro k f hf
    cases k with
    | zero =>
      cases hf
      exact Nat.le_refl _
    | succ k =>
      have hpe : p.val < e := h.parent?_lt e hp
      rw [ancestor?, hp, Option.bind_some] at hf
      have := ih k f hf
      omega

lemma exposes_self (h : History n) (e : Nat) (x : String) : h.Exposes e x e :=
  ⟨0, rfl, nofun⟩

lemma exposes_outermost (hp : h.parent? e = none) : h.Exposes e x f ↔ f = e := by
  constructor
  · rintro ⟨k, hk, -⟩
    cases k with
    | zero => exact (Option.some.inj hk).symm
    | succ k => simp [ancestor?, hp] at hk
  · rintro rfl
    exact h.exposes_self f x

lemma exposes_inner (hp : h.parent? e = some p) :
    h.Exposes e x f ↔ f = e ∨ h.writes e x = [] ∧ h.Exposes p x f := by
  constructor
  · rintro ⟨k, hk, hn⟩
    cases k with
    | zero => exact .inl (Option.some.inj hk).symm
    | succ k =>
      have he : h.writes e x = [] := hn 0 k.succ_pos e rfl
      rw [ancestor?, hp, Option.bind_some] at hk
      refine .inr ⟨he, k, hk, fun j hj g hg => hn (j + 1) (Nat.succ_lt_succ hj) g ?_⟩
      rw [ancestor?, hp, Option.bind_some, hg]
  · rintro (rfl | ⟨he, k, hk, hn⟩)
    · exact h.exposes_self f x
    · refine ⟨k + 1, by rw [ancestor?, hp, Option.bind_some, hk], fun j hj g hg => ?_⟩
      cases j with
      | zero =>
        cases hg
        exact he
      | succ j =>
        rw [ancestor?, hp, Option.bind_some] at hg
        exact hn j (Nat.lt_of_succ_lt_succ hj) g hg

lemma lookup_eq_some_iff (h : History n) (e : Fin n) (x : String) (v : Value) :
    h.lookup e x = some v ↔ ∃ f, h.Exposes e x f ∧ (h.writes f x).head? = some v := by
  induction e using h.inward_induction with
  | outermost e hp =>
    rw [h.lookup_outermost e x hp]
    simp only [exposes_outermost hp, exists_eq_left]
  | inner e p hp ih =>
    rw [h.lookup_inner e p x hp]
    simp only [exposes_inner hp]
    cases hw : h.writes e x with
    | nil =>
      rw [List.head?_nil, Option.none_or, ih]
      constructor
      · rintro ⟨f, hf, hv⟩
        exact ⟨f, .inr ⟨rfl, hf⟩, hv⟩
      · rintro ⟨f, rfl | ⟨-, hf⟩, hv⟩
        · rw [hw] at hv
          cases hv
        · exact ⟨f, hf, hv⟩
    | cons u us =>
      rw [List.head?_cons, Option.some_or]
      constructor
      · intro hu
        exact ⟨e, .inl rfl, hw ▸ hu⟩
      · rintro ⟨f, rfl | ⟨he, -⟩, hv⟩
        · rwa [hw] at hv
        · cases he

lemma lookup_eq_none_iff (h : History n) (e : Fin n) (x : String) :
    h.lookup e x = none ↔ ∀ k f, h.ancestor? k e = some f → h.writes f x = [] := by
  induction e using h.inward_induction with
  | outermost e hp =>
    rw [h.lookup_outermost e x hp, List.head?_eq_none_iff]
    constructor
    · intro he k f hf
      cases k with
      | zero =>
        cases hf
        exact he
      | succ k => simp [ancestor?, hp] at hf
    · intro ha
      exact ha 0 e rfl
  | inner e p hp ih =>
    rw [h.lookup_inner e p x hp, Option.or_eq_none_iff, ih, List.head?_eq_none_iff]
    constructor
    · rintro ⟨he, ha⟩ k f hf
      cases k with
      | zero =>
        cases hf
        exact he
      | succ k =>
        rw [ancestor?, hp, Option.bind_some] at hf
        exact ha k f hf
    · intro ha
      refine ⟨ha 0 e rfl, fun k f hf => ha (k + 1) f ?_⟩
      rw [ancestor?, hp, Option.bind_some, hf]

lemma writes_define (h : History n) (f : Fin n) (y : String) (v : Value) (e : Nat) (x : String) :
    (h.define f y v).writes e x = if e = f ∧ y = x then v :: h.writes e x else h.writes e x :=
  rfl

lemma lookup_define_of_exposes (h : History n) (e f : Fin n) (x : String) (v : Value)
    (hf : h.Exposes e x f) : (h.define f x v).lookup e x = some v := by
  induction e using h.inward_induction with
  | outermost e hp =>
    have he : f.val = e := (exposes_outermost hp).1 hf
    rw [(h.define f x v).lookup_outermost e x hp, writes_define, if_pos ⟨he.symm, rfl⟩]
    rfl
  | inner e p hp ih =>
    rw [(h.define f x v).lookup_inner e p x hp, writes_define]
    by_cases he : e.val = f
    · rw [if_pos ⟨he, rfl⟩]
      rfl
    · rcases (exposes_inner hp).1 hf with hfe | ⟨hw, hf⟩
      · exact (he hfe.symm).elim
      · rw [if_neg fun hc => he hc.1, hw, ih hf]
        rfl

lemma lookup_define_of_not (h : History n) (e f : Fin n) (x y : String) (v : Value)
    (hf : ¬ (x = y ∧ h.Exposes e x f)) : (h.define f y v).lookup e x = h.lookup e x := by
  have hd (g : Fin n) (hg : ¬ (x = y ∧ h.Exposes g x f)) :
      (h.define f y v).writes g x = h.writes g x := by
    rw [writes_define]
    apply if_neg
    rintro ⟨he, hx⟩
    exact hg ⟨hx.symm, he ▸ h.exposes_self g x⟩
  induction e using h.inward_induction with
  | outermost e hp => rw [(h.define f y v).lookup_outermost e x hp, hd e hf, h.lookup_outermost e x hp]
  | inner e p hp ih =>
    rw [(h.define f y v).lookup_inner e p x hp, hd e hf, h.lookup_inner e p x hp]
    cases hw : h.writes e x with
    | nil =>
      have hfp : ¬ (x = y ∧ h.Exposes p x f) := by
        rintro ⟨hx, hp'⟩
        exact hf ⟨hx, (exposes_inner hp).2 (.inr ⟨hw, hp'⟩)⟩
      rw [ih hfp]
    | cons u us => rfl

lemma binds_iff (h : History n) (e : Fin n) (x : String) : h.binds e x = true ↔ h.writes e x ≠ [] := by
  have hf : (h.scopes.get e).frame = e := h.tracked.frame_eq e e.isLt
  have hb := h.tracked.bindings e x
  rw [binds, Store.binds, hf, Std.TreeMap.contains_eq_isSome_getElem?, hb, Option.isSome_iff_ne_none, Ne,
    List.head?_eq_none_iff]

lemma parent?_scope (h : History n) (e : Fin n) :
    (h.scopes.get e).parent? = (h.parent? e).bind (h.scopes[·]?) := by
  rw [Scope.parent?]
  cases hp : h.parent? e with
  | none =>
    have hs : (h.scopes.get e).enclosing = [] := h.tracked.outermost e e.isLt hp
    rw [hs]
    rfl
  | some p =>
    obtain ⟨hpe, hs⟩ := h.tracked.inner e e.isLt p hp
    have hpn : p < n := Nat.lt_trans hpe e.isLt
    have hc : (h.scopes.get e).enclosing = h.scopes[p].chain := hs
    rw [hc, Option.bind_some, Vector.getElem?_eq_getElem hpn]
    rfl

theorem lookup_nearest (h : History n) (e : Fin n) (x : String) :
    (∀ v, h.lookup e x = some v ↔ ∃ f, h.Exposes e x f ∧ (h.writes f x).head? = some v) ∧
    (h.lookup e x = none ↔ ∀ k f, h.ancestor? k e = some f → h.writes f x = []) ∧
    (h.scopes.get e).parent? = (h.parent? e).bind (h.scopes[·]?) ∧
    (∀ k f, h.ancestor? k e = some f → f + k ≤ e) ∧
    (h.binds e x = true ↔ h.writes e x ≠ []) ∧
    ∀ (f : Fin n) (y : String) (v : Value),
      ((h.define f y v).lookup e x ≠ h.lookup e x → x = y ∧ h.Exposes e x f) ∧
      (x = y ∧ h.Exposes e x f → (h.define f y v).lookup e x = some v) := by
  refine ⟨h.lookup_eq_some_iff e x, h.lookup_eq_none_iff e x, h.parent?_scope e, h.ancestor?_le e,
    h.binds_iff e x, fun f y v => ⟨?_, ?_⟩⟩
  · intro hne
    apply Classical.byContradiction
    intro hf
    exact hne (h.lookup_define_of_not e f x y v hf)
  · rintro ⟨rfl, hf⟩
    exact h.lookup_define_of_exposes e f x v hf

def nested : History 2 := .child (.root .nil) 0

def shadowed : History 2 := nested.define 1 "x" (.integer 2)

theorem lookup_nearest_shadowed :
    (nested.define 0 "x" (.integer 1)).lookup 1 "x" ≠ nested.lookup 1 "x" ∧
    nested.Exposes 1 "x" 0 ∧
    (nested.define 0 "x" (.integer 1)).lookup 1 "x" = some (.integer 1) ∧
    ¬ shadowed.Exposes 1 "x" 0 ∧
    (shadowed.define 0 "x" (.integer 1)).lookup 1 "x" = some (.integer 2) := by
  have he : nested.Exposes 1 "x" 0 := ⟨1, rfl, fun _ _ _ _ => rfl⟩
  obtain ⟨-, hnone, -, -, -, hdefine⟩ := lookup_nearest nested 1 "x"
  obtain ⟨-, -, -, -, -, hdefine'⟩ := lookup_nearest shadowed 1 "x"
  obtain ⟨hsome, -⟩ := lookup_nearest (shadowed.define 0 "x" (.integer 1)) 1 "x"
  have hn : nested.lookup 1 "x" = none := hnone.2 fun _ _ _ => rfl
  have hd : (nested.define 0 "x" (.integer 1)).lookup 1 "x" = some (.integer 1) :=
    (hdefine 0 "x" (.integer 1)).2 ⟨rfl, he⟩
  have hs : (shadowed.define 0 "x" (.integer 1)).lookup 1 "x" = some (.integer 2) := by
    refine (hsome (.integer 2)).2 ⟨1, exposes_self _ _ _, ?_⟩
    simp [shadowed, nested, writes]
  refine ⟨?_, he, hd, fun he' => ?_, hs⟩
  · rw [hd, hn]
    exact Option.some_ne_none _
  · have hv := (hdefine' 0 "x" (.integer 1)).2 ⟨rfl, he'⟩
    rw [hs] at hv
    cases hv

end History

end ExprLang
