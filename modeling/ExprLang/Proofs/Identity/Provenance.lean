import ExprLang.Proofs.Identity.Transport
import Mathlib.Logic.Relation

/-! Where the functions of a session come from. -/

namespace ExprLang

structure Transcript where
  store : Store
  scopes : List Scope
  origins : List Closure
  values : List Value

def Statement.makes : Statement → Value → List Closure
  | .definition _, .function c => [c]
  | _, _ => []

def made (limit : Nat) (sc : Scope) : Program → State → List Closure
  | [], _ => []
  | st :: p, s =>
    match evalStatement limit sc st s with
    | (.ok v, s) => st.makes v ++ made limit sc p s
    | (.error _, _) => []

namespace Transcript

def start : Transcript := ⟨.empty, [], [], []⟩

def root (t : Transcript) : Transcript :=
  { t with store := t.store.root.2, scopes := t.store.root.1 :: t.scopes }

def child (t : Transcript) (sc : Scope) : Transcript :=
  { t with store := (t.store.child sc ∅).2, scopes := (t.store.child sc ∅).1 :: t.scopes }

def define (t : Transcript) (sc : Scope) (x : String) (v : Value) : Transcript :=
  { t with store := t.store.define sc x v }

def see (t : Transcript) (v : Value) : Transcript := { t with values := v :: t.values }

def supply (t : Transcript) (name : String) (params : List String) (body : Expr) (sc : Scope) :
    Transcript :=
  let (c, store) := t.store.close name params body sc
  { t with store, origins := t.origins ++ [c], values := .function c :: t.values }

def run (t : Transcript) (limit depth : Nat) (sc : Scope) (p : Program) : Transcript :=
  let (r, s) := evalProgram limit sc p ⟨t.store, depth⟩
  { t with
    store := s.store
    origins := t.origins ++ made limit sc p ⟨t.store, depth⟩
    values := r.toOption.toList ++ t.values }

inductive Next (t : Transcript) : Transcript → Prop
  | root : Next t t.root
  | child {sc} : sc ∈ t.scopes → Next t (t.child sc)
  | define {sc x v} : sc ∈ t.scopes → v ∈ t.values → Next t (t.define sc x v)
  | lookup {sc x v} : sc ∈ t.scopes → t.store.lookup sc x = some v → Next t (t.see v)
  | integer {n} : Next t (t.see (.integer n))
  | vector {vs : Array Value} : (∀ v ∈ vs, v ∈ t.values) → Next t (t.see (.vector vs))
  | element {vs v} : .vector vs ∈ t.values → v ∈ vs → Next t (t.see v)
  | supply {name params body sc} : sc ∈ t.scopes → Next t (t.supply name params body sc)
  | run {limit depth sc p} : sc ∈ t.scopes → Next t (t.run limit depth sc p)

def Reached (t : Transcript) : Prop := Relation.ReflTransGen Next start t

/-- What one execution of a definition made, or what was brought in as one function. -/
def SameOrigin (t : Transcript) (c d : Closure) : Prop :=
  ∃ k : Nat, t.origins[k]? = some c ∧ t.origins[k]? = some d

structure Sound (store : Store) (origins : List Closure) (values : List Value) : Prop where
  length_eq : origins.length = store.closures
  number_eq (k : Nat) (c : Closure) : origins[k]? = some c → c.number = k
  bound (f : Nat) (x : String) (v : Value) : (store.frame f)[x]? = some v → v.Within (· ∈ origins)
  seen (v : Value) : v ∈ values → v.Within (· ∈ origins)

variable {store : Store} {origins : List Closure} {values : List Value} {sc : Scope} {v : Value}
  {s t : State} {limit : Nat}

lemma Sound.see (h : Sound store origins values) (hv : v.Within (· ∈ origins)) :
    Sound store origins (v :: values) where
  length_eq := h.length_eq
  number_eq := h.number_eq
  bound := h.bound
  seen w hw := by
    rcases List.mem_cons.1 hw with rfl | hw
    · exact hv
    · exact h.seen w hw

lemma Sound.supplies (h : Sound store origins values) (sc : Scope) :
    store.Supplies (· ∈ origins) sc := by
  rintro v ⟨f, _, x, hx⟩
  exact h.bound f x v hx

lemma Sound.extend {store' : Store} (h : Sound store origins values)
    (hc : store'.closures = store.closures)
    (hf : ∀ (f : Nat) (x : String) v, (store'.frame f)[x]? = some v → (store.frame f)[x]? = some v) :
    Sound store' origins values where
  length_eq := h.length_eq.trans hc.symm
  number_eq := h.number_eq
  bound f x v hx := h.bound f x v (hf f x v hx)
  seen := h.seen

lemma Sound.define (h : Sound store origins values) (sc : Scope) (x : String)
    (hv : v.Within (· ∈ origins)) : Sound (store.define sc x v) origins values where
  length_eq := h.length_eq
  number_eq := h.number_eq
  bound f y w hw := by
    rw [getElem?_define] at hw
    split at hw
    · cases hw
      exact hv
    · exact h.bound f y w hw
  seen := h.seen

lemma within_append (cs : List Closure) (h : v.Within (· ∈ origins)) :
    v.Within (· ∈ origins ++ cs) :=
  fun c hc => List.mem_append_left cs (h c hc)

lemma Sound.close (h : Sound store origins values) (name : String) (params : List String) (body : Expr)
    (sc : Scope) :
    let (c, store') := store.close name params body sc
    Sound store' (origins ++ [c]) (.function c :: values) where
  length_eq := by rw [List.length_append, h.length_eq]; rfl
  number_eq k c hc := by
    rw [List.getElem?_append] at hc
    split at hc
    · exact h.number_eq k c hc
    · rename_i hk
      obtain ⟨hl, rfl⟩ := List.getElem?_eq_some_iff.1 hc
      have hn := h.length_eq
      simp only [List.length_singleton] at hl
      have hk' : k = origins.length := by omega
      subst hk'
      simp [hn]
  bound f x v hx := within_append _ (h.bound f x v hx)
  seen v hv := by
    rcases List.mem_cons.1 hv with rfl | hv
    · exact within_function (List.mem_append_right _ List.mem_cons_self)
    · exact within_append _ (h.seen v hv)

lemma Sound.forget {values' : List Value} (h : Sound store origins values) (hv : values' ⊆ values) :
    Sound store origins values' where
  length_eq := h.length_eq
  number_eq := h.number_eq
  bound := h.bound
  seen v hm := h.seen v (hv hm)

lemma sound_evalStatement (limit : Nat) (sc : Scope) (st : Statement) (h : Sound s.store origins values) :
    match evalStatement limit sc st s with
    | (.ok v, t) => Sound t.store (origins ++ st.makes v) (v :: values)
    | (.error _, t) => Sound t.store origins values := by
  cases st with
  | definition d =>
    have hc := h.close d.name d.params d.body sc
    exact hc.define sc d.name (hc.seen _ List.mem_cons_self)
  | expression e line =>
    have hv : Gives (Value.Within (· ∈ origins)) (outcome limit sc e s) :=
      gives_outcome e (h.supplies sc) fun c _ => h.supplies c.scope
    rw [evalStatement, evalExpr_eq]
    cases hr : outcome limit sc e s with
    | error err => exact h
    | ok v =>
      have ho : origins ++ Statement.makes (.expression e line) v = origins := List.append_nil origins
      dsimp only
      rw [ho]
      exact h.see (hv v hr)

lemma sound_evalStatements (p : Program) {last : Value} (h : Sound s.store origins (last :: values)) :
    let (r, t) := evalStatements limit sc last p s
    Sound t.store (origins ++ made limit sc p s) (r.toOption.toList ++ values) := by
  induction p generalizing s origins last with
  | nil =>
    rw [evalStatements, made, List.append_nil]
    exact h
  | cons st p ih =>
    have hst := sound_evalStatement limit sc st h
    rw [evalStatements, made]
    cases hs : evalStatement limit sc st s with
    | mk r t =>
      rw [hs] at hst
      cases r with
      | error e =>
        dsimp only
        rw [List.append_nil]
        exact hst.forget (List.subset_cons_self _ _)
      | ok v =>
        have hv : Sound t.store (origins ++ st.makes v) (v :: values) :=
          hst.forget (List.cons_subset_cons v (List.subset_cons_self _ _))
        dsimp only
        rw [← List.append_assoc]
        exact ih hv

lemma Next.sound {t t' : Transcript} (hn : Next t t') (h : Sound t.store t.origins t.values) :
    Sound t'.store t'.origins t'.values := by
  cases hn with
  | root =>
    refine h.extend rfl fun f x v hx => ?_
    exact (congrArg (·[x]?) (t.store.frame_root f)).symm.trans hx
  | @child sc _ =>
    refine h.extend rfl fun f x v hx => ?_
    have hf := t.store.frame_child sc ∅ f
    split at hf
    · have he : (∅ : Bindings)[x]? = some v := hf ▸ hx
      cases he
    · exact hf ▸ hx
  | define hsc hv => exact h.define _ _ (h.seen _ hv)
  | lookup hsc hv =>
    obtain ⟨f, -, hx⟩ := List.exists_of_findSome?_eq_some hv
    exact h.see (h.bound f _ _ hx)
  | integer => exact h.see (within_integer _)
  | vector hvs => exact h.see (within_vector fun v hv => h.seen v (hvs v hv))
  | element hvs hv => exact h.see ((h.seen _ hvs).element hv)
  | supply hsc => exact h.close _ _ _ _
  | @run limit depth sc p _ =>
    exact sound_evalStatements p (h.see (within_integer 0))

theorem Reached.sound {t : Transcript} (h : t.Reached) : Sound t.store t.origins t.values := by
  induction h with
  | refl =>
    refine ⟨rfl, nofun, fun f x v hx => ?_, nofun⟩
    simp [start, Store.empty, Store.frame] at hx
  | tail _ hn ih => exact hn.sound ih

lemma Sound.sameNumber_iff {t : Transcript} {j k : Nat} {c d : Closure}
    (h : Sound t.store t.origins t.values) (hc : t.origins[j]? = some c) (hd : t.origins[k]? = some d) :
    Value.SameNumber c d ↔ j = k := by
  rw [Value.SameNumber, h.number_eq j c hc, h.number_eq k d hd]

lemma Sound.sameOrigin_iff {t : Transcript} {c d : Closure} (h : Sound t.store t.origins t.values)
    (hc : c ∈ t.origins) (hd : d ∈ t.origins) : t.SameOrigin c d ↔ Value.SameNumber c d := by
  obtain ⟨j, hj⟩ := List.mem_iff_getElem?.1 hc
  obtain ⟨k, hk⟩ := List.mem_iff_getElem?.1 hd
  rw [h.sameNumber_iff hj hk]
  constructor
  · rintro ⟨i, hi, hi'⟩
    have hij := (h.sameNumber_iff hi hj).1 rfl
    have hik := (h.sameNumber_iff hi' hk).1 rfl
    exact hij.symm.trans hik
  · rintro rfl
    exact ⟨j, hj, hk⟩

/-- If functions were made in another order, and so numbered by `R`, those in a value would be numbered so
too. -/
theorem same_iff_provenance {t : Transcript} (h : t.Reached) {v w : Value} (hv : v ∈ t.values)
    (hw : w ∈ t.values) :
    (v.same w = true ↔ v.Alike t.SameOrigin w) ∧
    (∀ c, v.Holds c → ∃! k : Nat, t.origins[k]? = some c) ∧
    (∀ (j k : Nat) (c d : Closure), t.origins[j]? = some c → t.origins[k]? = some d →
      ((Value.function c).same (.function d) = true ↔ j = k)) ∧
    (∀ (R : Closure → Closure → Prop) (store : Store),
      (∀ c d, R c d → d = { c with number := d.number }) → t.store.Twin R store →
      ∀ limit depth sc e, Agree (Value.Alike R) (outcome limit sc e ⟨t.store, depth⟩)
        (outcome limit sc e ⟨store, depth⟩)) ∧
    Equivalence fun v w : Value => v.same w = true := by
  have hs := h.sound
  have hov : v.Within (· ∈ t.origins) := hs.seen v hv
  have how : w.Within (· ∈ t.origins) := hs.seen w hw
  refine ⟨?_, fun c hc => ?_, fun j k c d hj hk => ?_, fun R store hR ht limit depth sc e => ?_,
    Value.same_refl, Value.same_symm, Value.same_trans⟩
  · rw [Value.same_iff_alike]
    constructor
    · intro ha
      apply ha.mono
      intro c d hc hd
      exact (hs.sameOrigin_iff (hov c hc) (how d hd)).2
    · intro ha
      apply ha.mono
      intro c d hc hd
      exact (hs.sameOrigin_iff (hov c hc) (how d hd)).1
  · obtain ⟨k, hk⟩ := List.mem_iff_getElem?.1 (hov c hc)
    refine ⟨k, hk, fun j hj => ?_⟩
    exact (hs.sameNumber_iff hj hk).1 rfl
  · rw [Value.same_iff_alike, Value.alike_function_iff]
    exact hs.sameNumber_iff hj hk
  · exact agree_outcome hR e ht rfl

def one (n : Nat) : Closure := ⟨n, "f", [], .literal (.integer 1) 1, ⟨0, []⟩⟩

def defining : Program := [.definition ⟨"f", [], .literal (.integer 1) 1, 1⟩]

def passing : Program :=
  [.definition ⟨"id", ["x"], .identifier "x" 1, 1⟩,
    .expression (.index (.vector #[.call (.identifier "id" 2) [.identifier "f" 2] 2] 2)
      (.literal (.integer 0) 2) 2) 2]

def redefined : Transcript :=
  ((start.root.run 1 0 ⟨0, []⟩ defining).run 1 0 ⟨0, []⟩ defining).run 1 0 ⟨0, []⟩ passing

theorem same_iff_provenance_redefined :
    (redefined.Reached ∧ Value.function (one 1) ∈ redefined.values ∧
      Value.function (one 0) ∈ redefined.values) ∧
    redefined.values = [.function (one 1), .function (one 1), .function (one 0)] ∧
    (Value.function (one 1)).same (.function (one 0)) = false ∧
    ¬ (Value.function (one 1)).Alike redefined.SameOrigin (.function (one 0)) := by
  have hsc : (⟨0, []⟩ : Scope) ∈ start.root.scopes := List.mem_cons_self
  have hr : redefined.Reached :=
    (((Relation.ReflTransGen.refl.tail .root).tail (.run hsc)).tail (.run hsc)).tail (.run hsc)
  have hvalues : redefined.values = [.function (one 1), .function (one 1), .function (one 0)] := by cbv
  have hv : Value.function (one 1) ∈ redefined.values := by simp [hvalues]
  have hw : Value.function (one 0) ∈ redefined.values := by simp [hvalues]
  have hne : (Value.function (one 1)).same (.function (one 0)) = false := by cbv
  obtain ⟨hi, -⟩ := same_iff_provenance hr hv hw
  exact ⟨⟨hr, hv, hw⟩, hvalues, hne, fun ha => Bool.false_ne_true (hne.symm.trans (hi.2 ha))⟩

end Transcript

end ExprLang
