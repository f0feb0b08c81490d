import ExprLang.Eval.Program
import ExprLang.Proofs.Evaluation.Purity
import Mathlib.Data.List.Permutation

/-! The closures in a value could be reached from its scope before. -/

namespace ExprLang

inductive Value.Holds : Value → Closure → Prop
  | function {c} : Holds (.function c) c
  | element {vs v c} : v ∈ vs → Holds v c → Holds (.vector vs) c

def Value.Within (K : Closure → Prop) (v : Value) : Prop := ∀ c, v.Holds c → K c

namespace Store

def Offers (s : Store) (sc : Scope) (v : Value) : Prop :=
  ∃ f ∈ sc.chain, ∃ x : String, (s.frame f)[x]? = some v

inductive Reaches (s : Store) : Scope → Closure → Prop
  | bound {sc : Scope} {v : Value} {c : Closure} : s.Offers sc v → v.Holds c → Reaches s sc c
  | captured {sc : Scope} {d c : Closure} : Reaches s sc d → Reaches s d.scope c → Reaches s sc c

def Sees (s : Store) (sc : Scope) (f : Nat) : Prop :=
  f ∈ sc.chain ∨ ∃ c, s.Reaches sc c ∧ f ∈ c.scope.chain

def Contains (s : Store) (sc : Scope) : Prop := ∀ f ∈ sc.chain, f < s.frames.size

def Closed (s : Store) : Prop :=
  ∀ f (x : String) v, (s.frame f)[x]? = some v → v.Within fun c => s.Contains c.scope

def Supplies (s : Store) (K : Closure → Prop) (sc : Scope) : Prop :=
  ∀ v, s.Offers sc v → v.Within K

end Store

def Gives {α : Type} (P : α → Prop) (r : Outcome α) : Prop := ∀ a, r = .ok a → P a

section Gives

variable {α β : Type} {P : α → Prop} {Q : β → Prop}

lemma gives_ok {a : α} (h : P a) : Gives P (.ok a) := by
  rintro _ ⟨⟩
  exact h

lemma gives_error (e : EvalError) : Gives P (.error e) := nofun

lemma Gives.bind {r : Outcome α} {f : α → Outcome β} (hr : Gives P r) (hf : ∀ a, P a → Gives Q (f a)) :
    Gives Q (r >>= f) := by
  cases r with
  | error e => exact gives_error e
  | ok a =>
    have ha : P a := hr a rfl
    exact hf a ha

lemma gives_mapM {f : α → Outcome β} (as : List α) (h : ∀ a ∈ as, Gives Q (f a)) :
    Gives (fun bs => ∀ b ∈ bs, Q b) (as.mapM f) := by
  induction as with
  | nil =>
    rintro _ ⟨⟩
    exact nofun
  | cons a as ih =>
    rw [List.mapM_cons]
    refine (h a List.mem_cons_self).bind fun b hb => ?_
    have hs := ih fun c hc => h c (List.mem_cons_of_mem a hc)
    refine hs.bind fun bs hbs => gives_ok ?_
    exact List.forall_mem_cons.2 ⟨hb, hbs⟩

end Gives

variable {limit line : Nat} {sc : Scope} {s : State} {K : Closure → Prop} {v w : Value}

lemma within_integer (n : Int64) : (Value.integer n).Within K := nofun

lemma within_function {c : Closure} (h : K c) : (Value.function c).Within K := by
  rintro _ ⟨⟩
  exact h

lemma within_vector {vs : Array Value} (h : ∀ v ∈ vs, v.Within K) : (Value.vector vs).Within K := by
  rintro c ⟨⟩
  rename_i v hv hc
  exact h v hv c hc

lemma Value.Within.element {vs : Array Value} (h : (Value.vector vs).Within K) (hv : v ∈ vs) :
    v.Within K :=
  fun c hc => h c (.element hv hc)

lemma gives_map_integer (r : Except EvalCause Int64) :
    Gives (Value.Within K) (located line (r.map .integer)) := by
  cases r with
  | error e => exact gives_error _
  | ok n => exact gives_ok (within_integer n)

lemma gives_negate (v : Value) : Gives (Value.Within K) (located line v.negate) := by
  cases v with
  | integer n => exact gives_map_integer _
  | vector vs => exact gives_error _
  | function c => exact gives_error _

lemma gives_apply (op : BinaryOp) (v w : Value) :
    Gives (Value.Within K) (located line (op.apply v w)) := by
  cases v with
  | vector vs => exact gives_error _
  | function c => exact gives_error _
  | integer m =>
    cases w with
    | integer n => exact gives_map_integer _
    | vector ws => exact gives_error _
    | function c => exact gives_error _

lemma gives_select (k : Int64) (h : v.Within K) : Gives (Value.Within K) (v.select line k) := by
  cases v with
  | integer n => exact gives_error _
  | function c => exact gives_error _
  | vector vs =>
    rw [Value.select]
    cases he : element? vs k with
    | none => exact gives_error _
    | some w => exact gives_ok (h.element (mem_of_element? he))

lemma gives_callee (h : v.Within K) : Gives K (v.callee line) := by
  cases v with
  | integer n => exact gives_error _
  | vector vs => exact gives_error _
  | function c => exact gives_ok (h c .function)

lemma gives_resolve (h : s.store.Supplies K sc) (x : String) :
    Gives (Value.Within K) (s.store.resolve sc x line) := by
  rw [Store.resolve, Store.lookup]
  cases hx : sc.chain.findSome? fun f => (s.store.frame f)[x]? with
  | none => exact gives_error _
  | some v =>
    obtain ⟨f, hf, hv⟩ := List.exists_of_findSome?_eq_some hx
    exact gives_ok (h v ⟨f, hf, x, hv⟩)

lemma mem_of_ofArguments {params : List String} {vs : List Value} {x : String}
    (h : (Bindings.ofArguments params vs)[x]? = some v) : v ∈ vs := by
  rw [getElem?_ofArguments] at h
  obtain ⟨before, after, hp, _⟩ := List.lookup_eq_some_iff.1 h
  have hm : (x, v) ∈ (params.zip vs).reverse := by simp [hp]
  exact (List.of_mem_zip (List.mem_reverse.1 hm)).2

variable {c : Closure} {vs : List Value}

lemma bound_inside {f : Nat} {x : String}
    (h : ((c.inside vs s).2.store.frame f)[x]? = some v) :
    v ∈ vs ∨ f ≠ s.store.frames.size ∧ (s.store.frame f)[x]? = some v := by
  rw [Closure.inside, Store.frame_child] at h
  split at h
  · exact .inl (mem_of_ofArguments h)
  · rename_i hf
    exact .inr ⟨hf, h⟩

lemma supplies_inside (hs : s.store.Supplies K sc) (hv : ∀ v ∈ vs, v.Within K) :
    (c.inside vs s).2.store.Supplies K sc := by
  rintro v ⟨f, hf, x, hx⟩
  rcases bound_inside hx with hm | ⟨_, hx⟩
  · exact hv v hm
  · exact hs v ⟨f, hf, x, hx⟩

lemma supplies_body (hs : s.store.Supplies K c.scope) (hv : ∀ v ∈ vs, v.Within K) :
    (c.inside vs s).2.store.Supplies K (c.inside vs s).1 := by
  rintro v ⟨f, hf, x, hx⟩
  rcases bound_inside hx with hm | ⟨hne, hx⟩
  · exact hv v hm
  · have hc : f ∈ c.scope.chain := (List.mem_cons.1 hf).resolve_left hne
    exact hs v ⟨f, hc, x, hx⟩

theorem gives_outcome (e : Expr) (hs : s.store.Supplies K sc)
    (hK : ∀ c, K c → s.store.Supplies K c.scope) : Gives (Value.Within K) (outcome limit sc e s) := by
  obtain ⟨d, hd⟩ : ∃ d, s.depth = d := ⟨_, rfl⟩
  induction d, e using call_induction limit generalizing sc s with
  | literal d v line =>
    rw [outcome_literal]
    cases v <;> exact gives_ok (within_integer _)
  | identifier d x line =>
    rw [outcome_identifier]
    exact gives_resolve hs x
  | negate d a line ih =>
    rw [outcome_negate]
    exact (ih hs hK hd).bind fun v _ => gives_negate v
  | binary d op a b line iha ihb =>
    rw [outcome_binary]
    refine (iha hs hK hd).bind fun v _ => ?_
    exact (ihb hs hK hd).bind fun w _ => gives_apply op v w
  | vector d es line ih =>
    rw [outcome_vector]
    have hes := gives_mapM es.toList fun e he => ih e he hs hK hd
    refine hes.bind fun vs hvs => gives_ok (within_vector ?_)
    simpa using hvs
  | element d es l i line ihi ih =>
    rw [outcome_element]
    refine (ihi hs hK hd).bind fun v _ => ?_
    refine Gives.bind (P := fun _ => True) (fun _ _ => trivial) fun k _ => ?_
    split
    · rename_i e he
      exact ih e (Array.mem_toList_iff.2 (mem_of_element? he)) hs hK hd
    · exact gives_error _
  | index d a i line hn ihi iha =>
    rw [outcome_index a i line s hn]
    refine (ihi hs hK hd).bind fun v _ => ?_
    refine Gives.bind (P := fun _ => True) (fun _ _ => trivial) fun k _ => ?_
    exact (iha hs hK hd).bind fun w hw => gives_select k hw
  | call d f as line ihf ihas ihb =>
    rw [outcome_call]
    refine (ihf hs hK hd).bind fun v hv => (gives_callee hv).bind fun c hc => ?_
    split
    · have has := gives_mapM as fun a ha => ihas a ha hs hK hd
      refine has.bind fun vs hvs => ?_
      split
      · rename_i hl
        -- The frame of the call holds arguments only, and these are made of closures of `K`.
        have hin := fun a ha => supplies_inside (c := c) (hK a ha) hvs
        exact ihb (hd ▸ hl) c.body (supplies_body (hK c hc) hvs) hin (congrArg (· + 1) hd)
      · exact gives_error _
    · exact gives_error _

namespace Store

variable {s t : Store}

lemma supplies_reaches (s : Store) (sc : Scope) : s.Supplies (s.Reaches sc) sc :=
  fun _ hv _ hc => .bound hv hc

lemma Reaches.supplies {c : Closure} (h : s.Reaches sc c) : s.Supplies (s.Reaches sc) c.scope :=
  fun _ hv _ hd => .captured h (.bound hv hd)

lemma Closed.contains {c : Closure} (h : s.Closed) (hc : s.Reaches sc c) : s.Contains c.scope := by
  induction hc with
  | bound hv hc =>
    obtain ⟨f, _, x, hx⟩ := hv
    exact h f x _ hx _ hc
  | captured _ _ _ ih => exact ih

lemma Closed.sees_lt {f : Nat} (h : s.Closed) (hsc : s.Contains sc) (hf : s.Sees sc f) :
    f < s.frames.size := by
  rcases hf with hf | ⟨c, hc, hf⟩
  · exact hsc f hf
  · exact h.contains hc f hf

lemma Contains.mono (h : s.Contains sc) (hn : s.frames.size ≤ t.frames.size) : t.Contains sc :=
  fun f hf => Nat.lt_of_lt_of_le (h f hf) hn

lemma closed_empty : empty.Closed := by
  intro f x v hx
  simp [empty, frame] at hx

lemma Closed.root (h : s.Closed) : s.root.2.Closed := by
  intro f x v hx c hc
  rw [frame_root] at hx
  exact (h f x v hx c hc).mono (by simp [Store.root])

lemma contains_root (s : Store) : s.root.2.Contains s.root.1 := by
  intro f hf
  obtain rfl : f = s.frames.size := by simpa [Store.root, Scope.chain] using hf
  simp [Store.root]

lemma Closed.define (h : s.Closed) (hsc : s.Contains sc) (x : String)
    (hv : v.Within fun c => s.Contains c.scope) : (s.define sc x v).Closed := by
  intro f y w hw c hc
  have hn : s.frames.size ≤ (s.define sc x v).frames.size := by simp [Store.define]
  rw [frame_define s sc x v f (hsc sc.frame List.mem_cons_self)] at hw
  split at hw
  · rw [Std.TreeMap.getElem?_insert] at hw
    split at hw
    · cases hw
      exact (hv c hc).mono hn
    · exact (h f y w hw c hc).mono hn
  · exact (h f y w hw c hc).mono hn

end Store

lemma closed_evalStatement (st : Statement) (h : s.store.Closed) (hsc : s.store.Contains sc) :
    (evalStatement limit sc st s).2.store.Closed ∧ (evalStatement limit sc st s).2.store.Contains sc := by
  cases st with
  | definition d =>
    let c : Closure := ⟨s.store.closures, d.name, d.params, d.body, sc⟩
    let t : Store := { s.store with closures := s.store.closures + 1 }
    have ht : t.Closed := h
    have hc : (Value.function c).Within fun c => t.Contains c.scope := within_function hsc
    have hn : t.frames.size ≤ (t.define sc d.name (.function c)).frames.size := by simp [Store.define]
    exact ⟨ht.define hsc d.name hc, Store.Contains.mono hsc hn⟩
  | expression e line =>
    have hs : (evalStatement limit sc (.expression e line) s).2 = s := evalExpr_snd e s
    rw [hs]
    exact ⟨h, hsc⟩

lemma closed_evalStatements (p : Program) (last : Value) (h : s.store.Closed)
    (hsc : s.store.Contains sc) : (evalStatements limit sc last p s).2.store.Closed := by
  have hp : (evalStatements limit sc last p s).2.store.Closed ∧
      (evalStatements limit sc last p s).2.store.Contains sc := by
    apply evalStatements_preserves (P := fun s => s.store.Closed ∧ s.store.Contains sc) _ p last s ⟨h, hsc⟩
    exact fun st t ht => closed_evalStatement st ht.1 ht.2
  exact hp.1

theorem closed_evalProgram (p : Program) (h : s.store.Closed) (hsc : s.store.Contains sc) :
    (evalProgram limit sc p s).2.store.Closed :=
  closed_evalStatements p _ h hsc

theorem evalExpr_confined (limit : Nat) (sc : Scope) (e : Expr) (s : State) :
    (evalExpr limit sc e s).2 = s ∧
    (∀ v, (evalExpr limit sc e s).1 = .ok v → ∀ c, v.Holds c → s.store.Reaches sc c) ∧
    (s.store.Closed → s.store.Contains sc →
      (∀ v, (evalExpr limit sc e s).1 = .ok v → ∀ c, v.Holds c →
        ∀ f, (evalExpr limit sc e s).2.store.Sees c.scope f → f < s.store.frames.size) ∧
      ∀ sc', s.store.Contains sc' →
        ∀ f, (evalExpr limit sc e s).2.store.Sees sc' f → f < s.store.frames.size) := by
  have hv : Gives (Value.Within (s.store.Reaches sc)) (outcome limit sc e s) :=
    gives_outcome e (s.store.supplies_reaches sc) fun _ h => h.supplies
  rw [evalExpr_snd]
  refine ⟨rfl, hv, fun hs hsc => ⟨fun v hr c hc f hf => ?_, fun sc' hsc' f hf => ?_⟩⟩
  · have hcs : s.store.Contains c.scope := hs.contains (hv v hr c hc)
    exact hs.sees_lt hcs hf
  · exact hs.sees_lt hsc' hf

def pairing : Closure :=
  ⟨0, "pair", ["a", "b"], .vector #[.identifier "a" 1, .identifier "b" 1] 1, ⟨0, []⟩⟩

def pairingStore : Store := Store.empty.root.2.define ⟨0, []⟩ "pair" (.function pairing)

theorem evalExpr_confined_pairing :
    (pairingStore.Closed ∧ pairingStore.Contains ⟨0, []⟩) ∧
      pairingStore.Reaches ⟨0, []⟩ pairing ∧
      ∀ f, pairingStore.Sees pairing.scope f → f < 1 := by
  have hroot : Store.empty.root.2.Contains ⟨0, []⟩ := Store.contains_root _
  have hv : (Value.function pairing).Within fun c => Store.empty.root.2.Contains c.scope :=
    within_function hroot
  have hs : pairingStore.Closed := Store.closed_empty.root.define hroot "pair" hv
  have hsc : pairingStore.Contains ⟨0, []⟩ := hroot.mono (by decide)
  let e : Expr := .call (.identifier "pair" 2) [.identifier "pair" 2, .literal (.integer 7) 2] 2
  have he : (evalExpr 1 ⟨0, []⟩ e ⟨pairingStore, 0⟩).1 =
      .ok (.vector #[.function pairing, .integer 7]) := by cbv
  have hc : (Value.vector #[.function pairing, .integer 7]).Holds pairing :=
    .element (by simp) .function
  obtain ⟨ht, hr, hf⟩ := evalExpr_confined 1 ⟨0, []⟩ e ⟨pairingStore, 0⟩
  rw [ht] at hf
  exact ⟨⟨hs, hsc⟩, hr _ he pairing hc, (hf hs hsc).1 _ he pairing hc⟩

end ExprLang
