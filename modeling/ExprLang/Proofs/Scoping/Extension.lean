import ExprLang.Proofs.Identity.Lockstep
import ExprLang.Proofs.Identity.Provenance
import Mathlib

/-! A name that is bound in addition. -/

namespace ExprLang

def Scope.Meets (sc other : Scope) : Prop :=
  ∀ l r, other.chain = l ++ sc.frame :: r → sc.frame ∉ l → r = sc.enclosing

/-- All scopes of a session are such, see `Transcript.Reached.hosts`. -/
structure Store.Hosts (s : Store) (sc : Scope) : Prop where
  contains : s.Contains sc
  meets (f : Nat) (x : String) (v : Value) : (s.frame f)[x]? = some v → v.Within fun c => sc.Meets c.scope

variable {limit : Nat} {sc outer : Scope} {s t : State} {c d : Closure} {g x : String} {v w : Value}
  {vs ws : List Value}

lemma Scope.meets_self (sc : Scope) : sc.Meets sc := by
  intro l r h hl
  cases l with
  | nil => exact (List.cons.inj h).2.symm
  | cons f l => exact (hl ((List.cons.inj h).1 ▸ List.mem_cons_self)).elim

lemma Scope.meets_of_notMem (h : sc.frame ∉ outer.chain) : sc.Meets outer := by
  intro l r hc _
  exact (h (by simp [hc])).elim

lemma Scope.Meets.inner (h : sc.Meets outer) {n : Nat} (hn : n ≠ sc.frame) :
    sc.Meets ⟨n, outer.chain⟩ := by
  intro l r hc hl
  cases l with
  | nil => exact (hn (List.cons.inj hc).1).elim
  | cons f l => exact h l r (List.cons.inj hc).2 fun hm => hl (List.mem_cons_of_mem f hm)

lemma Scope.Meets.exists_chain (h : sc.Meets outer) (hf : sc.frame ∈ outer.chain) :
    ∃ l, outer.chain = l ++ sc.chain ∧ sc.frame ∉ l := by
  obtain ⟨l, r, hc, hl⟩ := List.eq_append_cons_of_mem hf
  obtain rfl : r = sc.enclosing := h l r hc hl
  exact ⟨l, hc, hl⟩

lemma Store.Contains.ne_size (h : s.store.Contains sc) {f : Nat} (hf : f ∈ sc.chain) :
    f ≠ s.store.frames.size :=
  Nat.ne_of_lt (h f hf)

lemma lookup_inside_eq_none (h : s.store.Contains sc) (c : Closure) (vs : List Value)
    (hg : s.store.lookup sc g = none) : (c.inside vs s).2.store.lookup sc g = none := by
  rw [Store.lookup_eq_none_iff] at hg ⊢
  intro f hf
  rw [getElem?_inside, if_neg (h.ne_size hf)]
  exact hg f hf

lemma lookup_bind_eq_none (c : Closure) (hx : x ≠ g) (hg : s.store.lookup sc g = none) :
    (s.bind sc x c).store.lookup sc g = none := by
  rw [Store.lookup_eq_none_iff] at hg ⊢
  intro f hf
  rw [getElem?_bind, if_neg fun hb => hx hb.2]
  exact hg f hf

def Scope.Twins (sc : Scope) (c d : Closure) : Prop := c.Twin d ∧ sc.Meets c.scope

structure Extends (sc : Scope) (g : String) (p q : Scope × State) : Prop where
  scope_eq : q.1 = p.1
  depth_eq : q.2.depth = p.2.depth
  size_eq : q.2.store.frames.size = p.2.store.frames.size
  contains : p.2.store.Contains sc
  meets : sc.Meets p.1
  bindings (f : Nat) (x : String) :
    Option.Rel (Value.Alike sc.Twins) (p.2.store.frame f)[x]? (q.2.store.frame f)[x]? ∨
      (f = sc.frame ∧ x = g) ∧ p.2.store.lookup sc g = none

lemma Extends.lookup {p q : Scope × State} (h : Extends sc g p q) (x : String) :
    Option.Rel (Value.Alike sc.Twins) (p.2.store.lookup p.1 x) (q.2.store.lookup q.1 x) ∨
      x = g ∧ p.2.store.lookup p.1 x = none := by
  rw [h.scope_eq]
  by_cases hx : x = g ∧ p.2.store.lookup sc g = none ∧ sc.frame ∈ p.1.chain
  · obtain ⟨rfl, hg, hf⟩ := hx
    -- The frames further in than `sc` are alike, and from `sc` outward nothing binds the name at the first.
    obtain ⟨l, hc, hl⟩ := h.meets.exists_chain hf
    have hr : Option.Rel (Value.Alike sc.Twins) (l.findSome? fun f => (p.2.store.frame f)[x]?)
        (l.findSome? fun f => (q.2.store.frame f)[x]?) :=
      rel_findSome? l fun f hm => (h.bindings f x).resolve_right fun hb => hl (hb.1.1 ▸ hm)
    rw [Store.lookup] at hg
    rw [Store.lookup, Store.lookup, hc, List.findSome?_append, List.findSome?_append, hg]
    generalize (l.findSome? fun f => (p.2.store.frame f)[x]?) = a at hr ⊢
    generalize (l.findSome? fun f => (q.2.store.frame f)[x]?) = b at hr ⊢
    cases hr with
    | some hv => exact .inl (.some hv)
    | none => exact .inr ⟨rfl, rfl⟩
  · refine .inl (rel_findSome? p.1.chain fun f hm => (h.bindings f x).resolve_right ?_)
    rintro ⟨⟨rfl, hxg⟩, hg⟩
    exact hx ⟨hxg, hg, hm⟩

lemma Extends.inside {p q : Scope × State} (h : Extends sc g p q) (hc : sc.Twins c d)
    (hv : List.Forall₂ (Value.Alike sc.Twins) vs ws) :
    Extends sc g (c.inside vs p.2) (d.inside ws q.2) where
  scope_eq := by
    simp only [Closure.inside, Store.child, h.size_eq, hc.1.scope_eq]
  depth_eq := congrArg (· + 1) h.depth_eq
  size_eq := by rw [size_inside, size_inside, h.size_eq]
  contains := h.contains.mono (by rw [size_inside]; exact Nat.le_succ _)
  meets := hc.2.inner (h.contains.ne_size List.mem_cons_self).symm
  bindings f x := by
    rw [getElem?_inside, getElem?_inside, h.size_eq, hc.1.params_eq]
    split
    · exact .inl (rel_lookup_zip hv c.params x)
    · exact (h.bindings f x).imp_right fun hb =>
        ⟨hb.1, lookup_inside_eq_none h.contains c vs hb.2⟩

lemma Extends.bind (h : Extends sc g (sc, s) (sc, t)) (hc : sc.Twins c d) (x : String) :
    Extends sc g (sc, s.bind sc x c) (sc, t.bind sc x d) where
  scope_eq := rfl
  depth_eq := h.depth_eq
  size_eq := by simpa [State.bind, Store.define] using h.size_eq
  contains := h.contains.mono (by simp [State.bind, Store.define])
  meets := h.meets
  bindings f y := by
    have hn : t.store.frames.size = s.store.frames.size := h.size_eq
    rw [getElem?_bind, getElem?_bind, hn]
    split
    · exact .inl (.some (.function hc))
    · rename_i hb
      refine (h.bindings f y).imp_right ?_
      rintro ⟨⟨rfl, rfl⟩, hg⟩
      have hx : x ≠ y := fun hx => hb ⟨⟨rfl, h.contains _ List.mem_cons_self⟩, hx⟩
      exact ⟨⟨rfl, rfl⟩, lookup_bind_eq_none c hx hg⟩

theorem simulation_extends (sc : Scope) (g : String) :
    Simulation (· = .unknownIdentifier g) sc.Twins (Extends sc g) where
  function_eq c d h := h.1.eq_number
  depth_eq h := h.depth_eq
  resolve {p q} h x line := by
    rcases h.lookup x with hr | ⟨rfl, hn⟩
    · exact (agree_resolve line hr).unless
    · rw [Store.resolve, hn]
      exact .excused rfl
  inside h hc hv := h.inside hc hv

lemma extends_define (hs : s.store.Hosts sc) (hg : s.store.lookup sc g = none) (n : Nat) (w : Value) :
    Extends sc g (sc, s) (sc, ⟨({ s.store with closures := n }).define sc g w, s.depth⟩) where
  scope_eq := rfl
  depth_eq := rfl
  size_eq := by simp [Store.define]
  contains := hs.contains
  meets := sc.meets_self
  bindings f x := by
    have hd := getElem?_define { s.store with closures := n } sc g w f x
    dsimp only
    rw [hd]
    split
    · rename_i hb
      exact .inr ⟨⟨hb.1.1, hb.2.symm⟩, hg⟩
    · left
      change Option.Rel _ (s.store.frame f)[x]? (s.store.frame f)[x]?
      refine rel_self fun v hx => Value.Alike.refl fun c hc => ?_
      exact ⟨.refl c, hs.meets f x v hx c hc⟩

lemma Store.Hosts.bind (h : s.store.Hosts sc) (hc : c.scope = sc) (x : String) :
    (s.bind sc x c).store.Hosts sc where
  contains := h.contains.mono (by simp [State.bind, Store.define])
  meets f y v hv := by
    rw [getElem?_bind] at hv
    split at hv
    · cases hv
      exact within_function (hc ▸ sc.meets_self)
    · exact h.meets f y v hv

lemma Store.Hosts.statements (limit : Nat) (p : Program) (last : Value) (h : s.store.Hosts sc) :
    (evalStatements limit sc last p s).2.store.Hosts sc := by
  apply evalStatements_preserves (P := fun s => s.store.Hosts sc) _ p last s h
  intro st t ht
  cases st with
  | definition d => exact ht.bind rfl d.name
  | expression e line =>
    rw [evalStatement, evalExpr_eq]
    exact ht

/-- Functions count as the same whatever their numbers. -/
def Cures (g : String) (r q : Outcome Value) : Prop :=
  (∃ line, r = .error ⟨.unknownIdentifier g, line⟩) ∨ Agree (Value.Alike Closure.Twin) r q

lemma Extends.cures (h : Extends sc g (sc, s) (sc, t)) (limit : Nat) (p : Program) :
    Cures g (evalStatements limit sc (.integer 0) p s).1 (evalStatements limit sc (.integer 0) p t).1 := by
  have he := (simulation_extends sc g).statements limit
    (fun d m n => ⟨d.closure_twin m n sc, sc.meets_self⟩) (fun s t x c d h hc => h.bind hc x) p h
    (.integer 0)
  rcases he.agreeUnless.or_agree with ⟨⟨cause, line⟩, hr, rfl⟩ | ha
  · exact .inl ⟨line, hr⟩
  · exact .inr (ha.mono fun v w hv => hv.mono fun c d _ _ hc => hc.1)

theorem evalProgram_extend (limit : Nat) (sc : Scope) (s : State) (hs : s.store.Hosts sc)
    (before rest : Program) (u : Value) (t : State) (hb : evalProgram limit sc before s = (.ok u, t))
    (g : String) (hg : t.store.lookup sc g = none) :
    (∀ w, Cures g (evalProgram limit sc rest t).1
      (evalProgram limit sc rest ⟨t.store.define sc g w, t.depth⟩).1) ∧
    ∀ d : Definition, d.name = g → rest ≠ [] →
      Cures g (evalProgram limit sc (before ++ rest) s).1
        (evalProgram limit sc (before ++ .definition d :: rest) s).1 := by
  have ht : t.store.Hosts sc := by
    have h := hs.statements limit before (.integer 0)
    rw [evalProgram] at hb
    rwa [hb] at h
  constructor
  · intro w
    exact (extends_define ht hg t.store.closures w).cures limit rest
  · rintro d rfl hr
    rw [evalProgram] at hb
    rw [evalProgram, evalProgram, evalStatements_append, evalStatements_append, hb]
    dsimp only
    -- The definition is a binding like any other, but later functions have numbers one higher.
    let c : Closure := d.closure t.store.closures sc
    have he : evalStatements limit sc u (.definition d :: rest) t =
        evalStatements limit sc (.function c) rest (t.bind sc d.name c) := rfl
    rw [he, evalStatements_of_ne_nil hr u (.integer 0),
      evalStatements_of_ne_nil hr (.function c) (.integer 0)]
    exact (extends_define ht hg (t.store.closures + 1) (.function c)).cures limit rest

namespace Transcript

structure Rooted (store : Store) (scopes : List Scope) (origins : List Closure) : Prop where
  contains : ∀ sc ∈ scopes, store.Contains sc
  meets : ∀ sc ∈ scopes, ∀ other ∈ scopes, sc.Meets other
  made_in : ∀ c ∈ origins, c.scope ∈ scopes

variable {store : Store} {scopes : List Scope} {origins : List Closure}

lemma Rooted.of_size_le {store' : Store} (h : Rooted store scopes origins)
    (hn : store.frames.size ≤ store'.frames.size) : Rooted store' scopes origins where
  contains sc hsc := (h.contains sc hsc).mono hn
  meets := h.meets
  made_in := h.made_in

lemma Rooted.append (h : Rooted store scopes origins) {cs : List Closure} (hsc : sc ∈ scopes)
    (hc : ∀ c ∈ cs, c.scope = sc) : Rooted store scopes (origins ++ cs) where
  contains := h.contains
  meets := h.meets
  made_in c hm := by
    rcases List.mem_append.1 hm with hm | hm
    · exact h.made_in c hm
    · exact (hc c hm).symm ▸ hsc

lemma Rooted.push (h : Rooted store scopes origins) {fs : List Nat} (b : Bindings)
    (hfs : ∀ f ∈ fs, f < store.frames.size)
    (hm : ∀ sc ∈ scopes, sc.Meets ⟨store.frames.size, fs⟩) :
    Rooted { store with frames := store.frames.push b } (⟨store.frames.size, fs⟩ :: scopes) origins where
  contains sc hsc f hf := by
    rw [Array.size_push]
    rcases List.mem_cons.1 hsc with rfl | hsc
    · rcases List.mem_cons.1 hf with rfl | hf
      · exact Nat.lt_succ_self _
      · exact Nat.lt_succ_of_lt (hfs f hf)
    · exact Nat.lt_succ_of_lt (h.contains sc hsc f hf)
  meets sc hsc other ho := by
    rcases List.mem_cons.1 hsc with rfl | hsc
    · rcases List.mem_cons.1 ho with rfl | ho
      · exact Scope.meets_self _
      -- The new frame is in no scope that was there.
      · exact Scope.meets_of_notMem fun hf => Nat.lt_irrefl _ (h.contains other ho _ hf)
    · rcases List.mem_cons.1 ho with rfl | ho
      · exact hm sc hsc
      · exact h.meets sc hsc other ho
  made_in c hc := List.mem_cons_of_mem _ (h.made_in c hc)

lemma Rooted.ne_size (h : Rooted store scopes origins) (hsc : sc ∈ scopes) :
    store.frames.size ≠ sc.frame :=
  (Nat.ne_of_lt (h.contains sc hsc sc.frame List.mem_cons_self)).symm

lemma scope_of_mem_made {p : Program} (h : c ∈ made limit sc p s) : c.scope = sc := by
  induction p generalizing s with
  | nil => cases h
  | cons st p ih =>
    rw [made] at h
    cases st with
    | definition d =>
      rcases List.mem_cons.1 h with rfl | h
      · rfl
      · exact ih h
    | expression e line =>
      rw [evalStatement, evalExpr_eq] at h
      cases ho : outcome limit sc e s with
      | ok v =>
        rw [ho] at h
        exact ih h
      | error err =>
        rw [ho] at h
        cases h

lemma size_evalStatements (limit : Nat) (sc : Scope) (p : Program) (last : Value) (s : State) :
    (evalStatements limit sc last p s).2.store.frames.size = s.store.frames.size := by
  apply evalStatements_preserves (P := fun t => t.store.frames.size = s.store.frames.size) _ p last s rfl
  intro st t ht
  rw [evalStatement_snd]
  exact Array.size_modify.trans ht

lemma Next.rooted {t t' : Transcript} (hn : Next t t') (h : Rooted t.store t.scopes t.origins) :
    Rooted t'.store t'.scopes t'.origins := by
  cases hn with
  | root =>
    refine h.push ∅ (fun _ hf => (List.not_mem_nil hf).elim) fun sc hsc => Scope.meets_of_notMem ?_
    exact fun hf => h.ne_size hsc (List.mem_singleton.1 hf).symm
  | @child sc hsc => exact h.push ∅ (h.contains sc hsc) fun o ho => (h.meets o ho sc hsc).inner (h.ne_size ho)
  | define hsc hv => exact h.of_size_le (Nat.le_of_eq Array.size_modify.symm)
  | lookup hsc hv => exact h
  | integer => exact h
  | vector hvs => exact h
  | element hvs hv => exact h
  | supply hsc => exact (h.append hsc fun c hc => List.mem_singleton.1 hc ▸ rfl).of_size_le (Nat.le_refl _)
  | @run limit depth sc p hsc =>
    refine (h.append hsc fun c hc => scope_of_mem_made hc).of_size_le (Nat.le_of_eq ?_)
    exact (size_evalStatements limit sc p (.integer 0) ⟨t.store, depth⟩).symm

theorem Reached.rooted {t : Transcript} (h : t.Reached) : Rooted t.store t.scopes t.origins := by
  induction h with
  | refl => exact ⟨nofun, nofun, nofun⟩
  | tail _ hn ih => exact hn.rooted ih

theorem Reached.hosts {t : Transcript} (h : t.Reached) (hsc : sc ∈ t.scopes) : t.store.Hosts sc where
  contains := h.rooted.contains sc hsc
  meets f x v hv c hc :=
    h.rooted.meets sc hsc c.scope (h.rooted.made_in c (h.sound.bound f x v hv c hc))

end Transcript

def enclosed : Transcript := Transcript.start.root.child ⟨0, []⟩

def relying : Program := [.definition ⟨"f", [], .call (.identifier "g" 1) [] 1, 1⟩]

def constant (n : Int64) (line : Nat) : Definition := ⟨"g", [], .literal (.integer n) line, line⟩

def defined : Program :=
  [.definition (constant 1 2),
    .expression (.vector #[.call (.identifier "f" 3) [] 3, .identifier "g" 3] 3) 3]

theorem evalProgram_extend_relying :
    let sc : Scope := ⟨1, [0]⟩
    let s : State := ⟨enclosed.store, 0⟩
    let t : State := (evalProgram 2 sc relying s).2
    let asked : Program := [.expression (.call (.identifier "f" 2) [] 2) 2]
    (enclosed.store.Hosts sc ∧
      evalProgram 2 sc relying s = (.ok (.function ⟨0, "f", [], .call (.identifier "g" 1) [] 1, sc⟩), t) ∧
      t.store.lookup sc "g" = none ∧ (constant 2 1).name = "g" ∧ defined ≠ []) ∧
    Cures "g" (evalProgram 2 sc (relying ++ defined) s).1
      (evalProgram 2 sc (relying ++ .definition (constant 2 1) :: defined) s).1 ∧
    (evalProgram 2 sc (relying ++ defined) s).1 =
      .ok (.vector #[.integer 1, .function ((constant 1 2).closure 1 sc)]) ∧
    (evalProgram 2 sc (relying ++ .definition (constant 2 1) :: defined) s).1 =
      .ok (.vector #[.integer 1, .function ((constant 1 2).closure 2 sc)]) ∧
    Cures "g" (evalProgram 2 sc asked t).1
      (evalProgram 2 sc asked ⟨t.store.define sc "g" (.integer 5), t.depth⟩).1 ∧
    (evalProgram 2 sc asked t).1 = .error ⟨.unknownIdentifier "g", 1⟩ ∧
    (evalProgram 2 sc asked ⟨t.store.define sc "g" (.integer 5), t.depth⟩).1 =
      .error ⟨.notCallable (.integer 5), 1⟩ := by
  have he : (evalProgram 2 ⟨1, [0]⟩ (relying ++ .definition (constant 2 1) :: defined)
      ⟨enclosed.store, 0⟩).1 =
        .ok (.vector #[.integer 1, .function ((constant 1 2).closure 2 ⟨1, [0]⟩)]) := by cbv
  intro sc s t asked
  have hn : enclosed.Reached := (Relation.ReflTransGen.refl.tail .root).tail (.child List.mem_cons_self)
  have hs : enclosed.store.Hosts sc := hn.hosts List.mem_cons_self
  have hb : evalProgram 2 sc relying s =
      (.ok (.function ⟨0, "f", [], .call (.identifier "g" 1) [] 1, sc⟩), t) := rfl
  have hg : t.store.lookup sc "g" = none := by cbv
  have hd : defined ≠ [] := List.cons_ne_nil _ _
  obtain ⟨-, hdefinition⟩ := evalProgram_extend 2 sc s hs relying defined _ t hb "g" hg
  obtain ⟨hasked, -⟩ := evalProgram_extend 2 sc s hs relying asked _ t hb "g" hg
  refine ⟨⟨hs, hb, hg, rfl, hd⟩, hdefinition (constant 2 1) rfl hd, ?_, he, hasked (.integer 5), ?_, ?_⟩
  · cbv
  · cbv
  · cbv

end ExprLang
