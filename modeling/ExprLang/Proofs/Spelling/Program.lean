import ExprLang.Proofs.Spelling.Evaluation

namespace ExprLang

def Definition.respell (σ : Spelling) (c : Closure) (d : Definition) : Definition :=
  ⟨d.name, (c.respell σ).params, (c.respell σ).body, σ.line d.line⟩

def respellFrom (σ : Spelling) (sc : Scope) (n : Nat) : Program → Program
  | [] => []
  | .definition d :: p =>
    .definition (d.respell σ ⟨n, d.name, d.params, d.body, sc⟩) :: respellFrom σ sc (n + 1) p
  | .expression e l :: p => .expression (e.respell id σ.line) (σ.line l) :: respellFrom σ sc n p

variable {σ : Spelling} {K : Closure → Prop} {s t : State} {sc outer : Scope} {limit : Nat} {c : Closure}

def State.bind (s : State) (sc : Scope) (x : String) (c : Closure) : State :=
  ⟨({ s.store with closures := s.store.closures + 1 }).define sc x (.function c), s.depth⟩

lemma evalStatement_definition (d : Definition) (s : State) :
    evalStatement limit sc (.definition d) s =
      let c : Closure := ⟨s.store.closures, d.name, d.params, d.body, sc⟩
      (.ok (.function c), s.bind sc d.name c) :=
  rfl

lemma getElem?_bind (s : State) (sc : Scope) (x : String) (c : Closure) (f : Nat) (y : String) :
    ((s.bind sc x c).store.frame f)[y]? =
      if (f = sc.frame ∧ f < s.store.frames.size) ∧ x = y then some (.function c)
      else (s.store.frame f)[y]? :=
  getElem?_define _ sc x _ f y

lemma supplies_bind (h : s.store.Supplies K outer) (hc : K c) (x : String) :
    (s.bind sc x c).store.Supplies K outer := by
  rintro v ⟨f, hf, y, hy⟩
  rw [getElem?_bind] at hy
  split at hy
  · cases hy
    exact within_function hc
  · exact h v ⟨f, hf, y, hy⟩

lemma Mirrors.bind (h : Mirrors σ s t outer) (hn : t.store.frames.size = s.store.frames.size)
    (x : String) (c : Closure) : Mirrors σ (s.bind sc x c) (t.bind sc x (c.respell σ)) outer := by
  intro f hf y
  rw [getElem?_bind, getElem?_bind, hn]
  split
  · rfl
  · exact h f hf y

lemma Respells.bind (h : Respells σ K s t) (hc : K c) (x : String) :
    Respells σ K (s.bind sc x c) (t.bind sc x (c.respell σ)) where
  depth_eq := h.depth_eq
  closures_eq := congrArg (· + 1) h.closures_eq
  size_eq := by simpa [State.bind, Store.define] using h.size_eq
  faithful := h.faithful
  supplies d hd := supplies_bind (h.supplies d hd) hc x
  mirrors d hd := (h.mirrors d hd).bind h.size_eq x c
  apart := h.apart.imp id fun hp d hd => (hp d hd).mono (by simp [State.bind, Store.define])

lemma mem_closures {n : Nat} {ds : List Definition} (h : c ∈ closures sc n ds) :
    c.scope = sc ∧ n ≤ c.number ∧ c.number < n + ds.length := by
  induction ds generalizing n with
  | nil => cases h
  | cons d ds ih =>
    rw [List.length_cons]
    rcases List.mem_cons.1 h with rfl | h
    · exact ⟨rfl, Nat.le_refl n, by dsimp only; omega⟩
    · obtain ⟨hs, hl, hu⟩ := ih h
      exact ⟨hs, by omega, by omega⟩

theorem evalStatements_respell (limit : Nat) (p : Program) (v : Value) (h : Respells σ K s t)
    (hm : Mirrors σ s t sc) (hs : s.store.Supplies K sc)
    (hK : ∀ c ∈ closures sc s.store.closures (definitions p), K c) :
    (evalStatements limit sc (v.respell σ) (respellFrom σ sc s.store.closures p) t).1 =
      respelled σ.line (Value.respell σ) (evalStatements limit sc v p s).1 ∧
    Respells σ K (evalStatements limit sc v p s).2
      (evalStatements limit sc (v.respell σ) (respellFrom σ sc s.store.closures p) t).2 ∧
    Mirrors σ (evalStatements limit sc v p s).2
      (evalStatements limit sc (v.respell σ) (respellFrom σ sc s.store.closures p) t).2 sc := by
  induction p generalizing s t v with
  | nil => exact ⟨rfl, h, hm⟩
  | cons st p ih =>
    cases st with
    | definition d =>
      let c : Closure := ⟨s.store.closures, d.name, d.params, d.body, sc⟩
      have hc : K c := hK c List.mem_cons_self
      have ht : evalStatement limit sc (.definition (d.respell σ c)) t =
          (.ok (.function (c.respell σ)), t.bind sc d.name (c.respell σ)) := by
        rw [evalStatement_definition, h.closures_eq]
        rfl
      rw [respellFrom, evalStatements, evalStatements, ht]
      exact ih (.function c) (h.bind hc d.name) (hm.bind h.size_eq d.name c) (supplies_bind hs hc d.name)
        fun b hb => hK b (List.mem_cons_of_mem c hb)
    | expression e l =>
      have he : outcome limit sc (e.respell id σ.line) t =
          respelled σ.line (Value.respell σ) (outcome limit sc e s) :=
        outcome_respell e h hs fun x _ => hm.matches x
      rw [respellFrom, evalStatements, evalStatements, evalStatement, evalStatement, evalExpr_eq,
        evalExpr_eq, he]
      cases outcome limit sc e s with
      | ok w => exact ih w h hm hs hK
      | error err => exact ⟨rfl, h, hm⟩

lemma faithful_id (c : Closure) : c.Faithful id :=
  ⟨fun _ _ _ _ h => h, fun _ _ _ => rfl⟩

lemma frame_new (s : Store) : s.root.2.frame s.root.1.frame = ∅ := by
  rw [Store.frame_root]
  simp [Store.root, Store.frame]

lemma respells_root (σ : Spelling) (s : Store) (hs : ∀ c, K c → c.scope = s.root.1)
    (hf : ∀ c, K c → c.Faithful (σ.name c)) :
    Respells σ K ⟨s.root.2, 0⟩ ⟨s.root.2, 0⟩ ∧ Mirrors σ ⟨s.root.2, 0⟩ ⟨s.root.2, 0⟩ s.root.1 ∧
      s.root.2.Supplies K s.root.1 := by
  have he (f : Nat) (h : f ∈ s.root.1.chain) (x : String) : (s.root.2.frame f)[x]? = none := by
    obtain rfl : f = s.root.1.frame := List.mem_singleton.1 h
    rw [frame_new]
    simp
  have hm : Mirrors σ ⟨s.root.2, 0⟩ ⟨s.root.2, 0⟩ s.root.1 := fun f h x => by rw [he f h x]; rfl
  have hp : s.root.2.Supplies K s.root.1 := by
    rintro v ⟨f, h, x, hv⟩
    rw [he f h x] at hv
    cases hv
  refine ⟨⟨rfl, rfl, rfl, hf, fun c hc => ?_, fun c hc => ?_, .inr fun c hc => ?_⟩, hm, hp⟩
  · exact (hs c hc).symm ▸ hp
  · exact (hs c hc).symm ▸ hm
  · exact (hs c hc).symm ▸ Store.contains_root s

end ExprLang
