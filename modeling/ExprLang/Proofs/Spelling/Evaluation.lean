import ExprLang.Proofs.Evaluation.Effect
import ExprLang.Proofs.Evaluation.Reach
import ExprLang.Proofs.Evaluation.Related
import ExprLang.Proofs.Spelling.Basic

namespace ExprLang

structure Closure.Faithful (name : String → String) (c : Closure) : Prop where
  injective : ∀ x ∈ c.body.names, ∀ p ∈ c.params, name p = name x → p = x
  fixes : ∀ x ∈ c.body.names, x ∉ c.params → name x = x

def Mirrors (σ : Spelling) (s t : State) (sc : Scope) : Prop :=
  ∀ f ∈ sc.chain, ∀ x : String, (t.store.frame f)[x]? = ((s.store.frame f)[x]?).map (Value.respell σ)

/-- New frames must not be frames of the functions in `K`, unless no name is changed at all. -/
structure Respells (σ : Spelling) (K : Closure → Prop) (s t : State) : Prop where
  depth_eq : t.depth = s.depth
  closures_eq : t.store.closures = s.store.closures
  size_eq : t.store.frames.size = s.store.frames.size
  faithful : ∀ c, K c → c.Faithful (σ.name c)
  supplies : ∀ c, K c → s.store.Supplies K c.scope
  mirrors : ∀ c, K c → Mirrors σ s t c.scope
  apart : (∀ c, K c → σ.name c = id) ∨ ∀ c, K c → s.store.Contains c.scope

def Matches (σ : Spelling) (name : String → String) (s t : State) (sc : Scope) (x : String) : Prop :=
  t.store.lookup sc (name x) = (s.store.lookup sc x).map (Value.respell σ) ∧
    (s.store.lookup sc x = none → name x = x)

variable {σ : Spelling} {K : Closure → Prop} {s t : State} {sc : Scope} {limit : Nat}
  {name : String → String} {c d : Closure} {vs : List Value}

lemma Mirrors.findSome? {fs : List Nat}
    (h : ∀ f ∈ fs, ∀ x : String, (t.store.frame f)[x]? = ((s.store.frame f)[x]?).map (Value.respell σ))
    (x : String) : (fs.findSome? fun f => (t.store.frame f)[x]?) =
      (fs.findSome? fun f => (s.store.frame f)[x]?).map (Value.respell σ) := by
  induction fs with
  | nil => rfl
  | cons f fs ih =>
    rw [lookup_cons, lookup_cons, Option.map_or, h f List.mem_cons_self,
      ih fun g hg => h g (List.mem_cons_of_mem f hg)]

lemma Mirrors.lookup (h : Mirrors σ s t sc) (x : String) :
    t.store.lookup sc x = (s.store.lookup sc x).map (Value.respell σ) :=
  Mirrors.findSome? h x

lemma Mirrors.matches (h : Mirrors σ s t sc) (x : String) : Matches σ id s t sc x :=
  ⟨h.lookup x, fun _ => rfl⟩

lemma Matches.resolve {x : String} (h : Matches σ name s t sc x) (l : Nat) :
    t.store.resolve sc (name x) (σ.line l) =
      respelled σ.line (Value.respell σ) (s.store.resolve sc x l) := by
  rw [Store.resolve, Store.resolve, h.1]
  cases hx : s.store.lookup sc x with
  | some v => rfl
  | none =>
    rw [h.2 hx]
    rfl

lemma lookup_zip_map {f : Value → Value} {params : List String} {x : String}
    (h : ∀ p ∈ params, name p = name x → p = x) :
    ((params.map name).zip (vs.map f)).reverse.lookup (name x) =
      ((params.zip vs).reverse.lookup x).map f := by
  induction params generalizing vs with
  | nil => rfl
  | cons p params ih =>
    cases vs with
    | nil => rfl
    | cons v vs =>
      have hp : (name x == name p) = (x == p) := by
        rw [Bool.eq_iff_iff, beq_iff_eq, beq_iff_eq]
        exact ⟨fun he => (h p List.mem_cons_self he.symm).symm, congrArg name⟩
      simp only [List.map_cons, List.zip_cons_cons, List.reverse_cons, List.lookup_append,
        Option.map_or, List.lookup_cons, List.lookup_nil, hp]
      rw [ih fun q hq => h q (List.mem_cons_of_mem p hq)]
      cases x == p <;> rfl

lemma ofArguments_respell (hc : c.Faithful (σ.name c)) {x : String} (hx : x ∈ c.body.names) :
    (Bindings.ofArguments (c.respell σ).params (vs.map (Value.respell σ)))[σ.name c x]? =
      ((Bindings.ofArguments c.params vs)[x]?).map (Value.respell σ) := by
  rw [getElem?_ofArguments, getElem?_ofArguments]
  exact lookup_zip_map (hc.injective x hx)

lemma isSome_ofArguments {params : List String} {x : String} (hl : vs.length = params.length)
    (hx : x ∈ params) : (Bindings.ofArguments params vs)[x]? ≠ none := by
  rw [getElem?_ofArguments, Ne, List.lookup_eq_none_iff]
  intro h
  obtain ⟨i, hi, rfl⟩ := List.getElem_of_mem hx
  have hv : i < vs.length := hl ▸ hi
  have hm : (params[i], vs[i]) ∈ (params.zip vs).reverse :=
    List.mem_reverse.2 (List.mem_iff_getElem.2 ⟨i, by simp [hl, hi], by simp⟩)
  simpa using h _ hm

namespace Respells

lemma frame_inside (h : Respells σ K s t) (c : Closure) (vs : List Value) (f : Nat) :
    ((c.respell σ).inside (vs.map (Value.respell σ)) t).2.store.frame f =
      if f = s.store.frames.size
      then Bindings.ofArguments (c.respell σ).params (vs.map (Value.respell σ))
      else t.store.frame f := by
  rw [← h.size_eq]
  exact t.store.frame_child c.scope _ f

lemma mirrors_inside (h : Respells σ K s t) (hc : K c) (hd : K d) :
    Mirrors σ (c.inside vs s).2 ((c.respell σ).inside (vs.map (Value.respell σ)) t).2 d.scope := by
  intro f hf x
  have hs := s.store.frame_child c.scope (Bindings.ofArguments c.params vs) f
  rw [h.frame_inside, Closure.inside, hs]
  split
  · rename_i hn
    rcases h.apart with hp | hp
    · rw [Closure.respell, hp c hc, List.map_id, getElem?_ofArguments, getElem?_ofArguments]
      have hx : ∀ p ∈ c.params, id p = id x → p = x := fun _ _ he => he
      simpa using lookup_zip_map hx
    · have := hp d hd f hf
      omega
  · exact h.mirrors d hd f hf x

lemma inside (h : Respells σ K s t) (hc : K c) (hv : ∀ v ∈ vs, v.Within K) :
    Respells σ K (c.inside vs s).2 ((c.respell σ).inside (vs.map (Value.respell σ)) t).2 where
  depth_eq := congrArg (· + 1) h.depth_eq
  closures_eq := h.closures_eq
  size_eq := by simp [Closure.inside, Store.child, h.size_eq]
  faithful := h.faithful
  supplies d hd := supplies_inside (h.supplies d hd) hv
  mirrors d hd := h.mirrors_inside hc hd
  apart := h.apart.imp id fun hp d hd => (hp d hd).mono (by simp [Closure.inside, Store.child])

lemma scope_inside (h : Respells σ K s t) (c : Closure) (vs : List Value) :
    ((c.respell σ).inside (vs.map (Value.respell σ)) t).1 = (c.inside vs s).1 :=
  congrArg (fun n => (⟨n, c.scope.chain⟩ : Scope)) h.size_eq

lemma matches_body (h : Respells σ K s t) (hc : K c) (hl : vs.length = c.params.length) {x : String}
    (hx : x ∈ c.body.names) :
    Matches σ (σ.name c) (c.inside vs s).2 ((c.respell σ).inside (vs.map (Value.respell σ)) t).2
      (c.inside vs s).1 x := by
  have hs := s.store.frame_child c.scope (Bindings.ofArguments c.params vs) s.store.frames.size
  have ht := h.frame_inside c vs s.store.frames.size
  rw [if_pos rfl] at hs ht
  have hlookup (u : Store) (y : String) : u.lookup (c.inside vs s).1 y =
      ((u.frame s.store.frames.size)[y]?).or (u.lookup c.scope y) := lookup_cons u _ _ y
  rw [Matches, hlookup, hlookup, ht, ofArguments_respell (h.faithful c hc) hx]
  have hs' : (c.inside vs s).2.store.frame s.store.frames.size = Bindings.ofArguments c.params vs := hs
  rw [hs', Option.map_or]
  by_cases hp : x ∈ c.params
  · -- A parameter is bound in the frame of the call, whatever it is called.
    have hb := isSome_ofArguments hl hp
    cases hv : (Bindings.ofArguments c.params vs)[x]? with
    | none => exact (hb hv).elim
    | some v => exact ⟨rfl, nofun⟩
  · have hn : σ.name c x = x := (h.faithful c hc).fixes x hx hp
    rw [hn, (h.mirrors_inside hc hc).lookup]
    exact ⟨rfl, fun _ => rfl⟩

end Respells

lemma mapM_outcome_respell (es : List Expr)
    (h : ∀ e ∈ es, outcome limit sc (e.respell name σ.line) t =
      respelled σ.line (Value.respell σ) (outcome limit sc e s)) :
    ((es.map (Expr.respell name σ.line)).mapM fun e => outcome limit sc e t) =
      respelled σ.line (List.map (Value.respell σ)) (es.mapM fun e => outcome limit sc e s) :=
  mapM_respelled es h

theorem outcome_respell (e : Expr) (h : Respells σ K s t) (hs : s.store.Supplies K sc)
    (hn : ∀ x ∈ e.names, Matches σ name s t sc x) :
    outcome limit sc (e.respell name σ.line) t =
      respelled σ.line (Value.respell σ) (outcome limit sc e s) := by
  obtain ⟨d, hd⟩ : ∃ d, s.depth = d := ⟨_, rfl⟩
  induction d, e using call_induction limit generalizing sc s t name with
  | literal d v line =>
    rw [Expr.respell, outcome_literal, outcome_literal]
    cases v <;> rfl
  | identifier d x line =>
    rw [Expr.respell, outcome_identifier, outcome_identifier]
    exact (hn x List.mem_cons_self).resolve line
  | negate d a line ih =>
    rw [Expr.respell, outcome_negate, outcome_negate, ih h hs hn hd]
    exact respelled_bind fun v _ => v.negate_respell σ line
  | binary d op a b line iha ihb =>
    have ha := iha h hs (fun x hx => hn x (List.mem_append_left _ hx)) hd
    have hb := ihb h hs (fun x hx => hn x (List.mem_append_right _ hx)) hd
    rw [Expr.respell, outcome_binary, outcome_binary, ha, hb]
    exact respelled_bind fun v _ => respelled_bind fun w _ => v.apply_respell σ op w line
  | vector d es line ih =>
    rw [Expr.respell_vector, outcome_vector, outcome_vector, Array.toList_map,
      mapM_outcome_respell es.toList fun e he => ih e he h hs
        (fun x hx => hn x (Expr.mem_names_vector he hx)) hd]
    refine respelled_bind fun vs _ => ?_
    simp [Value.respell_vector]
  | element d es l i line ihi ih =>
    have hi := ihi h hs (fun x hx => hn x (List.mem_append_right _ hx)) hd
    rw [Expr.respell, Expr.respell_vector, outcome_element, outcome_element, hi]
    refine respelled_bind fun v _ => ?_
    rw [v.position_respell]
    refine respelled_bind fun k _ => ?_
    rw [id_eq, element?_map, Array.size_map]
    cases he : element? es k with
    | none => rfl
    | some e =>
      have hm : e ∈ es.toList := Array.mem_toList_iff.2 (mem_of_element? he)
      have hx (x : String) (hx : x ∈ e.names) : Matches σ name s t sc x :=
        hn x (List.mem_append_left _ (Expr.mem_names_vector hm hx))
      exact ih e hm h hs hx hd
  | index d a i line ha ihi iha =>
    have hi := ihi h hs (fun x hx => hn x (List.mem_append_right _ hx)) hd
    have ha' := iha h hs (fun x hx => hn x (List.mem_append_left _ hx)) hd
    rw [Expr.respell, outcome_index _ _ _ _ (Expr.respell_ne_vector ha), outcome_index a i line s ha,
      hi, ha']
    refine respelled_bind fun v _ => ?_
    rw [v.position_respell]
    exact respelled_bind fun k _ => respelled_bind fun w _ => w.select_respell σ line k
  | call d f as line ihf ihas ihb =>
    have hf := ihf h hs (fun x hx => hn x (List.mem_append_left _ hx)) hd
    have has (a : Expr) (ha : a ∈ as) := ihas a ha h hs
      (fun x hx => hn x (List.mem_append_right _ (Expr.mem_namesAll ha hx))) hd
    rw [Expr.respell, outcome_call, outcome_call, hf, Expr.respellAll_eq_map, List.length_map]
    refine respelled_bind fun v hv => ?_
    rw [v.callee_respell]
    refine respelled_bind fun c hc => ?_
    -- The function comes from the scope, so it is one of those whose respelling is known to be faithful.
    have hK : K c := gives_callee (gives_outcome f hs h.supplies v hv) c hc
    rw [mapM_outcome_respell as has, show (c.respell σ).params.length = c.params.length from
      List.length_map _]
    split
    · rename_i hl
      refine respelled_bind fun vs hvs => ?_
      rw [h.depth_eq]
      split
      · rename_i hlt
        have hlen : vs.length = c.params.length := (length_of_mapM hvs).trans hl
        have hargs : ∀ v ∈ vs, v.Within K :=
          gives_mapM as (fun a _ => gives_outcome a hs h.supplies) vs hvs
        rw [h.scope_inside]
        exact ihb (hd ▸ hlt) c.body (h.inside hK hargs) (supplies_body (h.supplies c hK) hargs)
          (fun x hx => h.matches_body hK hlen hx) (congrArg (· + 1) hd)
      · rfl
    · rfl

end ExprLang
