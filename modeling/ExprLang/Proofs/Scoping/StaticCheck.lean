import ExprLang.Proofs.Evaluation.Effect
import ExprLang.Proofs.Spelling.Program
import Mathlib

/-! Names that can be checked before a program is run. -/

namespace ExprLang

def definedNames (p : Program) : List String := (definitions p).map (·.name)

/-- Names in the body of a definition may also belong to definitions after it, if these come before the
statement. -/
def Statement.Covered (before : Program) : Statement → Prop
  | definition _ => True
  | expression e _ =>
    (∀ x ∈ e.names, x ∈ definedNames before) ∧
      ∀ d ∈ definitions before, ∀ x ∈ d.body.names, x ∈ d.params ∨ x ∈ definedNames before

instance (before : Program) (st : Statement) : Decidable (st.Covered before) :=
  match st with
  | .definition _ => inferInstanceAs (Decidable True)
  | .expression e _ => inferInstanceAs (Decidable ((∀ x ∈ e.names, x ∈ definedNames before) ∧
      ∀ d ∈ definitions before, ∀ x ∈ d.body.names, x ∈ d.params ∨ x ∈ definedNames before))

def Scoped (p : Program) : Prop := ∀ k : Fin p.length, (p.get k).Covered (p.take k)

instance (p : Program) : Decidable (Scoped p) :=
  inferInstanceAs (Decidable (∀ k : Fin p.length, (p.get k).Covered (p.take k)))

lemma Scoped.covered {before after : Program} {st : Statement} (h : Scoped (before ++ st :: after)) :
    st.Covered before := by
  have hk : before.length < (before ++ st :: after).length := by simp
  simpa using h ⟨before.length, hk⟩

def EvalCause.Unknown : EvalCause → Prop
  | unknownIdentifier _ => True
  | _ => False

def Known {α : Type} (r : Outcome α) : Prop := ∀ e, r = .error e → ¬ e.cause.Unknown

section Known

variable {α β : Type} {line : Nat}

lemma known_ok (a : α) : Known (.ok a : Outcome α) := nofun

lemma known_error {c : EvalCause} (h : ¬ c.Unknown) : Known (.error ⟨c, line⟩ : Outcome α) := by
  rintro _ ⟨⟩
  exact h

lemma Known.bind {r : Outcome α} {f : α → Outcome β} (hr : Known r)
    (hf : ∀ a, r = .ok a → Known (f a)) : Known (r >>= f) := by
  cases r with
  | ok a => exact hf a rfl
  | error e =>
    rintro _ ⟨⟩
    exact hr e rfl

lemma known_mapM {f : α → Outcome β} (as : List α) (h : ∀ a ∈ as, Known (f a)) : Known (as.mapM f) := by
  induction as with
  | nil => exact known_ok []
  | cons a as ih =>
    rw [List.mapM_cons]
    refine (h a List.mem_cons_self).bind fun b _ => ?_
    exact (ih fun c hc => h c (List.mem_cons_of_mem a hc)).bind fun bs _ => known_ok (b :: bs)

lemma known_fit (n : Int) : Known (located line ((fit n).map Value.integer)) := by
  rw [fit]
  split
  · exact known_ok _
  · exact known_error not_false

lemma known_negate (v : Value) : Known (located line v.negate) := by
  cases v with
  | integer n => exact known_fit _
  | vector vs => exact known_error not_false
  | function c => exact known_error not_false

lemma known_compute (op : BinaryOp) (m n : Int64) :
    Known (located line ((op.compute m n).map Value.integer)) := by
  cases op with
  | add | sub | mul => exact known_fit _
  | div =>
    rw [BinaryOp.compute]
    split
    · exact known_error not_false
    · exact known_fit _
  | equal | greater | less | and | or => exact known_ok _

lemma known_apply (op : BinaryOp) (v w : Value) : Known (located line (op.apply v w)) := by
  cases v <;> cases w
  case integer.integer m n => exact known_compute op m n
  all_goals exact known_error not_false

lemma known_position (v : Value) : Known (v.position line) := by
  cases v with
  | integer n => exact known_ok n
  | vector vs => exact known_error not_false
  | function c => exact known_error not_false

lemma known_select (v : Value) (k : Int64) : Known (v.select line k) := by
  cases v with
  | integer n => exact known_error not_false
  | function c => exact known_error not_false
  | vector vs =>
    rw [Value.select]
    cases element? vs k with
    | none => exact known_error not_false
    | some w => exact known_ok w

lemma known_callee (v : Value) : Known (v.callee line) := by
  cases v with
  | integer n => exact known_error not_false
  | vector vs => exact known_error not_false
  | function c => exact known_ok c

end Known

variable {limit : Nat} {sc : Scope} {s : State} {K : Closure → Prop} {c : Closure} {vs : List Value}
  {x : String}

lemma lookup_ne_none_iff {t : Store} : t.lookup sc x ≠ none ↔ ∃ f ∈ sc.chain, (t.frame f)[x]? ≠ none := by
  simp [Store.lookup_eq_none_iff]

lemma frame_size (t : Store) : t.frame t.frames.size = ∅ := by
  simp [Store.frame]

lemma lookup_inside_ne_none (c : Closure) (vs : List Value) {outer : Scope}
    (h : s.store.lookup outer x ≠ none) : (c.inside vs s).2.store.lookup outer x ≠ none := by
  obtain ⟨f, hf, hx⟩ := lookup_ne_none_iff.1 h
  have hne : f ≠ s.store.frames.size := by
    rintro rfl
    exact hx (by simp [frame_size])
  refine lookup_ne_none_iff.2 ⟨f, hf, ?_⟩
  rwa [getElem?_inside, if_neg hne]

lemma lookup_param_ne_none (hl : vs.length = c.params.length) (hx : x ∈ c.params) :
    (c.inside vs s).2.store.lookup (c.inside vs s).1 x ≠ none := by
  refine lookup_ne_none_iff.2 ⟨s.store.frames.size, List.mem_cons_self, ?_⟩
  rw [Closure.inside, Store.frame_child, if_pos rfl]
  exact isSome_ofArguments hl hx

lemma lookup_body_ne_none (h : s.store.lookup c.scope x ≠ none) :
    (c.inside vs s).2.store.lookup (c.inside vs s).1 x ≠ none := by
  obtain ⟨f, hf, hx⟩ := lookup_ne_none_iff.1 (lookup_inside_ne_none c vs h)
  exact lookup_ne_none_iff.2 ⟨f, List.mem_cons_of_mem _ hf, hx⟩

structure Covers (K : Closure → Prop) (s : State) : Prop where
  supplies : ∀ c, K c → s.store.Supplies K c.scope
  bound : ∀ c, K c → ∀ x ∈ c.body.names, x ∈ c.params ∨ s.store.lookup c.scope x ≠ none

lemma Covers.inside (h : Covers K s) (hv : ∀ v ∈ vs, v.Within K) : Covers K (c.inside vs s).2 where
  supplies d hd := supplies_inside (h.supplies d hd) hv
  bound d hd x hx := (h.bound d hd x hx).imp_right (lookup_inside_ne_none c vs)

lemma Covers.names_inside (h : Covers K s) (hc : K c) (hl : vs.length = c.params.length)
    (hx : x ∈ c.body.names) : (c.inside vs s).2.store.lookup (c.inside vs s).1 x ≠ none := by
  rcases h.bound c hc x hx with hp | hn
  · exact lookup_param_ne_none hl hp
  · exact lookup_body_ne_none hn

theorem known_outcome (e : Expr) (h : Covers K s) (hs : s.store.Supplies K sc)
    (hn : ∀ x ∈ e.names, s.store.lookup sc x ≠ none) : Known (outcome limit sc e s) := by
  obtain ⟨d, hd⟩ : ∃ d, s.depth = d := ⟨_, rfl⟩
  induction d, e using call_induction limit generalizing sc s with
  | literal d v line =>
    rw [outcome_literal]
    exact known_ok _
  | identifier d x line =>
    rw [outcome_identifier, Store.resolve]
    cases hx : s.store.lookup sc x with
    | some v => exact known_ok v
    | none => exact (hn x List.mem_cons_self hx).elim
  | negate d a line ih =>
    rw [outcome_negate]
    exact (ih h hs hn hd).bind fun v _ => known_negate v
  | binary d op a b line iha ihb =>
    rw [outcome_binary]
    refine (iha h hs (fun x hx => hn x (List.mem_append_left _ hx)) hd).bind fun v _ => ?_
    refine (ihb h hs (fun x hx => hn x (List.mem_append_right _ hx)) hd).bind fun w _ => ?_
    exact known_apply op v w
  | vector d es line ih =>
    rw [outcome_vector]
    refine (known_mapM es.toList fun e he => ?_).bind fun vs _ => known_ok _
    exact ih e he h hs (fun x hx => hn x (Expr.mem_names_vector he hx)) hd
  | element d es l i line ihi ih =>
    rw [outcome_element]
    refine (ihi h hs (fun x hx => hn x (List.mem_append_right _ hx)) hd).bind fun v _ => ?_
    refine (known_position v).bind fun k _ => ?_
    cases he : element? es k with
    | none => exact known_error not_false
    | some e =>
      have hm : e ∈ es.toList := Array.mem_toList_iff.2 (mem_of_element? he)
      exact ih e hm h hs (fun x hx => hn x (List.mem_append_left _ (Expr.mem_names_vector hm hx))) hd
  | index d a i line ha ihi iha =>
    rw [outcome_index a i line s ha]
    refine (ihi h hs (fun x hx => hn x (List.mem_append_right _ hx)) hd).bind fun v _ => ?_
    refine (known_position v).bind fun k _ => ?_
    refine (iha h hs (fun x hx => hn x (List.mem_append_left _ hx)) hd).bind fun w _ => ?_
    exact known_select w k
  | call d f as line ihf ihas ihb =>
    rw [outcome_call]
    refine (ihf h hs (fun x hx => hn x (List.mem_append_left _ hx)) hd).bind fun v hv => ?_
    refine (known_callee v).bind fun c hc => ?_
    -- The function comes from the scope, so the names in its body are covered.
    have hK : K c := gives_callee (gives_outcome f hs h.supplies v hv) c hc
    split
    · rename_i hl
      have has (a : Expr) (ha : a ∈ as) : Known (outcome limit sc a s) :=
        ihas a ha h hs (fun x hx => hn x (List.mem_append_right _ (Expr.mem_namesAll ha hx))) hd
      refine (known_mapM as has).bind fun vs hvs => ?_
      split
      · rename_i hlt
        have hlen : vs.length = c.params.length := (length_of_mapM hvs).trans hl
        have hargs : ∀ v ∈ vs, v.Within K :=
          gives_mapM as (fun a _ => gives_outcome a hs h.supplies) vs hvs
        exact ihb (hd ▸ hlt) c.body (h.inside hargs) (supplies_body (h.supplies c hK) hargs)
          (fun x hx => h.names_inside hK hlen hx) (congrArg (· + 1) hd)
      · exact known_error not_false
    · exact known_error not_false

lemma exists_of_mem_closures {n : Nat} {ds : List Definition} (h : c ∈ closures sc n ds) :
    ∃ d ∈ ds, c.params = d.params ∧ c.body = d.body := by
  induction ds generalizing n with
  | nil => cases h
  | cons d ds ih =>
    rcases List.mem_cons.1 h with rfl | h
    · exact ⟨d, List.mem_cons_self, rfl, rfl⟩
    · obtain ⟨e, he, hc⟩ := ih h
      exact ⟨e, List.mem_cons_of_mem d he, hc⟩

lemma exists_mem_closures (sc : Scope) (n : Nat) {ds : List Definition} (h : x ∈ ds.map (·.name)) :
    ∃ c ∈ closures sc n ds, c.name = x := by
  induction ds generalizing n with
  | nil => cases h
  | cons d ds ih =>
    rcases List.mem_cons.1 h with rfl | h
    · exact ⟨_, List.mem_cons_self, rfl⟩
    · obtain ⟨c, hc, hx⟩ := ih (n + 1) h
      exact ⟨c, List.mem_cons_of_mem _ hc, hx⟩

lemma mem_of_overwrite {cs : List Closure} {v : Value}
    (h : ((∅ : Bindings).overwrite cs)[x]? = some v) : ∃ c ∈ cs, v = .function c := by
  rw [getElem?_overwrite] at h
  have hl : (cs.map fun c => (c.name, Value.function c)).reverse.lookup x = some v := by simpa using h
  obtain ⟨before, after, hp, -⟩ := List.lookup_eq_some_iff.1 hl
  have hm : (x, v) ∈ (cs.map fun c => (c.name, Value.function c)).reverse := by simp [hp]
  obtain ⟨c, hc, he⟩ := List.mem_map.1 (List.mem_reverse.1 hm)
  exact ⟨c, hc, (congrArg Prod.snd he).symm⟩

lemma overwrite_ne_none (b : Bindings) {cs : List Closure} (h : ∃ c ∈ cs, c.name = x) :
    (b.overwrite cs)[x]? ≠ none := by
  obtain ⟨c, hc, rfl⟩ := h
  rw [getElem?_overwrite, Ne, Option.or_eq_none_iff, List.lookup_eq_none_iff]
  rintro ⟨hn, -⟩
  have hm : (c.name, Value.function c) ∈ (cs.map fun c => (c.name, Value.function c)).reverse :=
    List.mem_reverse.2 (List.mem_map.2 ⟨c, hc, rfl⟩)
  simpa using hn _ hm

section Root

variable (t : Store) (depth : Nat) (before : Program)

def rooted : State := State.after ⟨t.root.2, depth⟩ t.root.1 before

lemma frame_rooted : (rooted t depth before).store.frame t.root.1.frame =
    (∅ : Bindings).overwrite (closures t.root.1 t.closures (definitions before)) := by
  have hsc : t.root.1.frame < t.root.2.frames.size := Store.contains_root t _ List.mem_cons_self
  rw [rooted, frame_after _ _ _ _ hsc, if_pos rfl]
  exact congrArg (Bindings.overwrite · _) (frame_new t)

lemma lookup_rooted_ne_none (hx : x ∈ definedNames before) :
    (rooted t depth before).store.lookup t.root.1 x ≠ none := by
  refine lookup_ne_none_iff.2 ⟨t.root.1.frame, List.mem_cons_self, ?_⟩
  rw [frame_rooted]
  exact overwrite_ne_none ∅ (exists_mem_closures _ _ hx)

lemma supplies_rooted : (rooted t depth before).store.Supplies
    (· ∈ closures t.root.1 t.closures (definitions before)) t.root.1 := by
  rintro v ⟨f, hf, y, hy⟩
  obtain rfl : f = t.root.1.frame := List.mem_singleton.1 hf
  rw [frame_rooted] at hy
  obtain ⟨c, hc, rfl⟩ := mem_of_overwrite hy
  exact within_function hc

lemma covers_rooted
    (h : ∀ d ∈ definitions before, ∀ x ∈ d.body.names, x ∈ d.params ∨ x ∈ definedNames before) :
    Covers (· ∈ closures t.root.1 t.closures (definitions before)) (rooted t depth before) where
  supplies c hc := by
    rw [(mem_closures hc).1]
    exact supplies_rooted t depth before
  bound c hc x hx := by
    obtain ⟨d, hd, hp, hb⟩ := exists_of_mem_closures hc
    rw [(mem_closures hc).1, hp]
    exact (h d hd x (hb ▸ hx)).imp_right (lookup_rooted_ne_none t depth before)

end Root

theorem evalProgram_known (p : Program) (h : Scoped p) (limit depth : Nat) (t : Store) (x : String)
    (line : Nat) :
    (evalProgram limit t.root.1 p ⟨t.root.2, depth⟩).1 ≠ .error ⟨.unknownIdentifier x, line⟩ := by
  have hnil : Yields limit t.root.1 ⟨t.root.2, depth⟩ [] (.integer 0) := .nil
  obtain ⟨done, rest, v, rfl, -, hr, -⟩ := evalStatements_split p hnil
  rw [after_nil, List.nil_append] at hr
  change Halts limit t.root.1 (rooted t depth done) v rest
    (evalProgram limit t.root.1 (done ++ rest) ⟨t.root.2, depth⟩).1 at hr
  intro he
  rw [he] at hr
  cases hr with
  | @failed e l later err ho =>
    obtain ⟨hn, hb⟩ := h.covered
    have hk : Known (outcome limit t.root.1 e (rooted t depth done)) :=
      known_outcome e (covers_rooted t depth done hb) (supplies_rooted t depth done)
        fun y hy => lookup_rooted_ne_none t depth done (hn y hy)
    exact hk _ ho trivial

def parity : Program :=
  let half (f g : String) (k : Int64) (line : Nat) : Statement :=
    .definition ⟨f, ["n"], .index (.vector #[.literal (.integer k) line, .call (.identifier g line)
        [.binary .sub (.identifier "n" line) (.literal (.integer 1) line) line] line] line)
      (.binary .greater (.identifier "n" line) (.literal (.integer 0) line) line) line, line⟩
  [half "even" "odd" 1 1, half "odd" "even" 0 2,
    .definition ⟨"ask", ["f", "n"], .call (.identifier "f" 3) [.identifier "n" 3] 3, 3⟩,
    .expression (.call (.identifier "ask" 4) [.identifier "even" 4, .literal (.integer 3) 4] 4) 4]

theorem evalProgram_known_parity :
    Scoped parity ∧ (∀ limit x line,
      (evalProgram limit Store.empty.root.1 parity ⟨Store.empty.root.2, 0⟩).1 ≠
        .error ⟨.unknownIdentifier x, line⟩) ∧
    (evalProgram 9 Store.empty.root.1 parity ⟨Store.empty.root.2, 0⟩).1 = .ok (.integer 0) ∧
    (evalProgram 3 Store.empty.root.1 parity ⟨Store.empty.root.2, 0⟩).1 = .error ⟨.callDepth 3, 2⟩ ∧
    ¬ Scoped (parity.eraseIdx 1) ∧
    (evalProgram 9 Store.empty.root.1 (parity.eraseIdx 1) ⟨Store.empty.root.2, 0⟩).1 =
      .error ⟨.unknownIdentifier "odd", 1⟩ := by
  have hp : Scoped parity := by decide
  have hn : ¬ Scoped (parity.eraseIdx 1) := by decide
  refine ⟨hp, fun limit => evalProgram_known parity hp limit 0 Store.empty, ?_, ?_, hn, ?_⟩
  · cbv
  · cbv
  · cbv

end ExprLang
