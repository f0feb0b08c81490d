import ExprLang.Proofs.Spelling.Program
import Mathlib

namespace ExprLang

def substitute (x y z : String) : String := if z = x then y else z

def Definition.rename (x y : String) (d : Definition) : Definition :=
  { d with params := d.params.map (substitute x y), body := d.body.respell (substitute x y) id }

def Spelling.renamed (n : Nat) (x y : String) : Spelling :=
  ⟨fun c => if c.number = n then substitute x y else id, id⟩

variable {σ : Spelling} {sc : Scope} {n : Nat} {x y : String} {c : Closure} {d : Definition}

lemma renamed_name (h : c.number = n) : (Spelling.renamed n x y).name c = substitute x y := if_pos h

lemma renamed_name_of_ne (h : c.number ≠ n) : (Spelling.renamed n x y).name c = id := if_neg h

lemma respelled_id {α β : Type} (f : α → β) (r : Outcome α) : respelled id f r = r.map f := by
  cases r <;> rfl

lemma respellFrom_append (p q : Program) : respellFrom σ sc n (p ++ q) =
    respellFrom σ sc n p ++ respellFrom σ sc (n + (definitions p).length) q := by
  induction p generalizing n with
  | nil => rfl
  | cons st p ih =>
    cases st with
    | definition d =>
      have hn : n + (definitions (.definition d :: p)).length = n + 1 + (definitions p).length := by
        change n + ((definitions p).length + 1) = _
        omega
      rw [List.cons_append, respellFrom, respellFrom, ih, hn, List.cons_append]
    | expression e l =>
      rw [List.cons_append, respellFrom, respellFrom, ih]
      rfl

lemma respellFrom_of_id (hl : σ.line = id) (p : Program)
    (h : ∀ c ∈ closures sc n (definitions p), σ.name c = id) : respellFrom σ sc n p = p := by
  induction p generalizing n with
  | nil => rfl
  | cons st p ih =>
    cases st with
    | definition d =>
      have hd := h _ List.mem_cons_self
      rw [respellFrom, ih fun c hc => h c (List.mem_cons_of_mem _ hc)]
      simp [Definition.respell, Closure.respell, hd, hl]
    | expression e l =>
      rw [respellFrom, ih h, hl, Expr.respell_id]
      rfl

lemma respellFrom_renaming (sc : Scope) (before after : Program) (d : Definition) (x y : String) :
    respellFrom (.renamed (n + (definitions before).length) x y) sc n
      (before ++ .definition d :: after) = before ++ .definition (d.rename x y) :: after := by
  rw [respellFrom_append, respellFrom, respellFrom_of_id rfl before fun c hc => renamed_name_of_ne ?_,
    respellFrom_of_id rfl after fun c hc => renamed_name_of_ne ?_]
  · have hn : (Spelling.renamed (n + (definitions before).length) x y).name
        ⟨n + (definitions before).length, d.name, d.params, d.body, sc⟩ = substitute x y :=
      renamed_name rfl
    simp only [Definition.respell, Closure.respell, hn]
    rfl
  · have := (mem_closures hc).2.1
    omega
  · have := (mem_closures hc).2.2
    omega

lemma faithful_renaming (hx : x ∈ c.params) (hy : y ∉ c.params) (hb : y ∉ c.body.names) :
    c.Faithful (substitute x y) where
  injective z hz p hp h := by
    have hzy : z ≠ y := fun he => hb (he ▸ hz)
    have hpy : p ≠ y := fun he => hy (he ▸ hp)
    unfold substitute at h
    split at h <;> split at h
    · simp_all
    · exact (hzy h.symm).elim
    · exact (hpy h).elim
    · exact h
  fixes z _ hp := by
    have hz : z ≠ x := fun he => hp (he ▸ hx)
    exact if_neg hz

theorem evalProgram_rename (limit : Nat) (before after : Program) (d : Definition) (x y : String)
    (hx : x ∈ d.params) (hy : y ∉ d.params) (hb : y ∉ d.body.names) (s : Store) :
    (evalProgram limit s.root.1 (before ++ .definition (d.rename x y) :: after) ⟨s.root.2, 0⟩).1 =
      (evalProgram limit s.root.1 (before ++ .definition d :: after) ⟨s.root.2, 0⟩).1.map
        (Value.respell (.renamed (s.closures + (definitions before).length) x y)) := by
  let n := s.closures + (definitions before).length
  let K (c : Closure) : Prop := c.scope = s.root.1 ∧ (c.number = n → c.params = d.params ∧ c.body = d.body)
  have hf (c : Closure) (hc : K c) : c.Faithful ((Spelling.renamed n x y).name c) := by
    by_cases hn : c.number = n
    · obtain ⟨hp, he⟩ := hc.2 hn
      rw [renamed_name hn]
      exact faithful_renaming (hp ▸ hx) (hp ▸ hy) (he ▸ hb)
    · rw [renamed_name_of_ne hn]
      exact faithful_id c
  have hK : ∀ c ∈ closures s.root.1 s.closures (definitions (before ++ .definition d :: after)), K c := by
    intro c hc
    rw [definitions_append, closures_append] at hc
    rcases List.mem_append.1 hc with hc | hc
    · obtain ⟨hs, -, hu⟩ := mem_closures hc
      exact ⟨hs, fun hn => by omega⟩
    · rcases List.mem_cons.1 hc with rfl | hc
      · exact ⟨rfl, fun _ => ⟨rfl, rfl⟩⟩
      · obtain ⟨hs, hl, -⟩ := mem_closures hc
        exact ⟨hs, fun hn => by omega⟩
  obtain ⟨hr, hm, hp⟩ := respells_root (.renamed n x y) s (fun _ hc => hc.1) hf
  have h := (evalStatements_respell limit _ (.integer 0) hr hm hp hK).1
  rw [← respelled_id, ← respellFrom_renaming s.root.1]
  exact h

def twice : Program :=
  [.definition ⟨"inc", ["a"], .binary .add (.identifier "a" 1) (.literal (.integer 1) 1) 1, 1⟩,
   .definition ⟨"twice", ["b"], .call (.identifier "inc" 2) [.call (.identifier "inc" 2) [.identifier "b" 2] 2] 2, 2⟩]

def pair : Definition :=
  ⟨"pair", ["x", "z"], .vector #[.call (.identifier "twice" 3) [.identifier "x" 3] 3, .identifier "z" 3] 3, 3⟩

def pairs : Program :=
  [.expression (.call (.identifier "pair" 4) [.literal (.integer 3) 4, .identifier "pair" 4] 4) 4]

theorem evalProgram_rename_inc :
    ("x" ∈ pair.params ∧ "inc" ∉ pair.params ∧ "inc" ∉ pair.body.names) ∧
      (evalProgram 3 Store.empty.root.1 (twice ++ .definition (pair.rename "x" "inc") :: pairs)
          ⟨Store.empty.root.2, 0⟩).1 =
        .ok (.vector #[.integer 5, .function ⟨2, "pair", ["inc", "z"],
          .vector #[.call (.identifier "twice" 3) [.identifier "inc" 3] 3, .identifier "z" 3] 3, ⟨0, []⟩⟩]) := by
  have hx : "x" ∈ pair.params := by decide
  have hy : "inc" ∉ pair.params := by decide
  have hb : "inc" ∉ pair.body.names := by decide
  have hr : (evalProgram 3 Store.empty.root.1 (twice ++ .definition pair :: pairs)
      ⟨Store.empty.root.2, 0⟩).1 =
        .ok (.vector #[.integer 5, .function ⟨2, "pair", pair.params, pair.body, ⟨0, []⟩⟩]) := by cbv
  refine ⟨⟨hx, hy, hb⟩, ?_⟩
  rw [evalProgram_rename 3 twice pairs pair "x" "inc" hx hy hb Store.empty, hr]
  rfl

end ExprLang
