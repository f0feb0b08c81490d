import ExprLang.Proofs.Spelling.Program
import ExprLang.Proofs.Spelling.Reading

namespace ExprLang

def Spelling.lines (g : Nat → Nat) : Spelling := ⟨fun _ => id, g⟩

def Value.renumber (g : Nat → Nat) : Value → Value := respell (.lines g)

namespace Value

mutual

theorem renumber_renumber (f g : Nat → Nat) :
    (v : Value) → (v.renumber f).renumber g = v.renumber (g ∘ f)
  | integer _ => rfl
  | vector ⟨vs⟩ => congrArg (fun ws => vector ⟨ws⟩) (renumberAll_renumberAll f g vs)
  | function c => by
    simp [renumber, respell, Closure.respell, Spelling.lines, Expr.respell_respell]

theorem renumberAll_renumberAll (f g : Nat → Nat) :
    (vs : List Value) →
      respellAll (.lines g) (respellAll (.lines f) vs) = respellAll (.lines (g ∘ f)) vs
  | [] => rfl
  | v :: vs => congrArg₂ List.cons (renumber_renumber f g v) (renumberAll_renumberAll f g vs)

end

mutual

theorem renumber_id : (v : Value) → v.renumber id = v
  | integer _ => rfl
  | vector ⟨vs⟩ => congrArg (fun ws => vector ⟨ws⟩) (renumberAll_id vs)
  | function c => by simp [renumber, respell, Closure.respell, Spelling.lines]

theorem renumberAll_id : (vs : List Value) → respellAll (.lines id) vs = vs
  | [] => rfl
  | v :: vs => congrArg₂ List.cons (renumber_id v) (renumberAll_id vs)

end

end Value

variable {g : Nat → Nat}

lemma respellFrom_lines (sc : Scope) (n : Nat) (p : Program) :
    respellFrom (.lines g) sc n p = p.renumber g := by
  induction p generalizing n with
  | nil => rfl
  | cons st p ih =>
    cases st with
    | definition d =>
      rw [respellFrom, ih]
      simp [Program.renumber, Statement.renumber, Definition.renumber, Definition.respell,
        Closure.respell, Spelling.lines]
    | expression e l =>
      rw [respellFrom, ih]
      rfl

def evalTokens (limit : Nat) (s : Store) (ts : List Token) : Except Error Value := do
  let p ← (parse ts).mapError .parse
  (evalProgram limit s.root.1 p ⟨s.root.2, 0⟩).1.mapError .eval

lemma run_eq_evalTokens (limit : Nat) (source : String) :
    run limit source = (tokenize source).mapError .lex >>= evalTokens limit Store.empty := by
  rw [run, readProgram]
  cases tokenize source with
  | error e => rfl
  | ok ts => rfl

namespace Error

def line : Error → Nat
  | lex e => e.line
  | parse e => e.line
  | eval e => e.line

def onLine (l : Nat) : Error → Error
  | lex e => lex ⟨e.cause, l⟩
  | parse e => parse ⟨e.cause, l⟩
  | eval e => eval ⟨e.cause, l⟩

@[simp] lemma line_onLine (l : Nat) (e : Error) : (e.onLine l).line = l := by
  cases e <;> rfl

end Error

lemma evalProgram_renumber (limit : Nat) (s : Store) (p : Program) :
    (evalProgram limit s.root.1 (p.renumber g) ⟨s.root.2, 0⟩).1 =
      respelled g (Value.renumber g) (evalProgram limit s.root.1 p ⟨s.root.2, 0⟩).1 := by
  obtain ⟨hr, hm, hp⟩ := respells_root (.lines g) s (fun c (hc : c.scope = s.root.1) => hc)
    fun c _ => faithful_id c
  rw [← respellFrom_lines s.root.1 s.closures]
  exact (evalStatements_respell limit p (.integer 0) hr hm hp fun c hc => (mem_closures hc).1).1

lemma evalTokens_renumber (limit : Nat) (s : Store) (ts : List Token) :
    evalTokens limit s (ts.map (.renumber g)) =
      ((evalTokens limit s ts).map (Value.renumber g)).mapError fun e => e.onLine (g e.line) := by
  rw [evalTokens, evalTokens, parse_renumber]
  cases parse ts with
  | error e => rfl
  | ok p =>
    change (evalProgram limit s.root.1 (p.renumber g) ⟨s.root.2, 0⟩).1.mapError Error.eval =
      (((evalProgram limit s.root.1 p ⟨s.root.2, 0⟩).1.mapError Error.eval).map _).mapError _
    rw [evalProgram_renumber]
    cases (evalProgram limit s.root.1 p ⟨s.root.2, 0⟩).1 <;> rfl

def placed (line : Nat → Nat) (ls : List Lexeme) : List Token := ls.mapIdx fun i l => ⟨l, line i⟩

lemma placed_eq_map (line : Nat → Nat) (ls : List Lexeme) :
    placed line ls = (placed id ls).map (.renumber line) := by
  rw [placed, placed]
  exact List.ext_getElem (by simp) fun i _ _ => by simp [Token.renumber]

lemma placed_congr {f g : Nat → Nat} {ls : List Lexeme} (h : ∀ i < ls.length, f i = g i) :
    placed f ls = placed g ls :=
  List.ext_getElem (by simp [placed]) fun i hi _ => by
    have := h i (by simpa [placed] using hi)
    simp [placed, this]

lemma line_lt_of_evalTokens {limit : Nat} {s : Store} {ls : List Lexeme} {e : Error}
    (h : evalTokens limit s (placed id ls) = .error e) : e.line < ls.length := by
  refine Nat.not_le.1 fun hn => ?_
  -- This map leaves the lines of the tokens where they are and moves all others, that of the error too.
  let g (i : Nat) : Nat := if i < ls.length then i else i + 1
  have hg : placed g ls = placed id ls := placed_congr fun i hi => if_pos hi
  have he : (.error (e.onLine (g e.line)) : Except Error Value) = .error e := by
    rw [← h, ← hg, placed_eq_map, evalTokens_renumber, h]
    rfl
  have hl : (e.onLine (g e.line)).line = e.line := congrArg Error.line (Except.error.inj he)
  rw [Error.line_onLine, show g e.line = e.line + 1 from if_neg (Nat.not_lt.2 hn)] at hl
  omega

theorem evalTokens_placed (limit : Nat) (s : Store) (ls : List Lexeme) :
    (∃ v : Value, ∀ line : Nat → Nat, evalTokens limit s (placed line ls) = .ok (v.renumber line)) ∨
      ∃ e : Error, ∃ i < ls.length, ∀ line : Nat → Nat,
        evalTokens limit s (placed line ls) = .error (e.onLine (line i)) := by
  have hr (line : Nat → Nat) := evalTokens_renumber (g := line) limit s (placed id ls)
  simp only [← placed_eq_map] at hr
  cases h : evalTokens limit s (placed id ls) with
  | ok v => exact .inl ⟨v, fun line => by rw [hr, h]; rfl⟩
  | error e => exact .inr ⟨e, e.line, line_lt_of_evalTokens h, fun line => by rw [hr, h]; rfl⟩

end ExprLang
