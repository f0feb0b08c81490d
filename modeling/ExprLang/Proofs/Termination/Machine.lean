import ExprLang.Eval.Program
import ExprLang.Proofs.Termination.Recursion
import Mathlib.Computability.StateTransition
import Mathlib.Data.List.Permutation

/-! A whole run as a machine of small steps. -/

namespace ExprLang

inductive Machine : Type 1
  | scanning (line : Nat) (found : List Token) (rest : List Char)
  | parsing (last : Nat) (found : List Statement) (rest : List Token)
  | reading (last : Nat) (found : List Statement) {ts : List Token} {α : Type} (current : Deferred α)
      (waiting : Deferred.Waiting (Parser.Parsed ts Statement) α)
  | running (sc : Scope) (last : Value) (rest : Program) (s : State)
  | evaluating (sc : Scope) (rest : Program) (s : State) (current : Plan Value)
      (waiting : List (Value → Plan Value))
  | ended (r : Except Error Value)

namespace Machine

def start (source : String) : Machine := scanning 1 [] source.toList

def step (limit : Nat) : Machine → Option Machine
  | scanning line found [] =>
    let ts := (⟨.endOfInput, line⟩ :: found).reverse
    some (parsing (Parser.lastLine ts) [] (Parser.body ts))
  | scanning line found (c :: cs) =>
    let s := scan c cs
    match s.found with
    | .error cause => some (ended (.error (.lex ⟨cause, line⟩)))
    | .ok l =>
      some (scanning (line + s.chars.count '\n') (if l.isTrivia then found else ⟨l, line⟩ :: found) s.rest)
  | parsing _ found [] =>
    let (sc, store) := Store.empty.root
    some (running sc (.integer 0) found.reverse ⟨store, 0⟩)
  | parsing last found (t :: ts) => some (reading last found (Parser.statement last (t :: ts)) .nil)
  | reading last found (.call part next) w => some (reading last found (part ()) (.cons next w))
  | reading last found (.done a) (.cons next w) => some (reading last found (next a) w)
  | reading last found (.done (.ok st rest _)) .nil => some (parsing last (st :: found) rest)
  | reading _ _ (.done (.fail e _ _)) .nil => some (ended (.error (.parse e)))
  | running _ last [] _ => some (ended (.ok last))
  | running sc _ (.definition d :: p) s =>
    let (c, store) := s.store.close d.name d.params d.body sc
    some (running sc (.function c) p ⟨store.define sc d.name (.function c), s.depth⟩)
  | running sc _ (.expression e _ :: p) s =>
    some (evaluating sc p s (Request.plan limit ⟨sc, e, s⟩) [])
  | evaluating sc p s (.ask q next) w => some (evaluating sc p s (q.plan limit) (next :: w))
  | evaluating sc p s (.ended (.ok v)) (next :: w) => some (evaluating sc p s (next v) w)
  | evaluating sc p s (.ended (.error e)) (_ :: w) => some (evaluating sc p s (.ended (.error e)) w)
  | evaluating sc p s (.ended (.ok v)) [] => some (running sc v p s)
  | evaluating _ _ _ (.ended (.error e)) [] => some (ended (.error (.eval e)))
  | ended _ => none

noncomputable def final (limit : Nat) (m : Machine) : Part Machine := StateTransition.eval (step limit) m

variable {limit : Nat} {sc : Scope} {s : State} {p : Program} {m m' : Machine}

lemma final_step (h : m.step limit = some m') : m.final limit = m'.final limit :=
  StateTransition.reaches_eval (.single h)

lemma final_ended (r : Except Error Value) : (ended r).final limit = Part.some (ended r) :=
  Part.eq_some_iff.2 (StateTransition.mem_eval.2 ⟨.refl, rfl⟩)

lemma final_reading (last : Nat) (found : List Statement) {ts : List Token} {α : Type} (d : Deferred α)
    (w : Deferred.Waiting (Parser.Parsed ts Statement) α) :
    (reading last found d w).final limit = (reading last found (.done (d.walk w)) .nil).final limit := by
  fun_induction Deferred.walk d w with
  | case1 a => rfl
  | case2 β δ a next w ih => exact (final_step rfl).trans ih
  | case3 β δ part next w ih => exact (final_step rfl).trans ih

lemma final_given (π : Plan Value)
    (h : π.Every fun q => ∀ w, (evaluating sc p s (q.plan limit) w).final limit =
      (evaluating sc p s (.ended (q.outcome limit)) w).final limit) (w : List (Value → Plan Value)) :
    (evaluating sc p s π w).final limit =
      (evaluating sc p s (.ended (π.given (Request.outcome limit))) w).final limit := by
  induction π with
  | ended r => rfl
  | ask q next ih =>
    have hq := h q .now (next :: w)
    have hs : (evaluating sc p s (.ask q next) w).final limit =
        (evaluating sc p s (q.plan limit) (next :: w)).final limit := final_step rfl
    rw [hs, hq, Plan.given]
    cases q.outcome limit with
    | error e => exact final_step rfl
    | ok v =>
      have hv := ih v fun r hr => h r (.later hr)
      exact (final_step rfl).trans hv

theorem final_plan (q : Request) (w : List (Value → Plan Value)) :
    (evaluating sc p s (q.plan limit) w).final limit =
      (evaluating sc p s (.ended (q.outcome limit)) w).final limit := by
  induction hm : q.measure limit using WellFoundedLT.induction generalizing q w with
  | ind m ih =>
    subst hm
    rw [← given_plan]
    apply final_given
    intro r hr w
    exact ih _ (every_plan q r hr).measure_lt r w rfl

lemma final_outcome (sc : Scope) (s : State) (r : Outcome Value) :
    (evaluating sc [] s (.ended r) []).final limit = Part.some (ended (r.mapError .eval)) := by
  cases r with
  | ok v =>
    have hv : (evaluating sc [] s (.ended (.ok v)) []).final limit = (running sc v [] s).final limit :=
      final_step rfl
    exact hv.trans ((final_step rfl).trans (final_ended _))
  | error e => exact (final_step rfl).trans (final_ended _)

theorem final_running (last : Value) (p : Program) (s : State) :
    (running sc last p s).final limit =
      Part.some (ended ((evalStatements limit sc last p s).1.mapError .eval)) := by
  induction p generalizing last s with
  | nil => exact (final_step rfl).trans (final_ended _)
  | cons st p ih =>
    cases st with
    | definition d => exact (final_step rfl).trans (ih _ _)
    | expression e line =>
      have hs : (running sc last (.expression e line :: p) s).final limit =
          (evaluating sc p s (.ended (outcome limit sc e s)) []).final limit :=
        (final_step rfl).trans (final_plan ⟨sc, e, s⟩ [])
      rw [hs, evalStatements, evalStatement, evalExpr_eq]
      cases outcome limit sc e s with
      | error err => exact (final_step rfl).trans (final_ended _)
      | ok v => exact (final_step rfl).trans (ih v s)

def runStatements (limit : Nat) (p : Program) : Except Error Value :=
  let (sc, store) := Store.empty.root
  (evalProgram limit sc p ⟨store, 0⟩).1.mapError .eval

lemma final_parsing (last : Nat) (found : List Statement) (ts : List Token) :
    (parsing last found ts).final limit = Part.some (ended
      ((Parser.statements last found ts).mapError (Error.parse ·.1) >>= runStatements limit)) := by
  have hs (found : List Statement) (t : Token) (ts : List Token) :
      (parsing last found (t :: ts)).final limit =
        (reading last found (.done (Parser.statement last (t :: ts)).result) .nil).final limit :=
    (final_step rfl).trans (final_reading last found _ _)
  fun_induction Parser.statements last found ts with
  | case1 found => exact (final_step rfl).trans (final_running _ _ _)
  | case2 found t ts st rest h hr ih =>
    rw [hs, hr]
    exact (final_step rfl).trans ih
  | case3 found t ts e rest h hr =>
    rw [hs, hr]
    exact (final_step rfl).trans (final_ended _)

lemma final_scanning (line : Nat) (found : List Token) (cs : List Char) :
    (scanning line found cs).final limit = Part.some (ended (do
      let ts ← (tokensFrom line found cs).mapError .lex
      let p ← (parse ts).mapError .parse
      runStatements limit p)) := by
  fun_induction tokensFrom line found cs with
  | case1 line found =>
    let ts : List Token := (⟨.endOfInput, line⟩ :: found).reverse
    have hs : (scanning line found []).final limit =
        (parsing (Parser.lastLine ts) [] (Parser.body ts)).final limit := final_step rfl
    rw [hs, final_parsing]
    have hp : (parse ts).mapError Error.parse =
        (Parser.statements (Parser.lastLine ts) [] (Parser.body ts)).mapError (Error.parse ·.1) := by
      rw [parse]
      cases Parser.statements (Parser.lastLine ts) [] (Parser.body ts) <;> rfl
    rw [← hp]
    rfl
  | case2 line found c cs s cause hr =>
    have hs : (scanning line found (c :: cs)).step limit = some (ended (.error (.lex ⟨cause, line⟩))) := by
      rw [step, hr]
    exact (final_step hs).trans (final_ended _)
  | case3 line found c cs s l hr ih =>
    refine (final_step ?_).trans ih
    rw [step, hr]
    rfl

theorem final_start (limit : Nat) (source : String) :
    (start source).final limit = Part.some (ended (run limit source)) := by
  rw [start, final_scanning, run, readProgram, ← tokenize, bind_assoc]
  rfl

end Machine

/-- What an expression asks for is smaller than it, or has fewer calls left, wherever it comes from. -/
theorem run_ends (limit : Nat) :
    (∀ source, (Machine.start source).final limit = Part.some (.ended (run limit source))) ∧
    (∀ sc p s, (Machine.running sc (.integer 0) p s).final limit =
      Part.some (.ended ((evalProgram limit sc p s).1.mapError .eval))) ∧
    (∀ sc e s, (Machine.evaluating sc [] s (Request.plan limit ⟨sc, e, s⟩) []).final limit =
      Part.some (.ended ((evalExpr limit sc e s).1.mapError .eval))) ∧
    ∀ q r : Request, (q.plan limit).Asks r →
      q.Below limit r ∧ r.measure limit < q.measure limit ∧
        (q.state.depth ≤ limit → r.state.depth ≤ limit) := by
  refine ⟨Machine.final_start limit, fun sc p s => Machine.final_running _ p s, fun sc e s => ?_,
    fun q r hr => ?_⟩
  · rw [Machine.final_plan, evalExpr_eq]
    exact Machine.final_outcome sc s (outcome limit sc e s)
  · have hb : q.Below limit r := every_plan q r hr
    exact ⟨hb, hb.measure_lt, hb.depth_le⟩

def applied (x : String) (line : Nat) : Expr := .call (.identifier x line) [.identifier x line] line

def selfApplying : Closure := ⟨0, "f", ["x"], applied "x" 1, ⟨0, []⟩⟩

def selfApplication : Program := [.definition ⟨"f", ["x"], applied "x" 1, 1⟩, .expression (applied "f" 2) 2]

def applying : Request :=
  ⟨⟨0, []⟩, applied "f" 2, (evalProgram 2 ⟨0, []⟩ (selfApplication.take 1) ⟨Store.empty.root.2, 0⟩).2⟩

def appliedBody : Request :=
  let (sc, s) := selfApplying.inside [.function selfApplying] applying.state
  ⟨sc, selfApplying.body, s⟩

theorem run_ends_self_application :
    (Machine.running ⟨0, []⟩ (.integer 0) selfApplication ⟨Store.empty.root.2, 0⟩).final 2 =
      Part.some (.ended (.error (.eval ⟨.callDepth 2, 1⟩))) ∧
    ((applying.plan 2).Asks appliedBody ∧ applying.state.depth ≤ 2) ∧
    appliedBody.expr.size = applying.expr.size ∧
    appliedBody.measure 2 < applying.measure 2 ∧ appliedBody.state.depth ≤ 2 := by
  have ha : (applying.plan 2).Asks appliedBody :=
    .later (v := .function selfApplying) (.later (v := .function selfApplying) .now)
  have hd : applying.state.depth ≤ 2 := by cbv
  have hr : (evalProgram 2 ⟨0, []⟩ selfApplication ⟨Store.empty.root.2, 0⟩).1 =
      .error ⟨.callDepth 2, 1⟩ := by cbv
  obtain ⟨-, hp, -, hq⟩ := run_ends 2
  obtain ⟨-, hm, hl⟩ := hq applying appliedBody ha
  refine ⟨?_, ⟨ha, hd⟩, by cbv, hm, hl hd⟩
  rw [hp, hr]
  rfl

end ExprLang
