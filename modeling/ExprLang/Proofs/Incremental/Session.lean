import ExprLang.Proofs.Incremental.Text
import ExprLang.Proofs.Spelling.Lines
import ExprLang.Session.Basic
import Mathlib

namespace ExprLang

variable {f g : Nat → Nat} {limit : Nat} {sc : Scope}

def Bindings.renumber (g : Nat → Nat) (b : Bindings) : Bindings := b.map fun _ v => v.renumber g

def Store.renumber (g : Nat → Nat) (s : Store) : Store :=
  { s with frames := s.frames.map (Bindings.renumber g) }

def State.renumber (g : Nat → Nat) (s : State) : State := { s with store := s.store.renumber g }

lemma getElem?_renumber (g : Nat → Nat) (s : Store) (i : Nat) (x : String) :
    ((s.renumber g).frame i)[x]? = ((s.frame i)[x]?).map (Value.renumber g) := by
  simp only [Store.renumber, Store.frame, Array.getD_eq_getD_getElem?, Array.getElem?_map]
  cases s.frames[i]? <;> simp [Bindings.renumber, Std.TreeMap.getElem?_map]

structure State.Renumbers (g : Nat → Nat) (s t : State) : Prop where
  depth_eq : t.depth = s.depth
  closures_eq : t.store.closures = s.store.closures
  size_eq : t.store.frames.size = s.store.frames.size
  bindings : ∀ (i : Nat) (x : String),
    (t.store.frame i)[x]? = ((s.store.frame i)[x]?).map (Value.renumber g)

lemma State.renumbers_of_inverse (h : g ∘ f = id) (s : State) : State.Renumbers g (s.renumber f) s where
  depth_eq := rfl
  closures_eq := rfl
  size_eq := by simp [State.renumber, Store.renumber]
  bindings i x := by
    rw [State.renumber, getElem?_renumber, Option.map_map]
    cases (s.store.frame i)[x]? with
    | none => rfl
    | some v => simp [Value.renumber_renumber, h, Value.renumber_id]

lemma within_true (v : Value) : v.Within fun _ => True := fun _ _ => trivial

lemma evalProgram_renumbers (limit : Nat) (sc : Scope) {s t : State} (p : Program) (h : State.Renumbers g s t) :
    (evalProgram limit sc (p.renumber g) t).1 =
      respelled g (Value.renumber g) (evalProgram limit sc p s).1 ∧
    State.Renumbers g (evalProgram limit sc p s).2 (evalProgram limit sc (p.renumber g) t).2 := by
  have hs (sc : Scope) : s.store.Supplies (fun _ => True) sc := fun v _ => within_true v
  have hm (sc : Scope) : Mirrors (.lines g) s t sc := fun i _ => h.bindings i
  have hr : Respells (.lines g) (fun _ => True) s t :=
    ⟨h.depth_eq, h.closures_eq, h.size_eq, fun c _ => faithful_id c, fun c _ => hs c.scope,
      fun c _ => hm c.scope, .inl fun _ _ => rfl⟩
  obtain ⟨he, hr, -⟩ := evalStatements_respell limit p (.integer 0) hr (hm sc)
    (hs sc) fun _ _ => trivial
  rw [respellFrom_lines] at he hr
  refine ⟨he, hr.depth_eq, hr.closures_eq, hr.size_eq, fun i => ?_⟩
  exact hr.mirrors ⟨0, "", [], .literal (.integer 0) 0, ⟨i, []⟩⟩ trivial i List.mem_cons_self

namespace Incremental

/-- Even numbers mark the lines that were there before, odd ones those that a text brings. -/
def earlier (l : Nat) : Nat := 2 * l

def own (l : Nat) : Nat := 2 * l + 1

def unmark (k l : Nat) : Nat := if l % 2 = 0 then l / 2 else l / 2 + k

lemma unmark_earlier (k : Nat) : unmark k ∘ earlier = id := by
  funext l
  rw [Function.comp_apply, unmark, earlier, if_pos (by omega), id]
  omega

lemma unmark_own (k : Nat) : unmark k ∘ own = (· + k) := by
  funext l
  rw [Function.comp_apply, unmark, own, if_neg (by omega)]
  omega

structure Reads (g : Nat → Nat) (m : Outcome Value × State) (r : Except Error Value × Session) :
    Prop where
  result : r.1 = (respelled g (Value.renumber g) m.1).mapError .eval
  state : State.Renumbers g m.2 r.2.state

end Incremental

open Incremental

/-- Both runs of the second text are one run with marked lines, which stand as they are or further down. -/
theorem Session.run_newline {s₁ s₂ : String} {t₁ t₂ : List Token} {p₁ p₂ : Program}
    (h₁ : tokenize s₁ = .ok t₁) (hp₁ : parse t₁ = .ok p₁) (h₂ : tokenize s₂ = .ok t₂)
    (hp₂ : parse t₂ = .ok p₂) (hne : p₂ ≠ []) (ha : Apart t₁ t₂) (s : Session) (sc : Scope) :
    (∀ e t, s.run sc s₁ = (.error e, t) → s.run sc (s₁ ++ "\n" ++ s₂) = (.error e, t)) ∧
      ∀ v t, s.run sc s₁ = (.ok v, t) →
        let marked := evalProgram s.limit sc (p₂.renumber own) (t.state.renumber earlier)
        Reads (unmark 0) marked (t.run sc s₂) ∧
          Reads (unmark (offset s₁)) marked (s.run sc (s₁ ++ "\n" ++ s₂)) := by
  have hb := evalStatements_append s.limit sc p₁ (p₂.renumber (· + offset s₁))
    (.integer 0) s.state
  rw [Session.run, readProgram_eq h₁ hp₁, Session.run, readProgram_newline h₁ hp₁ h₂ hp₂ ha]
  dsimp only
  rw [evalProgram, evalProgram, hb]
  rcases evalStatements s.limit sc (.integer 0) p₁ s.state with ⟨e | w, u⟩
  · constructor
    · rintro _ _ ⟨⟩
      rfl
    · rintro _ _ ⟨⟩
  · constructor
    · rintro _ _ ⟨⟩
    · rintro _ _ ⟨⟩
      -- Both runs are the marked one in other lines: those of the second text where they are, or moved.
      have hm (k : Nat) := evalProgram_renumbers s.limit sc (p₂.renumber own)
        (State.renumbers_of_inverse (unmark_earlier k) u)
      simp only [Program.renumber_renumber, unmark_own] at hm
      have hn : p₂.renumber (· + offset s₁) ≠ [] := by simpa [Program.renumber] using hne
      constructor
      · obtain ⟨hv, hs⟩ := hm 0
        have hz : p₂.renumber (· + 0) = p₂ := p₂.renumber_id
        rw [hz] at hv hs
        rw [Session.run, readProgram_eq h₂ hp₂]
        exact ⟨congrArg (Except.mapError Error.eval) hv, hs⟩
      · obtain ⟨hv, hs⟩ := hm (offset s₁)
        dsimp only
        rw [evalStatements_of_ne_nil hn w (.integer 0)]
        exact ⟨congrArg (Except.mapError Error.eval) hv, hs⟩

def twoTokens : List Token :=
  [⟨.identifier "f", 1⟩, ⟨.leftParen, 1⟩, ⟨.rightParen, 1⟩, ⟨.equals, 1⟩, ⟨.integer 2, 2⟩,
    ⟨.endOfInput, 2⟩]

def quotientTokens : List Token :=
  [⟨.identifier "f", 1⟩, ⟨.leftParen, 1⟩, ⟨.rightParen, 1⟩, ⟨.slash, 1⟩, ⟨.integer 0, 1⟩,
    ⟨.endOfInput, 1⟩]

def two : Program := [.definition ⟨"f", [], .literal (.integer 2) 2, 1⟩]

def quotient : Program :=
  [.expression (.binary .div (.call (.identifier "f" 1) [] 1) (.literal (.integer 0) 1) 1) 1]

set_option maxRecDepth 4000 in
theorem Session.run_newline_quotient :
    (tokenize "f() =\n2" = .ok twoTokens ∧ parse twoTokens = .ok two ∧
      tokenize "f() / 0" = .ok quotientTokens ∧ parse quotientTokens = .ok quotient ∧
      quotient ≠ [] ∧ Apart twoTokens quotientTokens) ∧
    ∃ v t, (Session.start 1).run ⟨0, []⟩ "f() =\n2" = (.ok v, t) ∧
      (t.run ⟨0, []⟩ "f() / 0").1 = .error (.eval ⟨.divisionByZero, 1⟩) ∧
      ((Session.start 1).run ⟨0, []⟩ "f() =\n2\nf() / 0").1 =
        .error (.eval ⟨.divisionByZero, 3⟩) := by
  have h₁ : tokenize "f() =\n2" = .ok twoTokens := by cbv
  have hp₁ : parse twoTokens = .ok two := by cbv
  have h₂ : tokenize "f() / 0" = .ok quotientTokens := by cbv
  have hp₂ : parse quotientTokens = .ok quotient := by cbv
  have hne : quotient ≠ [] := List.cons_ne_nil _ _
  have ha : Apart twoTokens quotientTokens := .inr ⟨.identifier "f", rfl, rfl⟩
  let t : Session :=
    { Session.start 1 with state := (evalProgram 1 ⟨0, []⟩ two (Session.start 1).state).2 }
  have hs : (Session.start 1).run ⟨0, []⟩ "f() =\n2" =
      (.ok (.function ⟨0, "f", [], .literal (.integer 2) 2, ⟨0, []⟩⟩), t) := by
    rw [Session.run, readProgram_eq h₁ hp₁]
    rfl
  have hm : (evalProgram 1 ⟨0, []⟩ (quotient.renumber own) (t.state.renumber earlier)).1 =
      .error ⟨.divisionByZero, own 1⟩ := by cbv
  obtain ⟨hf, hb⟩ :=
    (Session.run_newline h₁ hp₁ h₂ hp₂ hne ha (Session.start 1) ⟨0, []⟩).2 _ _ hs
  refine ⟨⟨h₁, hp₁, h₂, hp₂, hne, ha⟩, _, _, hs, hf.result.trans ?_, hb.result.trans ?_⟩
  · exact congrArg (fun r => (respelled (unmark 0) _ r).mapError Error.eval) hm
  · exact congrArg (fun r => (respelled (unmark _) _ r).mapError Error.eval) hm

end ExprLang
