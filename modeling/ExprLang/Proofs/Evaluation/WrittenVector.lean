import ExprLang.Proofs.Evaluation.BigStep
import ExprLang.Proofs.Evaluation.Counter
import ExprLang.Proofs.Evaluation.Related

namespace ExprLang

variable {limit : Nat} {sc : Scope} {es : Array Expr} {i e : Expr} {l line : Nat} {s : State} {k : Int64}

lemma rel_element? {α β : Type} {R : α → β → Prop} {as : Array α} {bs : Array β}
    (h : List.Forall₂ R as.toList bs.toList) (k : Int64) :
    Option.Rel R (element? as k) (element? bs k) := by
  have hs : as.size = bs.size := h.length_eq
  rw [element?, element?, hs]
  cases hk : offset? k bs.size with
  | none => exact .none
  | some j =>
    have hb : j < bs.size := (offset?_eq_some_iff.1 hk).2
    have ha : j < as.size := hs ▸ hb
    rw [Option.bind_some, Option.bind_some, Array.getElem?_eq_getElem ha, Array.getElem?_eq_getElem hb]
    exact .some (h.get ha hb)

lemma outcome_vector_eq_ok {w : Value} (h : outcome limit sc (.vector es l) s = .ok w) :
    ∃ vs : Array Value, w = .vector vs ∧
      List.Forall₂ (fun e v => outcome limit sc e s = .ok v) es.toList vs.toList := by
  rw [outcome_vector] at h
  cases hvs : es.toList.mapM fun e => outcome limit sc e s with
  | error err =>
    rw [hvs] at h
    cases h
  | ok vs =>
    rw [hvs] at h
    cases h
    exact ⟨vs.toArray, rfl, forall₂_of_mapM hvs⟩

lemma outcome_element_of_some (hi : outcome limit sc i s = .ok (.integer k)) (he : element? es k = some e) :
    outcome limit sc (.index (.vector es l) i line) s = outcome limit sc e s := by
  simp only [outcome_element, hi, ok_bind, Value.position, he]

lemma outcome_element_of_none (hi : outcome limit sc i s = .ok (.integer k)) (he : element? es k = none) :
    outcome limit sc (.index (.vector es l) i line) s = .error ⟨.indexOutOfBounds k es.size, line⟩ := by
  simp only [outcome_element, hi, ok_bind, Value.position, he]

lemma outcome_element_eq_select {vs : Array Value} (hi : outcome limit sc i s = .ok (.integer k))
    (hvs : List.Forall₂ (fun e v => outcome limit sc e s = .ok v) es.toList vs.toList) :
    outcome limit sc (.index (.vector es l) i line) s = (Value.vector vs).select line k := by
  -- The elements before the one asked for leave nothing behind, so it has its value by itself too.
  have hr := rel_element? hvs k
  have hs : es.size = vs.size := hvs.length_eq
  rw [Value.select]
  cases he : element? es k with
  | none =>
    rw [outcome_element_of_none hi he, hs]
    generalize element? vs k = x at hr
    rw [he] at hr
    cases hr
    rfl
  | some e =>
    rw [outcome_element_of_some hi he]
    generalize element? vs k = x at hr
    rw [he] at hr
    cases hr with
    | some hv => exact hv

lemma select_of_lt {vs : Array Value} (line : Nat) (h0 : 0 ≤ k.toInt) (hk : k.toInt < vs.size) :
    ∃ v, vs[k.toInt.toNat]? = some v ∧ (Value.vector vs).select line k = .ok v := by
  have hj : k.toInt.toNat < vs.size := by omega
  have hv := Array.getElem?_eq_getElem hj
  have he : element? vs k = some vs[k.toInt.toNat] := element?_eq_some_iff.2 ⟨_, by omega, hv⟩
  refine ⟨_, hv, ?_⟩
  rw [Value.select, he]
  rfl

lemma select_of_not_lt {vs : Array Value} (hk : ¬ (0 ≤ k.toInt ∧ k.toInt < vs.size)) :
    (Value.vector vs).select line k = .error ⟨.indexOutOfBounds k vs.size, line⟩ := by
  rw [Value.select, element?_eq_none_iff.2 hk]
  rfl

theorem evalExpr_index_written (limit : Nat) (sc : Scope) (es : Array Expr) (i : Expr) (l line : Nat)
    (s : State) (k : Int64) (hi : (evalExpr limit sc i s).1 = .ok (.integer k)) :
    let whole := evalExpr limit sc (.vector es l) s
    let chosen := evalExpr limit sc (.index (.vector es l) i line) s
    (∀ w, whole.1 = .ok w → ∃ vs : Array Value, w = .vector vs ∧ vs.size = es.size ∧
      (0 ≤ k.toInt ∧ k.toInt < es.size →
        ∃ v, vs[k.toInt.toNat]? = some v ∧ chosen.1 = .ok v) ∧
      (¬ (0 ≤ k.toInt ∧ k.toInt < es.size) →
        chosen.1 = .error ⟨.indexOutOfBounds k es.size, line⟩) ∧
      ∀ a, (∀ ds m, a ≠ .vector ds m) → (evalExpr limit sc a s).1 = .ok w →
        evalExpr limit sc (.index a i line) s = chosen) ∧
    (0 ≤ k.toInt ∧ k.toInt < es.size → ∀ err, chosen.1 = .error err → ∃ err', whole.1 = .error err') := by
  intro whole chosen
  constructor
  · intro w hw
    obtain ⟨vs, rfl, hvs⟩ := outcome_vector_eq_ok hw
    have hs : vs.size = es.size := hvs.length_eq.symm
    have hc : chosen.1 = (Value.vector vs).select line k := outcome_element_eq_select hi hvs
    refine ⟨vs, rfl, hs, fun hk => ?_, fun hk => ?_, fun a hn ha => ?_⟩
    · rw [hc]
      exact select_of_lt line hk.1 (hs ▸ hk.2)
    · rw [hc, ← hs]
      exact select_of_not_lt (hs ▸ hk)
    · have ho : outcome limit sc (.index a i line) s = chosen.1 := by
        rw [hc, outcome_index a i line s hn, outcome, hi, ok_bind, Value.position, ok_bind, outcome, ha,
          ok_bind]
      exact Prod.ext ho ((evalExpr_snd _ s).trans (evalExpr_snd _ s).symm)
  · intro hk err herr
    cases hw : whole.1 with
    | error err' => exact ⟨err', rfl⟩
    | ok w =>
      obtain ⟨vs, rfl, hvs⟩ := outcome_vector_eq_ok hw
      have hs : vs.size = es.size := hvs.length_eq.symm
      obtain ⟨v, -, hv⟩ := select_of_lt line hk.1 (hs ▸ hk.2)
      have hc : chosen.1 = .ok v := (outcome_element_eq_select hi hvs).trans hv
      rw [hc] at herr
      cases herr

def guarded : Array Expr := #[.identifier "down" 2, downFrom 0]

def unguarded : Array Expr := #[.literal (.integer 0) 2, downFrom 7]

theorem evalExpr_index_written_descent :
    ((evalExpr 3 ⟨0, []⟩ (downFrom 1) descending).1 = .ok (.integer 0) ∧
      (evalExpr 3 ⟨0, []⟩ (.vector guarded 2) descending).1 =
        .ok (.vector #[.function ⟨0, "down", ["n"], down.body, ⟨0, []⟩⟩, .integer 0])) ∧
    (evalExpr 3 ⟨0, []⟩ (.index (.vector guarded 2) (downFrom 1) 2) descending).1 =
      .ok (.function ⟨0, "down", ["n"], down.body, ⟨0, []⟩⟩) ∧
    ((evalExpr 3 ⟨0, []⟩ (.literal (.integer 1) 2) descending).1 = .ok (.integer 1) ∧
      (evalExpr 3 ⟨0, []⟩ (.index (.vector unguarded 2) (.literal (.integer 1) 2) 2) descending).1 =
        .error ⟨.callDepth 3, 1⟩) ∧
    ∃ err, (evalExpr 3 ⟨0, []⟩ (.vector unguarded 2) descending).1 = .error err := by
  have hi : (evalExpr 3 ⟨0, []⟩ (downFrom 1) descending).1 = .ok (.integer 0) := by cbv
  have hw : (evalExpr 3 ⟨0, []⟩ (.vector guarded 2) descending).1 =
      .ok (.vector #[.function ⟨0, "down", ["n"], down.body, ⟨0, []⟩⟩, .integer 0]) := by cbv
  have hj : (evalExpr 3 ⟨0, []⟩ (.literal (.integer 1) 2) descending).1 = .ok (.integer 1) := by cbv
  have he : (evalExpr 3 ⟨0, []⟩ (.index (.vector unguarded 2) (.literal (.integer 1) 2) 2)
      descending).1 = .error ⟨.callDepth 3, 1⟩ := by cbv
  obtain ⟨hv, -⟩ := evalExpr_index_written 3 ⟨0, []⟩ guarded (downFrom 1) 2 2 descending 0 hi
  obtain ⟨vs, hvs, -, hin, -⟩ := hv _ hw
  cases hvs
  obtain ⟨v, hm, hc⟩ := hin (by decide)
  cases hm
  obtain ⟨-, hf⟩ := evalExpr_index_written 3 ⟨0, []⟩ unguarded (.literal (.integer 1) 2) 2 2 descending 1 hj
  exact ⟨⟨hi, hw⟩, hc, ⟨hj, he⟩, hf (by decide) _ he⟩

end ExprLang
