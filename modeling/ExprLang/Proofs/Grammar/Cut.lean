import ExprLang.Proofs.Grammar.Completeness

/-! Words of the grammar that are cut short are read to the cut. -/

namespace ExprLang.Grammar

open ExprLang.Parser

variable {α β : Type} {last : Nat}

def Short (e : Failure) : Prop := ∃ x, e.1.cause = .unexpectedEnd x

inductive Exhausts : Except Failure (α × List Token) → Prop
  | done (a) : Exhausts (.ok (a, []))
  | short (x line) : Exhausts (.error (⟨.unexpectedEnd x, line⟩, []))

lemma Exhausts.bind {r : Except Failure (α × List Token)}
    {f : α × List Token → Except Failure (β × List Token)} (hr : Exhausts r)
    (hf : ∀ a, Exhausts (f (a, []))) : Exhausts (r >>= f) := by
  cases hr with
  | done a => exact hf a
  | short x line => exact .short x line

lemma exhausts_take (l : Lexeme) (x : Expectation) : Exhausts (take last l x []) :=
  .short x last

lemma exhausts_trailers (e : Expr) : Exhausts (readTrailers last e []) := by
  have hp : front [] ≠ some .leftParen := nofun
  have hb : front [] ≠ some .leftBracket := nofun
  rw [readTrailers_stop e hp hb]
  exact .done e

lemma exhausts_chain (n : Nat) (e : Expr) : Exhausts (readChain last n e []) := by
  rw [readChain_eq, chainStep]
  exact .done e

lemma exhausts_primary : Exhausts (readPrimary last []) :=
  .short .expression last

lemma exhausts_unary : Exhausts (readUnary last []) := by
  have hf : front [] ≠ some .minus := nofun
  rw [readUnary_of_front_ne hf]
  exact exhausts_primary.bind exhausts_trailers

lemma exhausts_below (n : Nat) : Exhausts (readBelow last n []) := by
  induction n with
  | zero => exact exhausts_unary
  | succ n ih =>
    rw [readBelow_succ]
    exact ih.bind (exhausts_chain n)

lemma exhausts_expression : Exhausts (readExpression last []) := by
  rw [readExpression_eq]
  exact exhausts_below _

lemma exhausts_items {u : List Token} (h : Exhausts (readExpression last u)) (close : Lexeme)
    (x : Expectation) : Exhausts (readItems last close x u) := by
  rw [readItems_eq]
  refine h.bind fun e => ?_
  exact (exhausts_take close x).bind fun _ => .done [e]

lemma prefix_append_cases {u v w : List Token} (h : u <+: v ++ w) :
    u <+: v ∨ ∃ u', u = v ++ u' ∧ u' <+: w := by
  obtain ⟨x, h⟩ := h
  rcases List.append_eq_append_iff.1 h with ⟨a, rfl, -⟩ | ⟨a, rfl, rfl⟩
  · exact .inl ⟨a, rfl⟩
  · exact .inr ⟨a, rfl, x, rfl⟩

lemma prefix_append_cons_cases {u v w : List Token} {t : Token} (h : u <+: v ++ t :: w) :
    u <+: v ∨ ∃ u', u = v ++ t :: u' ∧ u' <+: w := by
  rw [← List.singleton_append, ← List.append_assoc] at h
  rcases prefix_append_cases h with hv | ⟨u', rfl, hw⟩
  · rcases List.prefix_concat_iff.1 hv with rfl | hv
    · exact .inr ⟨[], rfl, List.nil_prefix⟩
    · exact .inl hv
  · exact .inr ⟨u', List.append_assoc v [t] u', hw⟩

lemma prefix_front {u w : List Token} {l : Lexeme} (hu : u <+: w) (h : front u = some l) :
    front w = some l := by
  obtain ⟨v, rfl⟩ := hu
  exact front_append h v

lemma exhausts_bracketed {f : Expr → List Token → Except Failure (β × List Token)} {u w : List Token}
    {e : Expr} {close : Lexeme} {x : Expectation} {line : Nat} (h : Leads last 6 w e)
    (hw : ∀ u, u <+: w → Exhausts (readBelow last 6 u))
    (hc : close = .rightParen ∨ close = .rightBracket) (hu : u <+: w ++ [⟨close, line⟩])
    (hf : ∀ a, Exhausts (f a [])) :
    Exhausts (do
      let (a, rest) ← readExpression last u
      let (_, rest) ← take last close x rest
      f a rest) := by
  rcases List.prefix_concat_iff.1 hu with rfl | hu
  · rw [h.readExpression (stops_of_close (hc.imp_right .inl) _ _ _)]
    simp only [ok_bind, take_cons_self]
    exact hf e
  · rw [readExpression_eq]
    exact (hw u hu).bind fun a => (exhausts_take close x).bind fun _ => hf a

mutual

lemma Binary.cut {n : Nat} {w : List Token} {e : Expr} :
    Binary n w e → ∀ u, u <+: w → Exhausts (readBelow last n u)
  | .unary h, u, hu => h.cut u hu
  | .operand h, u, hu => by
    rw [readBelow_succ]
    exact (h.cut u hu).bind fun e => exhausts_chain _ e
  | .apply hl ho hr, u, hu => by
    rcases prefix_append_cons_cases hu with hv | ⟨v, rfl, hv⟩
    · exact hl.cut u hv
    · rw [hl.leads _ (ho.stops _ _), readChain_apply ho]
      exact (hr.cut v hv).bind fun b => exhausts_chain _ _

lemma Unary.cut {w : List Token} {e : Expr} :
    Unary w e → ∀ u, u <+: w → Exhausts (readUnary last u)
  | .negate h, u, hu => by
    rcases List.prefix_cons_iff.1 hu with rfl | ⟨v, rfl, hv⟩
    · exact exhausts_unary
    · rw [readUnary_minus]
      exact (h.cut v hv).bind fun e => .done _
  | .trailed h, u, hu => h.cut u hu

lemma Trailed.cut {w : List Token} {e : Expr} :
    Trailed w e → ∀ u, u <+: w → Exhausts (readUnary last u)
  | .primary h, u, hu => by
    obtain ⟨l, hl, _, hne⟩ := h.front
    have hm : front u ≠ some .minus := by
      intro hf
      rw [prefix_front hu hf] at hl
      exact hne (Option.some.inj hl).symm
    rw [readUnary_of_front_ne hm]
    exact (h.cut u hu).bind fun e => exhausts_trailers e
  | .call h ha, u, hu => by
    rcases prefix_append_cons_cases hu with hv | ⟨v, rfl, hv⟩
    · exact h.cut u hv
    · rw [h.read, readTrailers_paren]
      exact (ha.cut (.inl rfl) v hv).bind fun es => exhausts_trailers _
  | @Trailed.index _ a line _ _ _ h hi, u, hu => by
    rcases prefix_append_cons_cases hu with hv | ⟨v, rfl, hv⟩
    · exact h.cut u hv
    · rw [h.read, readTrailers_bracket]
      exact exhausts_bracketed (f := fun i => readTrailers last (.index a i line)) hi.leads hi.cut
        (.inr rfl) hv fun i => exhausts_trailers _

lemma Primary.cut {w : List Token} {e : Expr} :
    Primary w e → ∀ u, u <+: w → Exhausts (readPrimary last u)
  | .integer, u, hu | .boolean, u, hu | .identifier, u, hu => by
    rcases List.prefix_cons_iff.1 hu with rfl | ⟨v, rfl, hv⟩
    · exact exhausts_primary
    · rw [List.prefix_nil.1 hv]
      exact .done _
  | .group h, u, hu => by
    rcases List.prefix_cons_iff.1 hu with rfl | ⟨v, rfl, hv⟩
    · exact exhausts_primary
    · rw [readPrimary]
      exact exhausts_bracketed (f := fun e rest => .ok (e, rest)) h.leads h.cut (.inl rfl) hv .done
  | .vector h, u, hu => by
    rcases List.prefix_cons_iff.1 hu with rfl | ⟨v, rfl, hv⟩
    · exact exhausts_primary
    · rw [readPrimary]
      exact (h.cut (.inr rfl) v hv).bind fun es => .done _

lemma Arguments.cut {w : List Token} {es : List Expr} {close : Lexeme} {x : Expectation} {line : Nat}
    (hc : close = .rightParen ∨ close = .rightBracket) :
    Arguments w es → ∀ u, u <+: w ++ [⟨close, line⟩] → Exhausts (readList last close x u)
  | .empty, u, hu => by
    rcases List.prefix_concat_iff.1 hu with rfl | hu
    · rw [Arguments.empty.read [] hc]
      exact .done []
    · rw [List.prefix_nil.1 hu]
      exact exhausts_items exhausts_expression close x
  | .listed h, u, hu => by
    obtain ⟨l, hl, hb⟩ := h.front
    have hf : front u ≠ some close := by
      intro hf
      have hw := prefix_front hu hf
      rw [front_append hl, Option.some.injEq] at hw
      subst hw
      rcases hc with rfl | rfl <;> exact absurd hb nofun
    rw [readList, if_neg hf]
    exact h.cut hc u hu

lemma Sequence.cut {w : List Token} {es : List Expr} {close : Lexeme} {x : Expectation} {line : Nat}
    (hc : close = .rightParen ∨ close = .rightBracket) :
    Sequence w es → ∀ u, u <+: w ++ [⟨close, line⟩] → Exhausts (readItems last close x u)
  | .one h, u, hu => by
    rcases List.prefix_concat_iff.1 hu with rfl | hu
    · rw [(Sequence.one h).read [] hc]
      exact .done _
    · have he : Exhausts (readExpression last u) := by
        rw [readExpression_eq]
        exact h.cut u hu
      exact exhausts_items he close x
  | .more h hr, u, hu => by
    rw [List.append_assoc, List.cons_append] at hu
    rcases prefix_append_cons_cases hu with hv | ⟨v, rfl, hv⟩
    · have he : Exhausts (readExpression last u) := by
        rw [readExpression_eq]
        exact h.cut u hv
      exact exhausts_items he close x
    · rw [readItems_eq, h.leads.readExpression (stops_of_close (.inr (.inr rfl)) _ _ _)]
      simp only [ok_bind, front_cons, if_pos, List.tail_cons]
      exact (hr.cut hc v hv).bind fun es => .done _

end

lemma Trailed.binary {w : List Token} {e : Expr} (h : Trailed w e) (n : Nat) : Binary n w e := by
  induction n with
  | zero => exact .unary (.trailed h)
  | succ n ih => exact .operand ih

lemma Names.sequence {w : List Token} {xs : List String} (h : Names w xs) : ∃ es, Sequence w es := by
  have identifier (x : String) (line : Nat) :
      Binary 6 [⟨.identifier x, line⟩] (.identifier x line) :=
    Trailed.binary (.primary .identifier) 6
  induction h with
  | @one x line => exact ⟨_, .one (identifier x line)⟩
  | @more x line _ _ _ _ ih =>
    obtain ⟨es, hs⟩ := ih
    exact ⟨_, .more (identifier x line) hs⟩

lemma Parameters.arguments {w : List Token} {xs : List String} (h : Parameters w xs) :
    ∃ es, Arguments w es := by
  cases h with
  | empty => exact ⟨[], .empty⟩
  | listed h =>
    obtain ⟨es, hs⟩ := h.sequence
    exact ⟨es, .listed hs⟩

lemma closesBeforeEquals_eq_false_of_ordinary {ts : List Token}
    (h : ∀ t ∈ ts, t.lexeme ≠ .equals) (opened : Nat) : closesBeforeEquals opened ts = false := by
  induction ts generalizing opened with
  | nil => cases opened <;> rfl
  | cons t ts ih =>
    have ht := h t List.mem_cons_self
    have ih := ih fun u hu => h u (List.mem_cons_of_mem t hu)
    cases opened with
    | zero => exact beq_false_of_ne ht
    | succ opened =>
      rw [closesBeforeEquals]
      split <;> exact ih _

lemma startsDefinition_eq_false {ts : List Token} (h : ∀ t ∈ ts, t.lexeme ≠ .equals) :
    startsDefinition ts = false := by
  rw [startsDefinition.eq_def]
  split
  · apply closesBeforeEquals_eq_false_of_ordinary
    intro t ht
    exact h t (List.mem_cons_of_mem _ (List.mem_cons_of_mem _ ht))
  · rfl

lemma Binary.cut_statement {w u : List Token} {e : Expr} (h : Binary 6 w e) (hu : u <+: w) :
    Exhausts (readStatement last u) := by
  have ho : ∀ t ∈ u, t.lexeme ≠ .equals := fun t ht => h.closed.ordinary t (hu.subset ht)
  rw [readStatement, startsDefinition_eq_false ho, if_neg Bool.false_ne_true, readExpression_eq]
  exact (h.cut u hu).bind fun e => .done _

lemma Sentence.cut {w u : List Token} {s : Statement} (h : Sentence w s) (hu : u <+: w) :
    Exhausts (readStatement last u) := by
  cases h with
  | @definition f line line₁ v params line₂ line₃ w e hp he =>
    have hw : ⟨.identifier f, line⟩ :: ⟨.leftParen, line₁⟩ ::
        (v ++ ⟨.rightParen, line₂⟩ :: ⟨.equals, line₃⟩ :: w) =
      (⟨.identifier f, line⟩ :: ⟨.leftParen, line₁⟩ :: (v ++ [⟨.rightParen, line₂⟩])) ++
        ⟨.equals, line₃⟩ :: w := by simp
    rw [hw] at hu
    rcases prefix_append_cons_cases hu with hv | ⟨u, rfl, hv⟩
    · -- The equals sign is cut off: what is left of the header reads as a call.
      obtain ⟨es, ha⟩ := hp.arguments
      have hf : Trailed [⟨.identifier f, line⟩] (.identifier f line) := .primary .identifier
      exact ((hf.call ha).binary 6).cut_statement hv
    · simp only [List.cons_append, List.append_assoc, List.nil_append]
      rw [readStatement, if_pos (hp.startsDefinition _ _ _ _ _ _), hp.header]
      simp only [ok_bind]
      rw [readExpression_eq]
      exact (he.cut u hv).bind fun e => .done _
  | expression he => exact he.cut_statement hu

def Cuttable (last : Nat) (w : List Token) : Prop :=
  ∀ u found e, u <+: w → statements last found u = .error e → Short e

lemma Cuttable.nil : Cuttable last [] := by
  intro u found e hu he
  rw [List.prefix_nil.1 hu, statements] at he
  cases he

lemma Fresh.cut {u w : List Token} (h : Fresh w) (hu : u <+: w) : Fresh u :=
  fun l hl => h l (prefix_front hu hl)

lemma Cuttable.cons {w v : List Token} {s : Statement} (hs : Sentence w s) (hf : Fresh v)
    (hv : Cuttable last v) : Cuttable last (w ++ v) := by
  intro u found e hu he
  rcases prefix_append_cases hu with hw | ⟨u, rfl, hw⟩
  · cases u with
    | nil =>
      rw [statements] at he
      cases he
    | cons t u =>
      have hr : Exhausts (readStatement last (t :: u)) := hs.cut hw
      rw [statements_cons] at he
      generalize readStatement last (t :: u) = r at hr he
      cases hr with
      | done s =>
        change statements last (s :: found) [] = .error e at he
        rw [statements] at he
        cases he
      | short x line =>
        cases he
        exact ⟨x, rfl⟩
  · have hr : readStatement last (w ++ u) = .ok (s, u) := hs.read (hf.cut hw)
    obtain ⟨t, w, rfl⟩ := hs.exists_cons
    rw [List.cons_append, statements_cons, ← List.cons_append, hr] at he
    exact hv u _ e hw he

lemma Following.cuttable {w : List Token} {p : Program} (h : Following w p) : Cuttable last w := by
  induction h with
  | nil => exact .nil
  | cons _ hs hf ih => exact .cons hs hf.fresh ih

lemma Derives.cuttable {w : List Token} {p : Program} (h : Derives w p) : Cuttable last w := by
  cases h with
  | nil => exact .nil
  | cons hs hf => exact .cons hs hf.fresh hf.cuttable

end ExprLang.Grammar
