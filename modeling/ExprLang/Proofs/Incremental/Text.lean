import ExprLang.Eval.Program
import ExprLang.Proofs.Grammar.Completion
import ExprLang.Proofs.Lexing.Seam

/-! A text followed by another on a new line. -/

namespace ExprLang.Incremental

open ExprLang.Lexing

def offset (source : String) : Nat := 1 + source.toList.count '\n'

lemma tokenize_newline {s₁ s₂ : String} {t₁ t₂ : List Token} (h₁ : tokenize s₁ = .ok t₁)
    (h₂ : tokenize s₂ = .ok t₂) :
    tokenize (s₁ ++ "\n" ++ s₂) = .ok (Parser.body t₁ ++ t₂.map (.renumber (· + offset s₁))) := by
  have hn : Word .blank ['\n'] := .blank (List.forall_mem_singleton.2 rfl)
  have hg : IsGap ["\n"] := ⟨List.cons_ne_nil _ _, List.forall_mem_singleton.2 (.inl hn)⟩
  have hk : (s₁ ++ "\n").toList.count '\n' = offset s₁ := by
    rw [String.toList_append, List.count_append, Nat.add_comm]
    rfl
  obtain ⟨us, line, rfl, hu, h⟩ := tokenize_append_gap h₁
  have ht : tokenize (s₁ ++ "\n" ++ s₂) =
      (lowered ((s₁ ++ "\n").toList.count '\n') (tokenize s₂)).map (us ++ ·) :=
    h ["\n"] s₂ hg
  rw [ht, hk, h₂, Grammar.Unended.body_append hu]
  simp [lowered, Except.map, Except.mapError, Parser.body]

end ExprLang.Incremental

namespace ExprLang.Grammar

open ExprLang.Parser

variable {w v : List Token} {p q : Program}

lemma Derives.following (h : Derives w p) (hw : Fresh w) : Following w p := by
  cases h with
  | nil => exact .nil
  | cons hs hf =>
    obtain ⟨t, u, rfl⟩ := hs.exists_cons
    exact .cons (hw t.lexeme rfl) hs hf

lemma Following.append (h : Following w p) (hv : Following v q) : Following (w ++ v) (p ++ q) := by
  induction h with
  | nil => exact hv
  | cons ht hs _ ih =>
    rw [List.append_assoc]
    exact .cons ht hs ih

lemma Derives.append (h : Derives w p) (hv : Derives v q) (hs : w = [] ∨ Fresh v) :
    Derives (w ++ v) (p ++ q) := by
  cases h with
  | nil => exact hv
  | @cons w s u p hw hf =>
    rcases hs with hs | hs
    · obtain ⟨t, w, rfl⟩ := hw.exists_cons
      cases hs
    · rw [List.append_assoc]
      exact .cons hw (hf.append (hv.following hs))

end ExprLang.Grammar

namespace ExprLang.Incremental

open ExprLang.Grammar ExprLang.Parser

def Apart (t₁ t₂ : List Token) : Prop :=
  (∀ t ∈ t₁, t.lexeme = .endOfInput) ∨ ∃ l, front t₂ = some l ∧ l.resumes

lemma Apart.seam {t₁ t₂ : List Token} (h : Apart t₁ t₂) (g : Nat → Nat) :
    body t₁ = [] ∨ Fresh (body (t₂.map (.renumber g))) := by
  rcases h with h | ⟨l, hl, hr⟩
  · refine .inl (List.eq_nil_iff_forall_not_mem.2 fun t ht => ?_)
    exact unended_body t₁ t ht (h t ((List.takeWhile_prefix _).subset ht))
  · exact .inr (fresh_body (front_renumber.trans hl) hr)

lemma readProgram_eq {s : String} {ts : List Token} {p : Program} (h : tokenize s = .ok ts)
    (hp : parse ts = .ok p) : readProgram s = .ok p := by
  rw [readProgram, h]
  change (parse ts).mapError Error.parse = _
  rw [hp]
  rfl

lemma readProgram_newline {s₁ s₂ : String} {t₁ t₂ : List Token} {p₁ p₂ : Program}
    (h₁ : tokenize s₁ = .ok t₁) (hp₁ : parse t₁ = .ok p₁) (h₂ : tokenize s₂ = .ok t₂)
    (hp₂ : parse t₂ = .ok p₂) (hs : Apart t₁ t₂) :
    readProgram (s₁ ++ "\n" ++ s₂) = .ok (p₁ ++ p₂.renumber (· + offset s₁)) := by
  have hr : parse (t₂.map (.renumber (· + offset s₁))) = .ok (p₂.renumber (· + offset s₁)) := by
    rw [parse_renumber, hp₂]
    rfl
  have hd := (parse_eq_ok_iff.1 hp₁).append (parse_eq_ok_iff.1 hr) (hs.seam _)
  rw [← (unended_body t₁).body_append] at hd
  exact readProgram_eq (tokenize_newline h₁ h₂) (parse_eq_ok_iff.2 hd)

end ExprLang.Incremental
