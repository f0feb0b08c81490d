import ExprLang.Proofs.Incremental.Text
import ExprLang.Proofs.Printing.Grammar
import Mathlib

namespace ExprLang

open Lexing

variable {k : Kind} {w rest : List Char} {l : Lexeme} {line : Nat} {found : List Token}

def Parted (rest : List Char) : Prop := ∀ c, rest.head? = some c → Text.isBlank c

lemma parted_nil : Parted [] := nofun

lemma parted_cons {c : Char} (h : Text.isBlank c) (cs : List Char) : Parted (c :: cs) := by
  rintro _ ⟨⟩
  exact h

lemma not_isBlank_of_word (h : Word k w) (hb : k ≠ .blank) (hc : k ≠ .comment) :
    ∀ d ∈ w, Text.isBlank d = false := by
  cases h with
  | blank _ => exact (hb rfl).elim
  | comment _ => exact (hc rfl).elim
  | identifier h hw =>
    refine List.forall_mem_cons.2 ⟨not_isBlank_of_startsIdentifier (startsIdentifier_iff.2 h), ?_⟩
    intro d hd
    exact not_isBlank_of_startsIdentifier (startsIdentifier_iff.2 (.inr (hw d hd)))
  | number h => exact fun d hd => not_isBlank_of_isDigit (h d hd)
  | symbol h =>
    have hs : ∀ s ∈ symbols, Text.isBlank s.1 = false := by decide
    exact List.forall_mem_singleton.2 (hs _ h)

lemma longest_of_parted (h : Word k w) (hb : k ≠ .blank) (hc : k ≠ .comment) (hr : Parted rest) :
    Piece.Longest ⟨k, w⟩ (w ++ rest) := by
  refine ⟨h, List.prefix_append w rest, fun k' v hv hi => ?_⟩
  -- A longer word would have the blank in it.
  by_contra hn
  obtain ⟨u, rfl⟩ : w <+: v :=
    List.prefix_of_prefix_length_le (List.prefix_append w rest) hi (Nat.le_of_lt (Nat.lt_of_not_le hn))
  obtain ⟨c, x, rfl⟩ := h.exists_cons
  obtain rfl : k = k' := h.kind_unique hv
  cases u with
  | nil => simp at hn
  | cons d u =>
    obtain ⟨t, rfl⟩ : d :: u <+: rest := (List.prefix_append_right_inj (c :: x)).1 hi
    have hd : Text.isBlank d = false :=
      not_isBlank_of_word hv hb hc d (List.mem_append_right _ List.mem_cons_self)
    rw [hr d rfl] at hd
    cases hd

structure Spells (l : Lexeme) (k : Kind) : Prop where
  isWord : Word k l.spelling.toList
  not_blank : k ≠ .blank
  not_comment : k ≠ .comment
  fits : Piece.Fits ⟨k, l.spelling.toList⟩
  lexeme_eq : Piece.lexeme? ⟨k, l.spelling.toList⟩ = some l

lemma spells_integer {n : Int64} (hn : 0 ≤ n.toInt) : Spells (.integer n) .number := by
  obtain ⟨m, hm⟩ := Int.eq_ofNat_of_zero_le hn
  have hw : (Lexeme.integer n).spelling.toList = Nat.toDigits 10 m := by
    rw [Lexeme.spelling, hm]
    exact Text.decimal_ofNat m
  have hd : ∀ d ∈ Nat.toDigits 10 m, d.isDigit := fun d hd =>
    Nat.isDigit_of_mem_toDigits (by decide) (by decide) hd
  refine ⟨?_, nofun, nofun, fun _ => ?_, ?_⟩
  · rw [hw]
    obtain ⟨c, v, hv⟩ := List.exists_cons_of_ne_nil (Nat.toDigits_ne_nil (n := m) (b := 10))
    rw [hv] at hd ⊢
    exact .number hd
  · rw [hw, Text.readDigits_toDigits]
    exact hm ▸ Int64.toInt_le n
  · rw [hw]
    change some (Lexeme.integer (Int64.ofNat (Text.readDigits (Nat.toDigits 10 m)))) = some (.integer n)
    rw [Text.readDigits_toDigits, ← Int64.ofInt_eq_ofNat, ← hm, Int64.ofInt_toInt]

lemma Lexeme.Printable.spells (h : l.Printable) : ∃ k, Spells l k := by
  cases h with
  | @identifier x h =>
    have hl : some (Lexeme.identifier (String.ofList x.toList)) = some (.identifier x) := by
      rw [String.ofList_toList]
    exact ⟨.identifier, h, nofun, nofun, nofun, hl⟩
  | integer h => exact ⟨.number, spells_integer h⟩
  | @symbol c _ h =>
    have hs : ∀ s ∈ symbols, s.2.spelling.toList = [s.1] ∧ symbols.lookup s.1 = some s.2 := by decide
    obtain ⟨hw, hl⟩ := hs _ h
    dsimp only at hw hl
    refine ⟨.symbol, ?_, nofun, nofun, nofun, ?_⟩
    · rw [hw]
      exact .symbol h
    · rw [hw]
      exact hl

lemma tokensFrom_spelling (hl : l.Printable) (hr : Parted rest) :
    tokensFrom line found (l.spelling.toList ++ rest) = tokensFrom line (⟨l, line⟩ :: found) rest := by
  obtain ⟨k, hk⟩ := hl.spells
  have hp := longest_of_parted hk.isWord hk.not_blank hk.not_comment hr
  have hn : l.spelling.toList.count '\n' = 0 := by
    apply List.count_eq_zero_of_not_mem
    intro hm
    have hb := not_isBlank_of_word hk.isWord hk.not_blank hk.not_comment _ hm
    cases hb
  obtain ⟨c, w, hw⟩ := hk.isWord.exists_cons
  have ht : l.spelling.toList ++ rest = c :: (w ++ rest) := by rw [hw, List.cons_append]
  rw [ht] at hp ⊢
  obtain ⟨m, hs, hm⟩ := scan_of_longest hp hk.fits ht
  rw [hk.lexeme_eq] at hm
  rw [tokensFrom, hs]
  dsimp only
  rw [hn, Nat.add_zero]
  cases hv : m.isTrivia with
  | true =>
    rw [hv, if_pos rfl] at hm
    cases hm
  | false =>
    rw [hv, if_neg Bool.false_ne_true] at hm
    cases hm
    rfl

lemma tokensFrom_words (ls : List Lexeme) (h : ∀ l ∈ ls, l.Printable) (hr : Parted rest)
    (found : List Token) :
    tokensFrom line found ([' '].intercalate (ls.map fun l => l.spelling.toList) ++ rest) =
      tokensFrom line ((tokensOn line ls).reverse ++ found) rest := by
  induction ls generalizing found with
  | nil => rfl
  | cons l ls ih =>
    obtain ⟨hl, hls⟩ := List.forall_mem_cons.1 h
    have ht : (tokensOn line (l :: ls)).reverse ++ found =
        (tokensOn line ls).reverse ++ ⟨l, line⟩ :: found := by simp [tokensOn]
    rw [ht]
    cases ls with
    | nil =>
      rw [List.map_singleton, List.intercalate_singleton]
      exact tokensFrom_spelling hl hr
    | cons m ls =>
      rw [List.map_cons, List.map_cons, List.intercalate_cons_cons, List.append_assoc, List.append_assoc,
        List.singleton_append, tokensFrom_spelling hl (parted_cons rfl _), tokensFrom_blank rfl]
      exact ih hls _

lemma toList_text (st : Statement) :
    st.text.toList = [' '].intercalate (st.lexemes.map fun l => l.spelling.toList) := by
  rw [Statement.text, String.toList_intercalate, List.map_map]
  rfl

lemma tokensFrom_statement {st : Statement} (h : Writable st.names st.integers) (hr : Parted rest)
    (line : Nat) (found : List Token) :
    tokensFrom line found (st.text.toList ++ rest) =
      tokensFrom line ((tokensOn line st.lexemes).reverse ++ found) rest := by
  rw [toList_text]
  exact tokensFrom_words st.lexemes (st.printable h) hr found

lemma tokensFrom_text (p : Program) (h : ∀ st ∈ p, Writable st.names st.integers) (line : Nat)
    (found : List Token) :
    ∃ last, tokensFrom line found p.text.toList =
      .ok (found.reverse ++ tokensFromLine line p ++ [⟨.endOfInput, last⟩]) := by
  have hn : "\n".toList = ['\n'] := rfl
  rw [Program.text, String.toList_intercalate, hn]
  induction p generalizing line found with
  | nil => exact ⟨line, by simp [tokensFrom, tokensFromLine]⟩
  | cons st p ih =>
    obtain ⟨hst, hp⟩ := List.forall_mem_cons.1 h
    rw [List.map_cons, List.map_cons]
    cases p with
    | nil =>
      refine ⟨line, ?_⟩
      have hs := tokensFrom_statement hst parted_nil line found
      rw [List.append_nil] at hs
      rw [List.map_nil, List.map_nil, List.intercalate_singleton, hs]
      simp [tokensFrom, tokensFromLine]
    | cons st' p =>
      obtain ⟨last, hlast⟩ := ih hp (line + 1) ((tokensOn line st.lexemes).reverse ++ found)
      refine ⟨last, ?_⟩
      rw [List.map_cons, List.map_cons, List.intercalate_cons_cons, List.append_assoc, List.append_assoc,
        List.singleton_append, tokensFrom_statement hst (parted_cons rfl _),
        tokensFrom_blank rfl]
      refine hlast.trans ?_
      simp [tokensFromLine]

lemma unended_tokens (p : Program) (h : ∀ st ∈ p, Writable st.names st.integers) (line : Nat) :
    Grammar.Unended (tokensFromLine line p) := by
  induction p generalizing line with
  | nil => exact .nil
  | cons st p ih =>
    obtain ⟨hst, hp⟩ := List.forall_mem_cons.1 h
    refine .append (fun t ht => ?_) (ih hp (line + 1))
    obtain ⟨l, hl, rfl⟩ := List.mem_map.1 ht
    have hs : ∀ s ∈ symbols, s.2 ≠ .endOfInput := by decide
    cases st.printable hst l hl with
    | identifier _ => exact nofun
    | integer _ => exact nofun
    | symbol hm => exact hs _ hm

lemma resumes_of_text {st : Statement} (h : ∀ c ∈ ['-', '(', '['], st.text.toList.head? ≠ some c)
    (hl : st.lexemes.head? = some l) : l.resumes := by
  obtain ⟨ls, hls⟩ := List.head?_eq_some_iff.1 hl
  have hb : l.begins := by
    obtain ⟨m, hm, hb⟩ := (st.sentence 0).front
    rw [hls] at hm
    cases hm
    exact hb
  have hc (c : Char) (hs : l.spelling.toList = [c]) : st.text.toList.head? = some c := by
    rw [toList_text, hls, List.map_cons, hs]
    cases ls with
    | nil => rw [List.map_nil, List.intercalate_singleton, List.head?_cons]
    | cons m ls =>
      rw [List.map_cons, List.intercalate_cons_cons, List.append_assoc, List.singleton_append,
        List.head?_cons]
  cases l with
  | minus => exact (h '-' (by decide) (hc '-' rfl)).elim
  | leftParen => exact (h '(' (by decide) (hc '(' rfl)).elim
  | leftBracket => exact (h '[' (by decide) (hc '[' rfl)).elim
  | _ => exact hb

lemma renumber_numberedFrom (line : Nat) (p : Program) :
    (numberedFrom line p).renumber (fun _ => 0) = p.renumber fun _ => 0 := by
  induction p generalizing line with
  | nil => rfl
  | cons st p ih => exact congrArg₂ List.cons (st.renumber_renumber _ _) (ih (line + 1))

theorem readProgram_text (p : Program) (hw : ∀ st ∈ p, Writable st.names st.integers)
    (hs : ∀ st ∈ p.tail, ∀ c ∈ ['-', '(', '['], st.text.toList.head? ≠ some c) :
    readProgram p.text = .ok (numberedFrom 1 p) ∧
      (numberedFrom 1 p).renumber (fun _ => 0) = p.renumber fun _ => 0 := by
  obtain ⟨last, ht⟩ := tokensFrom_text p hw 1 []
  have hd : Grammar.Derives (tokensFromLine 1 p) (numberedFrom 1 p) :=
    derives_tokens 1 p fun st hst l hl => resumes_of_text (hs st hst) hl
  have hp : parse (tokensFromLine 1 p ++ [⟨.endOfInput, last⟩]) = .ok (numberedFrom 1 p) := by
    rw [Grammar.parse_eq_ok_iff, (unended_tokens p hw 1).body_append]
    simpa [Parser.body] using hd
  exact ⟨Incremental.readProgram_eq ht hp, renumber_numberedFrom 1 p⟩

def difference : Statement :=
  .definition ⟨"f", ["x", "y"], .binary .sub (.identifier "x" 0)
    (.binary .sub (.identifier "y" 0) (.literal (.integer 1) 0) 0) 0, 0⟩

def comparison : Statement :=
  .expression (.binary .less (.call (.identifier "f" 0)
    [.negate (.binary .mul (.literal (.integer 2) 0) (.literal (.integer 3) 0) 0) 0,
      .index (.vector #[.literal (.boolean true) 0, .literal (.boolean false) 0] 0)
        (.literal (.integer 0) 0) 0] 0) (.literal (.integer 1) 0) 0) 0

theorem readProgram_text_comparison :
    ((∀ st ∈ [difference, comparison], Writable st.names st.integers) ∧
      ∀ st ∈ [difference, comparison].tail, ∀ c ∈ ['-', '(', '['], st.text.toList.head? ≠ some c) ∧
    readProgram "f ( x , y ) = x - ( y - 1 )\nf ( - ( 2 * 3 ) , [ ! , ? ] [ 0 ] ) < 1" =
      .ok (numberedFrom 1 [difference, comparison]) := by
  have hf : Word .identifier ['f'] := .identifier (.inr (by decide)) nofun
  have hx : Word .identifier ['x'] := .identifier (.inr (by decide)) nofun
  have hy : Word .identifier ['y'] := .identifier (.inr (by decide)) nofun
  have hw : ∀ st ∈ [difference, comparison], Writable st.names st.integers := by
    rw [List.forall_mem_cons, List.forall_mem_singleton]
    refine ⟨⟨?_, ?_⟩, ⟨?_, ?_⟩⟩
    · simp [difference, Statement.names, Expr.names, hf, hx, hy]
    · simp [difference, Statement.integers, Expr.integers]
    · simp [comparison, Statement.names, Expr.names, Expr.namesAll, hf]
    · simp [comparison, Statement.integers, Expr.integers, Expr.integersAll]
  have hc : comparison.text = "f ( - ( 2 * 3 ) , [ ! , ? ] [ 0 ] ) < 1" := by cbv
  have hs : ∀ st ∈ [difference, comparison].tail, ∀ c ∈ ['-', '(', '['],
      st.text.toList.head? ≠ some c := by
    have hh : comparison.text.toList.head? = some 'f' := by rw [hc]; rfl
    simp [hh]
  have ht : Program.text [difference, comparison] =
      "f ( x , y ) = x - ( y - 1 )\nf ( - ( 2 * 3 ) , [ ! , ? ] [ 0 ] ) < 1" := by cbv
  obtain ⟨hr, -⟩ := readProgram_text [difference, comparison] hw hs
  rw [ht] at hr
  exact ⟨⟨hw, hs⟩, hr⟩

end ExprLang
