import ExprLang.Text.Quoted
import Mathlib.Tactic.Lemma

/-! Quoted text read back. -/

namespace ExprLang.Text

def hexValue (d : Char) : Nat :=
  if d.isDigit then d.toNat - '0'.toNat else d.toNat - 'a'.toNat + 10

def readHexadecimal (ds : List Char) : Nat := ds.foldl (fun n d => 16 * n + hexValue d) 0

def unescape? : Char → Option Char
  | '"' => some '"'
  | '\\' => some '\\'
  | 'n' => some '\n'
  | 't' => some '\t'
  | 'r' => some '\r'
  | '0' => some '\x00'
  | _ => none

inductive Reads : List Char → List Char → List Char → Prop
  | close {rest} : Reads ('"' :: rest) [] rest
  | plain {c cs s rest} : c ≠ '"' → c ≠ '\\' → Reads cs s rest → Reads (c :: cs) (c :: s) rest
  | escaped {d c cs s rest} : unescape? d = some c → Reads cs s rest → Reads ('\\' :: d :: cs) (c :: s) rest
  | number {ds c cs s rest} : '\x7d' ∉ ds → readHexadecimal ds = c.toNat → Reads cs s rest →
      Reads ('\\' :: 'u' :: '\x7b' :: (ds ++ '\x7d' :: cs)) (c :: s) rest

lemma append_cons_inj {a : Char} {xs ys us vs : List Char} (hx : a ∉ xs) (hy : a ∉ ys)
    (h : xs ++ a :: us = ys ++ a :: vs) : xs = ys ∧ us = vs := by
  induction xs generalizing ys with
  | nil =>
    cases ys with
    | nil => exact ⟨rfl, (List.cons.inj h).2⟩
    | cons y ys => exact (hy (List.mem_cons.2 (.inl (List.cons.inj h).1))).elim
  | cons x xs ih =>
    cases ys with
    | nil => exact (hx (List.mem_cons.2 (.inl (List.cons.inj h).1.symm))).elim
    | cons y ys =>
      obtain ⟨rfl, ht⟩ := List.cons.inj h
      obtain ⟨rfl, rfl⟩ := ih (fun ha => hx (.tail x ha)) (fun ha => hy (.tail x ha)) ht
      exact ⟨rfl, rfl⟩

theorem Reads.unique {cs s t r q : List Char} (h : Reads cs s r) (h' : Reads cs t q) : s = t ∧ r = q := by
  induction h generalizing t q with
  | close =>
    cases h' with
    | close => exact ⟨rfl, rfl⟩
    | plain hq => exact (hq rfl).elim
  | plain hq hb _ ih =>
    cases h' with
    | close => exact (hq rfl).elim
    | plain _ _ h' =>
      obtain ⟨rfl, rfl⟩ := ih h'
      exact ⟨rfl, rfl⟩
    | escaped => exact (hb rfl).elim
    | number => exact (hb rfl).elim
  | escaped hd _ ih =>
    cases h' with
    | plain _ hb => exact (hb rfl).elim
    | escaped hd' h' =>
      obtain ⟨rfl, rfl⟩ := ih h'
      exact ⟨congrArg (· :: _) (Option.some.inj (hd.symm.trans hd')), rfl⟩
    | number => cases hd
  | @number ds c cs s r hn hc _ ih =>
    generalize hl : ds ++ '\x7d' :: cs = l at h'
    cases h' with
    | plain _ hb => exact (hb rfl).elim
    | escaped hd' => cases hd'
    | number hn' hc' h' =>
      obtain ⟨rfl, rfl⟩ := append_cons_inj hn hn' hl
      obtain ⟨rfl, rfl⟩ := ih h'
      exact ⟨congrArg (· :: _) (Char.toNat_inj.1 (hc.symm.trans hc')), rfl⟩

lemma hexValue_digitChar : ∀ d < 16, hexValue d.digitChar = d := by decide

lemma readHexadecimal_hexadecimal (n : Nat) : readHexadecimal (hexadecimal n) = n := by
  induction n using Nat.strongRecOn with
  | ind n ih =>
    rw [hexadecimal, Nat.toDigits_eq_if (by decide)]
    split
    · rename_i hn
      simp [readHexadecimal, hexValue_digitChar n hn]
    · have hd := hexValue_digitChar (n % 16) (Nat.mod_lt n (by decide))
      have hq : readHexadecimal (Nat.toDigits 16 (n / 16)) = n / 16 := ih _ (by omega)
      rw [readHexadecimal] at hq ⊢
      rw [List.foldl_append, hq, List.foldl_cons, List.foldl_nil, hd]
      omega

lemma brace_notMem_hexadecimal (n : Nat) : '\x7d' ∉ hexadecimal n := by
  induction n using Nat.strongRecOn with
  | ind n ih =>
    rw [hexadecimal, Nat.toDigits_eq_if (by decide)]
    split
    · simp
    · rw [List.mem_append, not_or]
      exact ⟨ih _ (by omega), by simp⟩

lemma Reads.escape {cs s rest : List Char} (c : Char) (h : Reads cs s rest) :
    Reads (Text.escape c ++ cs) (c :: s) rest := by
  unfold Text.escape
  split
  case h_7 =>
    rename_i hq hb _ _ _ _
    split
    · simpa using Reads.number (brace_notMem_hexadecimal c.toNat) (readHexadecimal_hexadecimal _) h
    · exact .plain hq hb h
  all_goals exact .escaped rfl h

theorem reads_quoted (s rest : List Char) : Reads (s.flatMap escape ++ '"' :: rest) s rest := by
  induction s with
  | nil => exact .close
  | cons c s ih =>
    rw [List.flatMap_cons, List.append_assoc]
    exact ih.escape c

lemma toList_quoted (s : String) : (quoted s).toList = '"' :: (s.toList.flatMap escape ++ ['"']) := by
  simp [quoted]

lemma quoted_append_inj {x y : String} {r q : List Char} (h : (quoted x).toList ++ r = (quoted y).toList ++ q) :
    x = y ∧ r = q := by
  have hr : Reads (x.toList.flatMap escape ++ '"' :: r) x.toList r := reads_quoted _ r
  have hq : Reads (y.toList.flatMap escape ++ '"' :: q) y.toList q := reads_quoted _ q
  have he : x.toList.flatMap escape ++ '"' :: r = y.toList.flatMap escape ++ '"' :: q := by
    simpa [toList_quoted] using h
  obtain ⟨hx, rfl⟩ := (he ▸ hr).unique hq
  exact ⟨String.toList_inj.1 hx, rfl⟩

def more (xs : List String) : List Char := xs.flatMap fun x => ',' :: ' ' :: (quoted x).toList

lemma toList_intercalate_quoted (x : String) (xs : List String) :
    (", ".intercalate ((x :: xs).map quoted)).toList = (quoted x).toList ++ more xs := by
  induction xs generalizing x with
  | nil => simp [more]
  | cons y ys ih =>
    rw [List.map_cons, List.map_cons, String.intercalate_cons_cons, ← List.map_cons, String.toList_append, ih]
    simp [more]

lemma more_inj {xs ys : List String} {r q : List Char} (h : more xs ++ ']' :: r = more ys ++ ']' :: q) :
    xs = ys ∧ r = q := by
  induction xs generalizing ys with
  | nil =>
    cases ys with
    | nil => exact ⟨rfl, (List.cons.inj h).2⟩
    | cons y ys => cases (List.cons.inj h).1
  | cons x xs ih =>
    cases ys with
    | nil => cases (List.cons.inj h).1
    | cons y ys =>
      have he : (quoted x).toList ++ (more xs ++ ']' :: r) = (quoted y).toList ++ (more ys ++ ']' :: q) := by
        simpa [more] using h
      obtain ⟨rfl, ht⟩ := quoted_append_inj he
      obtain ⟨rfl, rfl⟩ := ih ht
      exact ⟨rfl, rfl⟩

theorem intercalate_quoted_inj {xs ys : List String} {r q : List Char}
    (h : (", ".intercalate (xs.map quoted)).toList ++ ']' :: r =
      (", ".intercalate (ys.map quoted)).toList ++ ']' :: q) : xs = ys ∧ r = q := by
  cases xs with
  | nil =>
    cases ys with
    | nil => exact ⟨rfl, (List.cons.inj h).2⟩
    | cons y ys =>
      rw [toList_intercalate_quoted] at h
      simp [toList_quoted] at h
  | cons x xs =>
    rw [toList_intercalate_quoted] at h
    cases ys with
    | nil => simp [toList_quoted] at h
    | cons y ys =>
      rw [toList_intercalate_quoted, List.append_assoc, List.append_assoc] at h
      obtain ⟨rfl, ht⟩ := quoted_append_inj h
      obtain ⟨rfl, rfl⟩ := more_inj ht
      exact ⟨rfl, rfl⟩

end ExprLang.Text
