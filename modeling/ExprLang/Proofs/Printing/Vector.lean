import ExprLang.Value.Basic
import Mathlib

namespace ExprLang

variable {vs : Array Value} {ms ns : List Int64} {text : List Char}

namespace Value

def ofIntegers (ns : List Int64) : Value := .vector (ns.map .integer).toArray

def writeIntegers (first : Bool) : List Value → String
  | [] => ""
  | v :: vs =>
    match v.integer? with
    | some n => (if first then "" else " ") ++ Text.decimal n.toInt ++ writeIntegers false vs
    | none => writeIntegers first vs

def readIntegers (s : String) : List (Option Int) :=
  if s = "" then [] else (s.toList.splitOn ' ').map fun w => (String.ofList w).toInt?

end Value

open Value

def words (ns : List Int64) : List (List Char) := ns.map fun n => (Text.decimal n.toInt).toList

lemma mem_words {w : List Char} (h : w ∈ words ns) : w ≠ [] ∧ ' ' ∉ w := by
  obtain ⟨n, -, rfl⟩ := List.mem_map.1 h
  have digits (m : Nat) : Nat.toDigits 10 m ≠ [] ∧ ' ' ∉ Nat.toDigits 10 m :=
    ⟨Nat.toDigits_ne_nil, fun hm => nomatch Nat.isDigit_of_mem_toDigits (by decide) (by decide) hm⟩
  cases n.toInt with
  | ofNat m =>
    have hd : (Text.decimal (.ofNat m)).toList = Nat.toDigits 10 m := Text.decimal_ofNat m
    rw [hd]
    exact digits m
  | negSucc m =>
    rw [Text.decimal_negSucc, List.mem_cons, not_or]
    exact ⟨nofun, by decide, (digits (m + 1)).2⟩

lemma toList_render_vector (vs : Array Value) :
    (Value.vector vs).render.toList = [' '].intercalate (words (vs.toList.filterMap integer?)) := by
  rw [render, String.toList_intercalate, List.map_map]
  rfl

lemma integers_ofIntegers (ns : List Int64) : (ns.map Value.integer).filterMap integer? = ns := by
  rw [List.filterMap_map]
  exact List.filterMap_some

lemma toList_render_ofIntegers (ns : List Int64) :
    (ofIntegers ns).render.toList = [' '].intercalate (words ns) := by
  rw [ofIntegers, toList_render_vector, integers_ofIntegers]

lemma splitOn_words (h : ns ≠ []) : ([' '].intercalate (words ns)).splitOn ' ' = words ns :=
  List.splitOn_intercalate ' ' (fun _ hw => (mem_words hw).2) (by simpa [words] using h)

lemma render_ofIntegers_eq_empty_iff : (ofIntegers ns).render = "" ↔ ns = [] := by
  rw [← String.toList_eq_nil_iff, toList_render_ofIntegers]
  constructor
  · intro h
    by_contra hn
    have hs := splitOn_words hn
    rw [h, List.splitOn_nil] at hs
    exact (mem_words (hs ▸ List.mem_cons_self)).1 rfl
  · rintro rfl
    rfl

lemma readIntegers_render (ns : List Int64) :
    readIntegers (ofIntegers ns).render = ns.map fun n => some n.toInt := by
  rw [readIntegers]
  by_cases h : ns = []
  · rw [if_pos (render_ofIntegers_eq_empty_iff.2 h), h, List.map_nil]
  · rw [if_neg (mt render_ofIntegers_eq_empty_iff.1 h), toList_render_ofIntegers, splitOn_words h, words,
      List.map_map]
    refine List.map_congr_left fun n _ => ?_
    simp only [Function.comp_apply, String.ofList_toList]
    exact Int.toInt?_repr n.toInt

lemma filterMap_integers (vs : List Value) :
    (vs.filter (·.integer?.isSome)).filterMap integer? = vs.filterMap integer? := by
  rw [List.filterMap_filter]
  refine List.filterMap_congr fun v _ => ?_
  cases v <;> rfl

lemma words_around {a b : List Char} (h : a ++ ' ' :: b = [' '].intercalate (words ns)) :
    [] ∉ a.splitOn ' ' ∧ [] ∉ b.splitOn ' ' := by
  have hn : ns ≠ [] := by
    rintro rfl
    exact List.append_ne_nil_of_right_ne_nil a (List.cons_ne_nil _ b) h
  rw [← not_or, ← List.mem_append, ← List.splitOn_append_cons_self, h, splitOn_words hn]
  exact fun hw => (mem_words hw).1 rfl

lemma intercalate_cons (w : List Char) (ws : List (List Char)) :
    [' '].intercalate (w :: ws) = w ++ ws.flatMap (' ' :: ·) := by
  induction ws generalizing w with
  | nil => rw [List.intercalate_singleton, List.flatMap_nil, List.append_nil]
  | cons v ws ih =>
    rw [List.intercalate_cons_cons, ih, List.flatMap_cons, List.append_assoc, List.singleton_append,
      List.cons_append]

lemma toList_writeIntegers_false (vs : List Value) :
    (writeIntegers false vs).toList = (words (vs.filterMap integer?)).flatMap (' ' :: ·) := by
  induction vs with
  | nil => rfl
  | cons v vs ih =>
    rw [writeIntegers]
    cases hv : v.integer? with
    | none => rw [List.filterMap_cons_none hv, ih]
    | some n =>
      rw [List.filterMap_cons_some hv, String.toList_append, String.toList_append, ih]
      rfl

lemma toList_writeIntegers_true (vs : List Value) :
    (writeIntegers true vs).toList = [' '].intercalate (words (vs.filterMap integer?)) := by
  induction vs with
  | nil => rfl
  | cons v vs ih =>
    rw [writeIntegers]
    cases hv : v.integer? with
    | none => rw [List.filterMap_cons_none hv, ih]
    | some n =>
      rw [List.filterMap_cons_some hv, words, List.map_cons, intercalate_cons, String.toList_append,
        toList_writeIntegers_false]
      rfl

theorem render_vector :
    (∀ vs : Array Value, (Value.vector vs).render = writeIntegers true vs.toList ∧
      (Value.vector vs).render = (Value.vector (vs.filter (·.integer?.isSome))).render) ∧
    (∀ ns : List Int64, readIntegers (ofIntegers ns).render = ns.map fun n => some n.toInt) ∧
    (∀ ns : List Int64, (ofIntegers ns).render = "" ↔ ns = []) ∧
    (∀ ms ns : List Int64, (ofIntegers ms).render = (ofIntegers ns).render ↔ ms = ns) ∧
    ∀ vs : Array Value, ¬ [' '] <+: (Value.vector vs).render.toList ∧ ¬ [' '] <:+ (Value.vector vs).render.toList ∧
      ¬ [' ', ' '] <:+: (Value.vector vs).render.toList := by
  refine ⟨fun vs => ⟨?_, ?_⟩, readIntegers_render, fun ns => render_ofIntegers_eq_empty_iff, fun ms ns => ?_,
    fun vs => ?_⟩
  · rw [← String.toList_inj, toList_render_vector, toList_writeIntegers_true]
  · rw [render, render, Array.toList_filter, filterMap_integers]
  · refine ⟨fun h => ?_, fun h => by rw [h]⟩
    have hr := readIntegers_render ms
    rw [h, readIntegers_render] at hr
    exact List.map_injective_iff.2 (fun m n hmn => Int64.toInt_inj.1 (Option.some.inj hmn)) hr.symm
  · rw [toList_render_vector]
    have hn : [] ∈ ([] : List Char).splitOn ' ' := by rw [List.splitOn_nil]; exact List.mem_cons_self
    refine ⟨?_, ?_, ?_⟩
    · rintro ⟨t, ht⟩
      exact (words_around (a := []) ht).1 hn
    · rintro ⟨t, ht⟩
      exact (words_around ht).2 hn
    · rintro ⟨t, u, ht⟩
      rw [List.append_assoc] at ht
      refine (words_around (b := ' ' :: u) ht).2 ?_
      exact List.splitOn_append_cons_self [] u ▸ List.mem_append_left _ hn

example : (Value.vector #[.vector #[.integer 7], .integer 1, .vector #[], .integer (-2), .vector #[]]).render =
    "1 -2" := by
  cbv

end ExprLang
