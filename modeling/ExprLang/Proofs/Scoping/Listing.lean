import ExprLang.Proofs.Scoping.ByteOrder
import ExprLang.Proofs.Scoping.History
import ExprLang.Proofs.Scoping.Quoted
import ExprLang.Value.Listing

namespace ExprLang

section Names

variable (s : Store) (sc : Scope)

lemma mem_names (x : String) : x ∈ s.names sc ↔ s.binds sc x = true :=
  Std.TreeMap.mem_keys

lemma pairwise_names : (s.names sc).Pairwise (· < ·) :=
  Std.TreeMap.ordered_keys.imp compare_lt_iff_lt.1

lemma names_congr {s' : Store} {sc' : Scope} (h : ∀ x, s.binds sc x = s'.binds sc' x) :
    s.names sc = s'.names sc' := by
  have hs := pairwise_names s sc
  have hs' := pairwise_names s' sc'
  have hp : (s.names sc).Perm (s'.names sc') := by
    rw [List.perm_ext_iff_of_nodup (hs.imp ne_of_lt) (hs'.imp ne_of_lt)]
    intro x
    rw [mem_names, mem_names, h]
  exact hp.eq_of_pairwise (fun x y _ _ hxy hyx => absurd hyx (lt_asymm hxy)) hs hs'

end Names

namespace History

variable {m n : Nat}

def listing (h : History n) (e : Fin n) : String := h.store.listing (h.scopes.get e)

lemma isEmpty_enclosing (h : History n) (e : Fin n) :
    (h.scopes.get e).enclosing.isEmpty = !(h.parent? e).isSome := by
  cases hp : h.parent? e with
  | none =>
    have hs : (h.scopes.get e).enclosing = [] := h.tracked.outermost e e.isLt hp
    rw [hs]
    rfl
  | some p =>
    obtain ⟨_, hs⟩ := h.tracked.inner e e.isLt p hp
    have hc : (h.scopes.get e).enclosing = h.scopes[p].chain := hs
    rw [hc]
    rfl

lemma text_eq (names parent : String) :
    "Environment \x7b names: " ++ ("[" ++ names ++ "]") ++ ", has_parent: " ++ parent ++ " \x7d" =
      "Environment \x7b names: [" ++ names ++ "], has_parent: " ++ parent ++ " \x7d" := by
  rw [← String.toList_inj]
  simp

lemma listing_eq (h : History n) (e : Fin n) :
    h.listing e = "Environment \x7b names: [" ++ ", ".intercalate ((h.store.names (h.scopes.get e)).map Text.quoted) ++
      "], has_parent: " ++ (if (h.parent? e).isSome then "true" else "false") ++ " \x7d" := by
  have hp : (if (h.scopes.get e).enclosing.isEmpty then "false" else "true") =
      if (h.parent? e).isSome then "true" else "false" := by
    rw [isEmpty_enclosing]
    cases (h.parent? e).isSome <;> simp
  rw [← text_eq, ← hp]
  rfl

lemma listing_inj {h : History m} {h' : History n} {e : Fin m} {e' : Fin n} (hl : h.listing e = h'.listing e') :
    h.store.names (h.scopes.get e) = h'.store.names (h'.scopes.get e') ∧
      (h.parent? e).isSome = (h'.parent? e').isSome := by
  rw [listing_eq, listing_eq] at hl
  have hn := congrArg String.toList hl
  simp only [String.append_assoc, String.toList_append] at hn
  obtain ⟨hn, ht⟩ := Text.intercalate_quoted_inj (List.append_cancel_left hn)
  refine ⟨hn, ?_⟩
  cases hp : (h.parent? e).isSome <;> cases hp' : (h'.parent? e').isSome <;> simp [hp, hp'] at ht ⊢

theorem listing_canonical :
    (∀ {n : Nat} (h : History n) (e : Fin n), ∃ names : List String,
      h.listing e = "Environment \x7b names: [" ++ ", ".intercalate (names.map Text.quoted) ++ "], has_parent: " ++
        (if (h.parent? e).isSome then "true" else "false") ++ " \x7d" ∧
      (∀ x ∈ names, ∃ cs, (Text.quoted x).toList = '"' :: cs ∧ Text.Reads cs x.toList []) ∧
      (∀ x, x ∈ names ↔ h.binds e x = true) ∧
      names.Pairwise fun x y => Text.bytes x < Text.bytes y) ∧
    ∀ {m n : Nat} (h : History m) (h' : History n) (e : Fin m) (e' : Fin n),
      h.listing e = h'.listing e' ↔
        (∀ x, h.binds e x = h'.binds e' x) ∧ (h.parent? e).isSome = (h'.parent? e').isSome := by
  refine ⟨fun h e => ⟨_, h.listing_eq e, fun x _ => ?_, mem_names _ _, ?_⟩, fun h h' e e' => ⟨fun hl => ?_, ?_⟩⟩
  · exact ⟨_, Text.toList_quoted x, Text.reads_quoted x.toList []⟩
  · exact (pairwise_names _ _).imp Text.bytes_lt
  · obtain ⟨hn, hp⟩ := listing_inj hl
    refine ⟨fun x => ?_, hp⟩
    rw [Bool.eq_iff_iff, binds, binds, ← mem_names, ← mem_names, hn]
  · rintro ⟨hb, hp⟩
    rw [listing_eq, listing_eq, names_congr _ _ hb, hp]

def forward : History 2 :=
  ((((root nil).define (Fin.last 0) "x" (.integer 3)).child (Fin.last 0)).define (Fin.last 1) "é" (.integer 1)).define
    (Fin.last 1) "z" (.integer 2)

def backward : History 2 :=
  ((((root nil).child (Fin.last 0)).define (Fin.last 1) "z" (.integer 4)).define (Fin.last 1) "é" (.integer 5)).define
    (Fin.last 1) "z" (.vector #[])

theorem listing_canonical_backward :
    (∀ x, forward.binds 1 x = backward.binds 1 x) ∧ (forward.parent? 1).isSome = (backward.parent? 1).isSome ∧
      forward.listing 1 = backward.listing 1 ∧ backward.store.names (backward.scopes.get 1) = ["z", "é"] := by
  have hf : forward.store.names (forward.scopes.get 1) = ["z", "é"] := by cbv
  have hb : backward.store.names (backward.scopes.get 1) = ["z", "é"] := by cbv
  have hx (x : String) : forward.binds 1 x = backward.binds 1 x := by
    rw [Bool.eq_iff_iff, binds, binds, ← mem_names, ← mem_names, hf, hb]
  exact ⟨hx, rfl, (listing_canonical.2 forward backward 1 1).2 ⟨hx, rfl⟩, hb⟩

end History

end ExprLang
