import Mathlib

/-! UTF-8 keeps the order of characters. -/

namespace ExprLang.Text

variable {v w k m a b : Nat} {c d : Char} {xs ys : List UInt8} {s t : String}

def bytes (s : String) : List UInt8 := s.toUTF8.data.toList

def trail : Nat → Nat → List UInt8
  | 0, _ => []
  | k + 1, v => UInt8.ofNat (v / 64 ^ k % 64 + 128) :: trail k v

inductive Leads (v : Nat) : Nat → Nat → Prop
  | one : v < 0x80 → Leads v 0 v
  | two : 0x80 ≤ v → v < 0x800 → Leads v 1 (v / 64 + 0xc0)
  | three : 0x800 ≤ v → v < 0x10000 → Leads v 2 (v / 4096 + 0xe0)
  | four : 0x10000 ≤ v → v < 0x110000 → Leads v 3 (v / 262144 + 0xf0)

lemma char_lt (c : Char) : c.toNat < 0x110000 := by
  rcases c.valid with h | h
  · exact Nat.lt_trans h (by decide)
  · exact h.2

lemma utf8EncodeChar_eq (c : Char) :
    ∃ k a, Leads c.toNat k a ∧ String.utf8EncodeChar c = UInt8.ofNat a :: trail k c.toNat := by
  have hc := char_lt c
  have hv : c.val.toNat = c.toNat := rfl
  simp only [String.utf8EncodeChar, hv]
  split_ifs with h₁ h₂ h₃
  · exact ⟨0, _, .one (by omega), rfl⟩
  · refine ⟨1, _, .two (by omega) (by omega), ?_⟩
    rw [Nat.mod_eq_of_lt (by omega)]
    simp [trail]
  · refine ⟨2, _, .three (by omega) (by omega), ?_⟩
    rw [Nat.mod_eq_of_lt (by omega)]
    simp [trail]
  · refine ⟨3, _, .four (by omega) (by omega), ?_⟩
    rw [Nat.mod_eq_of_lt (by omega)]
    simp [trail]

lemma Leads.lt_size (h : Leads v k a) : a < 256 := by
  cases h <;> omega

lemma Leads.lt_or_eq (h : Leads v k a) (h' : Leads w m b) (hlt : v < w) :
    a < b ∨ a = b ∧ k = m ∧ v / 64 ^ k = w / 64 ^ k := by
  cases h <;> cases h' <;> omega

lemma ofNat_lt (hb : b < 256) (h : a < b) : UInt8.ofNat a < UInt8.ofNat b := by
  rw [UInt8.lt_iff_toNat_lt, UInt8.toNat_ofNat_of_lt' hb, UInt8.toNat_ofNat_of_lt' (Nat.lt_trans h hb)]
  exact h

lemma trail_lt (hq : v / 64 ^ k = w / 64 ^ k) (hlt : v < w) (xs ys : List UInt8) :
    trail k v ++ xs < trail k w ++ ys := by
  induction k with
  | zero =>
    rw [pow_zero, Nat.div_one, Nat.div_one] at hq
    omega
  | succ k ih =>
    rw [trail, trail, List.cons_append, List.cons_append, List.cons_lt_cons_iff]
    rw [pow_succ, ← Nat.div_div_eq_div_mul, ← Nat.div_div_eq_div_mul] at hq
    rcases Nat.eq_or_lt_of_le (Nat.div_le_div_right (Nat.le_of_lt hlt) : v / 64 ^ k ≤ w / 64 ^ k) with he | hl
    · exact .inr ⟨by rw [he], ih he⟩
    · exact .inl (ofNat_lt (by omega) (by omega))

lemma utf8EncodeChar_lt (h : c < d) (xs ys : List UInt8) :
    String.utf8EncodeChar c ++ xs < String.utf8EncodeChar d ++ ys := by
  have hlt : c.toNat < d.toNat := h
  obtain ⟨k, a, hc, hce⟩ := utf8EncodeChar_eq c
  obtain ⟨m, b, hd, hde⟩ := utf8EncodeChar_eq d
  rw [hce, hde, List.cons_append, List.cons_append, List.cons_lt_cons_iff]
  rcases hc.lt_or_eq hd hlt with hl | ⟨rfl, rfl, hq⟩
  · exact .inl (ofNat_lt hd.lt_size hl)
  · exact .inr ⟨rfl, trail_lt hq hlt xs ys⟩

lemma bytes_eq (s : String) : bytes s = s.toList.flatMap String.utf8EncodeChar := by
  rw [bytes, String.toUTF8_eq_toByteArray, ← String.utf8Encode_toList, List.utf8Encode, List.data_toByteArray]

lemma flatMap_lt {cs ds : List Char} (h : cs < ds) :
    cs.flatMap String.utf8EncodeChar < ds.flatMap String.utf8EncodeChar := by
  induction ds generalizing cs with
  | nil => exact absurd h (List.not_lt_nil cs)
  | cons d ds ih =>
    rw [List.flatMap_cons]
    cases cs with
    | nil =>
      obtain ⟨k, a, -, hd⟩ := utf8EncodeChar_eq d
      rw [hd]
      exact List.nil_lt_cons _ _
    | cons c cs =>
      rw [List.flatMap_cons]
      rcases List.cons_lt_cons_iff.1 h with hc | ⟨rfl, hcs⟩
      · exact utf8EncodeChar_lt hc _ _
      · exact List.append_left_lt (ih hcs)

lemma bytes_lt (h : s < t) : bytes s < bytes t := by
  rw [bytes_eq, bytes_eq]
  exact flatMap_lt (String.lt_iff_toList_lt.1 h)

end ExprLang.Text
