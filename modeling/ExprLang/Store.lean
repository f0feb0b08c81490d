import ExprLang.Value.Basic
import Std.Data.TreeMap

/-! Frames of bindings in one store, named by their places in it. -/

namespace ExprLang

abbrev Bindings := Std.TreeMap String Value

def Bindings.ofArguments (params : List String) (args : List Value) : Bindings :=
  (params.zip args).foldl (fun b p => b.insert p.1 p.2) ∅

theorem getElem?_foldl_insert (l : List (String × Value)) (b : Bindings) (x : String) :
    (l.foldl (fun b p => b.insert p.1 p.2) b)[x]? = (l.reverse.lookup x).or b[x]? := by
  induction l generalizing b with
  | nil => simp
  | cons p l ih =>
    obtain ⟨y, v⟩ := p
    simp only [List.foldl_cons, List.reverse_cons, List.lookup_append, ih,
      Std.TreeMap.getElem?_insert, List.lookup_cons, List.lookup_nil, Option.or_assoc]
    congr 1
    by_cases hx : x = y
    · simp [hx]
    · have hb : (x == y) = false := beq_eq_false_iff_ne.2 hx
      simp [hb, Ne.symm hx]

theorem getElem?_ofArguments (params : List String) (vs : List Value) (x : String) :
    (Bindings.ofArguments params vs)[x]? = (params.zip vs).reverse.lookup x := by
  rw [Bindings.ofArguments, getElem?_foldl_insert]
  simp

structure Store where
  frames : Array Bindings
  closures : Nat

def Scope.parent? (sc : Scope) : Option Scope :=
  match sc.enclosing with
  | [] => none
  | f :: fs => some ⟨f, fs⟩

def Scope.chain (sc : Scope) : List Nat := sc.frame :: sc.enclosing

namespace Store

def empty : Store := ⟨#[], 0⟩

def frame (s : Store) (f : Nat) : Bindings := s.frames.getD f ∅

def root (s : Store) : Scope × Store :=
  (⟨s.frames.size, []⟩, { s with frames := s.frames.push ∅ })

def child (s : Store) (sc : Scope) (b : Bindings) : Scope × Store :=
  (⟨s.frames.size, sc.chain⟩, { s with frames := s.frames.push b })

def release (s : Store) : Store := { s with frames := s.frames.pop }

def lookup (s : Store) (sc : Scope) (x : String) : Option Value :=
  sc.chain.findSome? fun f => (s.frame f)[x]?

def binds (s : Store) (sc : Scope) (x : String) : Bool := (s.frame sc.frame).contains x

def define (s : Store) (sc : Scope) (x : String) (v : Value) : Store :=
  { s with frames := s.frames.modify sc.frame (·.insert x v) }

def close (s : Store) (name : String) (params : List String) (body : Expr) (sc : Scope) :
    Closure × Store :=
  (⟨s.closures, name, params, body, sc⟩, { s with closures := s.closures + 1 })

def names (s : Store) (sc : Scope) : List String := (s.frame sc.frame).keys

theorem frame_root (s : Store) (f : Nat) : (s.root.2).frame f = s.frame f := by
  simp only [root, frame, Array.getD_eq_getD_getElem?, Array.getElem?_push]
  split
  · subst f; simp
  · rfl

theorem frame_child (s : Store) (sc : Scope) (b : Bindings) (f : Nat) :
    (s.child sc b).2.frame f = if f = s.frames.size then b else s.frame f := by
  simp only [child, frame, Array.getD_eq_getD_getElem?, Array.getElem?_push]
  split <;> rfl

@[simp] theorem release_child (s : Store) (sc : Scope) (b : Bindings) :
    (s.child sc b).2.release = s := by
  simp [child, release]

theorem frame_define (s : Store) (sc : Scope) (x : String) (v : Value) (f : Nat)
    (h : sc.frame < s.frames.size) :
    (s.define sc x v).frame f =
      if f = sc.frame then (s.frame f).insert x v else s.frame f := by
  simp only [define, frame, Array.getD_eq_getD_getElem?, Array.getElem?_modify]
  by_cases hf : sc.frame = f
  · subst hf; simp [h]
  · rw [if_neg hf, if_neg (Ne.symm hf)]

end Store

theorem getElem?_define (s : Store) (sc : Scope) (x : String) (v : Value) (f : Nat) (y : String) :
    ((s.define sc x v).frame f)[y]? =
      if (f = sc.frame ∧ f < s.frames.size) ∧ x = y then some v else (s.frame f)[y]? := by
  simp only [Store.define, Store.frame, Array.getD_eq_getD_getElem?, Array.getElem?_modify]
  by_cases hf : sc.frame = f
  · subst hf
    by_cases hn : sc.frame < s.frames.size
    · simp [hn, Std.TreeMap.getElem?_insert]
    · simp [hn]
  · simp [hf, Ne.symm hf]

theorem Store.lookup_eq_none_iff (s : Store) (sc : Scope) (x : String) :
    s.lookup sc x = none ↔ ∀ f ∈ sc.chain, (s.frame f)[x]? = none :=
  List.findSome?_eq_none_iff

theorem lookup_cons (s : Store) (f : Nat) (fs : List Nat) (x : String) :
    ((f :: fs).findSome? fun g => (s.frame g)[x]?) =
      ((s.frame f)[x]?).or (fs.findSome? fun g => (s.frame g)[x]?) := by
  rw [List.findSome?_cons]
  cases (s.frame f)[x]? <;> rfl

end ExprLang
