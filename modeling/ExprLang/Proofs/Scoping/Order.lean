import ExprLang.Proofs.Identity.Lockstep
import Mathlib

namespace ExprLang

variable {limit : Nat} {ds es : List Definition} {d : Definition} {x : String}

lemma getElem?_overwrite_of_notMem (sc : Scope) (b : Bindings) (n : Nat) (hx : x ∉ ds.map (·.name)) :
    (b.overwrite (closures sc n ds))[x]? = b[x]? := by
  induction ds generalizing b n with
  | nil => rfl
  | cons e ds ih =>
    rw [List.map_cons, List.mem_cons, not_or] at hx
    have hb : (b.insert e.name (.function (e.closure n sc)))[x]? = b[x]? := by
      rw [Std.TreeMap.getElem?_insert, if_neg]
      simpa using Ne.symm hx.1
    exact (ih (b.insert e.name (.function (e.closure n sc))) (n + 1) hx.2).trans hb

lemma getElem?_overwrite_of_mem (sc : Scope) (b : Bindings) (n : Nat) (hn : (ds.map (·.name)).Nodup)
    (hd : d ∈ ds) :
    ∃ k, (b.overwrite (closures sc n ds))[d.name]? = some (.function (d.closure k sc)) := by
  induction ds generalizing b n with
  | nil => cases hd
  | cons e ds ih =>
    obtain ⟨he, hds⟩ := List.nodup_cons.1 hn
    rcases List.mem_cons.1 hd with rfl | hd
    -- No later definition has the name of the first, so what it bound stays.
    · refine ⟨n, ?_⟩
      have hb := getElem?_overwrite_of_notMem sc (b.insert d.name (.function (d.closure n sc))) (n + 1) he
      exact hb.trans Std.TreeMap.getElem?_insert_self
    · exact ih (b.insert e.name (.function (e.closure n sc))) (n + 1) hds hd

lemma overwrite_perm (sc : Scope) (b : Bindings) (n : Nat) (hp : ds.Perm es)
    (hn : (ds.map (·.name)).Nodup) (x : String) :
    Option.Rel (Value.Alike Closure.Twin) (b.overwrite (closures sc n ds))[x]?
      (b.overwrite (closures sc n es))[x]? := by
  have hnames : (ds.map (·.name)).Perm (es.map (·.name)) := hp.map _
  by_cases hx : x ∈ ds.map (·.name)
  · obtain ⟨d, hd, rfl⟩ := List.mem_map.1 hx
    obtain ⟨j, hj⟩ := getElem?_overwrite_of_mem sc b n hn hd
    obtain ⟨k, hk⟩ := getElem?_overwrite_of_mem sc b n (hnames.nodup hn) (hp.subset hd)
    rw [hj, hk]
    exact .some (.function (d.closure_twin j k sc))
  · have hx' : x ∉ es.map (·.name) := fun h => hx (hnames.symm.subset h)
    rw [getElem?_overwrite_of_notMem sc b n hx, getElem?_overwrite_of_notMem sc b n hx']
    exact rel_self fun v _ => Value.Alike.refl fun c _ => .refl c

def block (ds : List Definition) : Program := ds.map .definition

lemma definitions_block (ds : List Definition) : definitions (block ds) = ds := by
  rw [definitions, block, List.filterMap_map]
  exact List.filterMap_some

lemma twin_after_block (s : State) (sc : Scope) (hp : ds.Perm es) (hn : (ds.map (·.name)).Nodup) :
    Store.Twin Closure.Twin (s.after sc (block ds)).store (s.after sc (block es)).store where
  size_eq := by simp [State.after]
  bindings f x := by
    rw [frame_after_ite, frame_after_ite, definitions_block, definitions_block]
    split
    · exact overwrite_perm sc _ _ hp hn x
    · exact (Store.Twin.refl Closure.Twin.refl s.store).bindings f x

lemma evalStatements_block (limit : Nat) (sc : Scope) (v : Value) (ds : List Definition) (s : State) :
    ∃ w, evalStatements limit sc v (block ds) s = (.ok w, s.after sc (block ds)) := by
  induction ds generalizing v s with
  | nil => exact ⟨v, by rw [block, List.map_nil, after_nil]; rfl⟩
  | cons d ds ih =>
    obtain ⟨w, hw⟩ := ih (.function (d.closure s.store.closures sc)) (s.after sc [.definition d])
    rw [after_append] at hw
    exact ⟨w, hw⟩

lemma evalStatements_block_append (limit : Nat) (sc : Scope) (v : Value) (ds : List Definition)
    {p : Program} (hp : p ≠ []) (s : State) :
    evalStatements limit sc v (block ds ++ p) s = evalStatements limit sc v p (s.after sc (block ds)) := by
  obtain ⟨w, hw⟩ := evalStatements_block limit sc v ds s
  rw [evalStatements_append, hw]
  exact evalStatements_of_ne_nil hp w v _

theorem evalProgram_perm (limit : Nat) (sc : Scope) (s : State) (before after : Program)
    {ds es : List Definition} (hp : ds.Perm es) (hn : (ds.map (·.name)).Nodup) (ha : after ≠ []) :
    let r := evalProgram limit sc (before ++ block ds ++ after) s
    let q := evalProgram limit sc (before ++ block es ++ after) s
    Agree (Value.Alike Closure.Twin) r.1 q.1 ∧ Store.Twin Closure.Twin r.2.store q.2.store ∧
      q.2.depth = r.2.depth := by
  dsimp only
  rw [evalProgram, evalProgram, List.append_assoc, List.append_assoc, evalStatements_append,
    evalStatements_append]
  rcases evalStatements limit sc (.integer 0) before s with ⟨e | v, t⟩
  · exact ⟨.error e, .refl Closure.Twin.refl t.store, rfl⟩
  · dsimp only
    rw [evalStatements_block_append limit sc v ds ha, evalStatements_block_append limit sc v es ha]
    have hQ := simulation_atTwins (R := Closure.Twin) fun c d => Closure.Twin.eq_number
    have ht : AtTwins Closure.Twin (sc, t.after sc (block ds)) (sc, t.after sc (block es)) :=
      ⟨rfl, twin_after_block t sc hp hn, rfl⟩
    have hv : v.Alike Closure.Twin v := Value.Alike.refl fun c _ => .refl c
    have he := hQ.statements limit (fun d m n => d.closure_twin m n sc)
      (fun s t x c d h hc => ⟨rfl, h.2.1.bind hc sc x, h.2.2⟩) after ht hv
    exact ⟨agree_iff_agreeUnless.2 he.agreeUnless, he.related.2⟩

def ask : Definition := ⟨"ask", [], .vector #[.identifier "reply" 1, .literal (.integer 1) 1] 1, 1⟩

def reply : Definition :=
  ⟨"reply", [], .index (.call (.identifier "ask" 2) [] 2) (.literal (.integer 1) 2) 2, 2⟩

def both : Program :=
  [.expression (.vector #[.identifier "reply" 3, .call (.identifier "reply" 3) [] 3] 3) 3]

theorem evalProgram_perm_mutual :
    ([ask, reply].Perm [reply, ask] ∧ ([ask, reply].map (·.name)).Nodup ∧ both ≠ []) ∧
    let r := evalProgram 2 ⟨0, []⟩ (block [ask, reply] ++ both) ⟨Store.empty.root.2, 0⟩
    let q := evalProgram 2 ⟨0, []⟩ (block [reply, ask] ++ both) ⟨Store.empty.root.2, 0⟩
    r.1 = .ok (.vector #[.function (reply.closure 1 ⟨0, []⟩), .integer 1]) ∧
      q.1 = .ok (.vector #[.function (reply.closure 0 ⟨0, []⟩), .integer 1]) ∧
      Agree (Value.Alike Closure.Twin) r.1 q.1 ∧ Store.Twin Closure.Twin r.2.store q.2.store := by
  have hp : [ask, reply].Perm [reply, ask] := .swap reply ask []
  have hn : ([ask, reply].map (·.name)).Nodup := by decide
  have hb : both ≠ [] := List.cons_ne_nil _ _
  obtain ⟨hr, hs, -⟩ := evalProgram_perm 2 ⟨0, []⟩ ⟨Store.empty.root.2, 0⟩ [] both hp hn hb
  refine ⟨⟨hp, hn, hb⟩, ?_, ?_, hr, hs⟩
  · cbv
  · cbv

end ExprLang
