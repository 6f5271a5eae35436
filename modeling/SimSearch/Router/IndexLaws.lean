import Mathlib
import SimSearch.Lib.Runs

/-!
# The laws of the index map

`OneWriterMultiReaderMap` of `utils/one_writer_multi_reader_map.cc`, from keys to numbers, for every
number of buckets and every hash function.  A key that was deleted keeps its cell, with the number
`-1`.  `Put` refuses a key as soon as any cell of its bucket has a number, whichever key that cell
is of.

* `get_put` and `get_delete`: what a reader sees after an operation.
* `nodup_run`: after every run of operations the keys of a bucket are distinct, so a key has one
  cell at most, and a reader and a writer find the same one.

`Router/IndexMap.lean` has the map of the router, with 500 buckets and this invariant built in.
-/

namespace SimSearch.Router

structure Cell where
  idx : Int
  key : String
  deriving DecidableEq, Repr

/-! ### Cells -/

/-- The number in the first cell of the key. -/
def idxIn (key : String) : List Cell → Int
  | [] => -1
  | c :: cs => if c.key = key then c.idx else idxIn key cs

/-- The first cell of the key gets the number. -/
def assignIn (key : String) (idx : Int) : List Cell → List Cell
  | [] => []
  | c :: cs => if c.key = key then { c with idx := idx } :: cs else c :: assignIn key idx cs

/-- The first cell of the key that has a number loses it. -/
def eraseIn (key : String) : List Cell → List Cell
  | [] => []
  | c :: cs =>
    if c.key = key ∧ 0 ≤ c.idx then { c with idx := -1 } :: cs else c :: eraseIn key cs

theorem keys_assignIn (key : String) (idx : Int) (cs : List Cell) :
    (assignIn key idx cs).map Cell.key = cs.map Cell.key := by
  induction cs with
  | nil => rfl
  | cons c cs ih =>
    rw [assignIn]
    split_ifs
    · rfl
    · rw [List.map_cons, List.map_cons, ih]

theorem keys_eraseIn (key : String) (cs : List Cell) :
    (eraseIn key cs).map Cell.key = cs.map Cell.key := by
  induction cs with
  | nil => rfl
  | cons c cs ih =>
    rw [eraseIn]
    split_ifs
    · rfl
    · rw [List.map_cons, List.map_cons, ih]

theorem idxIn_of_notMem {key : String} {cs : List Cell} (h : key ∉ cs.map Cell.key) :
    idxIn key cs = -1 := by
  induction cs with
  | nil => rfl
  | cons c cs ih =>
    obtain ⟨hne, hrest⟩ := not_or.mp (mt List.mem_cons.mpr h)
    rw [idxIn, if_neg (Ne.symm hne), ih hrest]

theorem idxIn_assignIn {key : String} {cs : List Cell} (h : key ∈ cs.map Cell.key) (idx : Int)
    (k : String) : idxIn k (assignIn key idx cs) = if k = key then idx else idxIn k cs := by
  induction cs with
  | nil => cases h
  | cons c cs ih =>
    by_cases hc : c.key = key
    · rw [assignIn, if_pos hc, idxIn, idxIn]
      by_cases hk : k = key
      · rw [if_pos (hc.trans hk.symm), if_pos hk]
      · rw [if_neg (fun heq => hk (heq.symm.trans hc)), if_neg hk,
          if_neg (fun heq => hk (heq.symm.trans hc))]
    · have hrest : key ∈ cs.map Cell.key := by
        rcases List.mem_cons.mp h with heq | hmem
        · exact absurd heq.symm hc
        · exact hmem
      rw [assignIn, if_neg hc, idxIn, idxIn, ih hrest]
      by_cases hk : c.key = k
      · rw [if_pos hk, if_pos hk, if_neg (fun heq => hc (hk.trans heq))]
      · rw [if_neg hk, if_neg hk]

theorem idxIn_append_cell {key : String} {cs : List Cell} (h : key ∉ cs.map Cell.key) (idx : Int)
    (k : String) : idxIn k (cs ++ [⟨idx, key⟩]) = if k = key then idx else idxIn k cs := by
  induction cs with
  | nil =>
    simp only [List.nil_append, idxIn, eq_comm]
  | cons c cs ih =>
    obtain ⟨hne, hrest⟩ := not_or.mp (mt List.mem_cons.mpr h)
    rw [List.cons_append, idxIn, idxIn, ih hrest]
    by_cases hk : c.key = k
    · rw [if_pos hk, if_pos hk, if_neg (fun heq => hne (heq.symm.trans hk.symm))]
    · rw [if_neg hk, if_neg hk]

/-- After an erase the key has no number: its cell is the only one. -/
theorem idxIn_eraseIn {cs : List Cell} (h : (cs.map Cell.key).Nodup) (key k : String) :
    idxIn k (eraseIn key cs) = if k = key ∧ 0 ≤ idxIn key cs then -1 else idxIn k cs := by
  induction cs with
  | nil =>
    rw [eraseIn, idxIn]
    split_ifs <;> rfl
  | cons c cs ih =>
    obtain ⟨hhead, hrest⟩ := List.nodup_cons.mp h
    by_cases hc : c.key = key
    · have hnone : idxIn key cs = -1 := idxIn_of_notMem (hc ▸ hhead)
      by_cases hidx : 0 ≤ c.idx
      · rw [eraseIn, if_pos ⟨hc, hidx⟩, idxIn, idxIn, idxIn, if_pos hc]
        by_cases hk : k = key
        · rw [if_pos (hc.trans hk.symm), if_pos ⟨hk, hidx⟩]
        · rw [if_neg (fun heq => hk (heq.symm.trans hc)), if_neg (fun heq => hk heq.1),
            if_neg (fun heq => hk (heq.symm.trans hc))]
      · -- a dead cell of the key stays, and no cell after it is of the key
        have hlater : ¬ (k = key ∧ 0 ≤ idxIn key cs) := by
          rw [hnone]
          omega
        have hdead : ¬ (k = key ∧ 0 ≤ idxIn key (c :: cs)) := by
          rw [idxIn, if_pos hc]
          exact fun heq => hidx heq.2
        rw [eraseIn, if_neg (fun heq => hidx heq.2), if_neg hdead, idxIn, idxIn, ih hrest,
          if_neg hlater]
    · rw [eraseIn, if_neg (fun heq => hc heq.1), idxIn, idxIn, idxIn, if_neg hc, ih hrest]
      by_cases hk : c.key = k
      · rw [if_pos hk, if_pos hk, if_neg (fun heq => hc (hk.trans heq.1))]
      · rw [if_neg hk, if_neg hk]

end SimSearch.Router

namespace SimSearch.Router.IndexLaws

open SimSearch.Lib

/-! ### The operations -/

abbrev Buckets (n : Nat) := Fin n → List Cell

section

variable {n : Nat} [NeZero n] (hash : String → UInt64)

/-- `StrHashUint64(key) % buckets_.size()`. -/
def bucketIn (key : String) : Fin n := Fin.ofNat n (hash key).toNat

def get (m : Buckets n) (key : String) : Int := idxIn key (m (bucketIn hash key))

/-- `Put`: the first loop refuses the key when some cell has a number, the second one looks for
the cell of the key. -/
def put (m : Buckets n) (key : String) (idx : Int) : Bool × Buckets n :=
  let b := bucketIn hash key
  if ∃ c ∈ m b, 0 ≤ c.idx then (false, m)
  else if key ∈ (m b).map Cell.key then (true, Function.update m b (assignIn key idx (m b)))
  else (true, Function.update m b (m b ++ [⟨idx, key⟩]))

def delete (m : Buckets n) (key : String) : Bool × Buckets n :=
  let b := bucketIn hash key
  (decide (∃ c ∈ m b, c.key = key ∧ 0 ≤ c.idx), Function.update m b (eraseIn key (m b)))

inductive MapOp
  | put (key : String) (idx : Int)
  | delete (key : String)
  | get (key : String)
  deriving DecidableEq, Repr

def mapStep (m : Buckets n) : MapOp → Buckets n
  | .put key idx => (put hash m key idx).2
  | .delete key => (delete hash m key).2
  | .get _ => m

end

/-! ### One operation -/

section

variable {n : Nat} [NeZero n] (hash : String → UInt64) {m : Buckets n}

theorem get_update (b : Fin n) (cs : List Cell) (k : String) :
    get hash (Function.update m b cs) k
      = if bucketIn hash k = b then idxIn k cs else get hash m k := by
  unfold get
  split_ifs with hb
  · rw [hb, Function.update_self]
  · rw [Function.update_of_ne hb]

/-- A bucket that changes the number of its key alone. -/
theorem get_update_frame {key : String} {cs : List Cell} {v : Int}
    (hcs : ∀ k, idxIn k cs = if k = key then v else idxIn k (m (bucketIn hash key))) (k : String) :
    get hash (Function.update m (bucketIn hash key) cs) k
      = if k = key then v else get hash m k := by
  rw [get_update, hcs]
  by_cases hk : k = key
  · rw [if_pos hk, if_pos hk, if_pos (by rw [hk])]
  · rw [if_neg hk, if_neg hk]
    split_ifs with hb
    · rw [get, hb]
    · rfl

theorem put_refused {key : String} (h : ∃ c ∈ m (bucketIn hash key), 0 ≤ c.idx) (idx : Int) :
    put hash m key idx = (false, m) := by
  rw [put]
  simp only [if_pos h]

theorem get_put_taken {key : String} (h : ¬ ∃ c ∈ m (bucketIn hash key), 0 ≤ c.idx) (idx : Int) :
    (put hash m key idx).1 = true ∧
      ∀ k, get hash (put hash m key idx).2 k = if k = key then idx else get hash m k := by
  rw [put]
  simp only [if_neg h]
  split_ifs with hmem
  · exact ⟨rfl, get_update_frame hash (idxIn_assignIn hmem idx)⟩
  · exact ⟨rfl, get_update_frame hash (idxIn_append_cell hmem idx)⟩

/-- **What `Put` can do**: it is refused and changes nothing, or it changes the number of its
key. -/
theorem get_put (m : Buckets n) (key : String) (idx : Int) :
    ((put hash m key idx).1 = true ∧
      ∀ k, get hash (put hash m key idx).2 k = if k = key then idx else get hash m k) ∨
    ((put hash m key idx).1 = false ∧ (put hash m key idx).2 = m) := by
  by_cases h : ∃ c ∈ m (bucketIn hash key), 0 ≤ c.idx
  · rw [put_refused hash h]
    exact Or.inr ⟨rfl, rfl⟩
  · exact Or.inl (get_put_taken hash h idx)

/-- In a bucket without a second cell for a key, a number is the one that a reader finds. -/
theorem exists_live_iff {cs : List Cell} (h : (cs.map Cell.key).Nodup) (key : String) :
    (∃ c ∈ cs, c.key = key ∧ 0 ≤ c.idx) ↔ 0 ≤ idxIn key cs := by
  induction cs with
  | nil =>
    rw [idxIn]
    refine ⟨?_, fun hneg => absurd hneg (by decide)⟩
    rintro ⟨c, hc, -⟩
    cases hc
  | cons c cs ih =>
    obtain ⟨hhead, hrest⟩ := List.nodup_cons.mp h
    rw [idxIn]
    by_cases hc : c.key = key
    · rw [if_pos hc]
      constructor
      · rintro ⟨c', hmem, hkey, hidx⟩
        rcases List.mem_cons.mp hmem with rfl | hmem
        · exact hidx
        · exact absurd (List.mem_map.mpr ⟨c', hmem, hkey.trans hc.symm⟩) hhead
      · intro hidx
        exact ⟨c, List.mem_cons_self, hc, hidx⟩
    · rw [if_neg hc, ← ih hrest]
      constructor
      · rintro ⟨c', hmem, hkey, hidx⟩
        rcases List.mem_cons.mp hmem with rfl | hmem
        · exact absurd hkey hc
        · exact ⟨c', hmem, hkey, hidx⟩
      · rintro ⟨c', hmem, hlive⟩
        exact ⟨c', List.mem_cons_of_mem _ hmem, hlive⟩

/-- **What `Delete` does.** -/
theorem get_delete (h : ∀ b, ((m b).map Cell.key).Nodup) (key k : String) :
    ((delete hash m key).1 = true ↔ 0 ≤ get hash m key) ∧
      get hash (delete hash m key).2 k
        = if k = key ∧ 0 ≤ get hash m key then -1 else get hash m k := by
  refine ⟨?_, ?_⟩
  · rw [delete]
    simp only
    rw [decide_eq_true_iff]
    exact exists_live_iff (h _) key
  · rw [delete]
    simp only
    rw [get_update, idxIn_eraseIn (h _)]
    by_cases hb : bucketIn hash k = (bucketIn hash key : Fin n)
    · rw [if_pos hb]
      unfold get
      rw [hb]
    · rw [if_neg hb, if_neg]
      rintro ⟨rfl, -⟩
      exact hb rfl

omit [NeZero n] in
theorem nodup_update (h : ∀ b, ((m b).map Cell.key).Nodup) {b : Fin n} {cs : List Cell}
    (hcs : (cs.map Cell.key).Nodup) (b' : Fin n) :
    ((Function.update m b cs b').map Cell.key).Nodup := by
  by_cases hb : b' = b
  · rw [hb, Function.update_self]
    exact hcs
  · rw [Function.update_of_ne hb]
    exact h b'

theorem nodup_step (h : ∀ b, ((m b).map Cell.key).Nodup) (op : MapOp) :
    ∀ b, ((mapStep hash m op b).map Cell.key).Nodup := by
  cases op with
  | put key idx =>
    unfold mapStep put
    simp only
    split_ifs with hlive hmem
    · exact h
    · refine nodup_update h ?_
      rw [keys_assignIn]
      exact h _
    · refine nodup_update h ?_
      rw [List.map_append, List.map_singleton, ← List.concat_eq_append]
      exact (h _).concat hmem
  | delete key =>
    refine nodup_update h ?_
    rw [keys_eraseIn]
    exact h _
  | get key => exact h

end

/-! ### Runs -/

/-- **After every run of operations the keys of a bucket are distinct.** -/
theorem nodup_run {n : Nat} [NeZero n] (hash : String → UInt64) (ops : List MapOp) :
    ∀ b : Fin n, ((ops.foldl (mapStep hash) (fun _ => []) b).map Cell.key).Nodup := by
  refine Reach.invariant (fun m : Buckets n => ∀ b, ((m b).map Cell.key).Nodup) ?_ ?_
    (reach_foldl (mapStep hash) (fun _ => []) ops)
  · exact fun _ => List.nodup_nil
  · exact fun m op h _ => nodup_step hash h op

/-- **The laws of the index map**, after every run of operations. -/
theorem index_map_laws (n : Nat) [NeZero n] (hash : String → UInt64) (ops : List MapOp) :
    let m : Buckets n := ops.foldl (mapStep hash) fun _ => []
    (∀ b, ((m b).map Cell.key).Nodup) ∧
    (∀ (key : String) (idx : Int),
      ((put hash m key idx).1 = true → get hash (put hash m key idx).2 key = idx) ∧
      ((put hash m key idx).1 = false →
        ∀ k, get hash (put hash m key idx).2 k = get hash m k) ∧
      ∀ k ≠ key, get hash (put hash m key idx).2 k = get hash m k) ∧
    ∀ key : String,
      get hash (delete hash m key).2 key < 0 ∧
      ((delete hash m key).1 = true ↔ 0 ≤ get hash m key) ∧
      ∀ k ≠ key, get hash (delete hash m key).2 k = get hash m k := by
  intro m
  have hnodup : ∀ b, ((m b).map Cell.key).Nodup := nodup_run hash ops
  refine ⟨hnodup, fun key idx => ?_, fun key => ?_⟩
  · rcases get_put hash m key idx with ⟨hret, hget⟩ | ⟨hret, hsame⟩
    · refine ⟨fun _ => (hget key).trans (if_pos rfl), fun hfalse => ?_,
        fun k hk => (hget k).trans (if_neg hk)⟩
      rw [hret] at hfalse
      cases hfalse
    · rw [hsame]
      refine ⟨fun htrue => ?_, fun _ _ => rfl, fun _ _ => rfl⟩
      rw [hret] at htrue
      cases htrue
  · have hdelete := get_delete hash hnodup key
    refine ⟨?_, (hdelete key).1, fun k hk => ?_⟩
    · rw [(hdelete key).2]
      by_cases hlive : 0 ≤ get hash m key
      · rw [if_pos ⟨rfl, hlive⟩]
        decide
      · rw [if_neg fun h => hlive h.2]
        omega
    · rw [(hdelete k).2, if_neg fun h => hk h.1]

def oneBucket : String → UInt64 := fun _ => 4

/-- The key `b` is refused while `a` has a number, and taken after it is deleted. -/
theorem index_map_laws_two :
    let m : Buckets 2 := [MapOp.put "a" 3, .put "b" 4, .delete "a"].foldl (mapStep oneBucket)
      fun _ => []
    (put oneBucket m "b" 5).1 = true ∧ get oneBucket (put oneBucket m "b" 5).2 "b" = 5 ∧
      get oneBucket (put oneBucket m "b" 5).2 "a" = get oneBucket m "a" ∧
      (delete oneBucket m "a").1 = false := by
  obtain ⟨-, hput, hdelete⟩ := index_map_laws 2 oneBucket
    [MapOp.put "a" 3, .put "b" 4, .delete "a"]
  have htaken : (put oneBucket ([MapOp.put "a" 3, .put "b" 4, .delete "a"].foldl
      (mapStep oneBucket) fun _ => [] : Buckets 2) "b" 5).1 = true := by decide
  refine ⟨htaken, (hput "b" 5).1 htaken, (hput "b" 5).2.2 "a" (by decide), ?_⟩
  rw [← Bool.not_eq_true]
  exact (hdelete "a").2.1.not.mpr (by decide)

end SimSearch.Router.IndexLaws
