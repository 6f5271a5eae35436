import SimSearch.Router.Routing
import SimSearch.Router.IndexLaws
import SimSearch.Lib.Slots

/-!
# The index of the spaces

The router has a `OneWriterMultiReaderMap` with 500 buckets, from the key of a space to the number
of its slot.

What a reader sees is `get`: `get_put` says it for a `Put` that was taken, `names_put` for one that
may have been refused, and `index_delete` for a `Delete`.
-/

namespace SimSearch.Router

open SimSearch.Lib

def bucketCount : Nat := 500

instance : NeZero bucketCount := ⟨by decide⟩

/-- A bucket has one cell for a key at most. -/
structure OneWriterMultiReaderMap where
  buckets : IndexLaws.Buckets bucketCount := fun _ => []
  nodup : ∀ b, ((buckets b).map Cell.key).Nodup := by exact fun _ => List.nodup_nil

def bucketOf (hasher : String → UInt64) (key : String) : Fin bucketCount :=
  IndexLaws.bucketIn (strHashUint64 hasher) key

/-! ### The operations -/

namespace OneWriterMultiReaderMap

variable (hasher : String → UInt64)

def get (m : OneWriterMultiReaderMap) (key : String) : Int :=
  IndexLaws.get (strHashUint64 hasher) m.buckets key

/-- No cell in the bucket of the key has a number. -/
def Idle (m : OneWriterMultiReaderMap) (key : String) : Prop :=
  ∀ c ∈ m.buckets (bucketOf hasher key), c.idx < 0

instance (m : OneWriterMultiReaderMap) (key : String) : Decidable (m.Idle hasher key) :=
  inferInstanceAs (Decidable (∀ c ∈ _, _))

def put (m : OneWriterMultiReaderMap) (key : String) (idx : Int) :
    Bool × OneWriterMultiReaderMap :=
  let r := IndexLaws.put (strHashUint64 hasher) m.buckets key idx
  (r.1, { buckets := r.2, nodup := IndexLaws.nodup_step _ m.nodup (.put key idx) })

def delete (m : OneWriterMultiReaderMap) (key : String) : Bool × OneWriterMultiReaderMap :=
  let r := IndexLaws.delete (strHashUint64 hasher) m.buckets key
  (r.1, { buckets := r.2, nodup := IndexLaws.nodup_step _ m.nodup (.delete key) })

/-! ### What a reader sees -/

variable {hasher} {m : OneWriterMultiReaderMap}

theorem not_idle {key : String} :
    ¬ m.Idle hasher key ↔ ∃ c ∈ m.buckets (bucketOf hasher key), 0 ≤ c.idx := by
  simp only [Idle, not_forall, not_lt, exists_prop]

/-- **A `Put` that is taken changes the number of its key alone.** -/
theorem get_put {key : String} (h : m.Idle hasher key) (idx : Int) (k : String) :
    (m.put hasher key idx).2.get hasher k = if k = key then idx else m.get hasher k :=
  (IndexLaws.get_put_taken (strHashUint64 hasher) (fun hlive => not_idle.mpr hlive h) idx).2 k

theorem put_refused {key : String} (h : ¬ m.Idle hasher key) (idx : Int) :
    m.put hasher key idx = (false, m) := by
  simp only [put, IndexLaws.put_refused (strHashUint64 hasher) (not_idle.mp h) idx]

theorem get_delete (key k : String) : (m.delete hasher key).2.get hasher k
    = if k = key ∧ 0 ≤ m.get hasher key then -1 else m.get hasher k :=
  (IndexLaws.get_delete (strHashUint64 hasher) m.nodup key k).2

theorem get_neg_of_idle {key : String} (h : m.Idle hasher key) : m.get hasher key < 0 := by
  have hcells : ∀ cs : List Cell, (∀ c ∈ cs, c.idx < 0) → idxIn key cs < 0 := by
    intro cs
    induction cs with
    | nil => intro _; exact Int.negSucc_lt_zero 0
    | cons c cs ih =>
      intro hcs
      rw [idxIn]
      split_ifs
      · exact hcs c List.mem_cons_self
      · exact ih fun c hc => hcs c (List.mem_cons_of_mem _ hc)
  exact hcells _ h

/-! ### The number as a slot -/

variable (hasher m) in
def index (key : String) : Option Nat :=
  if 0 ≤ m.get hasher key then some (m.get hasher key).toNat else none

theorem index_eq_some {key : String} {i : Nat} :
    m.index hasher key = some i ↔ m.get hasher key = i := by
  unfold index
  split_ifs with h
  · rw [Option.some.injEq]
    omega
  · constructor
    · rintro ⟨⟩
    · intro heq
      exact absurd (Int.natCast_nonneg i) (heq ▸ h)

theorem index_eq_none {key : String} : m.index hasher key = none ↔ m.get hasher key < 0 := by
  unfold index
  split_ifs with h
  · simp only [false_iff]
    omega
  · simp only [true_iff]
    omega

/-- A `Put`, taken or refused, of a number that is `i` if it is one at all. -/
theorem names_put {key : String} {idx : Int} {i : Nat} (hidx : 0 ≤ idx → idx = i) :
    Names (m.index hasher) ((m.put hasher key idx).2.index hasher) key i := by
  intro k j hj
  by_cases h : m.Idle hasher key
  · rw [index_eq_some, get_put h] at hj
    split_ifs at hj with hk
    · have hi : idx = i := hidx (by omega)
      exact Or.inr ⟨hk, by omega⟩
    · exact Or.inl (index_eq_some.mpr hj)
  · rw [put_refused h] at hj
    exact Or.inl hj

/-- A `Put` that is taken, of a number that is one. -/
theorem index_put {key : String} (h : m.Idle hasher key) (i : Nat) :
    (m.put hasher key i).2.index hasher = Function.update (m.index hasher) key (some i) := by
  funext k
  by_cases hk : k = key
  · subst hk
    rw [Function.update_self, index_eq_some, get_put h, if_pos rfl]
  · rw [Function.update_of_ne hk, index, index, get_put h, if_neg hk]

theorem index_delete (key : String) :
    (m.delete hasher key).2.index hasher = Function.update (m.index hasher) key none := by
  funext k
  by_cases hk : k = key
  · subst hk
    rw [Function.update_self, index_eq_none, get_delete]
    by_cases h : 0 ≤ m.get hasher k
    · rw [if_pos ⟨rfl, h⟩]
      decide
    · rw [if_neg fun hpos => h hpos.2]
      omega
  · have heq : (m.delete hasher key).2.get hasher k = m.get hasher k := by
      rw [get_delete, if_neg fun h => hk h.1]
    rw [Function.update_of_ne hk, index, index, heq]

end OneWriterMultiReaderMap

end SimSearch.Router
