import Mathlib

/-!
# Machines that read one log

A log only grows, and any number of machines read it from its start, each at its own pace.
`Reads f init log pos s` says that a machine with the state `s` has read the first `pos` entries.
Two machines that read the same log never diverge: the one that is behind becomes the other by
reading on (`Reads.catch_up`).

When the entries are values that are filed under a key, and a machine reads some of the places in
their order, it holds the value of each of these places or a later one of its key (`Filed`).
-/

namespace SimSearch.Lib.Replication

/-! ### Reading -/

section

variable {σ ε : Type} {f : σ → ε → σ} {init : σ}

/-- A machine in the state `s` has read the first `pos` entries. -/
structure Reads (f : σ → ε → σ) (init : σ) (log : List ε) (pos : Nat) (s : σ) : Prop where
  bound : pos ≤ log.length
  state : s = (log.take pos).foldl f init

theorem reads_start (log : List ε) : Reads f init log 0 init := ⟨Nat.zero_le _, rfl⟩

theorem Reads.append {log : List ε} {pos : Nat} {s : σ} (h : Reads f init log pos s)
    (more : List ε) : Reads f init (log ++ more) pos s := by
  refine ⟨?_, ?_⟩
  · rw [List.length_append]
    exact Nat.le_add_right_of_le h.bound
  · rw [List.take_append_of_le_length h.bound]
    exact h.state

theorem Reads.next {log : List ε} {pos : Nat} {s : σ} {e : ε} (h : Reads f init log pos s)
    (he : log[pos]? = some e) : Reads f init log (pos + 1) (f s e) := by
  obtain ⟨hlt, hget⟩ := List.getElem?_eq_some_iff.mp he
  refine ⟨hlt, ?_⟩
  rw [List.take_succ_eq_append_getElem hlt, List.foldl_append, ← h.state, hget]
  rfl

/-- **The machine that is behind becomes the other one by reading on.** -/
theorem Reads.catch_up {log : List ε} {pos pos' : Nat} {s s' : σ} (h : Reads f init log pos s)
    (h' : Reads f init log pos' s') (hle : pos ≤ pos') :
    s' = ((log.take pos').drop pos).foldl f s := by
  have htake : (log.take pos').take pos = log.take pos := by
    rw [List.take_take, Nat.min_eq_left hle]
  calc s' = (log.take pos').foldl f init := h'.state
    _ = ((log.take pos').take pos ++ (log.take pos').drop pos).foldl f init := by
      rw [List.take_append_drop]
    _ = ((log.take pos').drop pos).foldl f s := by
      rw [List.foldl_append, htake, ← h.state]

end

/-! ### Values under their keys -/

section

variable {κ δ : Type} [Ord κ]

def upsert (key : δ → κ) (m : Std.TreeMap κ δ) (d : δ) : Std.TreeMap κ δ := m.insert (key d) d

def upserts (key : δ → κ) (ds : List δ) : Std.TreeMap κ δ := ds.foldl (upsert key) ∅

/-- Every place that was read has a value, and the key of this value has it, or the value of a
later place that was read. -/
def Filed (key : δ → κ) (val : Nat → Option δ) (read : Nat → Prop) (m : Std.TreeMap κ δ) : Prop :=
  ∀ p, read p → ∃ d, val p = some d ∧
    ∃ q d', p ≤ q ∧ read q ∧ val q = some d' ∧ key d' = key d ∧ m[key d]? = some d'

variable {key : δ → κ} {val val' : Nat → Option δ} {read read' : Nat → Prop}
  {m : Std.TreeMap κ δ}

theorem filed_of_not_read (h : ∀ p, ¬ read p) : Filed key val read m :=
  fun p hp => absurd hp (h p)

theorem Filed.mono (h : Filed key val read m)
    (hval : ∀ p d, read p → val p = some d → val' p = some d) : Filed key val' read m := by
  intro p hp
  obtain ⟨d, hd, q, d', hpq, hq, hd', hkey, hm⟩ := h p hp
  exact ⟨d, hval p d hp hd, q, d', hpq, hq, hval q d' hq hd', hkey, hm⟩

theorem Filed.upsert [Std.TransOrd κ] [Std.LawfulEqOrd κ] [DecidableEq κ]
    (h : Filed key val read m) {a : Nat} {d : δ} (hd : val a = some d) (hlast : ∀ p, read p → p ≤ a)
    (hread : ∀ p, read' p ↔ read p ∨ p = a) : Filed key val read' (upsert key m d) := by
  have hself : (Replication.upsert key m d)[key d]? = some d := by
    rw [Replication.upsert, Std.TreeMap.getElem?_insert_self]
  have ha : read' a := (hread a).mpr (Or.inr rfl)
  intro p hp
  rcases (hread p).mp hp with hp | rfl
  · obtain ⟨e, he, q, e', hpq, hq, he', hkey, hm⟩ := h p hp
    refine ⟨e, he, ?_⟩
    by_cases hk : key d = key e
    · exact ⟨a, d, hlast p hp, ha, hd, hk, hk ▸ hself⟩
    · have hne : compare (key d) (key e) ≠ .eq := fun h => hk (Std.LawfulEqCmp.eq_of_compare h)
      refine ⟨q, e', hpq, (hread q).mpr (Or.inl hq), he', hkey, ?_⟩
      rw [Replication.upsert, Std.TreeMap.getElem?_insert, if_neg hne]
      exact hm
  · exact ⟨d, hd, p, d, le_rfl, ha, hd, rfl, hself⟩

end

end SimSearch.Lib.Replication
