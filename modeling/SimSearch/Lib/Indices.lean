import Mathlib

/-!
# Lists by index

* Blocks of one length in a row: place `i` of the whole is place `i % k` of block `i / k`
  (`getElem?_flatMap_blocks`), and the slices of a list in a row are the list again
  (`flatMap_slices`).  `place_eq_iff` is about an index that is split with one length and put
  together with another.
* Values that come with their indices in any order: `perm_zip_lookup` says that sorting them
  into a list loses none and gives each its place.
-/

namespace SimSearch.Lib

variable {α β : Type}

/-! ### Blocks -/

theorem getElem?_flatMap_blocks {f : α → List β} {k : Nat} (hk : 0 < k) :
    ∀ {l : List α}, (∀ a ∈ l, (f a).length = k) →
      ∀ i, (l.flatMap f)[i]? = l[i / k]?.bind fun a => (f a)[i % k]? := by
  intro l
  induction l with
  | nil => intro _ i; simp
  | cons a l ih =>
    intro h i
    have ha : (f a).length = k := h a List.mem_cons_self
    rw [List.flatMap_cons]
    by_cases hi : i < k
    · rw [List.getElem?_append_left (by omega), Nat.div_eq_of_lt hi, Nat.mod_eq_of_lt hi]
      rfl
    · obtain ⟨j, rfl⟩ := Nat.exists_eq_add_of_le (Nat.le_of_not_lt hi)
      rw [List.getElem?_append_right (by omega), ha, Nat.add_sub_cancel_left,
        Nat.add_div_left j hk, Nat.add_mod_left, List.getElem?_cons_succ]
      exact ih (fun b hb => h b (List.mem_cons_of_mem a hb)) j

theorem length_flatMap_blocks {f : α → List β} {k : Nat} {l : List α}
    (h : ∀ a ∈ l, (f a).length = k) : (l.flatMap f).length = l.length * k := by
  induction l with
  | nil => simp
  | cons a l ih =>
    rw [List.flatMap_cons, List.length_append, h a List.mem_cons_self,
      ih fun b hb => h b (List.mem_cons_of_mem a hb), List.length_cons, Nat.succ_mul, Nat.add_comm]

theorem flatMap_slices (l : List α) (n k : Nat) :
    ((List.range n).flatMap fun i => (l.drop (i * k)).take k) = l.take (n * k) := by
  induction n with
  | zero => simp
  | succ n ih =>
    rw [List.range_succ, List.flatMap_append, ih, Nat.succ_mul, List.take_add]
    simp

/-- An index split with `p` and put together with `r` is the same only in the first block. -/
theorem place_eq_iff {p r i : Nat} : i / p * r + i % p = i ↔ i / p = 0 ∨ p = r := by
  have hsplit : i / p * p + i % p = i := by
    rw [Nat.mul_comm]
    exact Nat.div_add_mod i p
  constructor
  · intro h
    have hmul : i / p * r = i / p * p := by omega
    rcases Nat.eq_zero_or_pos (i / p) with hzero | hpos
    · exact Or.inl hzero
    · exact Or.inr (Nat.eq_of_mul_eq_mul_left hpos hmul).symm
  · rintro (hzero | rfl)
    · rw [hzero, Nat.zero_mul] at hsplit ⊢
      exact hsplit
    · exact hsplit

/-! ### Values with their indices -/

theorem eq_map_lookup {l : List (Nat × β)} (h : (l.map Prod.fst).Nodup) (d : β) :
    l = (l.map Prod.fst).map fun i => (i, (l.lookup i).getD d) := by
  induction l with
  | nil => rfl
  | cons e l ih =>
    rw [List.map_cons, List.nodup_cons] at h
    rw [List.map_cons, List.map_cons, List.lookup_cons_self]
    refine congrArg (List.cons e) ((ih h.2).trans (List.map_congr_left fun i hi => ?_))
    have hne : (i == e.1) = false := by
      rw [beq_eq_false_iff_ne]
      rintro rfl
      exact h.1 hi
    rw [List.lookup_cons, hne]

theorem filterMap_range_getElem? (l : List α) :
    (List.range l.length).filterMap (fun i => l[i]?) = l := by
  induction l with
  | nil => rfl
  | cons a l ih =>
    rw [List.length_cons, List.range_succ_eq_map, List.filterMap_cons, List.filterMap_map]
    exact congrArg (a :: ·) ih

theorem filterMap_range_zip (l : List α) (f : Nat → β) :
    ((List.range l.length).filterMap fun i => l[i]?.map fun a => (a, f i))
      = l.zip ((List.range l.length).map f) := by
  have hall := filterMap_range_getElem? (l.zip ((List.range l.length).map f))
  rw [List.length_zip, List.length_map, List.length_range, Nat.min_self] at hall
  refine Eq.trans (List.filterMap_congr fun i hi => ?_) hall
  have hlt : i < l.length := List.mem_range.mp hi
  have hzip : (l.zip ((List.range l.length).map f))[i]? = some (l[i], f i) := by
    refine List.getElem?_zip_eq_some.mpr ⟨List.getElem?_eq_getElem hlt, ?_⟩
    rw [List.getElem?_map, List.getElem?_range hlt]
    rfl
  rw [hzip, List.getElem?_eq_getElem hlt]
  rfl

/-- **Values that are sorted in by index go to the entries that they came with.** -/
theorem perm_zip_lookup {l : List α} {rs : List (Nat × β)}
    (h : (rs.map Prod.fst).Perm (List.range l.length)) (d : β) :
    (rs.filterMap fun e => l[e.1]?.map fun a => (a, e.2)).Perm
      (l.zip ((List.range l.length).map fun i => (rs.lookup i).getD d)) := by
  have hrs := eq_map_lookup (h.nodup_iff.mpr List.nodup_range) d
  have hperm : rs.Perm ((List.range l.length).map fun i => (i, (rs.lookup i).getD d)) :=
    (List.Perm.of_eq hrs).trans (h.map _)
  refine (hperm.filterMap _).trans (List.Perm.of_eq ?_)
  rw [List.filterMap_map]
  exact filterMap_range_zip l _

end SimSearch.Lib
