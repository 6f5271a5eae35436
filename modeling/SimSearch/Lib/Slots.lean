import Mathlib

/-!
# Slots and an index

A table keeps its values in slots, and an index says for a key which slot its value is
in.  A slot that was emptied is used again for another key.  The two are updated one
after the other, and the index may refuse an update.

`Sound` is what lookups rest on: a slot that the index names holds a value of that key.
It survives a refused update (`Sound.place`), so a sound lookup needs nothing else.
That a value which was placed is also found needs an index that takes every update:
then the lookups are those of a plain map (`lookup_place`, `lookup_clear`), and every
value is found again (`Complete`).
-/

namespace SimSearch.Lib

variable {κ ι α : Type} {keyOf : α → κ} {get get' : κ → Option ι} {slot : ι → Option α}

/-- The value of a key: the index first, then the slot. -/
def lookup (get : κ → Option ι) (slot : ι → Option α) (k : κ) : Option α := (get k).bind slot

/-- A slot that the index names holds a value of that key. -/
def Sound (keyOf : α → κ) (get : κ → Option ι) (slot : ι → Option α) : Prop :=
  ∀ ⦃k i⦄, get k = some i → ∃ v, slot i = some v ∧ keyOf v = k

/-- What the index says after an update for `k` that it took or refused. -/
def Names (get get' : κ → Option ι) (k : κ) (i : ι) : Prop :=
  ∀ ⦃k' j⦄, get' k' = some j → get k' = some j ∨ (k' = k ∧ j = i)

/-- **Two keys never share a slot.** -/
theorem Sound.inj (h : Sound keyOf get slot) {k k' : κ} {i : ι} (hk : get k = some i)
    (hk' : get k' = some i) : k = k' := by
  obtain ⟨v, hv, rfl⟩ := h hk
  obtain ⟨v', hv', rfl⟩ := h hk'
  rw [hv] at hv'
  cases hv'
  rfl

/-! ### A reader between the two steps

A reader has taken the slot `i` from the index for the key `k` and has not read it yet. -/

/-- Whatever the slot holds is of the key. -/
def Stays (keyOf : α → κ) (slot : ι → Option α) (k : κ) (i : ι) : Prop :=
  ∀ ⦃v⦄, slot i = some v → keyOf v = k

theorem Sound.stays (h : Sound keyOf get slot) {k : κ} {i : ι} (hk : get k = some i) :
    Stays keyOf slot k i := by
  intro v hv
  obtain ⟨u, hu, hkey⟩ := h hk
  rw [hv] at hu
  cases hu
  exact hkey

/-! ### The index alone -/

theorem Sound.mono (h : Sound keyOf get slot)
    (hget : ∀ ⦃k i⦄, get' k = some i → get k = some i) : Sound keyOf get' slot :=
  fun _ _ hk => h (hget hk)

theorem Sound.named (h : Sound keyOf get slot) {i : ι} {v : α} (hv : slot i = some v)
    (hget : Names get get' (keyOf v) i) : Sound keyOf get' slot := by
  intro k j hj
  rcases hget hj with hold | ⟨rfl, rfl⟩
  · exact h hold
  · exact ⟨v, hv, rfl⟩

/-! ### Placing and clearing -/

variable [DecidableEq ι]

/-- A value is put into an empty slot, whether or not the index takes its key. -/
theorem Sound.place (h : Sound keyOf get slot) {i : ι} {v : α} (hfree : slot i = none)
    (hget : Names get get' (keyOf v) i) :
    Sound keyOf get' (Function.update slot i (some v)) := by
  intro k j hj
  rcases hget hj with hold | ⟨rfl, rfl⟩
  · obtain ⟨u, hu, hkey⟩ := h hold
    have hne : j ≠ i := by
      rintro rfl
      rw [hfree] at hu
      cases hu
    exact ⟨u, by rw [Function.update_of_ne hne, hu], hkey⟩
  · exact ⟨v, Function.update_self .., rfl⟩

/-- The index forgets a key, and the slot that it named is emptied. -/
theorem Sound.clear (h : Sound keyOf get slot) {k : κ} {i : ι} (hk : get k = some i)
    (hget : ∀ ⦃k' j⦄, get' k' = some j → get k' = some j ∧ k' ≠ k) :
    Sound keyOf get' (Function.update slot i none) := by
  intro k' j hj
  obtain ⟨hold, hne⟩ := hget hj
  obtain ⟨u, hu, hkey⟩ := h hold
  have hij : j ≠ i := by
    rintro rfl
    exact hne (h.inj hold hk)
  exact ⟨u, by rw [Function.update_of_ne hij, hu], hkey⟩

theorem Sound.vacate (h : Sound keyOf get slot) {i : ι} (hnone : ∀ k, get k ≠ some i) :
    Sound keyOf get (Function.update slot i none) := by
  intro k j hj
  obtain ⟨v, hv, hkey⟩ := h hj
  have hji : j ≠ i := by
    rintro rfl
    exact hnone k hj
  exact ⟨v, by rw [Function.update_of_ne hji, hv], hkey⟩

/-- The reader is served right as long as no other key gets its slot. -/
theorem Stays.place {k : κ} {i j : ι} (h : Stays keyOf slot k i) {v : α}
    (hv : j = i → keyOf v = k) : Stays keyOf (Function.update slot j (some v)) k i := by
  intro u hu
  by_cases hij : i = j
  · subst hij
    rw [Function.update_self] at hu
    cases hu
    exact hv rfl
  · rw [Function.update_of_ne hij] at hu
    exact h hu

theorem Stays.clear {k : κ} {i : ι} (h : Stays keyOf slot k i) (j : ι) :
    Stays keyOf (Function.update slot j none) k i := by
  intro u hu
  by_cases hij : i = j
  · subst hij
    rw [Function.update_self] at hu
    cases hu
  · rw [Function.update_of_ne hij] at hu
    exact h hu

/-! ### An index that takes every update -/

variable [DecidableEq κ]

/-- **Placing a value is an update of the map that lookups see.** -/
theorem lookup_place (h : Sound keyOf get slot) {k : κ} {i : ι} (v : α) (hfree : slot i = none) :
    lookup (Function.update get k (some i)) (Function.update slot i (some v))
      = Function.update (lookup get slot) k (some v) := by
  funext k'
  by_cases hk : k' = k
  · subst hk
    simp only [lookup, Function.update_self, Option.bind_some]
  · simp only [lookup, Function.update_of_ne hk]
    cases hget : get k' with
    | none => rfl
    | some j =>
      obtain ⟨u, hu, -⟩ := h hget
      have hne : j ≠ i := by
        rintro rfl
        rw [hfree] at hu
        cases hu
      simp only [Option.bind_some, Function.update_of_ne hne]

theorem lookup_clear (h : Sound keyOf get slot) {k : κ} {i : ι} (hk : get k = some i) :
    lookup (Function.update get k none) (Function.update slot i none)
      = Function.update (lookup get slot) k none := by
  funext k'
  by_cases hkk : k' = k
  · subst hkk
    simp only [lookup, Function.update_self, Option.bind_none]
  · simp only [lookup, Function.update_of_ne hkk]
    cases hget : get k' with
    | none => rfl
    | some j =>
      have hne : j ≠ i := by
        rintro rfl
        exact hkk (h.inj hget hk)
      simp only [Option.bind_some, Function.update_of_ne hne]

def Complete (keyOf : α → κ) (get : κ → Option ι) (slot : ι → Option α) : Prop :=
  ∀ ⦃i v⦄, slot i = some v → get (keyOf v) = some i

theorem Complete.place (h : Complete keyOf get slot) {i : ι} {v : α} (hk : get (keyOf v) = none) :
    Complete keyOf (Function.update get (keyOf v) (some i)) (Function.update slot i (some v)) := by
  intro j u hu
  by_cases hij : j = i
  · subst hij
    rw [Function.update_self] at hu
    cases hu
    exact Function.update_self ..
  · rw [Function.update_of_ne hij] at hu
    have hne : keyOf u ≠ keyOf v := by
      intro heq
      rw [← heq, h hu] at hk
      cases hk
    rw [Function.update_of_ne hne, h hu]

theorem Complete.clear (h : Complete keyOf get slot) {k : κ} {i : ι} (hk : get k = some i) :
    Complete keyOf (Function.update get k none) (Function.update slot i none) := by
  intro j u hu
  by_cases hij : j = i
  · subst hij
    rw [Function.update_self] at hu
    cases hu
  · rw [Function.update_of_ne hij] at hu
    have hne : keyOf u ≠ k := by
      rintro rfl
      rw [h hu] at hk
      exact hij (Option.some.inj hk)
    rw [Function.update_of_ne hne, h hu]

/-! ### Slots in a list -/

/-- The slots of a list; past its end they are empty. -/
def slotsOf (l : List (Option α)) (i : Nat) : Option α := l[i]?.join

theorem slotsOf_set {l : List (Option α)} {i : Nat} (h : i < l.length) (x : Option α) :
    slotsOf (l.set i x) = Function.update (slotsOf l) i x := by
  funext j
  by_cases hj : j = i
  · subst hj
    rw [slotsOf, List.getElem?_set_self h, Function.update_self, Option.join_some]
  · rw [slotsOf, List.getElem?_set_ne (Ne.symm hj), Function.update_of_ne hj, slotsOf]

theorem slotsOf_append (l : List (Option α)) (x : Option α) :
    slotsOf (l ++ [x]) = Function.update (slotsOf l) l.length x := by
  funext j
  by_cases hj : j = l.length
  · subst hj
    rw [slotsOf, List.getElem?_concat_length, Function.update_self, Option.join_some]
  · rw [Function.update_of_ne hj, slotsOf, slotsOf, List.getElem?_append]
    split_ifs with hlt
    · rfl
    · rw [List.getElem?_eq_none (by simp; omega), List.getElem?_eq_none (by omega)]

theorem slotsOf_length (l : List (Option α)) : slotsOf l l.length = none := by
  rw [slotsOf, List.getElem?_eq_none (Nat.le_refl _)]
  rfl

theorem lt_length_of_slotsOf {l : List (Option α)} {i : Nat} {v : α} (h : slotsOf l i = some v) :
    i < l.length := by
  by_contra hge
  rw [slotsOf, List.getElem?_eq_none (by omega)] at h
  cases h

end SimSearch.Lib
