import Mathlib

/-!
# Grouping a list into an ordered map

A loop that files every element of a list under a key, creating the group of a
key the first time the key is met.  `group` reads a group, and the empty one
where there is none, so that creating an empty group changes nothing
(`group_ensure`).  A step that pushes an element to the group of its key and
leaves the others is `Files`, and `Files.foldl` says what the whole loop leaves:
the group of `p` is what it was before, pushed with the elements whose key is
`p`, in the order of the list.  A step that adds certain keys and no others is `Adds`, and
`Adds.foldl` says which keys the map has at the end.

`mk` makes the empty group of a key and `push` adds one element to a group, so
the groups may be lists, or records with a list inside.
-/

namespace SimSearch.Lib

variable {κ γ α : Type} [Ord κ] [DecidableEq κ] [Std.TransOrd κ] [Std.LawfulEqOrd κ]

/-- The group of `p`, and the empty one when there is none. -/
def group (mk : κ → γ) (m : Std.TreeMap κ γ) (p : κ) : γ := m[p]?.getD (mk p)

def ensure (mk : κ → γ) (m : Std.TreeMap κ γ) (p : κ) : Std.TreeMap κ γ :=
  if m.contains p then m else m.insert p (mk p)

theorem group_insert (mk : κ → γ) (m : Std.TreeMap κ γ) (k p : κ) (g : γ) :
    group mk (m.insert k g) p = if k = p then g else group mk m p := by
  rw [group, Std.TreeMap.getElem?_insert]
  by_cases h : k = p
  · rw [if_pos (by simpa using h), if_pos h]
    rfl
  · rw [if_neg (by simpa using h), if_neg h]
    rfl

theorem group_ensure (mk : κ → γ) (m : Std.TreeMap κ γ) (k p : κ) :
    group mk (ensure mk m k) p = group mk m p := by
  unfold ensure
  by_cases hc : m.contains k
  · rw [if_pos hc]
  · rw [if_neg hc, group_insert]
    by_cases h : k = p
    · subst h
      have hnone : m[k]? = none := by
        rw [← Option.not_isSome_iff_eq_none, ← Std.TreeMap.contains_eq_isSome_getElem?]
        exact hc
      rw [if_pos rfl, group, hnone]
      rfl
    · rw [if_neg h]

theorem group_foldl_ensure (mk : κ → γ) (key : α → κ) (p : κ) :
    ∀ (l : List α) (m : Std.TreeMap κ γ),
      group mk (l.foldl (fun m a => ensure mk m (key a)) m) p = group mk m p := by
  intro l
  induction l with
  | nil => intro m; rfl
  | cons a r ih =>
    intro m
    rw [List.foldl_cons, ih, group_ensure]

/-- The step `f` pushes an element to the group of its key and to no other. -/
def Files (mk : κ → γ) (push : γ → α → γ) (key : α → κ)
    (f : Std.TreeMap κ γ → α → Std.TreeMap κ γ) : Prop :=
  ∀ m a p, group mk (f m a) p = if key a = p then push (group mk m p) a else group mk m p

theorem files_ensure_push (mk : κ → γ) (push : γ → α → γ) (key : α → κ) :
    Files mk push key (fun m a =>
      let m := ensure mk m (key a)
      m.insert (key a) (push (group mk m (key a)) a)) := by
  intro m a p
  simp only
  rw [group_insert, group_ensure, group_ensure]
  by_cases h : key a = p
  · rw [if_pos h, if_pos h, h]
  · rw [if_neg h, if_neg h]

omit [Std.TransOrd κ] [Std.LawfulEqOrd κ] in
/-- **What grouping leaves in the map.** -/
theorem Files.foldl {mk : κ → γ} {push : γ → α → γ} {key : α → κ}
    {f : Std.TreeMap κ γ → α → Std.TreeMap κ γ} (hf : Files mk push key f) (p : κ) :
    ∀ (l : List α) (m : Std.TreeMap κ γ),
      group mk (l.foldl f m) p
        = (l.filter (fun a => decide (key a = p))).foldl push (group mk m p) := by
  intro l
  induction l with
  | nil => intro m; rfl
  | cons a r ih =>
    intro m
    rw [List.foldl_cons, ih, hf]
    by_cases h : key a = p
    · rw [List.filter_cons_of_pos (by simpa using h), if_pos h, List.foldl_cons]
    · rw [List.filter_cons_of_neg (by simpa using h), if_neg h]

/-! ### The keys of the map -/

/-- The step `f` adds the keys that `S a` names and no others. -/
def Adds (S : α → κ → Prop) (f : Std.TreeMap κ γ → α → Std.TreeMap κ γ) : Prop :=
  ∀ m a p, p ∈ f m a ↔ p ∈ m ∨ S a p

omit [DecidableEq κ] in
theorem mem_insert_iff {m : Std.TreeMap κ γ} {k p : κ} {g : γ} :
    p ∈ m.insert k g ↔ p ∈ m ∨ k = p := by
  rw [Std.TreeMap.mem_insert, Std.LawfulEqOrd.compare_eq_iff_eq, or_comm]

omit [DecidableEq κ] in
theorem mem_ensure (mk : κ → γ) {m : Std.TreeMap κ γ} {k p : κ} :
    p ∈ ensure mk m k ↔ p ∈ m ∨ k = p := by
  unfold ensure
  by_cases hc : m.contains k
  · rw [if_pos hc]
    refine ⟨Or.inl, fun h => h.elim id fun hk => ?_⟩
    rw [← hk]
    exact hc
  · rw [if_neg hc]
    exact mem_insert_iff

omit [DecidableEq κ] in
theorem adds_ensure (mk : κ → γ) (key : α → κ) :
    Adds (fun a p => key a = p) (fun m a => ensure mk m (key a)) := fun _ _ _ => mem_ensure mk

omit [DecidableEq κ] in
theorem adds_ensure_push (mk : κ → γ) (push : γ → α → γ) (key : α → κ) :
    Adds (fun a p => key a = p) (fun m a =>
      let m := ensure mk m (key a)
      m.insert (key a) (push (group mk m (key a)) a)) := by
  intro m a p
  simp only
  rw [mem_insert_iff, mem_ensure, or_assoc, or_self]

omit [DecidableEq κ] [Std.TransOrd κ] [Std.LawfulEqOrd κ] in
/-- **The keys that the loop leaves in the map.** -/
theorem Adds.foldl {S : α → κ → Prop} {f : Std.TreeMap κ γ → α → Std.TreeMap κ γ}
    (hf : Adds S f) {p : κ} :
    ∀ (l : List α) (m : Std.TreeMap κ γ), p ∈ l.foldl f m ↔ p ∈ m ∨ ∃ a ∈ l, S a p := by
  intro l
  induction l with
  | nil => intro m; simp
  | cons a r ih =>
    intro m
    rw [List.foldl_cons, ih, hf, List.exists_mem_cons_iff, or_assoc]

omit [DecidableEq κ] [Std.LawfulEqOrd κ] in
theorem getElem?_eq_some_iff_group (mk : κ → γ) {m : Std.TreeMap κ γ} {p : κ} {g : γ} :
    m[p]? = some g ↔ p ∈ m ∧ group mk m p = g := by
  rw [Std.TreeMap.mem_iff_isSome_getElem?]
  unfold group
  cases hget : m[p]? with
  | none => simp
  | some x => simp

def KeysIn (P : κ → Prop) (m : Std.TreeMap κ γ) : Prop := ∀ k ∈ m, P k

omit [DecidableEq κ] in
theorem KeysIn.of_mem_toList {P : κ → Prop} {m : Std.TreeMap κ γ} (hm : KeysIn P m) {e : κ × γ}
    (he : e ∈ m.toList) : P e.1 := by
  have hget : m[e.1]? = some e.2 := Std.TreeMap.mem_toList_iff_getElem?_eq_some.mp he
  refine hm e.1 (Std.TreeMap.mem_iff_isSome_getElem?.mpr ?_)
  rw [hget]
  rfl

end SimSearch.Lib
