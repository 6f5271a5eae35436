import Mathlib

/-!
# The lists with a given beginning, as an interval

In the lexicographic order the lists that begin with `p` are an interval that starts with `p`.
Where it ends is found at the last element of `p` that is not the greatest one: there comes the
next element, and what is after it is dropped (`range_of_next`).  If all elements of `p` are the
greatest one, the interval is all that is not below `p` (`le_iff_of_tops`), and no list ends it
(`no_end_of_tops`).
-/

namespace SimSearch.Lib

variable {α : Type} [LT α] [Std.Irrefl (α := α) (· < ·)] [Std.Asymm (α := α) (· < ·)]
  [Std.Trichotomous (α := α) (· < ·)]

/-- `b` comes right after `a`. -/
structure Next (a b : α) : Prop where
  lt : a < b
  between : ∀ c, a < c → ¬ c < b

def Top (a : α) : Prop := ∀ c, ¬ a < c

omit [Std.Irrefl (α := α) (· < ·)] [Std.Asymm (α := α) (· < ·)]
  [Std.Trichotomous (α := α) (· < ·)] in
theorem not_cons_le_nil (a : α) (p : List α) : ¬ a :: p ≤ [] :=
  List.not_le.mpr (List.nil_lt_cons a p)

omit [Std.Irrefl (α := α) (· < ·)] in
/-- **Above a list of greatest elements are its extensions.** -/
theorem le_iff_of_tops {p : List α} (h : ∀ a ∈ p, Top a) (k : List α) : p ≤ k ↔ p <+: k := by
  induction p generalizing k with
  | nil => exact ⟨fun _ => List.nil_prefix, fun _ => List.nil_le k⟩
  | cons a p ih =>
    obtain ⟨ha, hp⟩ := List.forall_mem_cons.mp h
    cases k with
    | nil =>
      exact ⟨fun hle => absurd hle (not_cons_le_nil a p),
        fun hpre => absurd (List.prefix_nil.mp hpre) (List.cons_ne_nil a p)⟩
    | cons c k =>
      rw [List.cons_le_cons_iff, List.cons_prefix_cons, ih hp]
      exact ⟨fun hle => hle.resolve_left (ha c), Or.inr⟩

/-- **Where the interval ends**: after `p` comes an element that has a next one, and then only
greatest elements. -/
theorem range_of_next {a b : α} (hab : Next a b) {ts : List α} (hts : ∀ t ∈ ts, Top t)
    (p k : List α) : p ++ a :: ts ≤ k ∧ k < p ++ [b] ↔ p ++ a :: ts <+: k := by
  induction p generalizing k with
  | nil =>
    cases k with
    | nil =>
      exact ⟨fun h => absurd h.1 (not_cons_le_nil a ts),
        fun hpre => absurd (List.prefix_nil.mp hpre) (List.cons_ne_nil a ts)⟩
    | cons c k =>
      rw [List.nil_append, List.nil_append, List.cons_le_cons_iff, List.cons_lt_cons_iff,
        List.cons_prefix_cons, le_iff_of_tops hts]
      constructor
      · rintro ⟨hlow, hhigh | ⟨-, hnil⟩⟩
        · exact hlow.resolve_left fun hac => hab.between c hac hhigh
        · exact absurd hnil (List.not_lt_nil k)
      · rintro ⟨rfl, hpre⟩
        exact ⟨Or.inr ⟨rfl, hpre⟩, Or.inl hab.lt⟩
  | cons x p ih =>
    cases k with
    | nil =>
      exact ⟨fun h => absurd h.1 (not_cons_le_nil x _),
        fun hpre => absurd (List.prefix_nil.mp hpre) (List.cons_ne_nil x _)⟩
    | cons c k =>
      rw [List.cons_append, List.cons_append, List.cons_le_cons_iff, List.cons_lt_cons_iff,
        List.cons_prefix_cons, ← ih]
      constructor
      · rintro ⟨hlow, hhigh⟩
        rcases hlow with hxc | ⟨rfl, hle⟩
        · rcases hhigh with hcx | ⟨rfl, -⟩
          · exact absurd hcx (Std.Asymm.asymm x c hxc)
          · exact absurd hxc (Std.Irrefl.irrefl c)
        · rcases hhigh with hcx | ⟨-, hlt⟩
          · exact absurd hcx (Std.Irrefl.irrefl x)
          · exact ⟨rfl, hle, hlt⟩
      · rintro ⟨rfl, hle, hlt⟩
        exact ⟨Or.inr ⟨rfl, hle⟩, Or.inr ⟨rfl, hlt⟩⟩

theorem no_end_of_tops {p : List α} (h : ∀ a ∈ p, Top a) (r : List α) :
    ¬ ∀ k, p ≤ k ∧ k < r ↔ p <+: k := by
  intro hrange
  have hp := (hrange p).mpr List.prefix_rfl
  -- the end would be above the list, hence one of its extensions
  have hle : p ≤ r := List.le_iff_lt_or_eq.mpr (Or.inl hp.2)
  exact List.lt_irrefl r ((hrange r).mpr ((le_iff_of_tops h r).mp hle)).2

end SimSearch.Lib
