import Mathlib

/-!
# Texts that are joined by a separator

Two texts with a separator between them.  When the first ones do not have it the parts can be
told apart (`join_inj`); in general two pairs give the same text exactly when one of them is
the other with the separator at another place (`join_eq_iff`).

A list of texts is written with a separator after each and the last one cut off, which is
`List.intercalate` (`dropLast_flatMap_append`).  `lines` are the items of a reader that stops
at the end of the text: it gets none after a last separator.
-/

namespace SimSearch.Lib

/-! ### Lists -/

/-- **When two joined lists are equal**: the parts are equal, or the first part of one pair
reaches over the separator of the other. -/
theorem append_cons_eq_iff {α : Type} {c : α} {a r b s : List α} :
    a ++ c :: r = b ++ c :: s ↔
      (a = b ∧ r = s) ∨ (∃ m, b = a ++ c :: m ∧ r = m ++ c :: s) ∨
        ∃ m, a = b ++ c :: m ∧ s = m ++ c :: r := by
  constructor
  · intro h
    rcases List.append_eq_append_iff.mp h with ⟨m, hb, hr⟩ | ⟨m, ha, hs⟩
    · cases m with
      | nil =>
        rw [List.append_nil] at hb
        rw [List.nil_append, List.cons.injEq] at hr
        exact Or.inl ⟨hb.symm, hr.2⟩
      | cons x m =>
        rw [List.cons_append, List.cons.injEq] at hr
        obtain ⟨rfl, hr⟩ := hr
        exact Or.inr (Or.inl ⟨m, hb, hr⟩)
    · cases m with
      | nil =>
        rw [List.append_nil] at ha
        rw [List.nil_append, List.cons.injEq] at hs
        exact Or.inl ⟨ha, hs.2.symm⟩
      | cons x m =>
        rw [List.cons_append, List.cons.injEq] at hs
        obtain ⟨rfl, hs⟩ := hs
        exact Or.inr (Or.inr ⟨m, ha, hs⟩)
  · rintro (⟨rfl, rfl⟩ | ⟨m, rfl, rfl⟩ | ⟨m, rfl, rfl⟩)
    · rfl
    · simp
    · simp

/-- A separator after each item, and the last one removed. -/
theorem dropLast_flatMap_append {α : Type} (c : α) :
    ∀ ls : List (List α), (ls.flatMap fun l => l ++ [c]).dropLast = [c].intercalate ls := by
  intro ls
  induction ls with
  | nil => rfl
  | cons a ls ih =>
    cases ls with
    | nil => simp
    | cons b ls =>
      have hne : ((b :: ls).flatMap fun l => l ++ [c]) ≠ [] := by simp
      rw [List.flatMap_cons, List.dropLast_append_of_ne_nil hne, ih, List.append_assoc,
        List.intercalate_cons_cons, List.append_assoc]

/-- Items that are written out one element at a time, each by `f`. -/
theorem flatMap_intercalate {α β : Type} (f : α → List β) (sep : List α) :
    ∀ ls : List (List α), (sep.intercalate ls).flatMap f
      = (sep.flatMap f).intercalate (ls.map fun l => l.flatMap f) := by
  intro ls
  induction ls with
  | nil => rfl
  | cons a ls ih =>
    cases ls with
    | nil => simp
    | cons b ls =>
      rw [List.intercalate_cons_cons, List.flatMap_append, List.flatMap_append, ih, List.map_cons,
        List.map_cons, List.map_cons, List.intercalate_cons_cons]

theorem not_mem_of_mem_splitOn {α : Type} [BEq α] [LawfulBEq α] {c : α} :
    ∀ {xs p : List α}, p ∈ xs.splitOn c → c ∉ p := by
  intro xs
  induction xs with
  | nil =>
    intro p hp
    rw [List.splitOn_nil, List.mem_singleton] at hp
    rw [hp]
    exact List.not_mem_nil
  | cons x xs ih =>
    intro p hp
    rw [List.splitOn_cons_eq_if_modifyHead] at hp
    split_ifs at hp with hx
    · rcases List.mem_cons.mp hp with rfl | hp
      · exact List.not_mem_nil
      · exact ih hp
    · cases hitems : xs.splitOn c with
      | nil => exact absurd hitems (List.splitOn_ne_nil _ _)
      | cons a items =>
        rw [hitems, List.modifyHead_cons] at hp
        rcases List.mem_cons.mp hp with rfl | hp
        · have ha : c ∉ a := ih (by rw [hitems]; exact List.mem_cons_self)
          rw [List.mem_cons, not_or]
          exact ⟨fun h => hx (by rw [h]; exact beq_self_eq_true x), ha⟩
        · exact ih (by rw [hitems]; exact List.mem_cons_of_mem _ hp)

/-- The items up to separators; nothing follows a last separator. -/
def lines {α : Type} [DecidableEq α] (c : α) (xs : List α) : List (List α) :=
  let items := xs.splitOn c
  if items.getLast? = some [] then items.dropLast else items

theorem lines_intercalate {α : Type} [DecidableEq α] {c : α} {ls : List (List α)} (hne : ls ≠ [])
    (hls : ∀ l ∈ ls, c ∉ l) :
    lines c ([c].intercalate ls) = if ls.getLast? = some [] then ls.dropLast else ls := by
  unfold lines
  simp only
  rw [List.splitOn_intercalate c hls hne]

theorem not_mem_of_mem_lines {α : Type} [DecidableEq α] {c : α} {xs p : List α}
    (hp : p ∈ lines c xs) : c ∉ p := by
  unfold lines at hp
  simp only at hp
  split_ifs at hp
  · exact not_mem_of_mem_splitOn (List.mem_of_mem_dropLast hp)
  · exact not_mem_of_mem_splitOn hp

/-! ### Texts -/

section

variable {sep : String} {c : Char}

theorem toList_join (hsep : sep.toList = [c]) (a r : String) :
    (a ++ sep ++ r).toList = a.toList ++ c :: r.toList := by
  rw [String.toList_append, String.toList_append, hsep, List.append_assoc]
  rfl

/-- A list that is joined from two texts is the list of the joined text. -/
theorem eq_join_iff (hsep : sep.toList = [c]) {x a r : String} :
    x.toList = a.toList ++ c :: r.toList ↔ x = a ++ sep ++ r := by
  rw [← toList_join hsep, String.toList_inj]

theorem join_eq_iff (hsep : sep.toList = [c]) {a r b s : String} :
    a ++ sep ++ r = b ++ sep ++ s ↔
      (a = b ∧ r = s) ∨ (∃ m, b = a ++ sep ++ m ∧ r = m ++ sep ++ s) ∨
        ∃ m, a = b ++ sep ++ m ∧ s = m ++ sep ++ r := by
  have hmid : ∀ {x y z w : String},
      (∃ m, x.toList = y.toList ++ c :: m ∧ z.toList = m ++ c :: w.toList) ↔
        ∃ m, x = y ++ sep ++ m ∧ z = m ++ sep ++ w := by
    intro x y z w
    constructor
    · rintro ⟨m, hx, hz⟩
      refine ⟨String.ofList m, (eq_join_iff hsep).mp ?_, (eq_join_iff hsep).mp ?_⟩
      · rw [String.toList_ofList]
        exact hx
      · rw [String.toList_ofList]
        exact hz
    · rintro ⟨m, hx, hz⟩
      exact ⟨m.toList, (eq_join_iff hsep).mpr hx, (eq_join_iff hsep).mpr hz⟩
  rw [← String.toList_inj, toList_join hsep, toList_join hsep, append_cons_eq_iff, hmid, hmid,
    String.toList_inj, String.toList_inj]

/-- **First parts without the separator can be told apart.** -/
theorem join_inj (hsep : sep.toList = [c]) {a r b s : String} (ha : c ∉ a.toList)
    (hb : c ∉ b.toList) (h : a ++ sep ++ r = b ++ sep ++ s) : a = b ∧ r = s := by
  have hmem : ∀ x y : String, c ∈ (x ++ sep ++ y).toList := by
    intro x y
    rw [toList_join hsep]
    exact List.mem_append_right _ List.mem_cons_self
  rcases (join_eq_iff hsep).mp h with heq | ⟨m, rfl, -⟩ | ⟨m, rfl, -⟩
  · exact heq
  · exact absurd (hmem _ _) hb
  · exact absurd (hmem _ _) ha

end

end SimSearch.Lib
