import SimSearch.Lib.Grouping

/-!
# Batches with a verdict for each key

The keys of a batch are answered one by one, each with an error or with a value, and the
answers are kept in two maps.  `Sorts f P r` says that the maps `r` hold the verdicts `f` of
the keys with `P` and nothing else.  A loop over the keys of a batch keeps it
(`sorts_foldl`), and so does the merge of two batches (`Sorts.assign`), so it holds of a batch
that was split, answered in parts and put together again.

From `Sorts` follows what a list of the answers in the order of the batch is:
`map_filterMap_ok` and `map_filterMap_error` split the keys in two, and
`verdicts_perm` says that the two parts are the whole batch.
-/

namespace SimSearch.Lib

variable {κ ε β : Type} [Ord κ] [Std.TransOrd κ] [Std.LawfulEqOrd κ]

/-- The two maps hold the verdicts of the keys with `P`. -/
structure Sorts (f : κ → Except ε β) (P : κ → Prop)
    (r : Std.TreeMap κ ε × Std.TreeMap κ β) : Prop where
  error : ∀ k e, r.1[k]? = some e ↔ P k ∧ f k = .error e
  ok : ∀ k b, r.2[k]? = some b ↔ P k ∧ f k = .ok b

def errorOf : Except ε β → Option ε
  | .error e => some e
  | .ok _ => none

omit [Std.TransOrd κ] [Std.LawfulEqOrd κ] in
theorem Sorts.getElem?_error {f : κ → Except ε β} {P : κ → Prop}
    {r : Std.TreeMap κ ε × Std.TreeMap κ β} (h : Sorts f P r) {k : κ} (hk : P k) :
    r.1[k]? = errorOf (f k) := by
  refine Option.ext fun e => ?_
  rw [h.error, and_iff_right hk]
  cases hf : f k with
  | error e' => simp [errorOf, eq_comm]
  | ok b => simp [errorOf]

omit [Std.TransOrd κ] [Std.LawfulEqOrd κ] in
theorem Sorts.getElem?_ok {f : κ → Except ε β} {P : κ → Prop}
    {r : Std.TreeMap κ ε × Std.TreeMap κ β} (h : Sorts f P r) {k : κ} (hk : P k) :
    r.2[k]? = (f k).toOption := by
  refine Option.ext fun b => ?_
  rw [h.ok, and_iff_right hk]
  cases hf : f k with
  | error e => simp [Except.toOption]
  | ok b' => simp [Except.toOption, eq_comm]

omit [Std.LawfulEqOrd κ] in
theorem Sorts.size_eq_zero {f : κ → Except ε β} {P : κ → Prop}
    {r : Std.TreeMap κ ε × Std.TreeMap κ β} (h : Sorts f P r) :
    r.1.size = 0 ↔ ∀ k, P k → errorOf (f k) = none := by
  have hempty : r.1.size = 0 ↔ ∀ k, k ∉ r.1 := by
    rw [← Std.TreeMap.isEmpty_iff_forall_not_mem, Std.TreeMap.isEmpty_eq_size_eq_zero, beq_iff_eq]
  rw [hempty]
  constructor
  · intro hnone k hk
    rw [← h.getElem?_error hk]
    exact Std.TreeMap.getElem?_eq_none (hnone k)
  · intro hnone k hk
    obtain ⟨e, he⟩ := Option.isSome_iff_exists.mp (Std.TreeMap.mem_iff_isSome_getElem?.mp hk)
    have hP := ((h.error k e).mp he).1
    rw [h.getElem?_error hP, hnone k hP] at he
    cases he

def sortKey (f : κ → Except ε β) (r : Std.TreeMap κ ε × Std.TreeMap κ β) (k : κ) :
    Std.TreeMap κ ε × Std.TreeMap κ β :=
  match f k with
  | .error e => (r.1.insert k e, r.2)
  | .ok b => (r.1, r.2.insert k b)

omit [Std.LawfulEqOrd κ] in
theorem sorts_empty (f : κ → Except ε β) : Sorts f (fun _ => False) (∅, ∅) := by
  constructor
  · intro k e
    simp
  · intro k b
    simp

omit [Std.TransOrd κ] [Std.LawfulEqOrd κ] in
theorem Sorts.congr {f g : κ → Except ε β} {P Q : κ → Prop}
    {r : Std.TreeMap κ ε × Std.TreeMap κ β} (h : Sorts f P r) (hPQ : ∀ k, P k ↔ Q k)
    (hfg : ∀ k, P k → f k = g k) : Sorts g Q r := by
  constructor
  · intro k e
    rw [h.error, ← hPQ]
    refine and_congr_right fun hk => ?_
    rw [hfg k hk]
  · intro k b
    rw [h.ok, ← hPQ]
    refine and_congr_right fun hk => ?_
    rw [hfg k hk]

theorem getElem?_insert_iff {γ : Type} {m : Std.TreeMap κ γ} {k p : κ} {g v : γ} :
    (m.insert k g)[p]? = some v ↔ (p = k ∧ g = v) ∨ (p ≠ k ∧ m[p]? = some v) := by
  rw [Std.TreeMap.getElem?_insert]
  by_cases h : k = p
  · subst h
    simp
  · have hne : p ≠ k := fun hp => h hp.symm
    simp [h, hne]

theorem Sorts.sortKey {f : κ → Except ε β} {P : κ → Prop}
    {r : Std.TreeMap κ ε × Std.TreeMap κ β} (h : Sorts f P r) (k : κ) :
    Sorts f (fun p => P p ∨ p = k) (sortKey f r k) := by
  unfold Lib.sortKey
  cases hk : f k with
  | error e =>
    constructor
    · intro p e'
      rw [getElem?_insert_iff, h.error]
      by_cases hp : p = k
      · subst hp
        simp [hk]
      · simp [hp]
    · intro p b
      rw [h.ok]
      by_cases hp : p = k
      · subst hp
        simp [hk]
      · simp [hp]
  | ok b =>
    constructor
    · intro p e
      rw [h.error]
      by_cases hp : p = k
      · subst hp
        simp [hk]
      · simp [hp]
    · intro p b'
      rw [getElem?_insert_iff, h.ok]
      by_cases hp : p = k
      · subst hp
        simp [hk]
      · simp [hp]

/-- **A loop over the keys of a batch.** -/
theorem sorts_foldl (f : κ → Except ε β) (keys : List κ) :
    Sorts f (· ∈ keys) (keys.foldl (sortKey f) (∅, ∅)) := by
  have hrun : ∀ (keys : List κ) (P : κ → Prop) (r : Std.TreeMap κ ε × Std.TreeMap κ β),
      Sorts f P r → Sorts f (fun p => P p ∨ p ∈ keys) (keys.foldl (sortKey f) r) := by
    intro keys
    induction keys with
    | nil =>
      intro P r h
      exact h.congr (fun k => by simp) fun _ _ => rfl
    | cons k keys ih =>
      intro P r h
      refine (ih _ _ (h.sortKey k)).congr (fun p => ?_) fun _ _ => rfl
      rw [List.mem_cons, or_assoc]
  exact (hrun keys _ _ (sorts_empty f)).congr (fun k => by simp) fun _ _ => rfl

/-! ### Merging -/

def assign {γ : Type} (m r : Std.TreeMap κ γ) : Std.TreeMap κ γ :=
  r.toList.foldl (fun m e => m.insert e.1 e.2) m

theorem getElem?_foldl_insert {γ : Type} {k : κ} {v : γ} :
    ∀ (l : List (κ × γ)) (m : Std.TreeMap κ γ), l.Pairwise (fun a b => a.1 ≠ b.1) →
      ((l.foldl (fun m e => m.insert e.1 e.2) m)[k]? = some v
        ↔ (k, v) ∈ l ∨ ((∀ e ∈ l, e.1 ≠ k) ∧ m[k]? = some v)) := by
  intro l
  induction l with
  | nil => intro m _; simp
  | cons a l ih =>
    intro m hl
    obtain ⟨ha, hl⟩ := List.pairwise_cons.mp hl
    rw [List.foldl_cons, ih _ hl, getElem?_insert_iff, List.mem_cons, List.forall_mem_cons]
    by_cases hk : k = a.1
    · subst hk
      -- the entry of `a` is not written over, since no later one has its key
      have hnot : (a.1, v) ∉ l := fun h => ha _ h rfl
      have hall : ∀ e ∈ l, e.1 ≠ a.1 := fun e he h => ha e he h.symm
      constructor
      · rintro (h | ⟨-, ⟨-, rfl⟩ | ⟨h, -⟩⟩)
        · exact absurd h hnot
        · exact Or.inl (Or.inl rfl)
        · exact absurd rfl h
      · rintro ((h | h) | ⟨⟨h, -⟩, -⟩)
        · exact Or.inr ⟨hall, Or.inl ⟨rfl, (congrArg Prod.snd h).symm⟩⟩
        · exact absurd h hnot
        · exact absurd rfl h
    · have hne : a.1 ≠ k := fun h => hk h.symm
      have hpair : (k, v) ≠ a := fun h => hne (congrArg Prod.fst h).symm
      simp [hk, hne, hpair]

/-- **A loop that writes the entries of a map, each under its key**, leaves what it wrote and
keeps the rest. -/
theorem getElem?_foldl_toList {γ δ : Type} (g : κ → γ → δ) (r : Std.TreeMap κ γ)
    (m : Std.TreeMap κ δ) (k : κ) :
    (r.toList.foldl (fun m e => m.insert e.1 (g e.1 e.2)) m)[k]?
      = ((r[k]?).map (g k)).or m[k]? := by
  have hdistinct : (r.toList.map fun e => (e.1, g e.1 e.2)).Pairwise (fun a b => a.1 ≠ b.1) := by
    rw [List.pairwise_map]
    refine Std.TreeMap.distinct_keys_toList.imp fun {a b} h heq => h ?_
    rw [show a.1 = b.1 from heq]
    exact Std.ReflCmp.compare_self
  have hloop : r.toList.foldl (fun m e => m.insert e.1 (g e.1 e.2)) m
      = (r.toList.map fun e => (e.1, g e.1 e.2)).foldl (fun m e => m.insert e.1 e.2) m := by
    rw [List.foldl_map]
  refine Option.ext fun v => ?_
  rw [hloop, getElem?_foldl_insert _ _ hdistinct, List.mem_map]
  simp only [List.forall_mem_map, Prod.exists, Prod.forall, Prod.mk.injEq,
    Std.TreeMap.mem_toList_iff_getElem?_eq_some]
  cases hr : r[k]? with
  | none =>
    have hne : ∀ a b, r[a]? = some b → a ≠ k := by
      rintro a b hab rfl
      rw [hr] at hab
      cases hab
    constructor
    · rintro (⟨a, b, hab, rfl, -⟩ | ⟨-, hm⟩)
      · exact absurd rfl (hne a b hab)
      · exact hm
    · exact fun hm => Or.inr ⟨hne, hm⟩
  | some w =>
    constructor
    · rintro (⟨a, b, hab, rfl, rfl⟩ | ⟨hne, -⟩)
      · rw [hr] at hab
        cases hab
        rfl
      · exact absurd rfl (hne k w hr)
    · intro hv
      cases hv
      exact Or.inl ⟨k, w, hr, rfl, rfl⟩

/-- A loop that writes the entries whose keys are missing. -/
theorem getElem?_foldl_missing {γ : Type} (r m : Std.TreeMap κ γ) (k : κ) :
    (r.toList.foldl (fun m e => if e.1 ∈ m then m else m.insert e.1 e.2) m)[k]?
      = m[k]?.or r[k]? := by
  classical
  have hloop : ∀ (l : List (κ × γ)) (m : Std.TreeMap κ γ),
      (l.foldl (fun m e => if e.1 ∈ m then m else m.insert e.1 e.2) m)[k]?
        = m[k]?.or ((l.find? fun e => e.1 = k).map Prod.snd) := by
    intro l
    induction l with
    | nil => intro m; rw [List.foldl_nil, List.find?_nil, Option.map_none, Option.or_none]
    | cons e l ih =>
      intro m
      rw [List.foldl_cons, ih]
      by_cases hk : e.1 = k
      · rw [List.find?_cons_of_pos (by simpa using hk), hk]
        by_cases hmem : k ∈ m
        · obtain ⟨w, hw⟩ :=
            Option.isSome_iff_exists.mp (Std.TreeMap.mem_iff_isSome_getElem?.mp hmem)
          rw [if_pos hmem, hw, Option.some_or, Option.some_or]
        · rw [if_neg hmem, Std.TreeMap.getElem?_insert_self, Std.TreeMap.getElem?_eq_none hmem]
          rfl
      · rw [List.find?_cons_of_neg (by simpa using hk)]
        split_ifs
        · rfl
        · rw [Std.TreeMap.getElem?_insert, if_neg fun h => hk (Std.LawfulEqCmp.eq_of_compare h)]
  have hfind : (r.toList.find? fun e => e.1 = k).map Prod.snd = r[k]? := by
    cases hfound : r.toList.find? fun e => e.1 = k with
    | none =>
      have hnone := List.find?_eq_none.mp hfound
      refine (Option.eq_none_iff_forall_not_mem.mpr fun v hv => ?_).symm
      exact hnone (k, v) (Std.TreeMap.mem_toList_iff_getElem?_eq_some.mpr hv) (by simp)
    | some e =>
      have hkey : e.1 = k := by simpa using List.find?_some hfound
      have hmem := List.mem_of_find?_eq_some hfound
      rw [← hkey]
      exact (Std.TreeMap.mem_toList_iff_getElem?_eq_some.mp hmem).symm
  rw [hloop, hfind]

theorem getElem?_assign {γ : Type} {m r : Std.TreeMap κ γ} {k : κ} {v : γ} :
    (assign m r)[k]? = some v ↔ r[k]? = some v ∨ (k ∉ r ∧ m[k]? = some v) := by
  rw [assign, getElem?_foldl_toList (fun _ v => v), Std.TreeMap.mem_iff_isSome_getElem?]
  cases r[k]? with
  | none => simp
  | some w => simp

theorem mem_assign {γ : Type} {m r : Std.TreeMap κ γ} {k : κ} :
    k ∈ assign m r ↔ k ∈ m ∨ k ∈ r := by
  simp only [Std.TreeMap.mem_iff_isSome_getElem?, Option.isSome_iff_exists, getElem?_assign]
  constructor
  · rintro ⟨v, h | ⟨-, h⟩⟩
    · exact Or.inr ⟨v, h⟩
    · exact Or.inl ⟨v, h⟩
  · rintro (⟨v, h⟩ | ⟨v, h⟩)
    · by_cases hr : ∃ w, r[k]? = some w
      · obtain ⟨w, hw⟩ := hr
        exact ⟨w, Or.inl hw⟩
      · exact ⟨v, Or.inr ⟨hr, h⟩⟩
    · exact ⟨v, Or.inl h⟩

/-- **Two batches put together.** -/
theorem Sorts.assign {f : κ → Except ε β} {P Q : κ → Prop}
    {r s : Std.TreeMap κ ε × Std.TreeMap κ β} (hr : Sorts f P r) (hs : Sorts f Q s) :
    Sorts f (fun k => P k ∨ Q k) (assign r.1 s.1, assign r.2 s.2) := by
  constructor
  · intro k e
    rw [getElem?_assign, hs.error, hr.error, Std.TreeMap.mem_iff_isSome_getElem?,
      Option.isSome_iff_exists]
    simp only [hs.error]
    by_cases hQ : Q k
    · simp only [hQ, true_and, or_true]
      refine or_iff_left_of_imp fun h => ?_
      exact h.2.2
    · simp [hQ]
  · intro k b
    rw [getElem?_assign, hs.ok, hr.ok, Std.TreeMap.mem_iff_isSome_getElem?,
      Option.isSome_iff_exists]
    simp only [hs.ok]
    by_cases hQ : Q k
    · simp only [hQ, true_and, or_true]
      refine or_iff_left_of_imp fun h => ?_
      exact h.2.2
    · simp [hQ]

/-! ### The answers in the order of the batch -/

section

variable {α γ : Type} {f : α → Except ε β}

theorem map_filterMap_ok {key : β → α} (hkey : ∀ k b, f k = .ok b → key b = k) (keys : List α) :
    (keys.filterMap fun k => (f k).toOption).map key = keys.filter fun k => (f k).isOk := by
  induction keys with
  | nil => rfl
  | cons k keys ih =>
    cases hk : f k with
    | error e =>
      rw [List.filterMap_cons_none (by rw [hk]; rfl),
        List.filter_cons_of_neg (by rw [hk]; exact Bool.false_ne_true)]
      exact ih
    | ok b =>
      rw [List.filterMap_cons_some (b := b) (by rw [hk]; rfl),
        List.filter_cons_of_pos (by rw [hk]; rfl), List.map_cons, hkey k b hk, ih]

theorem map_filterMap_error {mk : α → ε → γ} {key : γ → α} (hkey : ∀ k e, key (mk k e) = k)
    (keys : List α) :
    (keys.filterMap fun k => (errorOf (f k)).map (mk k)).map key
      = keys.filter fun k => !(f k).isOk := by
  induction keys with
  | nil => rfl
  | cons k keys ih =>
    cases hk : f k with
    | error e =>
      rw [List.filterMap_cons_some (b := mk k e) (by rw [hk]; rfl),
        List.filter_cons_of_pos (by rw [hk]; rfl), List.map_cons, hkey k e, ih]
    | ok b =>
      rw [List.filterMap_cons_none (by rw [hk]; rfl),
        List.filter_cons_of_neg (by rw [hk]; exact Bool.false_ne_true)]
      exact ih

/-- **Each key is answered once.** -/
theorem verdicts_perm (f : α → Except ε β) (keys : List α) :
    ((keys.filter fun k => (f k).isOk) ++ keys.filter fun k => !(f k).isOk).Perm keys :=
  List.filter_append_perm _ _

end

end SimSearch.Lib
