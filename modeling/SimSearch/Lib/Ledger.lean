import SimSearch.Lib.Runs

/-!
# Appending to a cell without a lock

Any number of calls append to a cell in two steps: a call reads the cell, and later it puts
what it has read, followed by its text.  Nothing is checked in between, so a put throws away
what other calls have put since the read.

That happens exactly when two calls that have put read the cell at the same contents
(`Collision`):

* `value_of_no_collision`: without a collision the cell holds the texts of all calls that have
  put, in their order.
* `no_collision_of_length`: if no text is empty, then after a collision the cell is too short
  for all texts, and stays so.
-/

namespace SimSearch.Lib.Ledger

variable {τ β : Type}

/-- The cell, what each call has read, and the calls that have put, in their order. -/
structure State (τ β : Type) where
  value : List β
  read : τ → Option (List β) := fun _ => none
  written : List τ := []

inductive Event (τ : Type)
  | read (t : τ)
  | put (t : τ)

section

variable [DecidableEq τ] (text : τ → List β)

/-- A call reads once, and puts once after it has read. -/
def step (s : State τ β) : Event τ → State τ β
  | .read t =>
    match s.read t with
    | none => { s with read := Function.update s.read t (some s.value) }
    | some _ => s
  | .put t =>
    match s.read t with
    | some x =>
      if t ∈ s.written then s
      else { s with value := x ++ text t, written := s.written ++ [t] }
    | none => s

inductive Moves (s : State τ β) : State τ β → Prop
  | stays : Moves s s
  | reads {t : τ} (h : s.read t = none) :
      Moves s { s with read := Function.update s.read t (some s.value) }
  | puts {t : τ} {x : List β} (h : s.read t = some x) (hnew : t ∉ s.written) :
      Moves s { s with value := x ++ text t, written := s.written ++ [t] }

theorem step_moves (s : State τ β) (e : Event τ) : Moves text s (step text s e) := by
  cases e with
  | read t =>
    cases h : s.read t with
    | none =>
      simp only [step, h]
      exact .reads h
    | some x =>
      simp only [step, h]
      exact .stays
  | put t =>
    cases h : s.read t with
    | none =>
      simp only [step, h]
      exact .stays
    | some x =>
      simp only [step, h]
      by_cases ht : t ∈ s.written
      · rw [if_pos ht]
        exact .stays
      · rw [if_neg ht]
        exact .puts h ht

/-- Two calls that have put read the same contents. -/
def Collision (s : State τ β) : Prop :=
  ∃ t ∈ s.written, ∃ u ∈ s.written, t ≠ u ∧ s.read t = s.read u

abbrev Reached (base : List β) : State τ β → Prop := Reach (step text) anyEvent { value := base }

/-! ### Who has put -/

structure Ordered (s : State τ β) : Prop where
  nodup : s.written.Nodup
  hasRead : ∀ t ∈ s.written, ∃ x, s.read t = some x

theorem update_of_some {s : State τ β} {t u : τ} {x : List β} (ht : s.read t = none)
    (hu : s.read u = some x) : Function.update s.read t (some s.value) u = some x := by
  have hne : u ≠ t := by
    rintro rfl
    rw [ht] at hu
    cases hu
  rw [Function.update_of_ne hne, hu]

theorem ordered_step {s s' : State τ β} (h : Ordered s) (hm : Moves text s s') : Ordered s' := by
  cases hm with
  | stays => exact h
  | reads ht =>
    refine ⟨h.nodup, fun u hu => ?_⟩
    obtain ⟨x, hx⟩ := h.hasRead u hu
    exact ⟨x, update_of_some ht hx⟩
  | @puts t x hx hnew =>
    refine ⟨List.nodup_append.mpr ⟨h.nodup, List.nodup_singleton t, ?_⟩, ?_⟩
    · rintro a ha b hb rfl
      exact hnew (List.mem_singleton.mp hb ▸ ha)
    · intro u hu
      rcases List.mem_append.mp hu with hu | hu
      · exact h.hasRead u hu
      · exact ⟨x, List.mem_singleton.mp hu ▸ hx⟩

theorem ordered_reached {base : List β} {s : State τ β} (h : Reached text base s) : Ordered s :=
  h.invariant Ordered ⟨List.nodup_nil, fun _ ht => absurd ht List.not_mem_nil⟩
    fun s e hs _ => ordered_step text hs (step_moves text s e)

theorem collision_read_iff {s : State τ β} (h : Ordered s) {t : τ} (ht : s.read t = none) :
    Collision { s with read := Function.update s.read t (some s.value) } ↔ Collision s := by
  have hsame : ∀ u ∈ s.written, Function.update s.read t (some s.value) u = s.read u := by
    intro u hu
    obtain ⟨x, hx⟩ := h.hasRead u hu
    rw [update_of_some ht hx, hx]
  constructor
  · rintro ⟨u, hu, v, hv, hne, heq⟩
    dsimp only at heq
    rw [hsame u hu, hsame v hv] at heq
    exact ⟨u, hu, v, hv, hne, heq⟩
  · rintro ⟨u, hu, v, hv, hne, heq⟩
    refine ⟨u, hu, v, hv, hne, ?_⟩
    dsimp only
    rw [hsame u hu, hsame v hv, heq]

omit [DecidableEq τ] in
/-- A put makes a collision when another call has put upon what it has read. -/
theorem collision_put_iff {s : State τ β} {t : τ} {x : List β} (hx : s.read t = some x)
    (hnew : t ∉ s.written) :
    Collision { s with value := x ++ text t, written := s.written ++ [t] } ↔
      Collision s ∨ ∃ u ∈ s.written, s.read u = some x := by
  constructor
  · rintro ⟨u, hu, v, hv, hne, heq⟩
    dsimp only at hu hv heq
    rcases List.mem_append.mp hu with hu | hu <;> rcases List.mem_append.mp hv with hv | hv
    · exact Or.inl ⟨u, hu, v, hv, hne, heq⟩
    · rw [List.mem_singleton.mp hv, hx] at heq
      exact Or.inr ⟨u, hu, heq⟩
    · rw [List.mem_singleton.mp hu, hx] at heq
      exact Or.inr ⟨v, hv, heq.symm⟩
    · exact absurd ((List.mem_singleton.mp hu).trans (List.mem_singleton.mp hv).symm) hne
  · rintro (⟨u, hu, v, hv, hne, heq⟩ | ⟨u, hu, hread⟩)
    · exact ⟨u, List.mem_append_left _ hu, v, List.mem_append_left _ hv, hne, heq⟩
    · refine ⟨t, List.mem_append_right _ List.mem_cons_self, u, List.mem_append_left _ hu, ?_,
        hx.trans hread.symm⟩
      rintro rfl
      exact hnew hu

/-! ### Without a collision -/

/-- What the cell holds as long as there is no collision; a call that has read and not put has
read either the present contents or what some call has put upon. -/
def Complete (base : List β) (s : State τ β) : Prop :=
  ¬ Collision s → s.value = base ++ s.written.flatMap text ∧
    ∀ t x, t ∉ s.written → s.read t = some x →
      x = s.value ∨ ∃ u ∈ s.written, s.read u = some x

theorem complete_step {base : List β} {s s' : State τ β} (ho : Ordered s)
    (h : Complete text base s) (hm : Moves text s s') : Complete text base s' := by
  intro hno
  cases hm with
  | stays => exact h hno
  | @reads t ht =>
    rw [collision_read_iff ho ht] at hno
    obtain ⟨hvalue, hopen⟩ := h hno
    refine ⟨hvalue, fun u x hu hx => ?_⟩
    by_cases hut : u = t
    · rw [hut] at hx
      simp only [Function.update_self, Option.some.injEq] at hx
      exact Or.inl hx.symm
    · simp only [Function.update_of_ne hut] at hx
      rcases hopen u x hu hx with rfl | ⟨v, hv, hread⟩
      · exact Or.inl rfl
      · exact Or.inr ⟨v, hv, update_of_some ht hread⟩
  | @puts t x hx hnew =>
    rw [collision_put_iff text hx hnew, not_or] at hno
    obtain ⟨hno, hfirst⟩ := hno
    obtain ⟨hvalue, hopen⟩ := h hno
    -- no call has put upon what this one has read, so it is still there
    have hcur : x = s.value := (hopen t x hnew hx).resolve_right hfirst
    have hlast : t ∈ s.written ++ [t] := List.mem_append_right _ List.mem_cons_self
    refine ⟨?_, fun u y hu hy => ?_⟩
    · rw [List.flatMap_append, List.flatMap_singleton, ← List.append_assoc, ← hvalue, ← hcur]
    · have hu' : u ∉ s.written := fun hin => hu (List.mem_append_left _ hin)
      rcases hopen u y hu' hy with rfl | ⟨v, hv, hread⟩
      · exact Or.inr ⟨t, hlast, hx.trans (congrArg some hcur)⟩
      · exact Or.inr ⟨v, List.mem_append_left _ hv, hread⟩

/-- **Without a collision nothing is lost.** -/
theorem value_of_no_collision {base : List β} {s : State τ β} (h : Reached text base s)
    (hno : ¬ Collision s) : s.value = base ++ s.written.flatMap text := by
  have hinv : Complete text base s := by
    refine h.invariant_reached (Complete text base) ?_ fun s e hs hc _ =>
      complete_step text (ordered_reached text hs) hc (step_moves text s e)
    intro _
    refine ⟨(List.append_nil base).symm, fun t x _ hx => ?_⟩
    cases hx
  exact (hinv hno).1

/-! ### After a collision -/

/-- The length that the cell would have with all texts. -/
def total (base : List β) (s : State τ β) : Nat := base.length + (s.written.flatMap text).length

/-- No contents are longer than all texts together, and after a collision all are shorter. -/
structure Short (base : List β) (s : State τ β) : Prop where
  value : s.value.length ≤ total text base s
  opened : ∀ t x, t ∉ s.written → s.read t = some x → x.length ≤ total text base s
  closed : ∀ t x, t ∈ s.written → s.read t = some x →
    x.length + (text t).length ≤ total text base s
  lost : Collision s → s.value.length < total text base s ∧
    ∀ t x, t ∉ s.written → s.read t = some x → x.length < total text base s

omit [DecidableEq τ] in
theorem total_put {base : List β} {s : State τ β} {t : τ} {x : List β} :
    total text base { s with value := x ++ text t, written := s.written ++ [t] }
      = total text base s + (text t).length := by
  unfold total
  rw [List.flatMap_append, List.flatMap_singleton, List.length_append, Nat.add_assoc]

theorem short_step {base : List β} {s s' : State τ β} (htext : ∀ t, text t ≠ [])
    (ho : Ordered s) (h : Short text base s) (hm : Moves text s s') : Short text base s' := by
  cases hm with
  | stays => exact h
  | @reads t ht =>
    have hread : ∀ u x, Function.update s.read t (some s.value) u = some x →
        u = t ∧ x = s.value ∨ s.read u = some x := by
      intro u x hx
      by_cases hut : u = t
      · rw [hut, Function.update_self, Option.some.injEq] at hx
        exact Or.inl ⟨hut, hx.symm⟩
      · rw [Function.update_of_ne hut] at hx
        exact Or.inr hx
    refine ⟨h.value, fun u x hu hx => ?_, fun u x hu hx => ?_, fun hc => ?_⟩
    · rcases hread u x hx with ⟨-, rfl⟩ | hx
      · exact h.value
      · exact h.opened u x hu hx
    · rcases hread u x hx with ⟨rfl, -⟩ | hx
      · obtain ⟨y, hy⟩ := ho.hasRead u hu
        rw [ht] at hy
        cases hy
      · exact h.closed u x hu hx
    · rw [collision_read_iff ho ht] at hc
      obtain ⟨hvalue, hopen⟩ := h.lost hc
      refine ⟨hvalue, fun u x hu hx => ?_⟩
      rcases hread u x hx with ⟨-, rfl⟩ | hx
      · exact hvalue
      · exact hopen u x hu hx
  | @puts t x hx hnew =>
    have hpos : 0 < (text t).length := List.length_pos_iff.mpr (htext t)
    have hxlen : x.length ≤ total text base s := h.opened t x hnew hx
    have hrest : ∀ u y, u ∉ s.written ++ [t] → s.read u = some y → y.length ≤ total text base s :=
      fun u y hu hy => h.opened u y (fun hin => hu (List.mem_append_left _ hin)) hy
    refine ⟨?_, fun u y hu hy => ?_, fun u y hu hy => ?_, fun hc => ⟨?_, fun u y hu hy => ?_⟩⟩
    · rw [total_put, List.length_append]
      omega
    · have hy := hrest u y hu hy
      rw [total_put]
      omega
    · rw [total_put]
      rcases List.mem_append.mp hu with hu | hu
      · have hle := h.closed u y hu hy
        omega
      · obtain rfl := List.mem_singleton.mp hu
        obtain rfl : x = y := Option.some.inj (hx.symm.trans hy)
        omega
    · -- what this call has read is shorter than all texts before it
      have hlt : x.length < total text base s := by
        rcases (collision_put_iff text hx hnew).mp hc with hc | ⟨u, hu, hread⟩
        · exact (h.lost hc).2 t x hnew hx
        · have hle := h.closed u x hu hread
          have hpos' := List.length_pos_iff.mpr (htext u)
          omega
      rw [total_put, List.length_append]
      omega
    · have hy := hrest u y hu hy
      rw [total_put]
      omega

/-- **After a collision the cell is too short for all texts.** -/
theorem no_collision_of_length {base : List β} {s : State τ β} (htext : ∀ t, text t ≠ [])
    (h : Reached text base s) (hlen : s.value.length = total text base s) : ¬ Collision s := by
  have hinit : Short text base ({ value := base } : State τ β) := by
    refine ⟨Nat.le_add_right _ _, fun t x _ hx => ?_, fun t x ht _ => ?_, fun hc => ?_⟩
    · cases hx
    · exact absurd ht List.not_mem_nil
    · obtain ⟨t, ht, -⟩ := hc
      exact absurd ht List.not_mem_nil
  have hshort := h.invariant_reached (Short text base) hinit fun s e hs hc _ =>
    short_step text htext (ordered_reached text hs) hc (step_moves text s e)
  intro hc
  exact absurd hlen (Nat.ne_of_lt (hshort.lost hc).1)

end

end SimSearch.Lib.Ledger
