import SimSearch.Lib.AppendFile

/-!
# Ranges of a file in a buffer

Ranges of a file, each an offset and a length, are to be put one after the other into a buffer:
`gather` is what should be there.  `copyInPlace` puts each range at the offset that it has in the
file.

* `getElem?_copyInPlace`: what the buffer then holds.
* `copyInPlace_eq_gather`: it is right when the ranges follow each other from the start of the
  file on.
* `consecutive_of_copyInPlace`: and only then, if it is to be right for every content of the file.
-/

namespace SimSearch.Lib.Ranges

variable {β : Type}

def total (rs : List (Nat × Nat)) : Nat := (rs.map Prod.snd).sum

def gather (file : List β) (rs : List (Nat × Nat)) : List β :=
  rs.flatMap fun r => readAt file r.1 r.2

def copyInPlace (fill : β) (file : List β) (rs : List (Nat × Nat)) (buf : List β) : List β :=
  rs.foldl (fun buf r => writeAt fill buf r.1 (readAt file r.1 r.2)) buf

/-- The ranges that are not empty end before `n`. -/
def Within (n : Nat) (rs : List (Nat × Nat)) : Prop := ∀ r ∈ rs, 0 < r.2 → r.1 + r.2 ≤ n

/-- Each range that is not empty starts where the ones before it end. -/
def ConsecutiveFrom : Nat → List (Nat × Nat) → Prop
  | _, [] => True
  | n, r :: rs => (0 < r.2 → r.1 = n) ∧ ConsecutiveFrom (n + r.2) rs

theorem total_cons (r : Nat × Nat) (rs : List (Nat × Nat)) : total (r :: rs) = r.2 + total rs := by
  rw [total, List.map_cons, List.sum_cons]
  rfl

theorem gather_cons (file : List β) (r : Nat × Nat) (rs : List (Nat × Nat)) :
    gather file (r :: rs) = readAt file r.1 r.2 ++ gather file rs := List.flatMap_cons

theorem within_cons {n : Nat} {r : Nat × Nat} {rs : List (Nat × Nat)} :
    Within n (r :: rs) ↔ (0 < r.2 → r.1 + r.2 ≤ n) ∧ Within n rs := List.forall_mem_cons

theorem length_readAt_of_pos {file : List β} {off len : Nat}
    (h : 0 < len → off + len ≤ file.length) : (readAt file off len).length = len := by
  by_cases hpos : 0 < len
  · exact length_readAt (h hpos)
  · have hzero : len = 0 := Nat.eq_zero_of_not_pos hpos
    rw [hzero, readAt, List.take_zero]
    rfl

theorem length_gather {file : List β} {rs : List (Nat × Nat)} (h : Within file.length rs) :
    (gather file rs).length = total rs := by
  induction rs with
  | nil => rfl
  | cons r rs ih =>
    obtain ⟨hr, hrs⟩ := within_cons.mp h
    rw [gather_cons, List.length_append, length_readAt_of_pos hr, ih hrs, total_cons]

/-! ### What is in the buffer -/

theorem length_writeAt_of_within (fill : β) {file buf : List β} {r : Nat × Nat}
    (hfile : 0 < r.2 → r.1 + r.2 ≤ file.length) (hbuf : 0 < r.2 → r.1 + r.2 ≤ buf.length) :
    (writeAt fill buf r.1 (readAt file r.1 r.2)).length = buf.length := by
  have hlen := length_readAt_of_pos hfile
  by_cases hpos : 0 < r.2
  · have hin := hbuf hpos
    rw [length_writeAt fill (by omega), hlen]
    omega
  · have hempty : readAt file r.1 r.2 = [] := List.length_eq_zero_iff.mp (by omega)
    rw [hempty, writeAt, if_pos rfl]

theorem length_copyInPlace (fill : β) {file : List β} :
    ∀ {rs : List (Nat × Nat)} {buf : List β}, Within file.length rs → Within buf.length rs →
      (copyInPlace fill file rs buf).length = buf.length := by
  intro rs
  induction rs with
  | nil => intro buf _ _; rfl
  | cons r rs ih =>
    intro buf hfile hbuf
    obtain ⟨hfile₁, hfile₂⟩ := within_cons.mp hfile
    obtain ⟨hbuf₁, hbuf₂⟩ := within_cons.mp hbuf
    have hlen := length_writeAt_of_within fill hfile₁ hbuf₁
    rw [copyInPlace, List.foldl_cons]
    exact (ih hfile₂ (by rw [hlen]; exact hbuf₂)).trans hlen

def Covered (rs : List (Nat × Nat)) (j : Nat) : Prop := ∃ r ∈ rs, r.1 ≤ j ∧ j < r.1 + r.2

theorem covered_cons {r : Nat × Nat} {rs : List (Nat × Nat)} {j : Nat} :
    Covered (r :: rs) j ↔ (r.1 ≤ j ∧ j < r.1 + r.2) ∨ Covered rs j := by
  rw [Covered, List.exists_mem_cons_iff]
  rfl

theorem getElem?_writeAt_range (fill : β) {file buf : List β} {r : Nat × Nat}
    (hfile : 0 < r.2 → r.1 + r.2 ≤ file.length) (hbuf : 0 < r.2 → r.1 + r.2 ≤ buf.length)
    (j : Nat) :
    (writeAt fill buf r.1 (readAt file r.1 r.2))[j]?
      = if r.1 ≤ j ∧ j < r.1 + r.2 then file[j]? else buf[j]? := by
  have hlen := length_readAt_of_pos hfile
  by_cases hpos : 0 < r.2
  · rw [getElem?_writeAt fill (by rw [hlen]; exact hbuf hpos), hlen]
    by_cases hj : r.1 ≤ j ∧ j < r.1 + r.2
    · rw [if_pos hj, if_pos hj, getElem?_readAt (by omega), Nat.add_sub_cancel' hj.1]
    · rw [if_neg hj, if_neg hj]
  · have hempty : readAt file r.1 r.2 = [] := List.length_eq_zero_iff.mp (by omega)
    rw [hempty, writeAt, if_pos rfl, if_neg (by omega)]

/-- **The buffer holds the bytes of the file at their own places**, and elsewhere what it held
before. -/
theorem getElem?_copyInPlace (fill : β) {file : List β} (j : Nat) :
    ∀ {rs : List (Nat × Nat)} {buf : List β}, Within file.length rs → Within buf.length rs →
      (Covered rs j → (copyInPlace fill file rs buf)[j]? = file[j]?) ∧
        (¬ Covered rs j → (copyInPlace fill file rs buf)[j]? = buf[j]?) := by
  intro rs
  induction rs with
  | nil =>
    intro buf _ _
    exact ⟨fun ⟨_, hr, _⟩ => (nomatch hr), fun _ => rfl⟩
  | cons r rs ih =>
    intro buf hfile hbuf
    obtain ⟨hfile₁, hfile₂⟩ := within_cons.mp hfile
    obtain ⟨hbuf₁, hbuf₂⟩ := within_cons.mp hbuf
    have hlen := length_writeAt_of_within fill hfile₁ hbuf₁
    have hone := getElem?_writeAt_range fill hfile₁ hbuf₁ j
    obtain ⟨hin, hout⟩ := ih hfile₂ (by rw [hlen]; exact hbuf₂ : Within
      (writeAt fill buf r.1 (readAt file r.1 r.2)).length rs)
    rw [covered_cons, copyInPlace, List.foldl_cons]
    constructor
    · rintro (hr | hrs)
      · by_cases hrs : Covered rs j
        · exact hin hrs
        · exact (hout hrs).trans (hone.trans (if_pos hr))
      · exact hin hrs
    · intro hno
      rw [not_or] at hno
      exact (hout hno.2).trans (hone.trans (if_neg hno.1))

/-! ### When it is right -/

theorem gather_consecutive (file : List β) : ∀ {rs : List (Nat × Nat)} {n : Nat},
    ConsecutiveFrom n rs → gather file rs = readAt file n (total rs) := by
  intro rs
  induction rs with
  | nil =>
    intro n _
    rfl
  | cons r rs ih =>
    intro n h
    have hr : readAt file r.1 r.2 = readAt file n r.2 := by
      by_cases hpos : 0 < r.2
      · rw [h.1 hpos]
      · rw [Nat.eq_zero_of_not_pos hpos, readAt, readAt, List.take_zero, List.take_zero]
    rw [gather_cons, total_cons, readAt_add, hr, ih h.2]

theorem within_consecutive : ∀ {rs : List (Nat × Nat)} {n : Nat}, ConsecutiveFrom n rs →
    Within (n + total rs) rs := by
  intro rs
  induction rs with
  | nil => intro n _ r hr; cases hr
  | cons r rs ih =>
    intro n h
    rw [total_cons]
    refine within_cons.mpr ⟨fun hpos => ?_, ?_⟩
    · have hoff := h.1 hpos
      omega
    · rw [← Nat.add_assoc]
      exact ih h.2

theorem covered_consecutive {j : Nat} : ∀ {rs : List (Nat × Nat)} {n : Nat}, ConsecutiveFrom n rs →
    n ≤ j → j < n + total rs → Covered rs j := by
  intro rs
  induction rs with
  | nil =>
    intro n _ hle hlt
    exact absurd hlt (Nat.not_lt.mpr hle)
  | cons r rs ih =>
    intro n h hle hlt
    rw [total_cons] at hlt
    rw [covered_cons]
    by_cases hj : j < n + r.2
    · have hoff := h.1 (by omega)
      exact Or.inl ⟨by omega, by omega⟩
    · exact Or.inr (ih h.2 (by omega) (by omega))

/-- **Ranges that follow each other from the start on** are gathered by copying them in place. -/
theorem copyInPlace_eq_gather (fill : β) {file buf : List β} {rs : List (Nat × Nat)}
    (h : ConsecutiveFrom 0 rs) (hfile : Within file.length rs) (hbuf : buf.length = total rs) :
    copyInPlace fill file rs buf = gather file rs := by
  have hin : Within buf.length rs := by
    have hall := within_consecutive h
    rw [Nat.zero_add, ← hbuf] at hall
    exact hall
  refine List.ext_getElem? fun j => ?_
  by_cases hj : j < total rs
  · have hcov : Covered rs j := covered_consecutive h (Nat.zero_le _) (by omega)
    rw [(getElem?_copyInPlace fill j hfile hin).1 hcov, gather_consecutive file h,
      getElem?_readAt hj, Nat.zero_add]
  · rw [List.getElem?_eq_none (by rw [length_copyInPlace fill hfile hin]; omega),
      List.getElem?_eq_none (by rw [length_gather hfile]; omega)]

/-- The first range that is not where the ones before it end. -/
theorem exists_of_not_consecutive : ∀ {rs : List (Nat × Nat)} {n : Nat}, ¬ ConsecutiveFrom n rs →
    ∃ pre r post, rs = pre ++ r :: post ∧ 0 < r.2 ∧ r.1 ≠ n + total pre := by
  intro rs
  induction rs with
  | nil => intro n h; exact absurd trivial h
  | cons r rs ih =>
    intro n h
    by_cases hr : 0 < r.2 → r.1 = n
    · have hrs : ¬ ConsecutiveFrom (n + r.2) rs := fun hrs => h ⟨hr, hrs⟩
      obtain ⟨pre, r', post, rfl, hpos, hne⟩ := ih hrs
      refine ⟨r :: pre, r', post, rfl, hpos, ?_⟩
      rw [total_cons, ← Nat.add_assoc]
      exact hne
    · rw [Classical.not_imp] at hr
      exact ⟨[], r, rs, rfl, hr.1, hr.2⟩

/-- **If copying in place is right for every content of the file, the ranges follow each
other.**  Otherwise there is a content whose first byte of some range is nowhere else. -/
theorem consecutive_of_copyInPlace (fill : β) (hthird : ∀ a b : β, ∃ v, v ≠ a ∧ v ≠ b)
    {len : Nat} {buf : List β} {rs : List (Nat × Nat)} (hlen : Within len rs)
    (hbuf : Within buf.length rs)
    (h : ∀ file : List β, file.length = len → copyInPlace fill file rs buf = gather file rs) :
    ConsecutiveFrom 0 rs := by
  by_contra hno
  obtain ⟨pre, r, post, rfl, hpos, hne⟩ := exists_of_not_consecutive hno
  rw [Nat.zero_add] at hne
  obtain ⟨v, hfill, hold⟩ := hthird fill (buf[total pre]?.getD fill)
  have hfile : ((List.replicate len fill).set r.1 v).length = len := by
    rw [List.length_set, List.length_replicate]
  have hr : r.1 + r.2 ≤ len := hlen r (List.mem_append_right _ List.mem_cons_self) hpos
  have heq := h _ hfile
  rw [← hfile] at hlen
  -- what is wanted in place `total pre`
  have hwant : (gather ((List.replicate len fill).set r.1 v) (pre ++ r :: post))[total pre]?
      = some v := by
    have hpre : (gather ((List.replicate len fill).set r.1 v) pre).length = total pre :=
      length_gather fun x hx => hlen x (List.mem_append_left _ hx)
    rw [gather, List.flatMap_append, ← gather, ← gather, gather_cons, List.getElem?_append_right
      (Nat.le_of_eq hpre), hpre, Nat.sub_self, List.getElem?_append_left, getElem?_readAt hpos,
      Nat.add_zero, List.getElem?_set_self]
    · rw [List.length_replicate]
      omega
    · rw [length_readAt (by rw [hfile]; exact hr)]
      exact hpos
  rw [← heq] at hwant
  obtain ⟨hin, hout⟩ := getElem?_copyInPlace fill (total pre) hlen hbuf
  by_cases hcov : Covered (pre ++ r :: post) (total pre)
  · rw [hin hcov, List.getElem?_set_ne hne, List.getElem?_replicate] at hwant
    split_ifs at hwant
    exact hfill (Option.some.inj hwant).symm
  · rw [hout hcov] at hwant
    rw [hwant] at hold
    exact hold rfl

end SimSearch.Lib.Ranges
