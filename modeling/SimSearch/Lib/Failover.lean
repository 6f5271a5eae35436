import SimSearch.Lib.DoubleBuffer
import SimSearch.Lib.Indices

/-!
# Attempts one after the other

A request goes to one server after the other until one answers.  An answer is parsed into a
message, field by field.  A text that does not parse may have filled some fields before that is
noticed, and nothing clears them.

* `tryAll_none` and `tryAll_first`: what is tried when nobody answers, and when somebody does.
* `absorb_apply`: what a field holds after a parse; a field that may be repeated gets more values,
  any other one gets the last.
* `absorb_absorb_iff`: when a message that was filled before holds just the answer after all.
* `exists_up`: one of so many servers in a row is up if fewer than that are down.
-/

namespace SimSearch.Lib

variable {ι φ ν : Type} [DecidableEq φ]

/-! ### Messages -/

/-- The values of each field; a field that may not be repeated has one at most. -/
abbrev Message (φ ν : Type) := φ → List ν

section

variable (repeated : φ → Bool)

def store (m : Message φ ν) (s : φ × ν) : Message φ ν :=
  Function.update m s.1 (if repeated s.1 then m s.1 ++ [s.2] else [s.2])

/-- A parse that stores these values, one after the other. -/
def absorb (m : Message φ ν) (stored : List (φ × ν)) : Message φ ν :=
  stored.foldl (store repeated) m

def valuesOf (stored : List (φ × ν)) (f : φ) : List ν :=
  (stored.filter fun s => s.1 = f).map Prod.snd

theorem absorb_append (m : Message φ ν) (a b : List (φ × ν)) :
    absorb repeated m (a ++ b) = absorb repeated (absorb repeated m a) b := List.foldl_append ..

/-- **What a field holds after a parse.** -/
theorem absorb_apply (m : Message φ ν) (stored : List (φ × ν)) (f : φ) :
    absorb repeated m stored f
      = if repeated f then m f ++ valuesOf stored f
        else ((latest stored f).map fun v => [v]).getD (m f) := by
  induction stored using List.reverseRecOn with
  | nil =>
    rw [valuesOf, List.filter_nil, List.map_nil, List.append_nil]
    split_ifs <;> rfl
  | append_singleton stored s ih =>
    have hstep : absorb repeated m (stored ++ [s])
        = store repeated (absorb repeated m stored) s := absorb_append repeated m stored [s]
    rw [hstep, store, latest_concat, valuesOf, List.filter_append, List.map_append]
    by_cases hf : f = s.1
    · subst hf
      rw [Function.update_self, if_pos rfl, ih, List.filter_cons_of_pos (by simp)]
      by_cases hrep : repeated s.1 = true
      · rw [if_pos hrep, if_pos hrep, if_pos hrep, List.append_assoc]
        rfl
      · rw [if_neg hrep, if_neg hrep]
        rfl
    · rw [Function.update_of_ne hf, ih, if_neg hf,
        List.filter_cons_of_neg (by simpa using fun h => hf h.symm), List.filter_nil, List.map_nil,
        List.append_nil]
      rfl

/-- What was stored before an answer leaves nothing behind: no value in a field that may be
repeated, and in another one none, unless the answer sets it or it had the same value. -/
def LeavesNothing (m : Message φ ν) (before stored : List (φ × ν)) : Prop :=
  ∀ f, if repeated f then valuesOf before f = []
    else latest stored f = none → ∀ v, latest before f = some v → m f = [v]

/-- **The message is the answer alone if and only if nothing is left behind.** -/
theorem absorb_absorb_iff (m : Message φ ν) (before stored : List (φ × ν)) :
    absorb repeated (absorb repeated m before) stored = absorb repeated m stored ↔
      LeavesNothing repeated m before stored := by
  rw [funext_iff]
  refine forall_congr' fun f => ?_
  rw [absorb_apply, absorb_apply, absorb_apply]
  by_cases hrep : repeated f = true
  · simp only [if_pos hrep]
    rw [List.append_assoc, List.append_cancel_left_eq, List.append_left_eq_self]
  · simp only [if_neg hrep]
    cases latest stored f with
    | some w => exact ⟨fun _ h => (nomatch h), fun _ => rfl⟩
    | none =>
      cases latest before f with
      | none => exact ⟨fun _ _ v h => (nomatch h), fun _ => rfl⟩
      | some v =>
        constructor
        · intro heq _ v' hv'
          rw [← Option.some.inj hv']
          exact heq.symm
        · intro h
          exact (h rfl v rfl).symm

end

/-! ### Attempts -/

/-- How an attempt ends: with no text, with one that does not parse, or with an answer; and what
the parse has stored. -/
inductive Attempt (φ ν : Type)
  | failed
  | garbled (stored : List (φ × ν))
  | ok (stored : List (φ × ν))

def Attempt.leftover : Attempt φ ν → List (φ × ν)
  | .garbled stored => stored
  | _ => []

/-- The servers that were tried, whether one has answered, and the message. -/
structure Tried (ι φ ν : Type) where
  visited : List ι
  ret : Bool
  response : Message φ ν

def Tried.after (t : Tried ι φ ν) (c : ι) : Tried ι φ ν := { t with visited := c :: t.visited }

def tryAll (repeated : φ → Bool) (reply : ι → Attempt φ ν) : List ι → Message φ ν → Tried ι φ ν
  | [], m => ⟨[], false, m⟩
  | c :: cs, m =>
    match reply c with
    | .failed => (tryAll repeated reply cs m).after c
    | .garbled stored => (tryAll repeated reply cs (absorb repeated m stored)).after c
    | .ok stored => ⟨[c], true, absorb repeated m stored⟩

section

variable {repeated : φ → Bool} {reply : ι → Attempt φ ν}

def Answers (reply : ι → Attempt φ ν) (c : ι) : Prop := ∃ stored, reply c = .ok stored

/-- A server that does not answer is passed over, and leaves what its text has stored. -/
theorem tryAll_cons {c : ι} (h : ¬ Answers reply c) (cs : List ι) (m : Message φ ν) :
    tryAll repeated reply (c :: cs) m
      = (tryAll repeated reply cs (absorb repeated m (reply c).leftover)).after c := by
  rw [tryAll]
  cases hc : reply c with
  | failed => rfl
  | garbled stored => rfl
  | ok stored => exact absurd ⟨stored, hc⟩ h

/-- **Nobody answers**: all are tried. -/
theorem tryAll_none {cs : List ι} (h : ∀ c ∈ cs, ¬ Answers reply c) (m : Message φ ν) :
    tryAll repeated reply cs m
      = ⟨cs, false, absorb repeated m (cs.flatMap fun c => (reply c).leftover)⟩ := by
  induction cs generalizing m with
  | nil => rfl
  | cons c cs ih =>
    obtain ⟨hc, hcs⟩ := List.forall_mem_cons.mp h
    rw [tryAll_cons hc, ih hcs, List.flatMap_cons, absorb_append]
    rfl

/-- **The first one that answers is the last one that is tried.** -/
theorem tryAll_first {pre post : List ι} {c : ι} {stored : List (φ × ν)}
    (h : ∀ d ∈ pre, ¬ Answers reply d) (hc : reply c = .ok stored) (m : Message φ ν) :
    tryAll repeated reply (pre ++ c :: post) m
      = ⟨pre ++ [c], true, absorb repeated
          (absorb repeated m (pre.flatMap fun d => (reply d).leftover)) stored⟩ := by
  induction pre generalizing m with
  | nil =>
    rw [List.nil_append, tryAll, hc]
    rfl
  | cons d pre ih =>
    obtain ⟨hd, hpre⟩ := List.forall_mem_cons.mp h
    rw [List.cons_append, tryAll_cons hd, ih hpre, List.flatMap_cons, absorb_append]
    rfl

omit [DecidableEq φ] in
theorem exists_first {cs : List ι} (h : ∃ c ∈ cs, Answers reply c) :
    ∃ pre c post stored, cs = pre ++ c :: post ∧ (∀ d ∈ pre, ¬ Answers reply d) ∧
      reply c = .ok stored := by
  induction cs with
  | nil =>
    obtain ⟨c, hc, -⟩ := h
    cases hc
  | cons d cs ih =>
    by_cases hd : Answers reply d
    · obtain ⟨stored, hstored⟩ := hd
      exact ⟨[], d, cs, stored, rfl, fun _ hx => (nomatch hx), hstored⟩
    · obtain ⟨c, hc, hans⟩ := h
      have hrest : c ∈ cs := by
        rcases List.mem_cons.mp hc with rfl | hc
        · exact absurd hans hd
        · exact hc
      obtain ⟨pre, c', post, stored, rfl, hpre, hstored⟩ := ih ⟨c, hrest, hans⟩
      exact ⟨d :: pre, c', post, stored, rfl, List.forall_mem_cons.mpr ⟨hd, hpre⟩, hstored⟩

/-- The servers are tried in their order, and the result says whether one has answered. -/
theorem tryAll_spec (cs : List ι) (m : Message φ ν) :
    (tryAll repeated reply cs m).visited <+: cs ∧
      ((tryAll repeated reply cs m).ret = true ↔ ∃ c ∈ cs, Answers reply c) := by
  by_cases h : ∃ c ∈ cs, Answers reply c
  · obtain ⟨pre, c, post, stored, rfl, hpre, hc⟩ := exists_first h
    rw [tryAll_first hpre hc]
    refine ⟨⟨post, ?_⟩, ⟨fun _ => h, fun _ => rfl⟩⟩
    rw [List.append_assoc]
    rfl
  · have hnone : ∀ c ∈ cs, ¬ Answers reply c := fun c hc hans => h ⟨c, hc, hans⟩
    rw [tryAll_none hnone]
    exact ⟨List.prefix_rfl, ⟨fun hf => (nomatch hf), fun hsome => absurd hsome h⟩⟩

end

/-! ### Servers in a circle -/

theorem add_mod_inj {n a i j : Nat} (hi : i < n) (hj : j < n) (h : (a + i) % n = (a + j) % n) :
    i = j := (Nat.ModEq.add_left_cancel' a h).eq_of_lt_of_lt hi hj

/-- **One of `m` servers in a row is up**, from whichever one on, if fewer than `m` are down. -/
theorem exists_up {α : Type} {down : α → Bool} {l : List α} {m : Nat} (first : Nat)
    (hm : m ≤ l.length) (hcount : l.countP down < m) :
    ∃ i < m, ∃ a, l[(first + i) % l.length]? = some a ∧ down a = false := by
  by_contra hnone
  have hlt : ∀ i, i < m → (first + i) % l.length < l.length :=
    fun i hi => Nat.mod_lt _ (by omega)
  have hdown : ∀ i ∈ List.range m, (l[(first + i) % l.length]?).any down = true := by
    intro i hi
    have hi := List.mem_range.mp hi
    rw [List.getElem?_eq_getElem (hlt i hi), Option.any_some]
    by_contra hup
    exact hnone ⟨i, hi, _, List.getElem?_eq_getElem (hlt i hi), Bool.eq_false_iff.mpr hup⟩
  -- they are different places of the list, so that many are down
  have hsub : ((List.range m).map fun i => (first + i) % l.length).Subperm
      (List.range l.length) := by
    refine List.Nodup.subperm ?_ fun j hj => ?_
    · refine (List.nodup_range).map_on fun i hi j hj heq => ?_
      rw [List.mem_range] at hi hj
      exact add_mod_inj (by omega) (by omega) heq
    · obtain ⟨i, hi, rfl⟩ := List.mem_map.mp hj
      exact List.mem_range.mpr (hlt i (List.mem_range.mp hi))
  have hwhole : (List.range l.length).countP (fun j => (l[j]?).any down) = l.countP down := by
    conv_rhs => rw [← filterMap_range_getElem? l, List.countP_filterMap]
    refine List.countP_congr fun j _ => ?_
    cases l[j]? <;> simp
  have hle := hsub.countP_le fun j => (l[j]?).any down
  have hall := List.countP_eq_length.mpr hdown
  rw [List.length_range] at hall
  rw [List.countP_map, hwhole] at hle
  exact absurd (hall.symm.le.trans hle) (by omega)

end SimSearch.Lib
