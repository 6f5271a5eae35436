import Mathlib

/-!
# A map in two buffers

A map is kept twice.  Readers use the active buffer; an update goes to the other one, which is
then brought up to date and becomes the active one.

Here it is brought up to date by copying the keys that it lacks, so a key that it has keeps the
value it had two updates ago.  `active_isSome_iff` says that no key is ever missing, and
`current_iff` when every key has its latest value after every update: no key that gets another
value may be followed by an update of another key.
-/

namespace SimSearch.Lib

variable {κ ν : Type} [DecidableEq κ]

structure Buffers (κ ν : Type) where
  active : κ → Option ν := fun _ => none
  inactive : κ → Option ν := fun _ => none

/-- The update goes to the inactive buffer, which then gets the keys that it lacks. -/
def Buffers.put (b : Buffers κ ν) (e : κ × ν) : Buffers κ ν where
  active k := if k = e.1 then some e.2 else (b.inactive k).or (b.active k)
  inactive := b.active

def buffersAfter (log : List (κ × ν)) : Buffers κ ν := log.foldl Buffers.put {}

def latest (log : List (κ × ν)) (k : κ) : Option ν :=
  (log.reverse.find? fun e => e.1 = k).map Prod.snd

/-- After every update every key has its latest value. -/
def Current (log : List (κ × ν)) : Prop :=
  ∀ pre, pre <+: log → ∀ k, (buffersAfter pre).active k = latest pre k

theorem latest_concat (log : List (κ × ν)) (e : κ × ν) (k : κ) :
    latest (log ++ [e]) k = if k = e.1 then some e.2 else latest log k := by
  unfold latest
  rw [List.reverse_append, List.reverse_singleton, List.singleton_append]
  by_cases h : k = e.1
  · rw [if_pos h, List.find?_cons_of_pos (by simpa using h.symm)]
    rfl
  · rw [if_neg h, List.find?_cons_of_neg (by simpa using fun heq => h heq.symm)]

theorem buffersAfter_concat (log : List (κ × ν)) (e : κ × ν) :
    buffersAfter (log ++ [e]) = (buffersAfter log).put e := by
  rw [buffersAfter, List.foldl_append]
  rfl

/-- **No key is ever missing**, in the active buffer; the inactive one lacks what came last. -/
theorem active_isSome_iff (log : List (κ × ν)) : ∀ k,
    (((buffersAfter log).active k).isSome ↔ k ∈ log.map Prod.fst) ∧
      (((buffersAfter log).inactive k).isSome → k ∈ log.map Prod.fst) := by
  induction log using List.reverseRecOn with
  | nil => intro k; exact ⟨⟨fun h => (nomatch h), fun h => (nomatch h)⟩, fun h => (nomatch h)⟩
  | append_singleton log e ih =>
    intro k
    obtain ⟨hactive, hinactive⟩ := ih k
    rw [buffersAfter_concat, List.map_append, List.mem_append, List.map_singleton,
      List.mem_singleton]
    refine ⟨?_, fun h => Or.inl (hactive.mp h)⟩
    show (if k = e.1 then some e.2 else ((buffersAfter log).inactive k).or
      ((buffersAfter log).active k)).isSome ↔ _
    by_cases hk : k = e.1
    · rw [if_pos hk]
      exact ⟨fun _ => Or.inr hk, fun _ => rfl⟩
    · rw [if_neg hk, Option.isSome_or, Bool.or_eq_true, hactive]
      constructor
      · rintro (h | h)
        · exact Or.inl (hinactive h)
        · exact Or.inl h
      · rintro (h | h)
        · exact Or.inr h
        · exact absurd h hk

theorem latest_isSome_iff (log : List (κ × ν)) (k : κ) :
    (latest log k).isSome ↔ k ∈ log.map Prod.fst := by
  induction log using List.reverseRecOn with
  | nil => exact ⟨fun h => (nomatch h), fun h => (nomatch h)⟩
  | append_singleton log e ih =>
    rw [latest_concat, List.map_append, List.mem_append, List.map_singleton, List.mem_singleton]
    by_cases hk : k = e.1
    · rw [if_pos hk]
      exact ⟨fun _ => Or.inr hk, fun _ => rfl⟩
    · rw [if_neg hk, ih]
      exact ⟨Or.inl, fun h => h.resolve_right hk⟩

theorem current_concat_iff (log : List (κ × ν)) (e : κ × ν) :
    Current (log ++ [e]) ↔ Current log ∧
      ∀ k, (buffersAfter (log ++ [e])).active k = latest (log ++ [e]) k := by
  constructor
  · intro h
    exact ⟨fun pre hpre => h pre (hpre.trans (List.prefix_append log [e])),
      h (log ++ [e]) List.prefix_rfl⟩
  · rintro ⟨hlog, hlast⟩ pre hpre
    rcases List.prefix_concat_iff.mp hpre with heq | hpre
    · rw [heq]
      exact hlast
    · exact hlog pre hpre

theorem current_nil : Current ([] : List (κ × ν)) := by
  intro pre hpre k
  rw [List.prefix_nil.mp hpre]
  rfl

theorem current_singleton (e : κ × ν) : Current [e] := by
  refine (current_concat_iff [] e).mpr ⟨current_nil, fun k => ?_⟩
  rw [buffersAfter_concat, latest_concat]
  rfl

/-- **One more update**, after buffers that were current so far: the key of the update before it
must be the same, or new then, or not have changed its value. -/
theorem current_two_iff {log : List (κ × ν)} {d : κ × ν} (h : Current (log ++ [d])) (e : κ × ν) :
    Current (log ++ [d] ++ [e]) ↔
      (e.1 = d.1 ∨ latest log d.1 = none ∨ latest log d.1 = some d.2) := by
  have hlog : ∀ k, (buffersAfter log).active k = latest log k :=
    h log (List.prefix_append log [d])
  have hd : ∀ k, (buffersAfter (log ++ [d])).active k = latest (log ++ [d]) k :=
    h (log ++ [d]) List.prefix_rfl
  have hinactive : (buffersAfter (log ++ [d])).inactive = (buffersAfter log).active := by
    rw [buffersAfter_concat]
    rfl
  have hactive : ∀ k, (buffersAfter (log ++ [d] ++ [e])).active k
      = if k = e.1 then some e.2 else (latest log k).or (latest (log ++ [d]) k) := by
    intro k
    rw [buffersAfter_concat]
    show (if k = e.1 then some e.2 else ((buffersAfter (log ++ [d])).inactive k).or
      ((buffersAfter (log ++ [d])).active k)) = _
    rw [hinactive, hlog, hd]
  rw [current_concat_iff]
  constructor
  · rintro ⟨-, hlast⟩
    by_cases hk : e.1 = d.1
    · exact Or.inl hk
    · have hstale := hlast d.1
      rw [hactive, if_neg (Ne.symm hk), latest_concat (log ++ [d]) e, if_neg (Ne.symm hk),
        latest_concat log d, if_pos rfl] at hstale
      cases hold : latest log d.1 with
      | none => exact Or.inr (Or.inl rfl)
      | some w =>
        rw [hold, Option.some_or] at hstale
        exact Or.inr (Or.inr hstale)
  · intro hcond
    refine ⟨h, fun k => ?_⟩
    rw [hactive, latest_concat (log ++ [d])]
    by_cases hke : k = e.1
    · rw [if_pos hke, if_pos hke]
    · rw [if_neg hke, if_neg hke, latest_concat]
      by_cases hkd : k = d.1
      · rw [if_pos hkd]
        rcases hcond with heq | hnone | hsame
        · exact absurd (hkd.trans heq.symm) hke
        · rw [hkd, hnone, Option.none_or]
        · rw [hkd, hsame, Option.some_or]
      · rw [if_neg hkd, Option.or_self]

/-- **When two buffers stay current**: no update that gives a key another value is followed by an
update of another key. -/
theorem current_iff (log : List (κ × ν)) :
    Current log ↔ ∀ (pre : List (κ × ν)) (d e : κ × ν) (post : List (κ × ν)),
      log = pre ++ d :: e :: post →
        (e.1 = d.1 ∨ latest pre d.1 = none ∨ latest pre d.1 = some d.2) := by
  induction log using List.reverseRecOn with
  | nil =>
    refine ⟨fun _ pre d e post h => ?_, fun _ => current_nil⟩
    cases pre <;> cases h
  | append_singleton log e ih =>
    rcases List.eq_nil_or_concat log with rfl | ⟨log, d, rfl⟩
    · refine ⟨fun _ pre d e' post h => ?_, fun _ => current_singleton e⟩
      have hlen := congrArg List.length h
      simp only [List.nil_append, List.length_append, List.length_cons, List.length_nil] at hlen
      omega
    · rw [List.concat_eq_append] at ih ⊢
      constructor
      · intro hcurrent pre d' e' post heq
        have hbefore := ((current_concat_iff _ e).mp hcurrent).1
        rcases List.eq_nil_or_concat post with rfl | ⟨post, x, rfl⟩
        · -- the last two updates
          have hsplit : log ++ [d] ++ [e] = pre ++ [d'] ++ [e'] := by
            rw [heq]
            simp only [List.append_assoc, List.cons_append, List.nil_append]
          obtain ⟨hpre, he⟩ := List.append_inj' hsplit rfl
          obtain ⟨rfl, hd⟩ := List.append_inj' hpre rfl
          cases he
          cases hd
          exact (current_two_iff hbefore e).mp hcurrent
        · have hsplit : log ++ [d] ++ [e] = pre ++ d' :: e' :: post ++ [x] := by
            rw [heq, List.concat_eq_append]
            simp only [List.append_assoc, List.cons_append]
          exact ih.mp hbefore pre d' e' post (List.append_inj' hsplit rfl).1
      · intro hcond
        have hbefore : Current (log ++ [d]) := ih.mpr fun pre d' e' post heq =>
          hcond pre d' e' (post ++ [e])
            (by rw [heq]; simp only [List.append_assoc, List.cons_append])
        refine (current_two_iff hbefore e).mpr (hcond log d e [] ?_)
        simp only [List.append_assoc, List.cons_append, List.nil_append]

end SimSearch.Lib
