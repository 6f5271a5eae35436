import Mathlib

/-!
# A key-value store with leases

A key is stored with the lease it is attached to; the lease `0` is none.  A grant makes a
lease live, `put` refuses a lease that is not, and a lease that expires takes its keys
along.  `Leased s k` says that the key is absent or goes with a live lease, and the
operations keep it, except a `put` without a lease (`leased_put`).
-/

namespace SimSearch.Lib

structure LeaseStore (κ ν ι : Type) where
  live : ι → Bool := fun _ => false
  kv : κ → Option (ν × ι) := fun _ => none

namespace LeaseStore

variable {κ ν ι : Type}

/-- The key is absent, or attached to a live lease. -/
def Leased [Zero ι] (s : LeaseStore κ ν ι) (k : κ) : Prop :=
  ∀ v i, s.kv k = some (v, i) → i ≠ 0 ∧ s.live i = true

/-- What leaves the key alone and ends no lease keeps a key leased. -/
theorem Leased.mono [Zero ι] {s s' : LeaseStore κ ν ι} {k : κ} (h : s.Leased k)
    (hkv : s'.kv k = s.kv k) (hlive : ∀ i, s.live i = true → s'.live i = true) :
    s'.Leased k := by
  intro v i hk
  rw [hkv] at hk
  obtain ⟨hne, hi⟩ := h v i hk
  exact ⟨hne, hlive i hi⟩

variable [DecidableEq ι]

def grant [Zero ι] (s : LeaseStore κ ν ι) (i : ι) : Option (LeaseStore κ ν ι) :=
  if i = 0 ∨ s.live i then none else some { s with live := Function.update s.live i true }

theorem leased_grant [Zero ι] {s s' : LeaseStore κ ν ι} {k : κ} {i : ι} (h : s.Leased k)
    (hs : s.grant i = some s') : s'.Leased k := by
  unfold grant at hs
  split_ifs at hs
  cases hs
  refine h.mono rfl fun j hj => ?_
  by_cases hji : j = i
  · rw [hji]
    exact Function.update_self ..
  · exact (Function.update_of_ne hji ..).trans hj

def expire (s : LeaseStore κ ν ι) (i : ι) : LeaseStore κ ν ι where
  live := Function.update s.live i false
  kv k := (s.kv k).filter fun x => x.2 ≠ i

theorem leased_expire [Zero ι] {s : LeaseStore κ ν ι} {k : κ} (h : s.Leased k) (i : ι) :
    (s.expire i).Leased k := by
  intro v j hj
  obtain ⟨hkv, hne⟩ := Option.filter_eq_some_iff.mp hj
  obtain ⟨hzero, hlive⟩ := h v j hkv
  refine ⟨hzero, ?_⟩
  exact (Function.update_of_ne (of_decide_eq_true hne) ..).trans hlive

theorem expire_kv {s : LeaseStore κ ν ι} {k : κ} {v : ν} {i : ι} (h : s.kv k = some (v, i)) :
    (s.expire i).kv k = none := by
  simp [expire, h]

theorem expire_kv_of_ne {s : LeaseStore κ ν ι} {k : κ} {v : ν} {i j : ι}
    (h : s.kv k = some (v, i)) (hne : i ≠ j) : (s.expire j).kv k = some (v, i) := by
  simp [expire, h, hne]

/-- The key is stored, unless it is to be attached to a lease that is not live. -/
def put [Zero ι] [DecidableEq κ] (s : LeaseStore κ ν ι) (k : κ) (v : ν) (i : ι) :
    Option (LeaseStore κ ν ι) :=
  if i = 0 ∨ s.live i then some { s with kv := Function.update s.kv k (some (v, i)) } else none

theorem leased_put [Zero ι] [DecidableEq κ] {s s' : LeaseStore κ ν ι} {k k' : κ} {v : ν} {i : ι}
    (h : s.Leased k) (hi : k' = k → i ≠ 0) (hs : s.put k' v i = some s') : s'.Leased k := by
  unfold put at hs
  split_ifs at hs with hlive
  cases hs
  by_cases hk : k = k'
  · subst hk
    intro w j hj
    have hself : Function.update s.kv k (some (v, i)) k = some (v, i) := Function.update_self ..
    obtain ⟨-, rfl⟩ := Prod.mk.inj (Option.some.inj (hself.symm.trans hj))
    exact ⟨hi rfl, hlive.resolve_left (hi rfl)⟩
  · exact h.mono (Function.update_of_ne hk ..) fun _ hj => hj

end LeaseStore

end SimSearch.Lib
