import Mathlib

/-!
# Numbers as bytes

`leBytes n v` are the `n` low bytes of `v`, the lowest first, and `beBytes n v` the
same bytes with the highest first.  Reading them back gives `v` when it fits
(`ofLeBytes_leBytes`, `ofBeBytes_beBytes`).
-/

namespace SimSearch.Lib

/-- The `n` low bytes of a number, as a little-endian machine keeps them. -/
def leBytes : Nat → Nat → List UInt8
  | 0, _ => []
  | n + 1, v => UInt8.ofNat v :: leBytes n (v / 256)

def ofLeBytes : List UInt8 → Nat
  | [] => 0
  | b :: bs => b.toNat + 256 * ofLeBytes bs

/-- The `n` low bytes in network order. -/
def beBytes (n v : Nat) : List UInt8 := (leBytes n v).reverse

def ofBeBytes (bs : List UInt8) : Nat := ofLeBytes bs.reverse

theorem leBytes_length : ∀ n v : Nat, (leBytes n v).length = n := by
  intro n
  induction n with
  | zero => intro v; rfl
  | succ n ih => intro v; rw [leBytes, List.length_cons, ih]

theorem ofLeBytes_leBytes : ∀ n v : Nat, v < 256 ^ n → ofLeBytes (leBytes n v) = v := by
  intro n
  induction n with
  | zero =>
    intro v hv
    have hzero : v = 0 := by omega
    subst hzero
    rfl
  | succ n ih =>
    intro v hv
    have hdiv : v / 256 < 256 ^ n := by
      apply Nat.div_lt_of_lt_mul
      rw [pow_succ] at hv
      omega
    have hlow : (UInt8.ofNat v).toNat = v % 256 := by simp
    rw [leBytes, ofLeBytes, ih _ hdiv, hlow]
    omega

theorem beBytes_length (n v : Nat) : (beBytes n v).length = n := by
  rw [beBytes, List.length_reverse, leBytes_length]

theorem ofBeBytes_beBytes (n v : Nat) (hv : v < 256 ^ n) : ofBeBytes (beBytes n v) = v := by
  rw [ofBeBytes, beBytes, List.reverse_reverse, ofLeBytes_leBytes n v hv]

end SimSearch.Lib
