import SimSearch.Common.StringArrays
import SimSearch.Lib.PrefixRange
import SimSearch.Master.Keys

/-!
# The keys that a router reads

`GetRangeEnd` of `clients/etcd_client.cc`, with which `SpaceManager::Init` of
`service/router/space_manager.cc` asks etcd for all keys below a prefix, and `prefix_range_end`
of `test/test_etcd_range.py`, which is meant to be the same.

`GetRangeEnd` adds one to the last byte.  A byte `0xFF` becomes zero, and the carry is lost.

* `inRange_prefixRangeEnd`: the range of the reference is exact for every prefix.
* `getRangeEnd_of_ne`: so is that of `GetRangeEnd`, unless the prefix ends with `0xFF`.
* `rangeEtcd_eq_scanEtcd`: no text has such a byte, so for every text that is not empty a router
  reads what the master's scan of the prefix gives.
-/

namespace SimSearch.Router

open SimSearch.Lib

/-! ### Range ends -/

/-- `GetRangeEnd`: the last byte is raised by one, as a `char`. -/
def getRangeEnd (key : Bytes) : Bytes :=
  match key.getLast? with
  | none => key
  | some b => key.dropLast ++ [b + 1]

/-- The loop of `prefix_range_end`, on the bytes from the last one on. -/
def prefixRangeEndFrom : List UInt8 → Bytes
  | [] => [0]
  | b :: bs => if b < 0xFF then bs.reverse ++ [b + 1] else prefixRangeEndFrom bs

def prefixRangeEnd (key : Bytes) : Bytes := prefixRangeEndFrom key.reverse

/-- The range end that stands for no end at all. -/
def noEnd : Bytes := [0]

/-- Whether etcd takes a key as one of the range; a range without an end is the key alone. -/
def InRange (key rangeEnd k : Bytes) : Prop :=
  if rangeEnd = [] then k = key else key ≤ k ∧ (rangeEnd = noEnd ∨ k < rangeEnd)

instance (key rangeEnd k : Bytes) : Decidable (InRange key rangeEnd k) :=
  inferInstanceAs (Decidable (ite _ _ _))

/-- `_etcd_space_prefix` of `config/conf.cc`. -/
def etcdSpacePrefix : String := "/spaces/mata"

/-! ### Bytes -/

theorem toNat_lt_of_ne {b : UInt8} (h : b ≠ 255) : b.toNat < 255 := by
  have hb := b.toNat_lt
  have hne : b.toNat ≠ 255 := fun heq => h (UInt8.toNat_inj.mp heq)
  omega

theorem toNat_succ {b : UInt8} (h : b ≠ 255) : (b + 1).toNat = b.toNat + 1 := by
  have hlt : b.toNat + 1 < 2 ^ 8 := Nat.succ_lt_succ (toNat_lt_of_ne h)
  rw [UInt8.toNat_add]
  exact Nat.mod_eq_of_lt hlt

theorem next_byte {b : UInt8} (h : b ≠ 255) : Next b (b + 1) := by
  have hsucc := toNat_succ h
  constructor
  · rw [UInt8.lt_iff_toNat_lt, hsucc]
    omega
  · intro c hbc hc
    rw [UInt8.lt_iff_toNat_lt] at hbc hc
    omega

theorem top_byte : Top (255 : UInt8) := by
  intro c hc
  have hlt := c.toNat_lt
  have hc' : 255 < c.toNat := UInt8.lt_iff_toNat_lt.mp hc
  omega

theorem getRangeEnd_concat (q : Bytes) (b : UInt8) : getRangeEnd (q ++ [b]) = q ++ [b + 1] := by
  unfold getRangeEnd
  rw [List.getLast?_concat, List.dropLast_concat]

/-- **The range is exact when the last byte can be raised.** -/
theorem getRangeEnd_of_ne (q : Bytes) {b : UInt8} (h : b ≠ 255) (k : Bytes) :
    (q ++ [b] ≤ k ∧ k < getRangeEnd (q ++ [b])) ↔ q ++ [b] <+: k := by
  rw [getRangeEnd_concat]
  exact range_of_next (next_byte h) (List.forall_mem_nil _) q k

/-- When it cannot, the range is empty, although the key itself should be in it. -/
theorem getRangeEnd_of_carry (q k : Bytes) :
    ¬ (q ++ [255] ≤ k ∧ k < getRangeEnd (q ++ [255])) := by
  rw [getRangeEnd_concat]
  rintro ⟨hlow, hhigh⟩
  have hlt : q ++ [255 + 1] < q ++ [(255 : UInt8)] :=
    List.append_left_lt (by decide)
  exact List.not_le.mpr (List.lt_trans hhigh hlt) hlow

/-! ### The reference -/

theorem prefixRangeEndFrom_cases (l : List UInt8) :
    ((∀ b ∈ l, b = 255) ∧ prefixRangeEndFrom l = noEnd) ∨
    ∃ ts b bs, l = ts ++ b :: bs ∧ (∀ t ∈ ts, t = 255) ∧ b ≠ 255 ∧
      prefixRangeEndFrom l = bs.reverse ++ [b + 1] := by
  induction l with
  | nil => exact Or.inl ⟨fun _ h => (nomatch h), rfl⟩
  | cons b l ih =>
    rw [prefixRangeEndFrom]
    by_cases hb : b = 255
    · rw [if_neg (by rw [hb]; decide)]
      rcases ih with ⟨hall, hend⟩ | ⟨ts, b', bs, rfl, hts, hb', hend⟩
      · exact Or.inl ⟨List.forall_mem_cons.mpr ⟨hb, hall⟩, hend⟩
      · exact Or.inr ⟨b :: ts, b', bs, rfl, List.forall_mem_cons.mpr ⟨hb, hts⟩, hb', hend⟩
    · rw [if_pos (UInt8.lt_iff_toNat_lt.mpr (toNat_lt_of_ne hb))]
      exact Or.inr ⟨[], b, l, rfl, fun _ h => (nomatch h), hb, rfl⟩

theorem prefixRangeEnd_cases (key : Bytes) :
    ((∀ b ∈ key, b = 255) ∧ prefixRangeEnd key = noEnd) ∨
    ∃ q b ts, key = q ++ b :: ts ∧ (∀ t ∈ ts, t = 255) ∧ b ≠ 255 ∧
      prefixRangeEnd key = q ++ [b + 1] := by
  rcases prefixRangeEndFrom_cases key.reverse with ⟨hall, hend⟩ | ⟨ts, b, bs, hkey, hts, hb, hend⟩
  · exact Or.inl ⟨fun b hb => hall b (List.mem_reverse.mpr hb), hend⟩
  · refine Or.inr ⟨bs.reverse, b, ts.reverse, ?_, fun t ht => hts t (List.mem_reverse.mp ht), hb,
      hend⟩
    rw [← List.reverse_reverse key, hkey, List.reverse_append, List.reverse_cons]
    rw [List.append_assoc, List.singleton_append]

theorem concat_ne_noEnd {q : Bytes} {b : UInt8} (h : b ≠ 255) : q ++ [b + 1] ≠ noEnd := by
  intro heq
  have hlast := (List.append_inj' (show q ++ [b + 1] = [] ++ [0] from heq) rfl).2
  have hzero := congrArg UInt8.toNat (List.singleton_inj.mp hlast)
  rw [toNat_succ h] at hzero
  exact Nat.succ_ne_zero _ hzero

/-- **The range of the reference is exact**, for every prefix. -/
theorem inRange_prefixRangeEnd (key k : Bytes) :
    InRange key (prefixRangeEnd key) k ↔ key <+: k := by
  rcases prefixRangeEnd_cases key with ⟨hall, hend⟩ | ⟨q, b, ts, rfl, hts, hb, hend⟩
  · rw [hend, InRange, if_neg (by decide), ← le_iff_of_tops fun b hb => hall b hb ▸ top_byte]
    exact and_iff_left (Or.inl rfl)
  · rw [hend, InRange, if_neg (List.append_ne_nil_of_right_ne_nil _ (List.cons_ne_nil _ _)),
      or_iff_right (concat_ne_noEnd hb)]
    exact range_of_next (next_byte hb) (fun t ht => hts t ht ▸ top_byte) q k

/-- A bound exists unless all bytes are `0xFF`. -/
theorem exists_bound_iff (key : Bytes) :
    (∃ r, ∀ k, (key ≤ k ∧ k < r) ↔ key <+: k) ↔ ¬ ∀ b ∈ key, b = 255 := by
  constructor
  · rintro ⟨r, hr⟩ hall
    exact no_end_of_tops (fun b hb => hall b hb ▸ top_byte) r hr
  · intro hnot
    rcases prefixRangeEnd_cases key with ⟨hall, -⟩ | ⟨q, b, ts, rfl, hts, hb, -⟩
    · exact absurd hall hnot
    · exact ⟨q ++ [b + 1], range_of_next (next_byte hb) (fun t ht => hts t ht ▸ top_byte) q⟩

/-! ### When `GetRangeEnd` is exact -/

/-- **The range is exact**: it has the keys that begin with the prefix, or, where no bound exists
(`exists_bound_iff`), it has no end. -/
def ExactRange (p : Bytes) : Prop :=
  ((∀ b ∈ p, b = 255) → getRangeEnd p = noEnd ∧ prefixRangeEnd p = noEnd) ∧
    ((¬ ∀ b ∈ p, b = 255) → ∀ k, (p ≤ k ∧ k < getRangeEnd p) ↔ p <+: k)

/-- The range is exact if and only if the prefix does not end with the byte `0xFF`, or is that
byte alone. -/
theorem prefix_range_iff (p : Bytes) (hp : p ≠ []) :
    ExactRange p ↔ p.getLast hp ≠ 255 ∨ p = [255] := by
  obtain ⟨q, b, rfl⟩ : ∃ q b, p = q ++ [b] := ⟨_, _, (List.dropLast_append_getLast hp).symm⟩
  rw [List.getLast_concat]
  unfold ExactRange
  by_cases hb : b = 255
  · subst hb
    rw [or_iff_right (not_not.mpr rfl)]
    constructor
    · rintro ⟨htops, hexact⟩
      by_cases hall : ∀ b ∈ q ++ [255], b = 255
      · -- the last byte is zero, so the marker is all there is
        have hend := (htops hall).1
        rw [getRangeEnd_concat] at hend
        rw [(List.append_inj' (show q ++ [255 + 1] = [] ++ [0] from hend) rfl).1, List.nil_append]
      · exact absurd ((hexact hall (q ++ [255])).mpr List.prefix_rfl) (getRangeEnd_of_carry q _)
    · intro hone
      rw [hone]
      exact ⟨fun _ => ⟨rfl, rfl⟩, fun hno => absurd (fun b hb => List.mem_singleton.mp hb) hno⟩
  · have hno : ¬ ∀ b' ∈ q ++ [b], b' = 255 := fun hall =>
      hb (hall b (List.mem_append_right _ List.mem_cons_self))
    exact ⟨fun _ => Or.inl hb, fun _ => ⟨fun hall => absurd hall hno,
      fun _ => getRangeEnd_of_ne q hb⟩⟩

theorem prefix_range_spaces :
    utf8Bytes etcdSpacePrefix ≠ [] ∧
      ∀ k, (utf8Bytes etcdSpacePrefix ≤ k ∧ k < getRangeEnd (utf8Bytes etcdSpacePrefix)) ↔
        utf8Bytes etcdSpacePrefix <+: k := by
  have hexact := (prefix_range_iff (utf8Bytes etcdSpacePrefix) (by decide)).mpr
    (Or.inl (by decide))
  exact ⟨by decide, hexact.2 (by decide)⟩

/-- For the prefix `61 FF` the range end is `61 00`, and the range has not even the prefix. -/
theorem prefix_range_empty :
    getRangeEnd [0x61, 0xFF] = [0x61, 0x00] ∧ prefixRangeEnd [0x61, 0xFF] = [0x62] ∧
      (∀ k, ¬ InRange [0x61, 0xFF] (getRangeEnd [0x61, 0xFF]) k) ∧ ¬ ExactRange [0x61, 0xFF] := by
  have hempty := getRangeEnd_of_carry [0x61]
  refine ⟨rfl, by decide, fun k hk => ?_, fun hexact => ?_⟩
  · rw [InRange, if_neg (by decide)] at hk
    exact hempty k ⟨hk.1, hk.2.resolve_left (by decide)⟩
  · exact hempty _ ((hexact.2 (by decide) [0x61, 0xFF]).mpr List.prefix_rfl)

/-! ### Texts -/

theorem ne_255_of_mem_utf8EncodeChar {c : Char} {b : UInt8} (h : b ∈ String.utf8EncodeChar c) :
    b ≠ 255 := by
  rintro rfl
  have hbyte : ∀ {n : Nat}, n < 255 → (255 : UInt8) ≠ UInt8.ofNat n := by
    intro n hn heq
    have hnat := congrArg UInt8.toNat heq
    simp only [UInt8.toNat_ofNat'] at hnat
    change 255 = n % 256 at hnat
    omega
  rw [String.utf8EncodeChar.eq_1] at h
  split_ifs at h
  all_goals simp only [List.mem_cons, List.not_mem_nil, or_false] at h
  · exact hbyte (by omega) h
  · rcases h with h | h
    all_goals exact hbyte (by omega) h
  · rcases h with h | h | h
    all_goals exact hbyte (by omega) h
  · rcases h with h | h | h | h
    all_goals exact hbyte (by omega) h

/-- The encoding of a character is not the beginning of another one. -/
theorem utf8EncodeChar_append_inj {c d : Char} {bs bs' : Bytes}
    (h : String.utf8EncodeChar c ++ bs = String.utf8EncodeChar d ++ bs') : c = d := by
  have hdecode : ∀ (c : Char) (bs : Bytes),
      (String.utf8EncodeChar c ++ bs).toByteArray.utf8DecodeChar? 0 = some c := by
    intro c bs
    rw [List.toByteArray_append]
    exact ByteArray.utf8DecodeChar?_utf8EncodeChar_append
  have hc := hdecode c bs
  rw [h, hdecode] at hc
  exact (Option.some.inj hc).symm

/-- **A text begins with another exactly if their encodings do.** -/
theorem utf8Bytes_prefix_iff {s t : String} :
    utf8Bytes s <+: utf8Bytes t ↔ s.toList <+: t.toList := by
  have hlists : ∀ l m : List Char,
      l.flatMap String.utf8EncodeChar <+: m.flatMap String.utf8EncodeChar ↔ l <+: m := by
    intro l
    induction l with
    | nil => intro m; exact ⟨fun _ => List.nil_prefix, fun _ => List.nil_prefix⟩
    | cons c l ih =>
      intro m
      cases m with
      | nil =>
        rw [List.flatMap_nil, List.prefix_nil, List.prefix_nil, List.flatMap_cons]
        exact ⟨fun h => absurd (List.append_eq_nil_iff.mp h).1 String.utf8EncodeChar_ne_nil,
          fun h => (nomatch h)⟩
      | cons d m =>
        rw [List.flatMap_cons, List.flatMap_cons, List.cons_prefix_cons, ← ih]
        constructor
        · rintro ⟨more, hmore⟩
          rw [List.append_assoc] at hmore
          have hcd := utf8EncodeChar_append_inj hmore
          subst hcd
          exact ⟨rfl, more, List.append_cancel_left hmore⟩
        · rintro ⟨rfl, more, hmore⟩
          exact ⟨more, by rw [List.append_assoc, hmore]⟩
  exact hlists s.toList t.toList

/-- The answer of etcd to a range request, by the bytes of the keys. -/
def rangeEtcd (etcd : Std.TreeMap String String) (key rangeEnd : Bytes) :
    List (String × String) :=
  etcd.toList.filter fun e => InRange key rangeEnd (utf8Bytes e.1)

theorem inRange_text {pre : String} (hpre : pre ≠ "") (k : Bytes) :
    InRange (utf8Bytes pre) (getRangeEnd (utf8Bytes pre)) k ↔ utf8Bytes pre <+: k := by
  have hne : utf8Bytes pre ≠ [] := mt utf8Bytes_eq_nil.mp hpre
  obtain ⟨q, b, hq⟩ : ∃ q b, utf8Bytes pre = q ++ [b] :=
    ⟨_, _, (List.dropLast_append_getLast hne).symm⟩
  have hb : b ≠ 255 := by
    have hmem : b ∈ utf8Bytes pre := by
      rw [hq]
      exact List.mem_append_right _ List.mem_cons_self
    obtain ⟨c, -, hc⟩ := List.mem_flatMap.mp hmem
    exact ne_255_of_mem_utf8EncodeChar hc
  rw [hq, ← getRangeEnd_of_ne q hb, InRange, getRangeEnd_concat,
    if_neg (List.append_ne_nil_of_right_ne_nil _ (List.cons_ne_nil _ _)),
    or_iff_right (concat_ne_noEnd hb)]

/-- **A router reads what the master's scan gives**, for every prefix that is a text. -/
theorem rangeEtcd_eq_scanEtcd (etcd : Std.TreeMap String String) {pre : String} (hpre : pre ≠ "") :
    rangeEtcd etcd (utf8Bytes pre) (getRangeEnd (utf8Bytes pre)) = Master.scanEtcd etcd pre := by
  unfold rangeEtcd Master.scanEtcd
  refine List.filter_congr fun e _ => ?_
  rw [Bool.eq_iff_iff, decide_eq_true_iff, inRange_text hpre, utf8Bytes_prefix_iff,
    Master.startsWith, List.isPrefixOf_iff_prefix]

/-! ### The start of a router -/

/-- The request of `SpaceManager::Init`. -/
def initRange (etcd : Std.TreeMap String String) : List (String × String) :=
  rangeEtcd etcd (utf8Bytes etcdSpacePrefix) (getRangeEnd (utf8Bytes etcdSpacePrefix))

/-- **What a router reads at its start**: every space that the master has recorded, and no key
that the master writes for anything else. -/
theorem initRange_spaces (etcd : Std.TreeMap String String) :
    (∀ db sp val : String, etcd[Master.getSpaceEtcdKey db sp]? = some val →
      (Master.getSpaceEtcdKey db sp, val) ∈ initRange etcd) ∧
    ∀ (db sp ip rest : String) (port id : Int), ∀ key ∈ Master.otherKeys db sp ip rest port id,
      ∀ val, (key, val) ∉ initRange etcd := by
  have hscan : initRange etcd = Master.scanEtcd etcd Master.spacesMataPrefix :=
    rangeEtcd_eq_scanEtcd etcd (by decide)
  rw [hscan]
  unfold Master.scanEtcd
  refine ⟨fun db sp val hval => ?_, fun db sp ip rest port id key hkey val hmem => ?_⟩
  · rw [List.mem_filter, Std.TreeMap.mem_toList_iff_getElem?_eq_some]
    exact ⟨hval, Master.startsWith_getSpaceEtcdKey db sp⟩
  · have hstarts := (List.mem_filter.mp hmem).2
    rw [Master.not_startsWith_otherKeys db sp ip rest port id key hkey] at hstarts
    cases hstarts

end SimSearch.Router
