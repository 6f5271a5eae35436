import SimSearch.Router.Routing

/-!
# The groups of a request

`SpaceManager::HashDocs` and `SpaceManager::HashKeys` split a request by the partition of
each key.

* `getPartitionId_lt` and `partitionIdx_eq` are the arithmetic: for a positive number of
  partitions the id is below the number, and storing it in an `int` does not change it.
* `mem_hashDocs` and `mem_hashKeys` say which groups there are, `hashDocs_group` and
  `hashKeys_group` of the routing what is in them.
* `hash_groups_exact` puts the two together: nothing is lost or filed twice, and a key is in
  the same group on both sides.
-/

namespace SimSearch.Router

open SimSearch.Lib

/-! ### The number of a partition -/

theorem getPartitionId_lt (hasher : String → UInt64) (key : String) {n : Int32}
    (hn : 0 < n.toInt) : ((getPartitionId hasher key n).toNat : Int) < n.toInt := by
  have hwide : n.toInt64.toInt = n.toInt := Int32.toInt_toInt64 n
  have hle : (0 : Int64) ≤ n.toInt64 := by
    rw [Int64.le_iff_toInt_le, hwide]
    exact le_of_lt hn
  have hdiv : n.toInt64.toUInt64.toNat = n.toInt.toNat := by
    rw [Int64.toNat_toUInt64_of_le hle, ← Int64.toNat_toInt, hwide]
  have hmod : (strHashUint64 hasher key % n.toInt64.toUInt64).toNat < n.toInt.toNat := by
    rw [UInt64.toNat_mod, hdiv]
    exact Nat.mod_lt _ (by omega)
  have hcut : (getPartitionId hasher key n).toNat
      ≤ (strHashUint64 hasher key % n.toInt64.toUInt64).toNat := by
    unfold getPartitionId
    rw [UInt64.toNat_toUInt32]
    exact Nat.mod_le _ _
  omega

theorem divisor_ne_zero {n : Int32} (hn : 0 < n.toInt) : n.toInt64.toUInt64 ≠ 0 := by
  intro h
  have hzero : n.toInt64 = 0 := by
    rw [← Int64.toInt64_toUInt64 n.toInt64, h]
    rfl
  have hwide : n.toInt64.toInt = n.toInt := Int32.toInt_toInt64 n
  rw [hzero] at hwide
  exact absurd hwide (ne_of_lt hn)

theorem partitionIdx_eq (hasher : String → UInt64) (key : String) {n : Int32}
    (hn : 0 < n.toInt) : partitionIdx hasher n key = (getPartitionId hasher key n).toNat := by
  have hlt := getPartitionId_lt hasher key hn
  have hmax : n.toInt < 2 ^ 31 := n.toInt_lt
  unfold partitionIdx
  show (getPartitionId hasher key n).toBitVec.toInt = _
  rw [BitVec.toInt_eq_toNat_of_lt]
  · rfl
  · show 2 * (getPartitionId hasher key n).toNat < 2 ^ 32
    omega

/-! ### Which groups there are -/

theorem mem_hashKeys {hasher : String → UInt64} {docKeys : List String} {n : Int32} {p : Int} :
    p ∈ hashKeys hasher docKeys n ↔ ∃ key ∈ docKeys, partitionIdx hasher n key = p := by
  unfold hashKeys
  rw [(adds_ensure_push (fun _ => []) (fun g key => g ++ [key]) (partitionIdx hasher n)).foldl]
  exact or_iff_right Std.TreeMap.not_mem_emptyc

theorem mem_hashDocs {hasher : String → UInt64} {docs : List Document} {docKeys : List String}
    {n : Int32} {p : Int} :
    p ∈ hashDocs hasher docs docKeys n ↔ ∃ key ∈ docKeys, partitionIdx hasher n key = p := by
  unfold hashDocs
  simp only
  rw [(adds_ensure_push newDocsGroup DocsGroup.pushBack
    (fun info : PbDocInfo => partitionIdx hasher n info.key)).foldl,
    (adds_ensure newDocsGroup (partitionIdx hasher n)).foldl,
    or_iff_right Std.TreeMap.not_mem_emptyc]
  -- the second loop meets only keys for which the first one has made the group
  refine or_iff_left_of_imp ?_
  rintro ⟨info, hinfo, hp⟩
  rw [← List.map_uncurry_zip_eq_zipWith, List.mem_map] at hinfo
  obtain ⟨e, he, rfl⟩ := hinfo
  exact ⟨e.1, (List.of_mem_zip he).1, hp⟩

/-! ### What is in them -/

/-- `items` are the elements of `l` whose key belongs to the partition `p`, in the order of
`l`; there is at least one, and `p` is the number of a partition. -/
structure GroupOf (hasher : String → UInt64) (n : Int32) {α : Type} (key : α → String)
    (l : List α) (p : Int) (items : List α) : Prop where
  range : 0 ≤ p ∧ p < n.toInt
  nonempty : items ≠ []
  exact : items = l.filter fun a => decide (((getPartitionId hasher (key a) n).toNat : Int) = p)

theorem groupOf_filter {hasher : String → UInt64} {n : Int32} (hn : 0 < n.toInt) {α : Type}
    {key : α → String} {l : List α} {p : Int} (hp : ∃ a ∈ l, partitionIdx hasher n (key a) = p) :
    GroupOf hasher n key l p
      (l.filter fun a => decide (partitionIdx hasher n (key a) = p)) := by
  obtain ⟨a, ha, hap⟩ := hp
  refine ⟨?_, ?_, ?_⟩
  · have hlt := getPartitionId_lt hasher (key a) hn
    rw [partitionIdx_eq hasher (key a) hn] at hap
    omega
  · exact List.ne_nil_of_mem (List.mem_filter.mpr ⟨ha, decide_eq_true hap⟩)
  · simp only [partitionIdx_eq hasher _ hn]

def DocsGroup.pairs (g : DocsGroup) : List (String × Document) :=
  g.pbDocInfos.map fun info => (info.key, info.pbDoc)

theorem pairs_hashDocs (hasher : String → UInt64) (docs : List Document) (docKeys : List String)
    (n : Int32) (p : Int) :
    (group newDocsGroup (hashDocs hasher docs docKeys n) p).pairs
      = (docKeys.zip docs).filter fun e => decide (partitionIdx hasher n e.1 = p) := by
  unfold DocsGroup.pairs
  rw [hashDocs_group, ← List.map_uncurry_zip_eq_zipWith, List.filter_map, List.map_map]
  exact List.map_id _

theorem mem_docKeys_iff {docs : List Document} {docKeys : List String}
    (hlen : docKeys.length = docs.length) {key : String} :
    key ∈ docKeys ↔ ∃ e ∈ docKeys.zip docs, e.1 = key := by
  rw [← List.mem_map, List.map_fst_zip hlen.le]

/-- The documents under `docKeys` are grouped without loss: each group is the one of its
number, every key has its group, and a key that is read is looked up in the group in which it
was written. -/
structure HashGroupsExact (hasher : String → UInt64) (n : Int32) (docs : List Document)
    (docKeys : List String) : Prop where
  docsGroups : ∀ p g, (hashDocs hasher docs docKeys n)[p]? = some g →
    g.partitionId = p ∧ GroupOf hasher n Prod.fst (docKeys.zip docs) p g.pairs
  docsAll : ∀ key ∈ docKeys,
    ((getPartitionId hasher key n).toNat : Int) ∈ hashDocs hasher docs docKeys n
  keyGroups : ∀ p ks, (hashKeys hasher docKeys n)[p]? = some ks → GroupOf hasher n id docKeys p ks
  keysAll : ∀ key ∈ docKeys,
    ((getPartitionId hasher key n).toNat : Int) ∈ hashKeys hasher docKeys n
  agree : ∀ ids, ∀ key ∈ docKeys, key ∈ ids → ∀ p : Int,
    (∃ g, (hashDocs hasher docs docKeys n)[p]? = some g ∧ key ∈ g.pairs.map Prod.fst)
      ↔ ∃ ks, (hashKeys hasher ids n)[p]? = some ks ∧ key ∈ ks

/-- A key is in the group of its partition of `HashKeys` and in no other. -/
theorem key_in_hashKeys {hasher : String → UInt64} {n : Int32} {ids : List String} {key : String}
    (hkey : key ∈ ids) (p : Int) :
    (∃ ks, (hashKeys hasher ids n)[p]? = some ks ∧ key ∈ ks) ↔ partitionIdx hasher n key = p := by
  constructor
  · rintro ⟨ks, hks, hmem⟩
    obtain ⟨-, rfl⟩ := (getElem?_eq_some_iff_group fun _ => []).mp hks
    rw [hashKeys_group, List.mem_filter, decide_eq_true_eq] at hmem
    exact hmem.2
  · intro hp
    refine ⟨_, (getElem?_eq_some_iff_group fun _ => []).mpr
      ⟨mem_hashKeys.mpr ⟨key, hkey, hp⟩, rfl⟩, ?_⟩
    rw [hashKeys_group, List.mem_filter, decide_eq_true_eq]
    exact ⟨hkey, hp⟩

theorem key_in_hashDocs {hasher : String → UInt64} {n : Int32} {docs : List Document}
    {docKeys : List String} (hlen : docKeys.length = docs.length) {key : String}
    (hkey : key ∈ docKeys) (p : Int) :
    (∃ g, (hashDocs hasher docs docKeys n)[p]? = some g ∧ key ∈ g.pairs.map Prod.fst)
      ↔ partitionIdx hasher n key = p := by
  constructor
  · rintro ⟨g, hg, hmem⟩
    obtain ⟨-, rfl⟩ := (getElem?_eq_some_iff_group newDocsGroup).mp hg
    rw [pairs_hashDocs, List.mem_map] at hmem
    obtain ⟨e, he, rfl⟩ := hmem
    rw [List.mem_filter, decide_eq_true_eq] at he
    exact he.2
  · intro hp
    refine ⟨_, (getElem?_eq_some_iff_group newDocsGroup).mpr
      ⟨mem_hashDocs.mpr ⟨key, hkey, hp⟩, rfl⟩, ?_⟩
    obtain ⟨e, he, rfl⟩ := (mem_docKeys_iff hlen).mp hkey
    rw [pairs_hashDocs]
    exact List.mem_map_of_mem (List.mem_filter.mpr ⟨he, decide_eq_true hp⟩)

/-- **Grouping by hash loses nothing and files nothing twice**, whatever the hash function. -/
theorem hash_groups_exact (hasher : String → UInt64) (n : Int32) (hn : 1 ≤ n.toInt)
    (docs : List Document) (docKeys : List String) (hlen : docKeys.length = docs.length) :
    HashGroupsExact hasher n docs docKeys := by
  have hpos : 0 < n.toInt := by omega
  refine ⟨?_, ?_, ?_, ?_, ?_⟩
  · intro p g hg
    obtain ⟨hp, rfl⟩ := (getElem?_eq_some_iff_group newDocsGroup).mp hg
    obtain ⟨key, hkey, hidx⟩ := mem_hashDocs.mp hp
    obtain ⟨e, he, rfl⟩ := (mem_docKeys_iff hlen).mp hkey
    rw [pairs_hashDocs, hashDocs_group_eq]
    exact ⟨rfl, groupOf_filter hpos ⟨e, he, hidx⟩⟩
  · intro key hkey
    exact mem_hashDocs.mpr ⟨key, hkey, partitionIdx_eq hasher key hpos⟩
  · intro p ks hks
    obtain ⟨hp, rfl⟩ := (getElem?_eq_some_iff_group fun _ => []).mp hks
    rw [hashKeys_group]
    exact groupOf_filter hpos (mem_hashKeys.mp hp)
  · intro key hkey
    exact mem_hashKeys.mpr ⟨key, hkey, partitionIdx_eq hasher key hpos⟩
  · intro ids key hkey hid p
    rw [key_in_hashDocs hlen hkey, key_in_hashKeys hid]

/-- Three documents, two of them under one key, in a space of two partitions. -/
theorem hash_groups_exact_three :
    1 ≤ (2 : Int32).toInt ∧
      HashGroupsExact libstdcxxHash 2 [docWithId "1", docWithId "2", docWithId "3"]
        ["1", "2", "1"] :=
  ⟨by decide, hash_groups_exact libstdcxxHash 2 (by decide)
    [docWithId "1", docWithId "2", docWithId "3"] ["1", "2", "1"] rfl⟩

end SimSearch.Router
