import SimSearch.Cluster.Messages
import SimSearch.Master.SpaceIds
import SimSearch.Master.Blame
import SimSearch.Master.Answers
import SimSearch.Router.Lookup
import SimSearch.Router.Groups

/-!
# The partition that a key is sent to exists

`CheckApiSpace` bounds the number of partitions, `CreatePsSpaceImpl` makes that many and
stores the space, and a router that has read it takes a hash modulo the number and indexes
`_partition_list` with the result, unchecked.

* `LaidOut` is what the master's side has to give: a number from 1 to 100, and as many
  partitions.  `laidOut_filledSpace` says that every space that is stored has it.
* The number keeps its value through `uint32_t`, `int32_t` and the conversion to `uint64_t`,
  and `Router/Groups.lean` has the arithmetic of the router, for every hash value.
* `keysIn_hashDocs` and `keysIn_hashKeys` carry the bound to the groups of a request.
-/

namespace SimSearch.Cluster

open SimSearch.Lib SimSearch.Master SimSearch.Router
open Program (uses_call)

/-! ### What is stored -/

/-- The number of partitions is in its range, and there are as many. -/
structure LaidOut (sp : InnerSpace) : Prop where
  pos : 0 < sp.partitionNum
  le : sp.partitionNum ≤ 100
  length : (sp.partitions.length : Int) = sp.partitionNum

theorem length_newPartitions (sp : InnerSpace) (idle : List Master.Replica) (time : String) :
    (newPartitions sp idle time).length = sp.partitionNum.toNat := by
  unfold newPartitions
  rw [List.length_map, List.length_range]

theorem laidOut_filledSpace {json : SpaceJson} {s : ApiSpace} (hs : Accepted s)
    (idle : List Master.Replica) (time : String) (id : Int) :
    LaidOut (filledSpace (apiSpaceToInnerSpace json s) idle time id) := by
  have hnum : (apiSpaceToInnerSpace json s).partitionNum = s.partitionNum := rfl
  have hnone : (apiSpaceToInnerSpace json s).partitions = [] := hs.partitions
  refine ⟨hs.partitionNum.1, hs.partitionNum.2, ?_⟩
  show (((apiSpaceToInnerSpace json s).partitions ++ newPartitions _ idle time).length : Int)
    = s.partitionNum
  rw [hnone, List.nil_append, length_newPartitions, hnum]
  have hpos := hs.partitionNum.1
  omega

/-- What `CreatePsSpaceImpl` puts under the key of a space is a space that is laid out. -/
theorem stored_laidOut {json : SpaceJson} {s : ApiSpace} (hs : Accepted s)
    (idle : List Master.Replica) :
    (createPsSpaceImpl json (apiSpaceToInnerSpace json s) idle).Uses fun o => ∀ db sp val,
      o = .put (getSpaceEtcdKey db sp) val → ∃ time id,
        val = json.marshal (filledSpace (apiSpaceToInnerSpace json s) idle time id) ∧
        LaidOut (filledSpace (apiSpaceToInnerSpace json s) idle time id) := by
  refine uses_call (fun db sp val h => Op.noConfusion h) fun time => ?_
  by_cases hlen : (idle.length : Int)
      < (apiSpaceToInnerSpace json s).partitionNum * (apiSpaceToInnerSpace json s).replicaNum
  · rw [if_pos hlen]
    trivial
  · rw [if_neg hlen]
    refine uses_call (fun db sp val h => Op.noConfusion h) fun id => ?_
    refine uses_createFilled_of (fun o ho db sp val hput => ?_) (fun db sp val hput => ?_)
      (fun db sp val hput => Op.noConfusion hput)
    · exact absurd ⟨db, sp, val, hput⟩ (CreateOp.not_spacePut o ho)
    · exact ⟨time, _, (Op.put.inj hput).2.symm, laidOut_filledSpace hs idle time _⟩

/-! ### The indices of a request -/

def InRange (size : Nat) (i : Int) : Prop := 0 ≤ i ∧ i < size

theorem keysIn_hashKeys {hasher : String → UInt64} {n : Int32} {P : Int → Prop}
    (h : ∀ key, P (partitionIdx hasher n key)) (docKeys : List String) :
    KeysIn P (hashKeys hasher docKeys n) := by
  intro p hp
  obtain ⟨key, -, rfl⟩ := mem_hashKeys.mp hp
  exact h key

theorem keysIn_hashDocs {hasher : String → UInt64} {n : Int32} {P : Int → Prop}
    (h : ∀ key, P (partitionIdx hasher n key)) (docs : List Document) (docKeys : List String) :
    KeysIn P (hashDocs hasher docs docKeys n) := by
  intro p hp
  obtain ⟨key, -, rfl⟩ := mem_hashDocs.mp hp
  exact h key

/-! ### The two sides -/

/-- The size to which `Init` sets `_partition_list`. -/
def partitionListSize (conn : SpaceConnection) : Nat := conn.pbSpace.partitions.length

/-- No division by zero, and every index with which `UpsertDocs`, `DeleteDocs` and `GetDocs`
read `_partition_list` is one of it. -/
structure RoutesInRange (hasher : String → UInt64) (conn : SpaceConnection) : Prop where
  divisor : conn.partitionNum.toInt64.toUInt64 ≠ 0
  partitionId : ∀ key, (getPartitionId hasher key conn.partitionNum).toNat < partitionListSize conn
  docs : ∀ docs docKeys, ∀ e ∈ (hashDocs hasher docs docKeys conn.partitionNum).toList,
    InRange (partitionListSize conn) e.1
  keys : ∀ docKeys, ∀ e ∈ (hashKeys hasher docKeys conn.partitionNum).toList,
    InRange (partitionListSize conn) e.1

/-- **A space that is laid out and was read is routed in range.** -/
theorem routesInRange_of_laidOut {stored : InnerSpace} (h : LaidOut stored) {conn : SpaceConnection}
    (hread : SpaceRead stored conn.pbSpace) (hasher : String → UInt64) :
    RoutesInRange hasher conn := by
  have hsize : (partitionListSize conn : Int) = stored.partitionNum := by
    rw [← h.length, hread.partitions.length_eq]
    rfl
  have hsmall : conn.pbSpace.partitionNum.toNat ≤ 100 := by
    have hnum := hread.partitionNum
    have hle := h.le
    omega
  have hnum : conn.partitionNum.toInt = stored.partitionNum := by
    rw [← hread.partitionNum]
    show conn.pbSpace.partitionNum.toBitVec.toInt = _
    rw [BitVec.toInt_eq_toNat_of_lt]
    · rfl
    · show 2 * conn.pbSpace.partitionNum.toNat < 2 ^ 32
      omega
  have hpos : 0 < conn.partitionNum.toInt := by
    rw [hnum]
    exact h.pos
  have hid : ∀ key, (getPartitionId hasher key conn.partitionNum).toNat
      < partitionListSize conn := by
    intro key
    have hlt := getPartitionId_lt hasher key hpos
    omega
  have hidx : ∀ key, InRange (partitionListSize conn)
      (partitionIdx hasher conn.partitionNum key) := by
    intro key
    have hlt := hid key
    rw [partitionIdx_eq hasher key hpos]
    exact ⟨by omega, by omega⟩
  exact ⟨divisor_ne_zero hpos, hid,
    fun docs docKeys e he => (keysIn_hashDocs hidx docs docKeys).of_mem_toList he,
    fun docKeys e he => (keysIn_hashKeys hidx docKeys).of_mem_toList he⟩

/-- **Every key of every space that the master stores is routed in range**, by each router
that has read the space and for every hash function. -/
theorem routing_indices_in_range (json : SpaceJson) (s : ApiSpace) (hs : checkApiSpace s = some "")
    (idle : List Master.Replica) :
    (createPsSpaceImpl json (apiSpaceToInnerSpace json s) idle).Uses fun o => ∀ db sp val,
      o = .put (getSpaceEtcdKey db sp) val → ∃ time id,
        val = json.marshal (filledSpace (apiSpaceToInnerSpace json s) idle time id) ∧
        ∀ space, SpaceRead (filledSpace (apiSpaceToInnerSpace json s) idle time id) space →
          ∀ env : Router.Env, RoutesInRange env.hasher (connOf env space) := by
  refine (stored_laidOut (accepted_of_checkApiSpace hs) idle).mono fun o ho db sp val hput => ?_
  obtain ⟨time, id, hval, hlaid⟩ := ho db sp val hput
  exact ⟨time, id, hval, fun space hread env => routesInRange_of_laidOut hlaid hread env.hasher⟩

def gridStored (time : String) (id : Int) : InnerSpace :=
  filledSpace (apiSpaceToInnerSpace goJson (gridApi 2 3)) (gridNodes 6) time id

/-- A create with six idle nodes that acknowledge, up to the put of the space. -/
theorem routing_indices_in_range_sample :
    checkApiSpace (gridApi 2 3) = some "" ∧ (gridStored sampleTime 1).partitions.length = 2 ∧
      SpaceRead (gridStored sampleTime 1) (pbSpace (gridStored sampleTime 1)) ∧
      ∃ time id, goJson.marshal (gridStored sampleTime 1) = goJson.marshal (gridStored time id) ∧
        ∀ space, SpaceRead (gridStored time id) space →
          ∀ env : Router.Env, RoutesInRange env.hasher (connOf env space) := by
  have hs : checkApiSpace (gridApi 2 3) = some "" := by decide +kernel
  refine ⟨hs, by decide, spaceRead_pbSpace (by decide +kernel), ?_⟩
  have huses := routing_indices_in_range goJson (gridApi 2 3) hs (gridNodes 6)
  have hsent := (((huses.2 sampleTime).2 (.ok 1)).2 (.ok ())).2 ⟨List.range 6, List.Perm.refl _⟩
  have hput := (((((hsent.2 {}).2 {}).2 {}).2 {}).2 {}).2 {}
  exact hput.1 "database" "images" _ rfl

/-- The same in the course of a run: a router that was given only spaces that are laid out
routes in range with every connection that it finds. -/
theorem found_routesInRange {env : Router.Env} {n : Nat} {w : Startup}
    (hw : ∀ space ∈ w.spaces, ∃ stored, LaidOut stored ∧ SpaceRead stored space)
    {s : Router.State}
    (h : Reach (Router.step env) (AddsOnly fun space => ∃ stored, LaidOut stored ∧
      SpaceRead stored space) (init env n w).2 s)
    {key : String} {conn : SpaceConnection}
    (hfound : getSpaceConn env s.manager key = .found conn) : RoutesInRange env.hasher conn := by
  obtain ⟨stored, hlaid, hread⟩ := given_of_found hw h hfound
  exact routesInRange_of_laidOut hlaid hread env.hasher

end SimSearch.Cluster
