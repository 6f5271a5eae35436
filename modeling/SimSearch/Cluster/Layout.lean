import SimSearch.Cluster.Messages
import SimSearch.Master.Blame
import SimSearch.Master.Exclusive
import SimSearch.Master.Keys
import SimSearch.Ps.Node

/-!
# From the idle nodes to the raft groups

`CreatePsSpaceImpl` deals the idle nodes out to the partitions with a running index,
`ParallelCreatePsSpace` goes over the partitions again to make the requests, and a PS takes its
group and its peers from the partition in the request.

* `fillPartitions` are the two loops; `fillPartitions_eq` says that each partition gets the next
  slice of the nodes.
* `layout_filledSpace` is what the space looks like then, and `requested_createFilled` follows
  the requests of a create, of which the roll-back sends none.
* `block_of_requestRead` is the other side: what a PS derives depends on the partition alone.
-/

namespace SimSearch.Cluster

open SimSearch.Lib SimSearch.Master SimSearch.Ps
open Program (yields_seq yields_perform yields_uses)

/-! ### The loops -/

def createPartition (groupName : String) (partitionId replicaNum : Int) (timeStr : String) :
    Master.Partition :=
  { partitionId, groupName, replicas := List.replicate replicaNum.toNat {}, ctime := timeStr,
    mtime := timeStr }

/-- The inner loop, with `n` turns left: the replicas and `node_idx`. -/
def fillReplicas (idlePsList : List Master.Replica) :
    Nat → Nat → Nat → List Master.Replica → Option (List Master.Replica × Nat)
  | 0, _, nodeIdx, replicas => some (replicas, nodeIdx)
  | n + 1, rid, nodeIdx, replicas =>
    match idlePsList[nodeIdx]? with
    | none => none
    | some rep =>
      if rid < replicas.length then
        fillReplicas idlePsList n (rid + 1) (nodeIdx + 1) (replicas.set rid rep)
      else none

/-- The outer loop, with `n` turns left. -/
def fillPartitions (space : InnerSpace) (idlePsList : List Master.Replica) (timeStr : String) :
    Nat → Nat → Nat → List Master.Partition → Option (List Master.Partition)
  | 0, _, _, partitions => some partitions
  | n + 1, pid, nodeIdx, partitions =>
    let groupName := getPartitionGroupName space.dbName space.spaceName pid
    let partition := createPartition groupName pid space.replicaNum timeStr
    match fillReplicas idlePsList space.replicaNum.toNat 0 nodeIdx partition.replicas with
    | none => none
    | some (replicas, nodeIdx) =>
      fillPartitions space idlePsList timeStr n (pid + 1) nodeIdx
        (partitions ++ [{ partition with replicas := replicas }])

theorem fillReplicas_eq (idle : List Master.Replica) :
    ∀ (n rid nodeIdx : Nat) (replicas : List Master.Replica), replicas.length = rid + n →
      nodeIdx + n ≤ idle.length →
      fillReplicas idle n rid nodeIdx replicas
        = some (replicas.take rid ++ (idle.drop nodeIdx).take n, nodeIdx + n) := by
  intro n
  induction n with
  | zero =>
    intro rid nodeIdx replicas hlen _
    rw [fillReplicas, List.take_zero, List.append_nil, List.take_of_length_le (by omega)]
    rfl
  | succ n ih =>
    intro rid nodeIdx replicas hlen hidle
    have hnode : nodeIdx < idle.length := by omega
    have hrid : rid < replicas.length := by omega
    have htake : (replicas.set rid idle[nodeIdx]).take (rid + 1)
        = replicas.take rid ++ [idle[nodeIdx]] := by
      rw [List.take_add_one, List.getElem?_set_self hrid, List.take_set_of_le (Nat.le_refl rid)]
      rfl
    have hdrop : (idle.drop nodeIdx).take (n + 1)
        = idle[nodeIdx] :: (idle.drop (nodeIdx + 1)).take n := by
      rw [List.drop_eq_getElem_cons hnode, List.take_succ_cons]
    simp only [fillReplicas, List.getElem?_eq_getElem hnode, if_pos hrid]
    rw [ih (rid + 1) (nodeIdx + 1) _ (by rw [List.length_set]; omega) (by omega), htake, hdrop,
      List.append_assoc, Nat.add_assoc, Nat.add_comm 1 n]
    rfl

def newPartition (space : InnerSpace) (idle : List Master.Replica) (time : String) (pid : Nat) :
    Master.Partition :=
  { partitionId := pid, groupName := getPartitionGroupName space.dbName space.spaceName pid,
    replicas := (idle.drop (pid * space.replicaNum.toNat)).take space.replicaNum.toNat,
    ctime := time, mtime := time }

theorem newPartitions_eq (space : InnerSpace) (idle : List Master.Replica) (time : String) :
    newPartitions space idle time
      = (List.range space.partitionNum.toNat).map (newPartition space idle time) := rfl

/-- When the turn of `pid` comes, `node_idx` is at the start of its slice. -/
theorem fillPartitions_from (space : InnerSpace) (idle : List Master.Replica) (time : String) :
    ∀ (n pid : Nat) (partitions : List Master.Partition),
      (pid + n) * space.replicaNum.toNat ≤ idle.length →
      fillPartitions space idle time n pid (pid * space.replicaNum.toNat) partitions
        = some (partitions ++ (List.range' pid n).map (newPartition space idle time)) := by
  intro n
  induction n with
  | zero =>
    intro pid partitions _
    rw [fillPartitions, List.range'_zero, List.map_nil, List.append_nil]
  | succ n ih =>
    intro pid partitions hidle
    have hassoc : (pid + 1 + n) * space.replicaNum.toNat ≤ idle.length := by
      rw [Nat.add_assoc, Nat.add_comm 1 n]
      exact hidle
    have hslice : pid * space.replicaNum.toNat + space.replicaNum.toNat ≤ idle.length := by
      rw [← Nat.succ_mul]
      exact (Nat.mul_le_mul_right _ (by omega)).trans hidle
    have hfill := fillReplicas_eq idle space.replicaNum.toNat 0 (pid * space.replicaNum.toNat)
      (List.replicate space.replicaNum.toNat {}) (by rw [List.length_replicate, Nat.zero_add])
      hslice
    rw [← Nat.succ_mul] at hfill
    simp only [fillPartitions, createPartition, hfill]
    rw [ih (pid + 1) _ hassoc, List.range'_succ, List.map_cons, List.append_assoc]
    rfl

/-- **The loops give each partition its slice of the idle nodes**, and no index is out of
range if there are enough. -/
theorem fillPartitions_eq {space : InnerSpace} {idle : List Master.Replica} {time : String}
    (h : space.partitionNum.toNat * space.replicaNum.toNat ≤ idle.length)
    (partitions : List Master.Partition) :
    fillPartitions space idle time space.partitionNum.toNat 0 0 partitions
      = some (partitions ++ newPartitions space idle time) := by
  have hfrom := fillPartitions_from space idle time space.partitionNum.toNat 0 partitions
    (by rw [Nat.zero_add]; exact h)
  rw [Nat.zero_mul, ← List.range_eq_range'] at hfrom
  exact hfrom

/-! ### The layout -/

/-- The space has the partitions that were asked for, on nodes of their own. -/
structure Layout (s : ApiSpace) (idle : List Master.Replica) (sp : InnerSpace) : Prop where
  ids : sp.partitions.map (·.partitionId)
    = (List.range s.partitionNum.toNat).map fun pid : Nat => (pid : Int)
  replicaNum : ∀ partition ∈ sp.partitions, (partition.replicas.length : Int) = s.replicaNum
  distinct : (sp.replicas.map Replica.address).Nodup
  taken : ∀ rep ∈ sp.replicas, rep ∈ idle

theorem partitions_filledSpace {json : SpaceJson} {s : ApiSpace} (hs : Accepted s)
    (idle : List Master.Replica) (time : String) (id : Int) :
    (filledSpace (apiSpaceToInnerSpace json s) idle time id).partitions
      = (List.range s.partitionNum.toNat).map
        (newPartition (apiSpaceToInnerSpace json s) idle time) := by
  have hnone : (apiSpaceToInnerSpace json s).partitions = [] := hs.partitions
  unfold filledSpace
  rw [hnone, List.nil_append, newPartitions_eq]
  rfl

theorem enough_of_le {s : ApiSpace} (hs : Accepted s) {n : Nat}
    (h : s.partitionNum * s.replicaNum ≤ n) :
    s.partitionNum.toNat * s.replicaNum.toNat ≤ n := by
  have hp : (s.partitionNum.toNat : Int) = s.partitionNum :=
    Int.toNat_of_nonneg (by have := hs.partitionNum.1; omega)
  have hr : (s.replicaNum.toNat : Int) = s.replicaNum :=
    Int.toNat_of_nonneg (by have := hs.replicaNum.1; omega)
  rw [← hp, ← hr] at h
  exact_mod_cast h

theorem layout_filledSpace {json : SpaceJson} {s : ApiSpace} (hs : Accepted s)
    {idle : List Master.Replica} (henough : s.partitionNum * s.replicaNum ≤ idle.length)
    (hidle : (idle.map Replica.address).Nodup) (time : String) (id : Int) :
    Layout s idle (filledSpace (apiSpaceToInnerSpace json s) idle time id) := by
  have hreps := @replicas_filledSpace (apiSpaceToInnerSpace json s) hs.partitions idle time id
  refine ⟨?_, fun partition hpart => ?_, ?_, fun rep hrep => ?_⟩
  · rw [partitions_filledSpace hs, List.map_map]
    rfl
  · rw [partitions_filledSpace hs] at hpart
    obtain ⟨pid, hpid, rfl⟩ := List.mem_map.mp hpart
    -- the slice ends before the idle nodes do
    have hslice : pid * s.replicaNum.toNat + s.replicaNum.toNat ≤ idle.length := by
      rw [← Nat.succ_mul]
      exact (Nat.mul_le_mul_right _ (List.mem_range.mp hpid)).trans (enough_of_le hs henough)
    have hlen : ((idle.drop (pid * s.replicaNum.toNat)).take s.replicaNum.toNat).length
        = s.replicaNum.toNat := by
      rw [List.length_take, List.length_drop]
      omega
    show (((idle.drop (pid * s.replicaNum.toNat)).take s.replicaNum.toNat).length : Int) = _
    have hpos := hs.replicaNum.1
    omega
  · rw [hreps, List.map_take]
    exact hidle.sublist (List.take_sublist _ _)
  · rw [hreps] at hrep
    exact List.mem_of_mem_take hrep

/-! ### The requests -/

def isPsCreate (task : Task) : Bool :=
  match task.body with
  | .psCreate _ _ => true
  | _ => false

/-- The requests of `ParallelCreatePsSpace` in a trace. -/
def createRequests (tr : Trace Op Res) : List Task :=
  ((exchanges tr).map Prod.fst).filter isPsCreate

theorem createRequests_append (tr tr' : Trace Op Res) :
    createRequests (tr ++ tr') = createRequests tr ++ createRequests tr' := by
  unfold createRequests
  rw [exchanges_append, List.map_append, List.filter_append]

/-- Each node gets one request, for a partition that it is in. -/
structure Requested (sp : InnerSpace) (tr : Trace Op Res) : Prop where
  once : ((createRequests tr).map Task.address).Perm (sp.replicas.map Replica.address)
  current : ∀ task ∈ createRequests tr, ∃ partition ∈ sp.partitions, ∃ rep ∈ partition.replicas,
    task = ⟨rep.psIp, rep.psPort, .psCreate sp partition⟩

theorem requested_of_perm {sp : InnerSpace} {tr : Trace Op Res}
    (h : (createRequests tr).Perm (psCreateTasks sp)) : Requested sp tr := by
  refine ⟨?_, fun task htask => ?_⟩
  · rw [← address_psCreateTasks]
    exact h.map _
  · obtain ⟨partition, hpart, hmem⟩ := List.mem_flatMap.mp (h.mem_iff.mp htask)
    obtain ⟨rep, hrep, rfl⟩ := List.mem_map.mp hmem
    exact ⟨partition, hpart, rep, hrep, rfl⟩

theorem isPsCreate_of_mem {sp : InnerSpace} {task : Task} (h : task ∈ psCreateTasks sp) :
    isPsCreate task = true := by
  obtain ⟨partition, -, hmem⟩ := List.mem_flatMap.mp h
  obtain ⟨rep, -, rfl⟩ := List.mem_map.mp hmem
  rfl

theorem requests_parallelCreatePsSpace (sp : InnerSpace) :
    (parallelCreatePsSpace sp).Yields fun tr _ => (createRequests tr).Perm (psCreateTasks sp) := by
  refine yields_seq ((parallelExecute_exchanges (psCreateTasks sp)).mono ?_)
  rintro tr replies ⟨hlen, hperm⟩
  show (createRequests (tr ++ [])).Perm _
  rw [List.append_nil]
  have hfst : ((exchanges tr).map Prod.fst).Perm (psCreateTasks sp) := by
    have hmap := hperm.map Prod.fst
    rwa [List.map_fst_zip (Nat.le_of_eq hlen.symm)] at hmap
  refine (hfst.filter isPsCreate).trans (List.Perm.of_eq ?_)
  exact List.filter_eq_self.mpr fun task htask => isPsCreate_of_mem htask

theorem createRequests_of_undo {db sp : String} {tr : Trace Op Res}
    (h : ∀ e ∈ tr, UndoOp db sp e.1) : createRequests tr = [] := by
  refine List.filter_eq_nil_iff.mpr fun task htask => ?_
  obtain ⟨⟨task', r⟩, hmem, rfl⟩ := List.mem_map.mp htask
  have hbody : task'.body = .psDelete db sp := h _ (mem_exchanges.mp hmem)
  unfold isPsCreate
  rw [hbody]
  exact Bool.false_ne_true

/-- **The requests of a create are those for the space that it has filled in**, and this is the
space that comes back. -/
theorem requests_createFilled (json : SpaceJson) (pre : String) (sp : InnerSpace) :
    (createFilled json pre sp).Yields fun tr res =>
      (createRequests tr).Perm (psCreateTasks sp) ∧ ∀ x, res = some x → x.1 = sp := by
  have hquiet : ∀ {tr tr' : Trace Op Res}, (createRequests tr).Perm (psCreateTasks sp) →
      createRequests tr' = [] → (createRequests (tr ++ tr')).Perm (psCreateTasks sp) := by
    intro tr tr' hperm hnil
    rw [createRequests_append, hnil, List.append_nil]
    exact hperm
  have hmap : ∀ {r : Option (Bool × String)} {x : InnerSpace × Bool × String},
      (r.map fun y => (sp, y)) = some x → x.1 = sp := by
    intro r x h
    obtain ⟨y, -, rfl⟩ := Option.map_eq_some_iff.mp h
    rfl
  refine yields_perform fun _ => ?_
  refine yields_seq ((requests_parallelCreatePsSpace sp).mono fun tr failed hperm => ?_)
  rcases failed with _ | _ | ⟨i, is⟩
  · exact ⟨hquiet hperm rfl, fun x h => (nomatch h)⟩
  · refine yields_perform fun put => ?_
    cases put with
    | error e =>
      refine yields_seq ((yields_uses (uses_storeFailed (.errSpace _ _ _) _)).mono ?_)
      intro tr' r hr
      refine ⟨hquiet hperm ?_, fun x h => hmap h⟩
      show createRequests (tr' ++ []) = []
      rw [List.append_nil]
      exact createRequests_of_undo hr
    | ok u =>
      refine yields_perform fun _ => ⟨hquiet hperm rfl, fun x h => ?_⟩
      cases h
      rfl
  · refine yields_seq ((yields_uses (uses_createFailed (.errSpace _ _ _) _ _)).mono ?_)
    intro tr' r hr
    refine ⟨hquiet hperm ?_, fun x h => hmap h⟩
    rw [List.append_nil]
    exact createRequests_of_undo hr

/-! ### The raft groups -/

structure RequestRead (sp : InnerSpace) (partition : Master.Partition)
    (req : CreateSpaceRequest) : Prop where
  space : SpaceRead sp req.space
  curPartition : PartitionRead partition req.curPartition

/-- The peers of a partition, as `GetRaftConf` writes them. -/
def peersOf (partition : Master.Partition) : String :=
  String.join (partition.replicas.map fun r => r.psIp ++ ":" ++ toString r.psPort ++ ":0,")

theorem getRaftConf_of_read {partition : Master.Partition} {pb : SimSearch.Partition}
    (h : PartitionRead partition pb) : getRaftConf pb = peersOf partition := by
  have hmap : ∀ {l : List Master.Replica} {l' : List SimSearch.Replica},
      List.Forall₂ ReplicaRead l l' →
      (l'.map fun r => r.psIp ++ ":" ++ toString r.psPort.toInt ++ ":0,")
        = l.map fun r => r.psIp ++ ":" ++ toString r.psPort ++ ":0," := by
    intro l l' hl
    induction hl with
    | nil => rfl
    | cons hr _ ih => rw [List.map_cons, List.map_cons, ih, hr.psIp, hr.psPort]
  unfold getRaftConf peersOf
  rw [hmap h.replicas]

def blockFor (conf : Conf) (m : Mata) (req : CreateSpaceRequest) : Block :=
  getRaftParams conf (m.setCreateSapceReq req)

/-- **What a PS derives depends on the partition alone.** -/
theorem block_of_requestRead {sp : InnerSpace} {partition : Master.Partition}
    {req : CreateSpaceRequest} (h : RequestRead sp partition req) (hdb : sp.dbName ≠ "")
    (conf : Conf) (m : Mata) :
    (blockFor conf m req).group = partition.groupName ∧
      (blockFor conf m req).conf = peersOf partition := by
  have hspace : (m.setCreateSapceReq req).hasSpace = true := by
    show (m.hasSpace || decide (req.space.dbName ≠ "")) = true
    rw [h.space.dbName, decide_eq_true hdb, Bool.or_true]
  unfold blockFor getRaftParams
  rw [if_pos hspace]
  exact ⟨h.curPartition.groupName, getRaftConf_of_read h.curPartition⟩

/-- One group for the replicas of a partition, and another for each partition. -/
structure RaftGroups (sp : InnerSpace) : Prop where
  same : ∀ partition ∈ sp.partitions, ∀ req req', RequestRead sp partition req →
    RequestRead sp partition req' → ∀ conf conf' m m',
      (blockFor conf m req).group = (blockFor conf' m' req').group ∧
        (blockFor conf m req).conf = (blockFor conf' m' req').conf
  different : sp.partitions.Pairwise fun q q' => ∀ req req', RequestRead sp q req →
    RequestRead sp q' req' → ∀ conf conf' m m',
      (blockFor conf m req).group ≠ (blockFor conf' m' req').group

theorem ne_empty_of_nameValidate {s : String} (h : nameValidate s = "") : s ≠ "" := by
  rintro rfl
  exact absurd h (by decide)

theorem raftGroups_filledSpace {json : SpaceJson} {s : ApiSpace} (hs : Accepted s)
    (idle : List Master.Replica) (time : String) (id : Int) :
    RaftGroups (filledSpace (apiSpaceToInnerSpace json s) idle time id) := by
  have hdb : (filledSpace (apiSpaceToInnerSpace json s) idle time id).dbName ≠ "" :=
    ne_empty_of_nameValidate hs.dbName
  refine ⟨fun partition _ req req' h h' conf conf' m m' => ?_, ?_⟩
  · obtain ⟨hgroup, hconf⟩ := block_of_requestRead h hdb conf m
    obtain ⟨hgroup', hconf'⟩ := block_of_requestRead h' hdb conf' m'
    exact ⟨hgroup.trans hgroup'.symm, hconf.trans hconf'.symm⟩
  · rw [partitions_filledSpace hs, List.pairwise_map]
    refine List.nodup_range.imp fun {pid pid'} hne req req' h h' conf conf' m m' heq => hne ?_
    rw [(block_of_requestRead h hdb conf m).1, (block_of_requestRead h' hdb conf' m').1] at heq
    have hcut := @groupName_cut ⟨s.dbName, hs.dbName⟩ ⟨s.dbName, hs.dbName⟩
      ⟨s.spaceName, hs.spaceName⟩ ⟨s.spaceName, hs.spaceName⟩ _ _ heq
    exact_mod_cast hcut.2.2

/-! ### A create -/

/-- **A create deals the idle nodes out consistently.**  With enough of them on addresses of
their own, the loops stay in range and build the space that the requests carry, each node gets
one request with its own partition, and the raft groups are those of the partitions.  With fewer
nothing is written and nobody is called. -/
theorem create_layout_consistent (json : SpaceJson) (s : ApiSpace)
    (hs : checkApiSpace s = some "") (idle : List Master.Replica) :
    (s.partitionNum * s.replicaNum ≤ idle.length → (idle.map Replica.address).Nodup →
      (createPsSpaceImpl json (apiSpaceToInnerSpace json s) idle).Yields fun tr res => ∃ sp,
        (∀ x, res = some x → x.1 = sp) ∧
        fillPartitions (apiSpaceToInnerSpace json s) idle sp.ctime s.partitionNum.toNat 0 0
          s.partitions = some sp.partitions ∧
        Layout s idle sp ∧ Requested sp tr ∧ RaftGroups sp) ∧
    ((idle.length : Int) < s.partitionNum * s.replicaNum →
      (createPsSpaceImpl json (apiSpaceToInnerSpace json s) idle).Yields fun tr _ =>
        ∀ e ∈ tr, e.1 = .now) := by
  have hacc := accepted_of_checkApiSpace hs
  refine ⟨fun henough hidle => yields_perform fun time => ?_,
    fun hshort => yields_perform fun time => ?_⟩
  · have hnot : ¬ (idle.length : Int)
        < (apiSpaceToInnerSpace json s).partitionNum * (apiSpaceToInnerSpace json s).replicaNum :=
      Int.not_lt.mpr henough
    rw [if_neg hnot]
    refine yields_perform fun id => (requests_createFilled json _ _).mono ?_
    rintro tr res ⟨hperm, hres⟩
    refine ⟨_, hres, fillPartitions_eq (enough_of_le hacc henough) _,
      layout_filledSpace hacc henough hidle time _, requested_of_perm hperm,
      raftGroups_filledSpace hacc idle time _⟩
  · have hless : (idle.length : Int)
        < (apiSpaceToInnerSpace json s).partitionNum * (apiSpaceToInnerSpace json s).replicaNum :=
      hshort
    rw [if_pos hless]
    intro e he
    rw [List.mem_singleton.mp he]

/-- A create with two partitions of three replicas and `n` idle nodes, on an empty store. -/
def gridCreate (n : Nat) : Trace Op Res × Option (InnerSpace × Bool × String) × World ackNet :=
  runWith (master ackNet) 0 (fun _ => smooth ackNet sampleTime ())
    (createPsSpaceImpl goJson (apiSpaceToInnerSpace goJson (gridApi 2 3)) (gridNodes n)) 0
    { etcd := ∅, net := () }

/-- Seven idle nodes are one more than it needs, and five are one less. -/
theorem create_layout_consistent_grid :
    checkApiSpace (gridApi 2 3) = some "" ∧
      (∃ sp, Layout (gridApi 2 3) (gridNodes 7) sp ∧ Requested sp (gridCreate 7).1 ∧
        RaftGroups sp) ∧
      ∀ e ∈ (gridCreate 5).1, e.1 = .now := by
  have hs : checkApiSpace (gridApi 2 3) = some "" := by decide +kernel
  refine ⟨hs, ?_, ?_⟩
  · have hall := (create_layout_consistent goJson (gridApi 2 3) hs (gridNodes 7)).1 (by decide)
      (by decide +kernel)
    obtain ⟨sp, -, -, hlayout, hrequested, hgroups⟩ :=
      post_yields (M := master ackNet) hall _ _ _ _ (runs_runWith _ _ _ _)
    exact ⟨sp, hlayout, hrequested, hgroups⟩
  · have hnone := (create_layout_consistent goJson (gridApi 2 3) hs (gridNodes 5)).2 (by decide)
    exact post_yields (M := master ackNet) hnone _ _ _ _ (runs_runWith _ _ _ _)

end SimSearch.Cluster
