import SimSearch.Common.Proto
import SimSearch.Master.Entity

/-!
# Spaces on the wire

The master sends and stores a space as the JSON text of `InnerSpace`, and routers and PS nodes
parse it into the message `common_rpc.Space`.  The names of the JSON fields are those of the
message, a zero that `omitempty` leaves out is a field that is not set, and a number that does
not fit the type of its field is refused.  `SpaceRead` says what a space that was parsed is;
nothing else is assumed of the parser.
-/

namespace SimSearch.Cluster

open SimSearch.Master

/-! ### What a parser reads -/

structure FieldRead (f : InnerField) (pb : Field) : Prop where
  name : pb.name = f.name
  type : pb.type = f.type
  dimension : pb.dimension.map (fun d => (d.toNat : Int))
    = if f.dimension = 0 then none else some f.dimension
  index : pb.index = f.index.map fun i => { name := i.name, type := i.type, params := i.params }

structure ReplicaRead (r : Master.Replica) (pb : SimSearch.Replica) : Prop where
  psId : pb.psId.toInt = r.psId
  psIp : pb.psIp = r.psIp
  psPort : pb.psPort.toInt = r.psPort

structure PartitionRead (p : Master.Partition) (pb : SimSearch.Partition) : Prop where
  partitionId : pb.partitionId.toInt = p.partitionId
  groupName : pb.groupName = p.groupName
  replicas : List.Forall₂ ReplicaRead p.replicas pb.replicas

/-- **A space that was parsed is the one that was written.** -/
structure SpaceRead (sp : InnerSpace) (pb : Space) : Prop where
  dbName : pb.dbName = sp.dbName
  spaceName : pb.spaceName = sp.spaceName
  id : (pb.id.toNat : Int) = sp.id
  partitionNum : (pb.partitionNum.toNat : Int) = sp.partitionNum
  replicaNum : (pb.replicaNum.toNat : Int) = sp.replicaNum
  fields : List.Forall₂ FieldRead sp.fields pb.fields
  partitions : List.Forall₂ PartitionRead sp.partitions pb.partitions
  idType : pb.idType = sp.idType

theorem exists_left_of_forall₂ {α β : Type} {R : α → β → Prop} {l : List α} {l' : List β}
    (h : List.Forall₂ R l l') {b : β} (hb : b ∈ l') : ∃ a ∈ l, R a b := by
  induction h with
  | nil => exact absurd hb List.not_mem_nil
  | cons hab _ ih =>
    rcases List.mem_cons.mp hb with rfl | hb
    · exact ⟨_, List.mem_cons_self, hab⟩
    · obtain ⟨a, ha, hr⟩ := ih hb
      exact ⟨a, List.mem_cons_of_mem _ ha, hr⟩

/-! ### A parser -/

def pbReplica (r : Master.Replica) : SimSearch.Replica :=
  { psId := Int32.ofInt r.psId, psIp := r.psIp, psPort := Int32.ofInt r.psPort }

def pbPartition (p : Master.Partition) : SimSearch.Partition :=
  { partitionId := Int32.ofInt p.partitionId, groupName := p.groupName,
    replicas := p.replicas.map pbReplica }

def pbField (f : InnerField) : Field :=
  { name := f.name, type := f.type,
    dimension := if f.dimension = 0 then none else some (UInt32.ofNat f.dimension.toNat),
    index := f.index.map fun i => { name := i.name, type := i.type, params := i.params } }

def pbSpace (sp : InnerSpace) : Space :=
  { dbName := sp.dbName, spaceName := sp.spaceName, id := UInt32.ofNat sp.id.toNat,
    partitionNum := UInt32.ofNat sp.partitionNum.toNat,
    replicaNum := UInt32.ofNat sp.replicaNum.toNat, fields := sp.fields.map pbField,
    partitions := sp.partitions.map pbPartition,
    idTypeOpt := if sp.idType = "" then none else some sp.idType }

def FitsUInt32 (n : Int) : Prop := 0 ≤ n ∧ n < 2 ^ 32
def FitsInt32 (n : Int) : Prop := -2 ^ 31 ≤ n ∧ n < 2 ^ 31

instance (n : Int) : Decidable (FitsUInt32 n) := inferInstanceAs (Decidable (_ ∧ _))
instance (n : Int) : Decidable (FitsInt32 n) := inferInstanceAs (Decidable (_ ∧ _))

def Fits (sp : InnerSpace) : Prop :=
  FitsUInt32 sp.id ∧ FitsUInt32 sp.partitionNum ∧ FitsUInt32 sp.replicaNum ∧
    (∀ f ∈ sp.fields, FitsUInt32 f.dimension) ∧
    ∀ p ∈ sp.partitions, FitsInt32 p.partitionId ∧
      ∀ r ∈ p.replicas, FitsInt32 r.psId ∧ FitsInt32 r.psPort

instance (sp : InnerSpace) : Decidable (Fits sp) := inferInstanceAs (Decidable (_ ∧ _))

theorem toNat_ofNat_of_fits {n : Int} (h : FitsUInt32 n) :
    ((UInt32.ofNat n.toNat).toNat : Int) = n := by
  obtain ⟨hlow, hhigh⟩ := h
  rw [UInt32.toNat_ofNat']
  omega

theorem forall₂_map {α β : Type} {R : α → β → Prop} {f : α → β} {l : List α}
    (h : ∀ a ∈ l, R a (f a)) : List.Forall₂ R l (l.map f) := by
  rw [List.forall₂_map_right_iff, List.forall₂_same]
  exact h

theorem fieldRead_pbField {f : InnerField} (h : FitsUInt32 f.dimension) :
    FieldRead f (pbField f) := by
  refine ⟨rfl, rfl, ?_, rfl⟩
  unfold pbField
  by_cases hdim : f.dimension = 0
  · simp [hdim]
  · simp only [if_neg hdim, Option.map_some, toNat_ofNat_of_fits h]

theorem spaceRead_pbSpace {sp : InnerSpace} (h : Fits sp) : SpaceRead sp (pbSpace sp) := by
  obtain ⟨hid, hnum, hrep, hfields, hparts⟩ := h
  refine ⟨rfl, rfl, toNat_ofNat_of_fits hid, toNat_ofNat_of_fits hnum, toNat_ofNat_of_fits hrep,
    forall₂_map fun f hf => fieldRead_pbField (hfields f hf), forall₂_map fun p hp => ?_, ?_⟩
  · obtain ⟨hpid, hreps⟩ := hparts p hp
    refine ⟨Int32.toInt_ofInt_of_le hpid.1 hpid.2, rfl, forall₂_map fun r hr => ?_⟩
    obtain ⟨⟨hlow, hhigh⟩, hlow', hhigh'⟩ := hreps r hr
    exact ⟨Int32.toInt_ofInt_of_le hlow hhigh, rfl, Int32.toInt_ofInt_of_le hlow' hhigh'⟩
  · unfold Space.idType pbSpace
    by_cases ht : sp.idType = ""
    · simp [ht]
    · simp [ht]

end SimSearch.Cluster
