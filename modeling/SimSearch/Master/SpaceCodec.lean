import SimSearch.Lib.Json
import SimSearch.Master.Entity

/-!
# The JSON of a space

`goJson` is `encoding/json` on the structs of `master/entity`: the names and the order of
the struct tags, with the fields marked `omitempty` left out when they are zero.  Reading
takes each field by its name and leaves the zero value where it is missing, and a text
that is no JSON leaves the zero space.

`unmarshal_marshal` is the round trip.
-/

namespace SimSearch.Master

open SimSearch.Lib

namespace Codec

/-! ### Values -/

def ofInt (j : Option Json) : Int :=
  match j with
  | some (.int n) => n
  | _ => 0

def ofStr (j : Option Json) : String :=
  match j with
  | some (.str s) => s
  | _ => ""

def ofList {α : Type} (f : Json → α) (j : Option Json) : List α :=
  match j with
  | some (.arr l) => l.map f
  | _ => []

def optInt (n : Int) : Option Json := if n = 0 then none else some (.int n)

def optStr (s : String) : Option Json := if s = "" then none else some (.str s)

theorem ofInt_optInt (n : Int) : ofInt (optInt n) = n := by
  unfold optInt
  by_cases h : n = 0
  · rw [if_pos h, h]
    rfl
  · rw [if_neg h]
    rfl

theorem ofStr_optStr (s : String) : ofStr (optStr s) = s := by
  unfold optStr
  by_cases h : s = ""
  · rw [if_pos h, h]
    rfl
  · rw [if_neg h]
    rfl

theorem ofList_map {α : Type} {f : Json → α} {g : α → Json} (h : ∀ a, f (g a) = a) (l : List α) :
    ofList f (some (.arr (l.map g))) = l := by
  show (l.map g).map f = l
  rw [List.map_map]
  conv_rhs => rw [← List.map_id l]
  exact List.map_congr_left fun a _ => h a

/-- An array that is left out when it is empty. -/
def optList (l : List Json) : Option Json := if l = [] then none else some (.arr l)

theorem ofList_optList {α : Type} {f : Json → α} {g : α → Json} (h : ∀ a, f (g a) = a)
    (l : List α) : ofList f (optList (l.map g)) = l := by
  unfold optList
  by_cases hl : l.map g = []
  · rw [if_pos hl, List.map_eq_nil_iff.mp hl]
    rfl
  · rw [if_neg hl]
    exact ofList_map h l

/-! ### Structs -/

def replicaFields (r : Replica) : List (String × Option Json) :=
  [("ps_id", some (.int r.psId)), ("ps_ip", some (.str r.psIp)),
    ("ps_port", some (.int r.psPort)), ("is_leader", some (.int r.isLeader)),
    ("node_status", some (.str r.nodeStatus)), ("msg", some (.str r.msg))]

def ofReplica (j : Json) : Replica :=
  { psId := ofInt (j.field "ps_id"), psIp := ofStr (j.field "ps_ip"),
    psPort := ofInt (j.field "ps_port"), isLeader := ofInt (j.field "is_leader"),
    nodeStatus := ofStr (j.field "node_status"), msg := ofStr (j.field "msg") }

def replica (r : Replica) : Json := .struct (replicaFields r)

theorem ofReplica_replica (r : Replica) : ofReplica (replica r) = r := by
  have hfield := Json.field_struct (show ((replicaFields r).map Prod.fst).Nodup by
    simp [replicaFields])
  unfold ofReplica replica
  simp only [hfield]
  rfl

def partitionFields (p : Partition) : List (String × Option Json) :=
  [("partition_id", some (.int p.partitionId)), ("group_name", some (.str p.groupName)),
    ("replicas", some (.arr (p.replicas.map replica))), ("ctime", optStr p.ctime),
    ("mtime", optStr p.mtime)]

def ofPartition (j : Json) : Partition :=
  { partitionId := ofInt (j.field "partition_id"), groupName := ofStr (j.field "group_name"),
    replicas := ofList ofReplica (j.field "replicas"), ctime := ofStr (j.field "ctime"),
    mtime := ofStr (j.field "mtime") }

def partition (p : Partition) : Json := .struct (partitionFields p)

theorem ofPartition_partition (p : Partition) : ofPartition (partition p) = p := by
  have hfield := Json.field_struct (show ((partitionFields p).map Prod.fst).Nodup by
    simp [partitionFields])
  unfold ofPartition partition
  simp only [hfield]
  show (⟨p.partitionId, p.groupName, ofList ofReplica (some (.arr (p.replicas.map replica))),
    ofStr (optStr p.ctime), ofStr (optStr p.mtime)⟩ : Partition) = p
  rw [ofList_map ofReplica_replica, ofStr_optStr, ofStr_optStr]

def indexFields (i : InnerIndex) : List (String × Option Json) :=
  [("name", some (.str i.name)), ("type", some (.str i.type)), ("params", i.params.map .str)]

/-- A pointer to a string: nil when the field is missing or null. -/
def ofStrPtr (j : Option Json) : Option String :=
  match j with
  | some (.str s) => some s
  | _ => none

def ofIndex (j : Json) : InnerIndex :=
  { name := ofStr (j.field "name"), type := ofStr (j.field "type"),
    params := ofStrPtr (j.field "params") }

def index (i : InnerIndex) : Json := .struct (indexFields i)

theorem ofIndex_index (i : InnerIndex) : ofIndex (index i) = i := by
  have hfield := Json.field_struct (show ((indexFields i).map Prod.fst).Nodup by
    simp [indexFields])
  unfold ofIndex index
  simp only [hfield]
  obtain ⟨name, type, params⟩ := i
  cases params <;> rfl

def fieldFields (f : InnerField) : List (String × Option Json) :=
  [("name", some (.str f.name)), ("type", some (.str f.type)), ("dimension", optInt f.dimension),
    ("index", f.index.map index)]

def ofField (j : Json) : InnerField :=
  { name := ofStr (j.field "name"), type := ofStr (j.field "type"),
    dimension := ofInt (j.field "dimension"), index := (j.field "index").map ofIndex }

def field (f : InnerField) : Json := .struct (fieldFields f)

theorem ofField_field (f : InnerField) : ofField (field f) = f := by
  have hfield := Json.field_struct (show ((fieldFields f).map Prod.fst).Nodup by
    simp [fieldFields])
  unfold ofField field
  simp only [hfield]
  show (⟨f.name, f.type, ofInt (optInt f.dimension), (f.index.map index).map ofIndex⟩ :
    InnerField) = f
  rw [ofInt_optInt]
  obtain ⟨name, type, dimension, idx⟩ := f
  cases idx with
  | none => rfl
  | some i =>
    show (⟨name, type, dimension, some (ofIndex (index i))⟩ : InnerField) = _
    rw [ofIndex_index]

def spaceFields (s : InnerSpace) : List (String × Option Json) :=
  [("db_name", some (.str s.dbName)), ("space_name", some (.str s.spaceName)),
    ("id", optInt s.id), ("partition_num", some (.int s.partitionNum)),
    ("replica_num", some (.int s.replicaNum)), ("fields", some (.arr (s.fields.map field))),
    ("partitions", optList (s.partitions.map partition)), ("_id_type", optStr s.idType),
    ("ctime", optStr s.ctime), ("mtime", optStr s.mtime)]

def ofSpace (j : Json) : InnerSpace :=
  { dbName := ofStr (j.field "db_name"), spaceName := ofStr (j.field "space_name"),
    id := ofInt (j.field "id"), partitionNum := ofInt (j.field "partition_num"),
    replicaNum := ofInt (j.field "replica_num"), fields := ofList ofField (j.field "fields"),
    partitions := ofList ofPartition (j.field "partitions"), idType := ofStr (j.field "_id_type"),
    ctime := ofStr (j.field "ctime"), mtime := ofStr (j.field "mtime") }

def space (s : InnerSpace) : Json := .struct (spaceFields s)

theorem ofSpace_space (s : InnerSpace) : ofSpace (space s) = s := by
  have hfield := Json.field_struct (show ((spaceFields s).map Prod.fst).Nodup by
    simp [spaceFields])
  unfold ofSpace space
  simp only [hfield]
  show (⟨s.dbName, s.spaceName, ofInt (optInt s.id), s.partitionNum, s.replicaNum,
    ofList ofField (some (.arr (s.fields.map field))),
    ofList ofPartition (optList (s.partitions.map partition)), ofStr (optStr s.idType),
    ofStr (optStr s.ctime), ofStr (optStr s.mtime)⟩ : InnerSpace) = s
  rw [ofInt_optInt, ofList_map ofField_field, ofList_optList ofPartition_partition, ofStr_optStr,
    ofStr_optStr, ofStr_optStr]

def hnsw (h : Hnsw) : Json :=
  .struct [("metric_type", h.metricType.map .str), ("nlinks", some (.int h.nlinks)),
    ("efConstruction", some (.int h.efConstruction)), ("efSearch", some (.int h.efSearch))]

/-- The struct `IVFPQ`, which takes its fields from the parameters of the request. -/
def ivfpq (p : IndexParams) : Json :=
  .struct [("metric_type", some (.str p.metricType)),
    ("training_threshold", optInt p.trainingThreshold), ("ncentroids", some (.int p.ncentroids)),
    ("nsubvector", some (.int p.nsubvector)), ("thread_num", optInt p.threadNum),
    ("hnsw", p.hnsw.map hnsw)]

end Codec

/-- `encoding/json` on the structs of the master. -/
def goJson : SpaceJson where
  marshal s := (Codec.space s).toText
  unmarshal v := ((Json.ofText v).map Codec.ofSpace).getD {}
  marshalParams p := (Codec.ivfpq p).toText
  marshalHnsw h := (Codec.hnsw h).toText

/-- **A space that was written is read back.** -/
theorem unmarshal_marshal (s : InnerSpace) : goJson.unmarshal (goJson.marshal s) = s := by
  unfold goJson
  simp only
  rw [Json.ofText_toText, Option.map_some, Option.getD_some, Codec.ofSpace_space]

end SimSearch.Master
