import Mathlib

/-!
# The messages of the RPC services

The messages of `idl/rpc_service_idl/*.proto` that the router, the PS and the
raft store exchange, and the type names of `common/common_type.cc`.

A protobuf `map` is an ordered map here; the code never depends on the order in
which the entries of such a map are visited.  A `float` or a `double` is its bit
pattern, a `bytes` value is a list of bytes.  An `optional` field is an `Option`,
and its getter returns the proto3 default when the field is not set.
-/

namespace SimSearch

/-- The bytes of an `IOBuf`, of a file or of a serialized message. -/
abbrev Bytes := List UInt8

/-- A protobuf `map<string, α>`. -/
abbrev PbMap (α : Type) := Std.TreeMap String α

/-! ### Type names -/

def intSdtype : String := "int"
def longSdtype : String := "long"
def floatSdtype : String := "float"
def doubleSdtype : String := "double"
def stringSdtype : String := "string"
-- `STRINGARRAY_SDTYPE` is spelled this way in `common_type.cc`.
def stringarraySdtype : String := "stringarrry"
def vectorSdtype : String := "vector"

def idField : String := "_id"

/-! ### Spaces -/

structure Index where
  name : String := ""
  type : String := ""
  params : Option String := none
  deriving DecidableEq, Repr

structure Field where
  name : String := ""
  type : String := ""
  dimension : Option UInt32 := none
  index : Option Index := none
  deriving DecidableEq, Repr

structure Replica where
  psId : Int32 := 0
  psIp : String := ""
  psPort : Int32 := 0
  deriving DecidableEq, Repr

structure Partition where
  partitionId : Int32 := 0
  groupName : String := ""
  replicas : List Replica := []
  deriving DecidableEq, Repr

structure Space where
  dbName : String := ""
  spaceName : String := ""
  id : UInt32 := 0
  partitionNum : UInt32 := 0
  replicaNum : UInt32 := 0
  fields : List Field := []
  partitions : List Partition := []
  idTypeOpt : Option String := none
  deriving DecidableEq, Repr

def Space.idType (space : Space) : String := space.idTypeOpt.getD ""

/-- `ps_rpc.CreateSpaceRequest`; `{}` is the message with no field set. -/
structure CreateSpaceRequest where
  space : Space := {}
  curPartition : Partition := {}
  deriving DecidableEq, Repr

/-! ### Documents -/

structure Document where
  idOpt : Option String := none
  ints : PbMap Int32 := ∅
  longs : PbMap Int64 := ∅
  floats : PbMap UInt32 := ∅
  doubles : PbMap UInt64 := ∅
  strings : PbMap String := ∅
  stringArrays : PbMap (List String) := ∅
  vectors : PbMap (List UInt32) := ∅

def Document.id (doc : Document) : String := doc.idOpt.getD ""

structure DocStatus where
  id : String
  code : Int32 := 0
  msg : String := ""
  deriving DecidableEq, Repr

structure UpsertRequest where
  dbName : String := ""
  spaceName : String := ""
  documents : List Document := []

structure UpsertResponse where
  code : Int32 := 0
  msg : String := ""
  failedDocs : List DocStatus := []
  deriving DecidableEq, Repr

/-- `GetRequest` and `DeleteRequest` carry the same fields. -/
structure IdsRequest where
  dbName : String := ""
  spaceName : String := ""
  ids : List String := []
  deriving DecidableEq, Repr

structure GetResponse where
  code : Int32 := 0
  msg : String := ""
  documents : List Document := []
  failedDocs : List DocStatus := []

structure DeleteResponse where
  code : Int32 := 0
  msg : String := ""
  failedDocs : List DocStatus := []
  deriving DecidableEq, Repr

/-! ### Raft requests -/

inductive ImplType
  | upsert
  | delete
  | read
  deriving DecidableEq, Repr

inductive KeyType
  | int64
  | string
  deriving DecidableEq, Repr

structure BlockRequest where
  dbName : String := ""
  spaceName : String := ""
  implType : ImplType := .upsert
  keyType : KeyType := .int64
  key : String := ""
  deriving DecidableEq, Repr

structure BlockResponse where
  success : Option Bool := none
  redirect : String := ""
  msg : String := ""
  deriving DecidableEq, Repr

end SimSearch
