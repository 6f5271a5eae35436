import SimSearch.Common.Dto
import SimSearch.Lib.Grouping

/-!
# Which partition a document is written to and read from

`RouterDocRpcImpl::Upsert`, `Get` and `Delete` of `service/router/router_rpc.cc`,
with `SpaceManager::HashDocs` and `HashKeys`, `GetPartitionId`, and the calls on
`SpaceConnection` and `PartitionConnetion` they end in.

A write files each document under the partition of a key, and a read files each
requested id under the partition of that id.  The two sides meet only if the key
the write uses is the id.  `Upsert` sizes its key vector and never fills it, so the
key of every document is the empty text: `placed_upsertGroups` and
`lookedUp_hashKeys` say where each side goes, and from the two follows when that
is the same place.

`std::hash<std::string>` is the parameter `hasher`; `libstdcxxHash` is the one of
GCC's library.  What a remote call answers is a parameter as well.
-/

namespace SimSearch.Router

open SimSearch.Lib

/-! ### Hashing -/

/-- `StrHashUint64`: the hash is read as a signed number, and the absolute value of
the least one wraps around to itself. -/
def strHashUint64 (hasher : String → UInt64) (str : String) : UInt64 :=
  (hasher str).toInt64.abs.toUInt64

/-- `GetPartitionId`: the `int` divisor is converted to the unsigned type. -/
def getPartitionId (hasher : String → UInt64) (key : String) (partitionNum : Int32) : UInt32 :=
  (strHashUint64 hasher key % partitionNum.toInt64.toUInt64).toUInt32

/-- The `int` that `HashDocs` and `HashKeys` store the result in. -/
def partitionIdx (hasher : String → UInt64) (partitionNum : Int32) (key : String) : Int :=
  (getPartitionId hasher key partitionNum).toInt32.toInt

/-! ### Groups -/

structure PbDocInfo where
  key : String
  pbDoc : Document

structure DocsGroup where
  partitionId : Int
  pbDocInfos : List PbDocInfo := []

def newDocsGroup (p : Int) : DocsGroup := { partitionId := p }

def DocsGroup.pushBack (g : DocsGroup) (info : PbDocInfo) : DocsGroup :=
  { g with pbDocInfos := g.pbDocInfos ++ [info] }

/-- `SpaceManager::HashDocs`, for as many keys as documents.  The first loop makes
the groups, the second one fills them. -/
def hashDocs (hasher : String → UInt64) (docs : List Document) (docKeys : List String)
    (partitionNum : Int32) : Std.TreeMap Int DocsGroup :=
  let m := docKeys.foldl
    (fun m key => ensure newDocsGroup m (partitionIdx hasher partitionNum key)) ∅
  (docKeys.zipWith PbDocInfo.mk docs).foldl
    (fun m info =>
      let m := ensure newDocsGroup m (partitionIdx hasher partitionNum info.key)
      m.insert (partitionIdx hasher partitionNum info.key)
        ((group newDocsGroup m (partitionIdx hasher partitionNum info.key)).pushBack info)) m

def hashKeys (hasher : String → UInt64) (docKeys : List String) (partitionNum : Int32) :
    Std.TreeMap Int (List String) :=
  docKeys.foldl
    (fun m key =>
      let m := ensure (fun _ => []) m (partitionIdx hasher partitionNum key)
      m.insert (partitionIdx hasher partitionNum key)
        (group (fun _ => []) m (partitionIdx hasher partitionNum key) ++ [key])) ∅

/-! ### Partition connections -/

/-- `PartitionConnetion`, with the answers of the calls it makes: the `i`-th
`RaftClient::Write` of an upsert, and the `i`-th `PsRpcClient::Get` of a read on the
replica chosen for it.  `hasOpt` says that `_partition_opt[_idx]` is not null. -/
structure PartitionConnetion where
  dbName : String
  spaceName : String
  hasOpt : Bool
  serializeToString : Document → Option Bytes
  raftWrite : Nat → BlockRequest → Bytes → String × BlockResponse
  psGet : Nat → List String → String × GetResponse

/-- The error of one document in `PartitionConnetion::UpsertDocs`. -/
def PartitionConnetion.upsertDoc (conn : PartitionConnetion) (i : Nat) (info : PbDocInfo) :
    Option String :=
  match conn.serializeToString info.pbDoc with
  | none => some "SerializeToString Document failed"
  | some binary =>
    let req : BlockRequest :=
      { dbName := conn.dbName, spaceName := conn.spaceName, implType := .upsert,
        keyType := .string, key := info.key }
    let (oneMsg, resp) := conn.raftWrite i req binary
    if oneMsg ≠ "" ∨ resp.success.getD false = false then
      some (oneMsg ++ ", ret_msg:" ++ resp.msg)
    else none

def PartitionConnetion.upsertDocs (conn : PartitionConnetion) (grp : DocsGroup) :
    Std.TreeMap String String :=
  grp.pbDocInfos.zipIdx.foldl (fun err e =>
    match conn.upsertDoc e.2 e.1 with
    | some msg => err.insert e.1.key msg
    | none => err) ∅

/-- `PartitionConnetion::DeleteDocs`: the body of its loop is empty. -/
def PartitionConnetion.deleteDocs (_conn : PartitionConnetion) (_docKeys : List String) :
    Std.TreeMap String String := ∅

/-- The tries of `PartitionConnetion::GetDocs`: the first answer without an error, or
the error of the last try. -/
def PartitionConnetion.tryGet (conn : PartitionConnetion) (docKeys : List String) :
    List Nat → String → Except String GetResponse
  | [], oneMsg => .error oneMsg
  | i :: is, _ =>
    let (oneMsg, resp) := conn.psGet i docKeys
    if oneMsg = "" then .ok resp else conn.tryGet docKeys is oneMsg

/-- `PartitionConnetion::GetDocs`, with `_retries` of 3; of two entries for one id the
later one counts. -/
def PartitionConnetion.getDocs (conn : PartitionConnetion) (docKeys : List String) :
    Std.TreeMap String String × Std.TreeMap String Document :=
  let allFailed (msg : String) : Std.TreeMap String String × Std.TreeMap String Document :=
    (docKeys.foldl (fun err key => err.insert key msg) ∅, ∅)
  if conn.hasOpt = false then allFailed "***** two buffer partion_opt is null *****"
  else
    match conn.tryGet docKeys (List.range 3) "" with
    | .error oneMsg => allFailed ("GetDocs from Ps error, msg:" ++ oneMsg)
    | .ok resp =>
      docKeys.foldl (fun acc key =>
        match resp.documents.reverse.find? (fun doc => doc.id = key),
            resp.failedDocs.reverse.find? (fun doc => doc.id = key) with
        | some doc, _ => (acc.1, acc.2.insert key doc)
        | none, some failed => (acc.1.insert key failed.msg, acc.2)
        | none, none => (acc.1.insert key "Key not found in response", acc.2)) (∅, ∅)

/-! ### Space connections -/

/-- `SpaceConnection`.  `_partition_list` is indexed without a bound check; here it
has an entry for every index. -/
structure SpaceConnection where
  pbSpace : Space
  partitionList : Int → PartitionConnetion

/-- `PartitionNum()` returns the unsigned field as an `int32_t`. -/
def SpaceConnection.partitionNum (conn : SpaceConnection) : Int32 :=
  conn.pbSpace.partitionNum.toInt32

/-- The assignments `err_mp[key] = one_msg` for the result of one group. -/
def assignAll {β : Type} (m r : Std.TreeMap String β) : Std.TreeMap String β :=
  r.toList.foldl (fun m e => m.insert e.1 e.2) m

def SpaceConnection.upsertDocs (conn : SpaceConnection) (grps : Std.TreeMap Int DocsGroup) :
    Std.TreeMap String String :=
  grps.toList.foldl (fun err e => assignAll err ((conn.partitionList e.1).upsertDocs e.2)) ∅

def SpaceConnection.deleteDocs (conn : SpaceConnection)
    (grps : Std.TreeMap Int (List String)) : Std.TreeMap String String :=
  grps.toList.foldl (fun err e => assignAll err ((conn.partitionList e.1).deleteDocs e.2)) ∅

def SpaceConnection.getDocs (conn : SpaceConnection) (grps : Std.TreeMap Int (List String)) :
    Std.TreeMap String String × Std.TreeMap String Document :=
  grps.toList.foldl (fun acc e =>
    let one := (conn.partitionList e.1).getDocs e.2
    (assignAll acc.1 one.1, assignAll acc.2 one.2)) (∅, ∅)

/-! ### Handlers -/

/-- `add_same_msg`: the same text for every id of the request. -/
def addSameMsg (ids : List String) (msg : String) : List DocStatus :=
  ids.map fun id => { id := id, msg := msg }

def failedOf (keys : List String) (err : Std.TreeMap String String) : List DocStatus :=
  keys.filterMap fun key => err[key]?.map fun msg => { id := key, msg := msg }

/-- The key vector of `Upsert`: one text for each document, none of them assigned. -/
def upsertDocKeys (docs : List Document) : List String := List.replicate docs.length ""

def upsertGroups (hasher : String → UInt64) (conn : SpaceConnection) (docs : List Document) :
    Std.TreeMap Int DocsGroup :=
  hashDocs hasher docs (upsertDocKeys docs) conn.partitionNum

/-- `RouterDocRpcImpl::Upsert`; `conn` and `msg` are what `GetSpaceConn` returned. -/
def upsert (hasher : String → UInt64) (conn : Option SpaceConnection) (msg : String)
    (req : UpsertRequest) : UpsertResponse :=
  let ids := req.documents.map Document.id
  match conn, decide (msg = "") with
  | some conn, true =>
    match (req.documents.map (checkPbDocIn · conn.pbSpace)).find? (fun m => decide (m ≠ "")) with
    | some m => ⟨102, m, addSameMsg ids "has doc format error"⟩
    | none =>
      let docKeys := upsertDocKeys req.documents
      let failed := failedOf docKeys (conn.upsertDocs (upsertGroups hasher conn req.documents))
      -- the source tests the size of the key vector, not that of the error map
      if docKeys.length > 0 then ⟨103, "upsert exist fail, failed id:", failed⟩
      else ⟨0, "", failed⟩
  | _, _ => ⟨101, msg, addSameMsg ids msg⟩

/-- The groups with which `Get` calls `GetDocs` and `Delete` calls `DeleteDocs`, or
the text with which they refuse the ids. -/
def keyGroups (hasher : String → UInt64) (conn : SpaceConnection) (ids : List String) :
    Except String (Std.TreeMap Int (List String)) :=
  let msg := checkPbIds ids conn.pbSpace
  if msg ≠ "" then .error msg else .ok (hashKeys hasher ids conn.partitionNum)

def get (hasher : String → UInt64) (conn : Option SpaceConnection) (msg : String)
    (req : IdsRequest) : GetResponse :=
  match conn, decide (msg = "") with
  | some conn, true =>
    match keyGroups hasher conn req.ids with
    | .error m => ⟨102, m, [], addSameMsg req.ids m⟩
    | .ok grps =>
      let (errIds, docsRes) := conn.getDocs grps
      let docs := req.ids.filterMap fun key => if errIds.contains key then none else docsRes[key]?
      let failed : List DocStatus := req.ids.filterMap fun key =>
        match errIds[key]?, docsRes[key]? with
        | some m, _ => some { id := key, msg := m }
        | none, some _ => none
        | none, none => some { id := key, msg := "get doc fail, engine not has result." }
      if errIds.size > 0 then
        ⟨103, "There is some id that failed to get. failed ids :", docs, failed⟩
      else ⟨0, "", docs, failed⟩
  | _, _ => ⟨101, msg, [], addSameMsg req.ids msg⟩

def delete (hasher : String → UInt64) (conn : Option SpaceConnection) (msg : String)
    (req : IdsRequest) : DeleteResponse :=
  match conn, decide (msg = "") with
  | some conn, true =>
    match keyGroups hasher conn req.ids with
    | .error m => ⟨102, m, addSameMsg req.ids m⟩
    | .ok grps =>
      let errIds := conn.deleteDocs grps
      let failed := failedOf req.ids errIds
      if errIds.size > 0 then
        ⟨103, "There is some id that failed to be deleted. failed ids :", failed⟩
      else ⟨0, "", failed⟩
  | _, _ => ⟨101, msg, addSameMsg req.ids msg⟩

/-! ### Where the two sides go -/

def Placed (grps : Std.TreeMap Int DocsGroup) (doc : Document) (p : Int) : Prop :=
  ∃ info ∈ (group newDocsGroup grps p).pbDocInfos, info.pbDoc = doc

def LookedUp (grps : Std.TreeMap Int (List String)) (key : String) (p : Int) : Prop :=
  key ∈ group (fun _ => []) grps p

theorem foldl_pushBack (l : List PbDocInfo) :
    ∀ g : DocsGroup, l.foldl DocsGroup.pushBack g
      = { g with pbDocInfos := g.pbDocInfos ++ l } := by
  induction l with
  | nil => intro g; simp
  | cons a r ih => intro g; rw [List.foldl_cons, ih]; simp [DocsGroup.pushBack]

theorem foldl_append_singleton (l : List String) :
    ∀ g : List String, l.foldl (fun g k => g ++ [k]) g = g ++ l := by
  induction l with
  | nil => intro g; simp
  | cons a r ih => intro g; rw [List.foldl_cons, ih]; simp

/-- `HashDocs` leaves in the group of `p` the documents whose key hashes to `p`, in
the order of the request, under the number `p`. -/
theorem hashDocs_group_eq (hasher : String → UInt64) (docs : List Document)
    (docKeys : List String) (n : Int32) (p : Int) :
    group newDocsGroup (hashDocs hasher docs docKeys n) p
      = ⟨p, (docKeys.zipWith PbDocInfo.mk docs).filter
          (fun info => decide (partitionIdx hasher n info.key = p))⟩ := by
  unfold hashDocs
  simp only
  rw [(files_ensure_push newDocsGroup DocsGroup.pushBack
    (fun info : PbDocInfo => partitionIdx hasher n info.key)).foldl p, group_foldl_ensure,
    foldl_pushBack]
  rfl

theorem hashDocs_group (hasher : String → UInt64) (docs : List Document) (docKeys : List String)
    (n : Int32) (p : Int) :
    (group newDocsGroup (hashDocs hasher docs docKeys n) p).pbDocInfos
      = (docKeys.zipWith PbDocInfo.mk docs).filter
          (fun info => decide (partitionIdx hasher n info.key = p)) := by
  rw [hashDocs_group_eq]

theorem hashKeys_group (hasher : String → UInt64) (docKeys : List String) (n : Int32) (p : Int) :
    group (fun _ => []) (hashKeys hasher docKeys n) p
      = docKeys.filter (fun key => decide (partitionIdx hasher n key = p)) := by
  unfold hashKeys
  rw [(files_ensure_push (fun _ => []) (fun g key => g ++ [key])
    (partitionIdx hasher n)).foldl p, foldl_append_singleton]
  rfl

/-- The key of every document of an upsert is the empty text. -/
theorem zipWith_upsertDocKeys (docs : List Document) :
    (upsertDocKeys docs).zipWith PbDocInfo.mk docs = docs.map (PbDocInfo.mk "") := by
  unfold upsertDocKeys
  induction docs with
  | nil => rfl
  | cons d r ih => rw [List.length_cons, List.replicate_succ, List.zipWith_cons_cons, ih]; rfl

/-- Every document of an upsert goes to the partition of the empty text. -/
theorem placed_upsertGroups (hasher : String → UInt64) (conn : SpaceConnection)
    {docs : List Document} {doc : Document} (hdoc : doc ∈ docs) (p : Int) :
    Placed (upsertGroups hasher conn docs) doc p
      ↔ p = partitionIdx hasher conn.partitionNum "" := by
  unfold Placed upsertGroups
  rw [hashDocs_group, zipWith_upsertDocKeys]
  constructor
  · rintro ⟨info, hinfo, -⟩
    rw [List.mem_filter, List.mem_map] at hinfo
    obtain ⟨⟨d, -, rfl⟩, hp⟩ := hinfo
    exact (decide_eq_true_eq.mp hp).symm
  · rintro rfl
    exact ⟨⟨"", doc⟩, List.mem_filter.mpr ⟨List.mem_map_of_mem hdoc, by simp⟩, rfl⟩

/-- A requested id is looked up in its own partition and in no other. -/
theorem lookedUp_hashKeys (hasher : String → UInt64) (n : Int32) {ids : List String}
    {key : String} (hkey : key ∈ ids) (p : Int) :
    LookedUp (hashKeys hasher ids n) key p ↔ p = partitionIdx hasher n key := by
  unfold LookedUp
  rw [hashKeys_group, List.mem_filter, decide_eq_true_eq]
  exact ⟨fun h => h.2.symm, fun h => ⟨hkey, h.symm⟩⟩

theorem keyGroups_ok {hasher : String → UInt64} {conn : SpaceConnection} {ids : List String}
    {grps : Std.TreeMap Int (List String)} (h : keyGroups hasher conn ids = .ok grps) :
    grps = hashKeys hasher ids conn.partitionNum := by
  unfold keyGroups at h
  simp only at h
  split_ifs at h
  cases h
  rfl

theorem keyGroups_singleton (hasher : String → UInt64) {conn : SpaceConnection} {doc : Document}
    (h : checkPbDocIn doc conn.pbSpace = "") :
    keyGroups hasher conn [doc.id] = .ok (hashKeys hasher [doc.id] conn.partitionNum) := by
  unfold keyGroups
  simp only
  rw [checkPbIds_singleton h, if_neg (by simp)]

theorem partitionIdx_inj {hasher : String → UInt64} {n : Int32} {k k' : String} :
    partitionIdx hasher n k = partitionIdx hasher n k'
      ↔ getPartitionId hasher k n = getPartitionId hasher k' n := by
  unfold partitionIdx
  rw [Int32.toInt_inj]
  constructor
  · intro h
    simpa using congrArg Int32.toUInt32 h
  · exact congrArg _

/-- **Read and write routing agree** on the documents of an upsert: a get of the id of
each is accepted, each is put into the partition of its id and into no other, and
that is where every get or delete that accepts its id asks for it. -/
def RoutingAgrees (hasher : String → UInt64) (conn : SpaceConnection) (docs : List Document) :
    Prop :=
  ∀ doc ∈ docs, (∃ grps, keyGroups hasher conn [doc.id] = .ok grps) ∧
    ∀ p,
      (Placed (upsertGroups hasher conn docs) doc p
        ↔ p = partitionIdx hasher conn.partitionNum doc.id) ∧
      ∀ ids grps, keyGroups hasher conn ids = .ok grps → doc.id ∈ ids →
        (Placed (upsertGroups hasher conn docs) doc p ↔ LookedUp grps doc.id p)

/-- **The two sides meet exactly on the ids that hash like the empty text.** -/
theorem upsert_routing_agrees_iff (hasher : String → UInt64) (conn : SpaceConnection)
    (docs : List Document) (hdocs : ∀ doc ∈ docs, checkPbDocIn doc conn.pbSpace = "") :
    RoutingAgrees hasher conn docs
      ↔ ∀ doc ∈ docs, getPartitionId hasher doc.id conn.partitionNum
          = getPartitionId hasher "" conn.partitionNum := by
  constructor
  · intro h doc hdoc
    have hplaced := (placed_upsertGroups hasher conn hdoc _).mpr rfl
    exact partitionIdx_inj.mp (((h doc hdoc).2 _).1.mp hplaced).symm
  · intro h doc hdoc
    have hidx : partitionIdx hasher conn.partitionNum doc.id
        = partitionIdx hasher conn.partitionNum "" := partitionIdx_inj.mpr (h doc hdoc)
    refine ⟨⟨_, keyGroups_singleton hasher (hdocs doc hdoc)⟩, fun p => ⟨?_, ?_⟩⟩
    · rw [placed_upsertGroups hasher conn hdoc, hidx]
    · intro ids grps hgrps hid
      rw [keyGroups_ok hgrps, lookedUp_hashKeys hasher _ hid,
        placed_upsertGroups hasher conn hdoc, hidx]

/-! ### GCC's hash -/

def shiftMix (v : UInt64) : UInt64 := v ^^^ (v >>> 47)

def hashMul : UInt64 := 0xc6a4a7935bd1e995

def loadBytes (bs : Bytes) : UInt64 := UInt64.ofNat (ofLeBytes bs)

/-- The loop of `_Hash_bytes` over blocks of eight bytes, and its tail. -/
def hashBlocks : UInt64 → Bytes → UInt64
  | h, b0 :: b1 :: b2 :: b3 :: b4 :: b5 :: b6 :: b7 :: rest =>
    let data := shiftMix (loadBytes [b0, b1, b2, b3, b4, b5, b6, b7] * hashMul) * hashMul
    hashBlocks ((h ^^^ data) * hashMul) rest
  | h, [] => h
  | h, rest => (h ^^^ loadBytes rest) * hashMul

/-- `std::hash<std::string>` of libstdc++ on a 64-bit machine. -/
def libstdcxxHash (s : String) : UInt64 :=
  let bs := utf8Bytes s
  let h := hashBlocks (0xc70f6907 ^^^ (UInt64.ofNat bs.length * hashMul)) bs
  shiftMix (shiftMix h * hashMul)

/-- A space of two partitions whose only field is a string key. -/
def twoPartitions : SpaceConnection where
  pbSpace := { dbName := "db", spaceName := "s", partitionNum := 2, replicaNum := 1,
               fields := [{ name := idField, type := stringSdtype }],
               idTypeOpt := some stringSdtype }
  partitionList _ :=
    { dbName := "db", spaceName := "s", hasOpt := true, serializeToString := fun _ => some []
      raftWrite := fun _ _ _ => ("", { success := some true }), psGet := fun _ _ => ("", {}) }

def docWithId (id : String) : Document :=
  { idOpt := some id, strings := (∅ : PbMap String).insert idField id }

theorem upsert_routing_agrees_two :
    (∀ doc ∈ [docWithId "2"], checkPbDocIn doc twoPartitions.pbSpace = "") ∧
      RoutingAgrees libstdcxxHash twoPartitions [docWithId "2"] :=
  ⟨by decide, (upsert_routing_agrees_iff libstdcxxHash twoPartitions [docWithId "2"]
    (by decide)).mpr (by decide)⟩

/-- The document with the id `1` passes the check and is put into partition `0`, while
its id is looked up in partition `1`. -/
theorem upsert_routing_one_not_agrees :
    (∀ doc ∈ [docWithId "1"], checkPbDocIn doc twoPartitions.pbSpace = "") ∧
      1 ≤ twoPartitions.partitionNum ∧
      ¬ RoutingAgrees libstdcxxHash twoPartitions [docWithId "1"] := by
  refine ⟨by decide, by decide, fun h => ?_⟩
  have hmem : docWithId "1" ∈ [docWithId "1"] := List.mem_singleton.mpr rfl
  have hplaced := (placed_upsertGroups libstdcxxHash twoPartitions hmem _).mpr rfl
  have hidx := ((h _ hmem).2 _).1.mp hplaced
  exact absurd hidx (by decide)

end SimSearch.Router
