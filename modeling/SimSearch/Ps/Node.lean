import SimSearch.Common.Proto
import SimSearch.Lib.Runs

/-!
# The life of a PS process

`service/ps_main.cc`, the handlers `CreateSpace` and `DeleteSpace` of
`service/ps/ps_rpc.cc`, `PsLocalNodeMata`, `LocalStorager`, and `RaftManager` of
`raft_store/raft_store.cc`.

A PS is its disk and, while it runs, a process with the loaded metadata and
perhaps a raft block.  What the engine, the file system, braft and the master
answer are outcomes that come with each event.  `C` is the content of a raft root
directory, and `fresh` that of a directory just made.

A restart is one event here, and the handlers hold `raft_mgr.mtx()`, so they are
one event each as well.
-/

namespace SimSearch.Ps

open SimSearch.Lib

/-! ### Configuration and metadata -/

/-- The globals of `config/conf.cc` that the PS reads. -/
structure Conf where
  psStorageDir : String
  raftRootDir : String
  curIp : String
  rpcPort : Int32

structure NodeInfo where
  psId : Int := 0
  psIp : String := ""
  psPort : Int32 := 0
  deriving DecidableEq, Repr

/-- `PsLocalNodeMata`. -/
structure Mata where
  psNodeInfo : NodeInfo := {}
  spaceReq : CreateSpaceRequest := {}
  hasSpace : Bool := false
  deriving DecidableEq, Repr

/-- `SetCreateSapceReq`: the flag is set for a request with a database name, and is
never cleared. -/
def Mata.setCreateSapceReq (m : Mata) (req : CreateSpaceRequest) : Mata :=
  { m with spaceReq := req, hasSpace := m.hasSpace || decide (req.space.dbName ≠ "") }

/-- `PsLocalNodeMata::DeleteSpace`, in memory. -/
def Mata.deleteSpace (m : Mata) : Mata := { m with spaceReq := {}, hasSpace := false }

def Mata.isLoadFromFile (m : Mata) : Bool :=
  decide (0 < m.psNodeInfo.psId) && decide (m.psNodeInfo.psIp ≠ "")

def getRaftConf (partition : Partition) : String :=
  String.join (partition.replicas.map fun r => r.psIp ++ ":" ++ toString r.psPort.toInt ++ ":0,")

def getRaftRoot (conf : Conf) (m : Mata) : String :=
  if m.hasSpace then conf.raftRootDir ++ "/" ++ m.spaceReq.curPartition.groupName else ""

/-! ### Raft blocks -/

/-- `Block`, before `start` has run and after. -/
structure Block where
  rootPath : String := ""
  group : String := ""
  conf : String := ""
  port : Int32 := 0
  started : Bool := false
  deriving DecidableEq, Repr

/-- The variables that `GetRaftParams` fills, left as they are without a space. -/
def getRaftParams (conf : Conf) (m : Mata) : Block :=
  if m.hasSpace then
    { rootPath := getRaftRoot conf m, group := m.spaceReq.curPartition.groupName,
      conf := getRaftConf m.spaceReq.curPartition, port := conf.rpcPort }
  else {}

/-- How far `Block::start` comes: the root directory is not made, a later step fails,
or the node runs. -/
inductive StartOutcome
  | noDirectory
  | failed
  | started
  deriving DecidableEq, Repr

structure Disk (C : Type) where
  nodeInfo : Option NodeInfo := none
  spaceSchema : Option CreateSpaceRequest := none
  raftDirs : Std.TreeMap String C := ∅

variable {C : Type}

def isUnder (root path : String) : Bool :=
  path == root || (root ++ "/").toList.isPrefixOf path.toList

/-- `butil::DeleteFile(root, true)`; `left` is what a failed removal leaves behind. -/
def deleteFile (root : String) (left : Option C) (dirs : Std.TreeMap String C) :
    Std.TreeMap String C :=
  if root = "" then dirs
  else
    let rest := dirs.keys.foldl (fun m path => if isUnder root path then m.erase path else m) dirs
    match left with
    | none => rest
    | some c => if dirs.contains root then rest.insert root c else rest

/-- `RaftManager::DeleteBlock`, on the disk; the block is gone afterwards. -/
def deleteBlock (block : Option Block) (left : Option C) (disk : Disk C) : Disk C :=
  match block with
  | none => disk
  | some b => { disk with raftDirs := deleteFile b.rootPath left disk.raftDirs }

/-- The directory after `Block::start`; one that exists keeps its content. -/
def startDirs (fresh : C) (root : String) (out : StartOutcome) (dirs : Std.TreeMap String C) :
    Std.TreeMap String C :=
  if out = .noDirectory ∨ dirs.contains root then dirs else dirs.insert root fresh

/-- `CreateBlock` and then `StartRaftServer`, which answers `Fail to start Block`
unless the node runs. -/
def createAndStart (fresh : C) (params : Block) (block : Option Block) (left : Option C)
    (out : StartOutcome) (disk : Disk C) : String × Block × Disk C :=
  let disk := deleteBlock block left disk
  let disk := { disk with raftDirs := startDirs fresh params.rootPath out disk.raftDirs }
  (if out = .started then "" else "Fail to start Block",
    { params with started := decide (out = .started) }, disk)

/-! ### Handlers -/

structure RespStatus where
  code : Int32 := 0
  msg : String := ""
  deriving DecidableEq, Repr

structure Proc where
  mata : Mata := {}
  block : Option Block := none
  deriving DecidableEq, Repr

/-- How `DumpCreateSpaceReq` ends for a request with a database name. -/
inductive DumpOutcome
  | toJsonFailed (json : String)
  | openFailed (json : String)
  | written
  deriving DecidableEq, Repr

/-- What the calls of `CreateSpace` answer: the status of `CreateTable`, what removing
an old block leaves, the start of the node and the dump of the request. -/
structure CreateOutcome (C : Type) where
  engineCode : Int32 := 0
  engineMsg : String := ""
  left : Option C := none
  start : StartOutcome := .started
  dump : DumpOutcome := .written

/-- `DumpCreateSpaceReq`: its error text and the schema file afterwards. -/
def dumpCreateSpaceReq (conf : Conf) (m : Mata) (out : DumpOutcome)
    (schema : Option CreateSpaceRequest) : String × Option CreateSpaceRequest :=
  if m.spaceReq.space.dbName ≠ "" then
    match out with
    | .toJsonFailed json => ("Failed to convert protobuf to JSON. json_str:" ++ json, schema)
    | .openFailed json =>
      ("Failed to open create_space_req: " ++ conf.psStorageDir ++ "/create_space_req.json"
        ++ " json_str:" ++ json, schema)
    | .written => ("", some m.spaceReq)
  else ("space is not set. not dump CreateSpaceReq", schema)

def createSpace (conf : Conf) (fresh : C) (req : CreateSpaceRequest) (out : CreateOutcome C)
    (p : Proc) (disk : Disk C) : RespStatus × Proc × Disk C :=
  if p.mata.hasSpace then
    (⟨201, "Space has exist, space_name:" ++ p.mata.spaceReq.space.spaceName⟩, p, disk)
  else
    let mata := p.mata.setCreateSapceReq req
    let params := getRaftParams conf mata
    -- every failure puts the empty request back, which leaves the flag as it is
    let undone := mata.setCreateSapceReq {}
    if out.engineCode ≠ 0 then
      (⟨out.engineCode, "Engine create table failed, msg:" ++ out.engineMsg⟩,
        { p with mata := undone }, disk)
    else
      let (msg, block, disk) := createAndStart fresh params p.block out.left out.start disk
      if msg ≠ "" then (⟨202, msg⟩, { mata := undone, block := some block }, disk)
      else
        let (msg, schema) := dumpCreateSpaceReq conf mata out.dump disk.spaceSchema
        let disk := { disk with spaceSchema := schema }
        if msg ≠ "" then (⟨203, msg⟩, { mata := undone, block := some block }, disk)
        else (⟨0, ""⟩, { mata := mata, block := some block }, disk)

/-- What the calls of `DeleteSpace` do: what removing the raft directory leaves, and
whether the schema file is removed. -/
structure DeleteOutcome (C : Type) where
  left : Option C := none
  schemaRemoved : Bool := true

/-- `PsRpcImpl::DeleteSpace`; `LocalStorager::DeleteSpace` compares the names again. -/
def deleteSpace (dbName spaceName : String) (out : DeleteOutcome C) (p : Proc) (disk : Disk C) :
    RespStatus × Proc × Disk C :=
  if p.mata.spaceReq.space.dbName ≠ dbName ∨ p.mata.spaceReq.space.spaceName ≠ spaceName then
    (⟨201, "db_name and space_name is not exist."⟩, p, disk)
  else
    let disk := deleteBlock p.block out.left disk
    (⟨0, ""⟩, { mata := p.mata.deleteSpace, block := none },
      { disk with spaceSchema := if out.schemaRemoved then none else disk.spaceSchema })

/-! ### Start and stop -/

/-- What the calls of `main` answer.  `genId` is the id that the master hands out, and
-1 when it does not. -/
structure RestartOutcome (C : Type) where
  nodeInfoParsed : Bool := true
  schemaParsed : Bool := true
  genId : Int := 1
  nodeInfoDumped : Bool := true
  serverStarted : Bool := true
  engineLoaded : Bool := true
  left : Option C := none
  start : StartOutcome := .started

/-- `PsLocalNodeMata::Init`: the schema file is read only next to a node file. -/
def initMata (out : RestartOutcome C) (disk : Disk C) : Option Mata :=
  match disk.nodeInfo with
  | none => some {}
  | some info =>
    if out.nodeInfoParsed = false then none
    else
      match disk.spaceSchema with
      | none => some { psNodeInfo := info }
      | some req =>
        if out.schemaParsed = false then none
        else some { psNodeInfo := info, spaceReq := req, hasSpace := true }

/-- `LocalStorager::CreateOrLoadNodeMata`, when its result is positive. -/
def createOrLoadNodeMata (conf : Conf) (out : RestartOutcome C) (disk : Disk C) :
    Option (Mata × Disk C) :=
  match initMata out disk with
  | none => none
  | some m =>
    if m.isLoadFromFile then some (m, disk)
    else if 0 < out.genId ∧ out.nodeInfoDumped then
      let info : NodeInfo := { psId := out.genId, psIp := conf.curIp, psPort := conf.rpcPort }
      some ({ m with psNodeInfo := info }, { disk with nodeInfo := some info })
    else none

/-- `main`: the process that runs afterwards, and none when it has ended.  It ends
without a block, so the destructor of `RaftManager` finds nothing to remove. -/
def main (conf : Conf) (fresh : C) (out : RestartOutcome C) (disk : Disk C) :
    Option Proc × Disk C :=
  match createOrLoadNodeMata conf out disk with
  | none => (none, disk)
  | some (m, disk) =>
    if out.serverStarted = false then (none, disk)
    else if m.hasSpace then
      if out.engineLoaded = false then (none, disk)
      else
        -- a failed start is only logged, and registering goes on in the background
        let (_, block, disk) :=
          createAndStart fresh (getRaftParams conf m) none out.left out.start disk
        (some { mata := m, block := some block }, disk)
    else
      -- `bthread_join` stores a null, so `LaunchRegister` answers 0 even when the master refuses
      -- the node, and the branch that removes the node file is never taken
      (some { mata := m }, disk)

/-! ### Events -/

inductive Event (C : Type)
  | createSpace (req : CreateSpaceRequest) (out : CreateOutcome C)
  | deleteSpace (dbName spaceName : String) (out : DeleteOutcome C)
  /-- Raft changes the files below the root directory of its node. -/
  | raftWrite (content : C)
  /-- The process is asked to quit, leaves `main` and runs its destructors. -/
  | stop (left : Option C)
  | crash
  | restart (out : RestartOutcome C)

/-- A PS, and what its clients may rely on: the root directory of the space that was
created and not deleted, with the content that raft last gave it. -/
structure World (C : Type) where
  proc : Option Proc := none
  disk : Disk C := {}
  live : Option (String × C) := none

def writtenRoot (p : Proc) (disk : Disk C) : Option String :=
  match p.block with
  | some b => if b.started && disk.raftDirs.contains b.rootPath then some b.rootPath else none
  | none => none

def step (conf : Conf) (fresh : C) (w : World C) (e : Event C) : World C :=
  match w.proc, e with
  | some p, .createSpace req out =>
    let (status, p', disk) := createSpace conf fresh req out p w.disk
    let root := getRaftRoot conf p'.mata
    { proc := some p', disk := disk,
      live := if status.code = 0 then some (root, disk.raftDirs[root]?.getD fresh) else w.live }
  | some p, .deleteSpace dbName spaceName out =>
    let (status, p', disk) := deleteSpace dbName spaceName out p w.disk
    { proc := some p', disk := disk, live := if status.code = 0 then none else w.live }
  | some p, .raftWrite content =>
    match writtenRoot p w.disk with
    | none => w
    | some root =>
      { w with
        disk := { w.disk with raftDirs := w.disk.raftDirs.insert root content }
        live := w.live.map fun l => if l.1 = root then (root, content) else l }
  | some p, .stop left => { w with proc := none, disk := deleteBlock p.block left w.disk }
  | some _, .crash => { w with proc := none }
  | none, .restart out =>
    let (proc, disk) := main conf fresh out w.disk
    { w with proc := proc, disk := disk }
  | _, _ => w

end SimSearch.Ps
