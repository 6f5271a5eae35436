import SimSearch.Master.Etcd

/-!
# The handlers of the master

`master/clusterapi/space_api.go` and the handler `register` of `cluster_api.go`, as
programs over the operations of `Etcd.lean`.

A function that can panic returns `none` then.  A panic inside a handler runs the
deferred function, which unlocks and answers with the code and the text that the
handler's variables hold at that moment.
-/

namespace SimSearch.Master

open SimSearch.Lib

/-! ### Calls -/

def putOrAppend (key val : String) (maxLenKB : Nat) : Prog (Except String Unit) := do
  match ← perform (.get key) with
  | .error e =>
    return .error ("EtcdClient PutOrAppend() failed to get key " ++ key ++ ", error: " ++ e)
  | .ok old =>
    let val := old.getD "" ++ val
    if val.utf8ByteSize > maxLenKB * 1024 then
      return .error ("EtcdClient PutOrAppend() value len:" ++ toString val.utf8ByteSize
        ++ " > maxLenBytes: " ++ toString (maxLenKB * 1024))
    else perform (.put key val)

/-- `EtcdLocker.TryLock`, with `fuel` attempts left. -/
def tryLockFrom : Nat → Nat → Prog Bool
  | 0, _ => return false
  | fuel + 1, i => do
    if ← perform (.tryLock i) then return true else tryLockFrom fuel (i + 1)

def tryLock (retry : Nat) : Prog Bool := tryLockFrom retry 0

/-- The requests in the order in which the workers send them. -/
def sendTasks (tasks : List Task) : List Nat → Prog (List (Nat × Reply))
  | [] => return []
  | i :: is =>
    match tasks[i]? with
    | none => sendTasks tasks is
    | some task => do
      let r ← perform (.post task)
      let rest ← sendTasks tasks is
      return (i, r) :: rest

/-- `ParallelExecuteWithResults(HttpOneNode, tasks, 10)`: the replies by index. -/
def parallelExecute (tasks : List Task) : Prog (List Reply) := do
  let order ← perform (.order tasks.length)
  let rs ← sendTasks tasks order.1
  return (List.range tasks.length).map fun i => (rs.lookup i).getD {}

/-- `space.Partitions[idx/space.PartitionNum].Replicas[idx%space.PartitionNum]`. -/
def replicaAt (space : InnerSpace) (idx : Nat) : Option Replica :=
  let p := (idx : Int).tdiv space.partitionNum
  let r := (idx : Int).tmod space.partitionNum
  if space.partitionNum = 0 ∨ p < 0 ∨ r < 0 then none
  else space.partitions[p.toNat]?.bind fun partition => partition.replicas[r.toNat]?

/-- The indices of the requests that failed; each is looked up for the log. -/
def failedIdxs (space : InnerSpace) (replies : List Reply) : Option (List Nat) :=
  replies.zipIdx.foldlM (fun failed e =>
    if e.1.ok then some failed else (replicaAt space e.2).map fun _ => failed ++ [e.2]) []

def psCreateTasks (space : InnerSpace) : List Task :=
  space.partitions.flatMap fun partition =>
    partition.replicas.map fun rep => ⟨rep.psIp, rep.psPort, .psCreate space partition⟩

def psDeleteTasks (space : InnerSpace) : List Task :=
  space.replicas.map fun rep =>
    ⟨rep.psIp, rep.psPort, .psDelete space.dbName space.spaceName⟩

def parallelCreatePsSpace (space : InnerSpace) : Prog (Option (List Nat)) := do
  let replies ← parallelExecute (psCreateTasks space)
  return failedIdxs space replies

def parallelDeletePsSpace (space : InnerSpace) : Prog (Option (List Nat)) := do
  let replies ← parallelExecute (psDeleteTasks space)
  return failedIdxs space replies

/-- The entries of a Go map in the order in which they are visited. -/
def visit {α : Type} (l : List α) : Prog (List α) := do
  let order ← perform (.order l.length)
  return order.1.filterMap fun i => l[i]?

def scanOrEmpty (pre : String) : Prog (List (String × String)) := do
  match ← perform (.scan pre) with
  | .ok kvs => return kvs
  | .error _ => return []

def deleteRouterSpace (dbName spaceName : String) : Prog (Option Unit) := do
  match ← perform (.scan routerNodesPrefix) with
  | .error _ => return some ()
  | .ok kvs =>
    match routerDeserializeFromByte (kvs.map Prod.fst) with
    | none => return none
    | some routers =>
      let routers ← visit routers
      let _ ← parallelExecute (routers.map fun r => ⟨r.1, r.2, .routerDelete dbName spaceName⟩)
      return some ()

def addRouterSpace (space : InnerSpace) : Prog (Option Unit) := do
  let kvs ← scanOrEmpty routerNodesPrefix
  match routerDeserializeFromByte (kvs.map Prod.fst) with
  | none => return none
  | some routers =>
    let routers ← visit routers
    let _ ← parallelExecute (routers.map fun r => ⟨r.1, r.2, .routerCreate space⟩)
    return some ()

/-- `PutNodesErrInfoToEtcd`, for the indices that are left. -/
def putNodesErrInfoToEtcd (space : InnerSpace) (errMsg : String) :
    List Nat → String → Prog (Option String)
  | [], acc => return some acc
  | idx :: idxs, acc =>
    match replicaAt space idx with
    | none => return none
    | some rep => do
      let _ ← putOrAppend (getErrPsNodeEtcdKey rep.psIp rep.psPort rep.psId)
        ("space_id:" ++ toString space.id ++ " " ++ errMsg) etcdValMaxLen
      putNodesErrInfoToEtcd space errMsg idxs
        (acc ++ "ip:" ++ rep.psIp ++ ", port:" ++ toString rep.psPort ++ ", id:"
          ++ toString rep.psId ++ "; ")

/-! ### createSpace -/

/-- `ValidateNameAndGetIdlePsNode`: an error text or the idle nodes.  The errors of all
three scans are dropped. -/
def validateNameAndGetIdlePsNode (json : SpaceJson) (space : InnerSpace) :
    Prog (Option (Except String (List Replica))) := do
  let psKeys ← scanOrEmpty psNodesPrefix
  let errPsKeys ← scanOrEmpty errPsNodesPrefix
  match repDeserializeFromByte (psKeys.map Prod.fst),
      repDeserializeFromByte (errPsKeys.map Prod.fst) with
  | some nodes, some errNodes =>
    let spaces ← scanOrEmpty spacesMataPrefix
    let busy := deserializeFromByteList json (spaces.map Prod.snd)
    if space.fullName ∈ busy.map Prod.fst then
      return some (.error ("DB_name + space_name[" ++ space.fullName
        ++ "] already exists, Please reset DB_name and Space_name."))
    else
      let busySpaces ← visit (busy.map Prod.snd)
      let nodes ← visit nodes
      return some (.ok (getAllIdlePsKeys nodes [getAllPsMap busySpaces, errNodes]))
  | _, _ => return none

/-- The partitions of a new space, filled with the idle nodes in their order. -/
def newPartitions (space : InnerSpace) (idle : List Replica) (time : String) : List Partition :=
  (List.range space.partitionNum.toNat).map fun (pid : Nat) =>
    { partitionId := pid, groupName := getPartitionGroupName space.dbName space.spaceName pid,
      replicas := (idle.drop (pid * space.replicaNum.toNat)).take space.replicaNum.toNat,
      ctime := time, mtime := time }

def createLogPrefix (dbName spaceName : String) : String :=
  "CreateSpace(db_name:" ++ dbName ++ ", space_name:" ++ spaceName ++ ")"

/-- The roll-back after a PS refused: `isAbledDdl` and the text. -/
def createFailed (space : InnerSpace) (errSpaceKey eStr : String) (failed : List Nat) :
    Prog (Option (Bool × String)) := do
  match ← putNodesErrInfoToEtcd space eStr failed "" with
  | none => return none
  | some nodes =>
    let info := "create ps space failed; failed nodes: " ++ nodes ++ "; "
    let _ ← putOrAppend errSpaceKey info etcdValMaxLen
    let _ ← putOrAppend ddlDisabledKey info etcdValMaxLen
    match ← parallelDeletePsSpace space with
    | none => return none
    | some failed =>
      match ← putNodesErrInfoToEtcd space "delete ps space failed; " failed "" with
      | none => return none
      | some nodes =>
        if nodes ≠ "" then
          let _ ← putOrAppend ddlDisabledKey ("delete ps failed nodes: " ++ nodes ++ "; ")
            etcdValMaxLen
          return some (false, eStr)
        else return some (false, eStr)

/-- The roll-back after the metadata could not be stored. -/
def storeFailed (space : InnerSpace) (errSpaceKey eStr : String) :
    Prog (Option (Bool × String)) := do
  let _ ← putOrAppend errSpaceKey eStr etcdValMaxLen
  match ← parallelDeletePsSpace space with
  | none => return none
  | some failed =>
    match ← putNodesErrInfoToEtcd space eStr failed "" with
    | none => return none
    | some nodes =>
      if nodes ≠ "" then
        let _ ← putOrAppend ddlDisabledKey ("delete ps failed nodes: " ++ nodes ++ "; ")
          etcdValMaxLen
        return some (false, eStr)
      else return some (false, eStr)

/-- The space as `CreatePsSpaceImpl` fills it in. -/
def filledSpace (space : InnerSpace) (idle : List Replica) (time : String) (id : Int) :
    InnerSpace :=
  { space with ctime := time, mtime := time, id := id,
               partitions := space.partitions ++ newPartitions space idle time }

/-- `CreatePsSpaceImpl`, once the space `sp` is filled in. -/
def createFilled (json : SpaceJson) (pre : String) (sp : InnerSpace) :
    Prog (Option (InnerSpace × Bool × String)) := do
  let errSpaceKey := getErrSpaceEtcdKey sp.dbName sp.spaceName sp.id
  let spaceJson := json.marshal sp
  let _ ← perform (.put ddlDisabledKey (spaceJson ++ "; "))
  match ← parallelCreatePsSpace sp with
  | none => return none
  | some (i :: is) =>
    let r ← createFailed sp errSpaceKey (pre ++ ", Create ps space failed, deadly error; ")
      (i :: is)
    return r.map fun x => (sp, x)
  | some [] =>
    match ← perform (.put (getSpaceEtcdKey sp.dbName sp.spaceName) spaceJson) with
    | .error e =>
      let r ← storeFailed sp errSpaceKey
        (pre ++ ", Put space mata info to etcd failed, deadly error:" ++ e ++ "; ")
      return r.map fun x => (sp, x)
    | .ok () =>
      let _ ← perform (.delete ddlDisabledKey)
      return some (sp, true, "")

/-- `CreatePsSpaceImpl`: the space as filled in, `isAbledDdl` and the text. -/
def createPsSpaceImpl (json : SpaceJson) (space : InnerSpace) (idle : List Replica) :
    Prog (Option (InnerSpace × Bool × String)) := do
  let pre := createLogPrefix space.dbName space.spaceName
  let time ← perform .now
  if (idle.length : Int) < space.partitionNum * space.replicaNum then
    return some (space, true, pre ++ ", not enough idle PS nodes, need "
      ++ toString (space.partitionNum * space.replicaNum) ++ ", but only "
      ++ toString idle.length ++ ", Create space failed")
  else
    let id ← perform (.newId genSpaceIdKey)
    createFilled json pre
      (filledSpace space idle time (match id with | .ok n => n | .error _ => 0))

structure Answer where
  code : Int
  msg : String
  deriving DecidableEq, Repr

/-- `createSpace`, once the lock is held. -/
def createLocked (json : SpaceJson) (space : InnerSpace) : Prog Answer := do
  match ← perform (.get ddlDisabledKey) with
  | .ok none =>
    match ← validateNameAndGetIdlePsNode json space with
    | none => return ⟨10, ""⟩
    | some (.error msg) => return ⟨10, msg⟩
    | some (.ok idle) =>
      match ← createPsSpaceImpl json space idle with
      | none => return ⟨10, ""⟩
      | some (sp, abled, msg) =>
        if msg ≠ "" then return ⟨if abled then 10 else 100, msg⟩
        else
          match ← addRouterSpace sp with
          | none => return ⟨10, ""⟩
          | some () => return ⟨0, "success"⟩
  | _ =>
    return ⟨10, createLogPrefix space.dbName space.spaceName
      ++ ", cluster has error, cannot create space."⟩

/-- `createSpace`, from `TryLock` to the deferred function. -/
def createTry (json : SpaceJson) (space : InnerSpace) : Prog Answer := do
  if ← tryLock 20 then createLocked json space
  else return ⟨10, createLogPrefix space.dbName space.spaceName ++ ", get etcd locker failed"⟩

/-- `createSpace`; `req` is what `ShouldBindJSON` makes of the body. -/
def createSpace (json : SpaceJson) (req : Except String ApiSpace) : Prog Answer := do
  match req with
  | .error e => return ⟨10, "params error " ++ e⟩
  | .ok api =>
    match checkApiSpace api with
    | none => return ⟨10, ""⟩
    | some msg =>
      if msg ≠ "" then return ⟨10, msg⟩
      else
        let space := apiSpaceToInnerSpace json api
        let pre := createLogPrefix space.dbName space.spaceName
        match ← perform .newSession with
        | .error e => return ⟨10, pre ++ ", get etcd locker failed: 创建 session 失败: " ++ e⟩
        | .ok () =>
          let ans ← createTry json space
          -- the deferred unlock runs whether or not the lock was taken
          let _ ← perform .unlock
          return ans

/-! ### InitClusterApi -/

/-- A counter without a value gets its first number.  The error of `Get` is dropped, and its
value is nil then as well. -/
def startCounter (key : String) : Prog Unit := do
  match ← perform (.get key) with
  | .ok (some _) => return ()
  | _ =>
    let _ ← perform (.newId key)
    return ()

/-- `InitClusterApi`, up to the HTTP server. -/
def initClusterApi : Prog Unit := do
  startCounter genPsIdKey
  startCounter genSpaceIdKey

/-! ### deleteSpace -/

structure DeleteSpaceRequest where
  dbName : String := ""
  spaceName : String := ""
  deriving DecidableEq, Repr

def deleteLogPrefix (req : DeleteSpaceRequest) : String :=
  "DeleteSpace(db_name:" ++ req.dbName ++ ", space_name:" ++ req.spaceName ++ ")"

/-- `deleteSpace`, from the space that was found on. -/
def deleteFound (json : SpaceJson) (req : DeleteSpaceRequest) (detail : String) : Prog Answer := do
  let pre := deleteLogPrefix req
  let space := json.unmarshal detail
  let spaceKey := getSpaceEtcdKey req.dbName req.spaceName
  let deletedSpaceKey := getDeletedSpaceEtcdKey req.dbName req.spaceName space.id
  let errSpaceKey := getErrSpaceEtcdKey req.dbName req.spaceName space.id
  let _ ← perform (.put deletedSpaceKey detail)
  let _ ← perform (.put ddlDisabledKey pre)
  match ← perform (.delete spaceKey) with
  | .error _ =>
    let _ ← putOrAppend errSpaceKey "delete etcd space info failed; " etcdValMaxLen
    return ⟨100, ""⟩
  | .ok () =>
    match ← deleteRouterSpace req.dbName req.spaceName with
    | none => return ⟨100, ""⟩
    | some () =>
      match ← parallelDeletePsSpace space with
      | none => return ⟨100, ""⟩
      | some (i :: is) =>
        match ← putNodesErrInfoToEtcd space (pre ++ " delete ps space failed; ") (i :: is) "" with
        | none => return ⟨100, ""⟩
        | some nodes =>
          let _ ← putOrAppend errSpaceKey ("delete ps space failed; failed nodes: " ++ nodes)
            etcdValMaxLen
          -- the gate is opened here although nodes have failed
          let _ ← perform (.delete ddlDisabledKey)
          return ⟨100, pre ++ " delete ps space failed, deadly error nodes:" ++ nodes⟩
      | some [] =>
        let _ ← perform (.delete ddlDisabledKey)
        let _ ← putOrAppend deletedSpaceKey "; success" etcdValMaxLen
        return ⟨0, "success"⟩

/-- `deleteSpace`, after `TryLock`, whose result nobody looks at. -/
def deleteBody (json : SpaceJson) (req : DeleteSpaceRequest) : Prog Answer := do
  match ← perform (.get (getSpaceEtcdKey req.dbName req.spaceName)) with
  | .ok (some detail) =>
    match ← perform (.get ddlDisabledKey) with
    | .ok none => deleteFound json req detail
    | _ => return ⟨100, deleteLogPrefix req ++ ", cluster has error, cannot create space."⟩
  | _ => return ⟨10, deleteLogPrefix req ++ " is not exist"⟩

def deleteSpace (json : SpaceJson) (req : Except String DeleteSpaceRequest) : Prog Answer := do
  match req with
  | .error e => return ⟨10, "delete_space api request params error: " ++ e⟩
  | .ok req =>
    match ← perform .newSession with
    | .error e =>
      return ⟨10, deleteLogPrefix req ++ " failed, get etcd locker failed: 创建 session 失败: " ++ e⟩
    | .ok () =>
      let _ ← tryLock 20
      let ans ← deleteBody json req
      let _ ← perform .unlock
      return ans

/-! ### register -/

structure RegisterRequest where
  ip : String := ""
  port : Int := 0
  id : Int := 0
  deriving DecidableEq, Repr

structure RegisterAnswer where
  code : Int
  msg : String
  registerKey : String := ""
  deriving DecidableEq, Repr

/-- `CreateWithTTL` on a time in nanoseconds.  Less than a second is refused before any
call; a longer one is granted, and the value is put. -/
def createWithTTL (key val : String) (ttl : Nat) : Prog (Except String Unit) :=
  if ttl ≠ 0 ∧ ttl / 10 ^ 9 = 0 then return .error "ttl time must greater than 1 second"
  else perform (.put key val)

/-- The conflict that `register` looks for: a node of this name with another id. -/
def registerConflict (req : RegisterRequest) (maps : List (List (String × Replica))) :
    Option Replica :=
  maps.findSome? fun m =>
    (m.lookup (getPsNodeName req.ip req.port)).filter fun node => node.psId ≠ req.id

/-- `register`, once the lock is held. -/
def registerLocked (json : SpaceJson) (req : RegisterRequest) : Prog RegisterAnswer := do
  let name := getPsNodeName req.ip req.port
  let psKeys ← scanOrEmpty (psNodesPrefix ++ "/" ++ name)
  let errPsKeys ← scanOrEmpty (errPsNodesPrefix ++ "/" ++ name)
  match repDeserializeFromByte (psKeys.map Prod.fst),
      repDeserializeFromByte (errPsKeys.map Prod.fst) with
  | some nodes, some errNodes =>
    let spaces ← scanOrEmpty spacesMataPrefix
    let busy ← visit ((deserializeFromByteList json (spaces.map Prod.snd)).map Prod.snd)
    match registerConflict req [getAllPsMap busy, nodes, errNodes] with
    | some node =>
      return { code := 12,
               msg := "register node ip:" ++ req.ip ++ " port:" ++ toString req.port
                 ++ " already exists. old_id:" ++ toString node.psId ++ " new_id:"
                 ++ toString req.id }
    | none =>
      let key := getPsRegisterKey req.ip req.port req.id
      let _ ← createWithTTL key "by_master_put" psNodeTtl
      return { code := 0, msg := "success", registerKey := key }
  | _, _ => return { code := 0, msg := "success" }

/-- `register`, from `TryLock` to the deferred function. -/
def registerTry (json : SpaceJson) (req : RegisterRequest) : Prog RegisterAnswer := do
  if ← tryLock 20 then registerLocked json req
  else
    return { code := 11,
             msg := "TryLock etcd locker failed: tryLock key failed after 20 retries" }

def register (json : SpaceJson) (req : Except String RegisterRequest) : Prog RegisterAnswer := do
  match req with
  | .error e => return { code := 10, msg := "params error " ++ e }
  | .ok req =>
    match ← perform .newSession with
    | .error e =>
      return { code := 10, msg := "get etcd locker failed: 创建 session 失败: " ++ e }
    | .ok () =>
      let ans ← registerTry json req
      let _ ← perform .unlock
      return ans

end SimSearch.Master
