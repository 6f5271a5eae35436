import SimSearch.Master.SpaceApi

/-!
# What the parts of the handlers may do

`CreateOp db sp` are the operations of a create between `TryLock` and the answer, apart
from the two that publish the space: the put under its key and the delete of
`DdlDisabledKey`.  `PublishOp` adds these, and `UndoOp` are those of a roll-back.
`PurgeOp` and `DeleteOp` are those of a delete.  The lemmas `uses_` say once, for each
function, that it keeps to them; what a handler leaves alone follows from `post_spares`
without another look at its code.
-/

namespace SimSearch.Master

open SimSearch.Lib Program

variable {net : Network} {t : Nat}

/-! ### Keys -/

/-- The keys under which the handlers keep notes. -/
inductive NoteKey : String → Prop
  | disabled : NoteKey ddlDisabledKey
  | errSpace (db sp : String) (id : Int) : NoteKey (getErrSpaceEtcdKey db sp id)
  | errPsNode (ip : String) (port id : Int) : NoteKey (getErrPsNodeEtcdKey ip port id)
  | deletedSpace (db sp : String) (id : Int) : NoteKey (getDeletedSpaceEtcdKey db sp id)

theorem startsWith_append (pre rest : String) : startsWith pre (pre ++ rest) = true := by
  unfold startsWith
  rw [List.isPrefixOf_iff_prefix, String.toList_append]
  exact List.prefix_append _ _

/-- Two texts that differ before either ends start no common key. -/
theorem startsWith_append_eq_false {pre pre' rest : String}
    (h : ∀ l : List Char, pre.toList.isPrefixOf (pre'.toList ++ l) = false) :
    startsWith pre (pre' ++ rest) = false := by
  unfold startsWith
  rw [String.toList_append, h]

theorem startsWith_getSpaceEtcdKey (db sp : String) :
    startsWith spacesMataPrefix (getSpaceEtcdKey db sp) = true := by
  unfold getSpaceEtcdKey
  simp only [String.append_assoc]
  exact startsWith_append _ _

theorem not_routerKey_getSpaceEtcdKey (db sp : String) :
    startsWith routerNodesPrefix (getSpaceEtcdKey db sp) = false := by
  unfold getSpaceEtcdKey
  simp only [String.append_assoc]
  exact startsWith_append_eq_false fun l => rfl

/-- Every note key starts with one of these three. -/
theorem NoteKey.head {key : String} (h : NoteKey key) :
    ∃ head ∈ ["/cluster", "/error", "/deleted_spaces"], ∃ rest,
      key = head ++ rest := by
  cases h with
  | disabled => exact ⟨"/cluster", by simp, "/ddl_disabled", rfl⟩
  | errSpace db sp id =>
    refine ⟨"/error", by simp, "/spaces" ++ ("/" ++ db ++ "/" ++ sp ++ "/" ++ toString id), ?_⟩
    rw [← String.append_assoc, getErrSpaceEtcdKey]
    simp only [String.append_assoc]
    rfl
  | errPsNode ip port id =>
    refine ⟨"/error", by simp, "/nodes/ps" ++ ("/" ++ getPsNodeName ip port ++ toString id), ?_⟩
    rw [← String.append_assoc, getErrPsNodeEtcdKey]
    simp only [String.append_assoc]
    rfl
  | deletedSpace db sp id =>
    refine ⟨"/deleted_spaces", by simp,
      "/mata" ++ ("/" ++ db ++ "/" ++ sp ++ "/" ++ toString id), ?_⟩
    rw [← String.append_assoc, getDeletedSpaceEtcdKey]
    simp only [String.append_assoc]
    rfl

/-- A note is neither below `SpacesMataPrefix` nor below `RouterNodesPrefix`. -/
theorem NoteKey.not_startsWith {key pre : String} (h : NoteKey key)
    (hpre : pre = spacesMataPrefix ∨ pre = routerNodesPrefix) : startsWith pre key = false := by
  obtain ⟨head, hhead, rest, rfl⟩ := h.head
  refine startsWith_append_eq_false fun l => ?_
  simp only [List.mem_cons, List.not_mem_nil, or_false] at hhead
  rcases hpre with rfl | rfl <;> rcases hhead with rfl | rfl | rfl <;> rfl

theorem NoteKey.not_psKey {key : String} (h : NoteKey key) : startsWith psNodesPrefix key = false := by
  obtain ⟨head, hhead, rest, rfl⟩ := h.head
  refine startsWith_append_eq_false fun l => ?_
  simp only [List.mem_cons, List.not_mem_nil, or_false] at hhead
  rcases hhead with rfl | rfl | rfl <;> rfl

theorem not_psKey_getSpaceEtcdKey (db sp : String) :
    startsWith psNodesPrefix (getSpaceEtcdKey db sp) = false := by
  unfold getSpaceEtcdKey
  simp only [String.append_assoc]
  exact startsWith_append_eq_false fun l => rfl

/-! ### Footprints -/

def ReadOp : Op → Prop
  | .get _ | .scan _ | .now | .order _ => True
  | _ => False

def LockOp : Op → Prop
  | .newSession | .tryLock _ | .unlock => True
  | _ => False

def CreateTask (db sp : String) (task : Task) : Prop :=
  match task.body with
  | .psCreate space _ => space.dbName = db ∧ space.spaceName = sp
  | .psDelete db' sp' => db' = db ∧ sp' = sp
  | .routerCreate space => space.dbName = db ∧ space.spaceName = sp
  | .routerDelete _ _ => False

def CreateOp (db sp : String) : Op → Prop
  | .put key _ => NoteKey key
  | .newId key => key = genSpaceIdKey
  | .post task => CreateTask db sp task
  | .get _ | .scan _ | .now | .order _ => True
  | _ => False

/-- The operations of a roll-back: notes, and the requests that delete the space again. -/
def UndoOp (db sp : String) : Op → Prop
  | .put key _ => NoteKey key
  | .post task => task.body = .psDelete db sp
  | .get _ | .order _ => True
  | _ => False

/-- A create with the operations that publish the space. -/
def PublishOp (json : SpaceJson) (db sp : String) (o : Op) : Prop :=
  CreateOp db sp o ∨ o = .delete ddlDisabledKey ∨ ∃ space : InnerSpace, space.dbName = db ∧
    space.spaceName = sp ∧ o = .put (getSpaceEtcdKey db sp) (json.marshal space)

/-- The operations of a delete, apart from the two keys that it deletes. -/
def PurgeOp : Op → Prop
  | .put key _ => NoteKey key
  | .post task => (∃ d s, task.body = .psDelete d s) ∨ ∃ d s, task.body = .routerDelete d s
  | .get _ | .scan _ | .now | .order _ => True
  | _ => False

def DeleteOp (db sp : String) (o : Op) : Prop :=
  PurgeOp o ∨ o = .delete ddlDisabledKey ∨ o = .delete (getSpaceEtcdKey db sp)

/-! ### Operations that spare the keys below a text -/

/-- The operation writes no key that starts with `pre`. -/
def Spares (pre : String) : Op → Prop
  | .put key _ => startsWith pre key = false
  | .delete key => startsWith pre key = false
  | .newId key => startsWith pre key = false
  | _ => True

/-- The stores have the same values below `pre`. -/
def Agree (pre : String) (e e' : Std.TreeMap String String) : Prop :=
  ∀ key, startsWith pre key = true → e'[key]? = e[key]?

theorem Agree.trans {pre : String} {e e' e'' : Std.TreeMap String String} (h : Agree pre e e')
    (h' : Agree pre e' e'') : Agree pre e e'' :=
  fun key hkey => (h' key hkey).trans (h key hkey)

theorem agree_insert {pre k v : String} {e : Std.TreeMap String String}
    (h : startsWith pre k = false) : Agree pre e (e.insert k v) := by
  intro key hkey
  have hne : k ≠ key := by
    rintro rfl
    rw [hkey] at h
    cases h
  rw [Std.TreeMap.getElem?_insert, if_neg (by simpa using hne)]

theorem agree_erase {pre k : String} {e : Std.TreeMap String String}
    (h : startsWith pre k = false) : Agree pre e (e.erase k) := by
  intro key hkey
  have hne : k ≠ key := by
    rintro rfl
    rw [hkey] at h
    cases h
  rw [Std.TreeMap.getElem?_erase, if_neg (by simpa using hne)]

theorem exec_spares {pre : String} (w : World net) (o : Op) (c : Choice net o)
    (ho : Spares pre o) : Agree pre w.etcd (exec net t w o c).2.etcd := by
  cases o with
  | put k v =>
    cases c with
    | none => exact agree_insert ho
    | some e => exact fun _ _ => rfl
  | delete k =>
    cases c with
    | none => exact agree_erase ho
    | some e => exact fun _ _ => rfl
  | newId k =>
    simp only [exec]
    cases c with
    | some e => exact fun _ _ => rfl
    | none =>
      cases nextId w.etcd[k]? with
      | none => exact fun _ _ => rfl
      | some n => exact agree_insert ho
  | tryLock i =>
    simp only [exec]
    split_ifs <;> exact fun _ _ => rfl
  | unlock =>
    simp only [exec]
    split_ifs <;> exact fun _ _ => rfl
  | _ => exact fun _ _ => rfl

theorem exec_lockOp (w : World net) (o : Op) (c : Choice net o) (ho : LockOp o) :
    (exec net t w o c).2.etcd = w.etcd ∧ (exec net t w o c).2.net = w.net := by
  cases o with
  | newSession => exact ⟨rfl, rfl⟩
  | tryLock i =>
    simp only [exec]
    split_ifs <;> exact ⟨rfl, rfl⟩
  | unlock =>
    simp only [exec]
    split_ifs <;> exact ⟨rfl, rfl⟩
  | _ => exact ho.elim

/-- **A program that spares the keys below `pre` leaves their values.** -/
theorem post_spares {α : Type} {pre : String} {p : Prog α} (hp : p.Uses (Spares pre))
    (w : World net) : Post (master net) t p w (fun _ _ w' => Agree pre w.etcd w'.etcd) := by
  have hstep : ∀ (s : World net) (o : Op) (c : Choice net o), Spares pre o →
      Agree pre w.etcd s.etcd → Agree pre w.etcd (exec net t s o c).2.etcd := by
    intro s o c ho hs
    exact hs.trans (exec_spares s o c ho)
  exact post_of_uses (M := master net) (fun s : World net => Agree pre w.etcd s.etcd) hstep hp w
    (fun _ _ => rfl)

theorem post_lock {α : Type} {p : Prog α} (hp : p.Uses LockOp) (w : World net) :
    Post (master net) t p w (fun _ _ w' => w'.etcd = w.etcd ∧ w'.net = w.net) := by
  refine post_of_uses (M := master net)
    (fun s : World net => s.etcd = w.etcd ∧ s.net = w.net) ?_ hp w ⟨rfl, rfl⟩
  rintro s o c ho ⟨hetcd, hnet⟩
  obtain ⟨h₁, h₂⟩ := exec_lockOp (t := t) s o c ho
  exact ⟨h₁.trans hetcd, h₂.trans hnet⟩

/-! ### Inclusions -/

theorem ReadOp.createOp {db sp : String} : ∀ o, ReadOp o → CreateOp db sp o := by
  intro o h
  cases o <;> first | exact h.elim | trivial

theorem UndoOp.createOp {db sp : String} : ∀ o, UndoOp db sp o → CreateOp db sp o := by
  intro o h
  cases o with
  | put k v => exact h
  | post task =>
    show CreateTask db sp task
    unfold CreateTask
    rw [show task.body = .psDelete db sp from h]
    exact ⟨rfl, rfl⟩
  | get k => trivial
  | order n => trivial
  | _ => exact h.elim

theorem CreateOp.spares {db sp pre : String}
    (hpre : pre = spacesMataPrefix ∨ pre = routerNodesPrefix) :
    ∀ o, CreateOp db sp o → Spares pre o := by
  intro o h
  cases o with
  | put k v => exact NoteKey.not_startsWith h hpre
  | newId k =>
    cases h
    show startsWith pre genSpaceIdKey = false
    rcases hpre with rfl | rfl <;> decide
  | delete k => exact h.elim
  | _ => trivial

theorem PublishOp.spares_router {json : SpaceJson} {db sp : String} :
    ∀ o, PublishOp json db sp o → Spares routerNodesPrefix o := by
  rintro o (h | rfl | ⟨space, -, -, rfl⟩)
  · exact CreateOp.spares (Or.inr rfl) o h
  · exact NoteKey.disabled.not_startsWith (Or.inr rfl)
  · exact not_routerKey_getSpaceEtcdKey db sp

theorem PurgeOp.spares_space : ∀ o, PurgeOp o → Spares spacesMataPrefix o := by
  intro o h
  cases o with
  | put k v => exact NoteKey.not_startsWith h (Or.inl rfl)
  | delete k => exact h.elim
  | newId k => exact h.elim
  | _ => trivial

/-! ### Calls -/

section

variable {allowed : Op → Prop}

theorem uses_putOrAppend {key val : String} {n : Nat} (hget : allowed (.get key))
    (hput : ∀ v, allowed (.put key v)) : (putOrAppend key val n).Uses allowed := by
  refine uses_call hget fun r => ?_
  cases r with
  | error e => trivial
  | ok old =>
    by_cases hlen : (old.getD "" ++ val).utf8ByteSize > n * 1024
    · simp only [if_pos hlen]
      trivial
    · simp only [if_neg hlen]
      exact uses_perform (hput _)

theorem uses_tryLockFrom (h : ∀ i, allowed (.tryLock i)) :
    ∀ fuel i, (tryLockFrom fuel i).Uses allowed := by
  intro fuel
  induction fuel with
  | zero => intro i; trivial
  | succ fuel ih =>
    intro i
    refine uses_call (h i) fun r => ?_
    cases r with
    | true => trivial
    | false => exact ih (i + 1)

theorem uses_tryLock (n : Nat) : (tryLock n).Uses LockOp :=
  uses_tryLockFrom (fun _ => trivial) n 0

theorem uses_sendTasks {tasks : List Task} (h : ∀ task ∈ tasks, allowed (.post task)) :
    ∀ is, (sendTasks tasks is).Uses allowed := by
  intro is
  induction is with
  | nil => trivial
  | cons i is ih =>
    unfold sendTasks
    cases htask : tasks[i]? with
    | none => exact ih
    | some task =>
      refine uses_call (h task (List.mem_of_getElem? htask)) fun r => ?_
      exact uses_seq ih fun rest => trivial

theorem uses_parallelExecute {tasks : List Task} (horder : allowed (.order tasks.length))
    (h : ∀ task ∈ tasks, allowed (.post task)) : (parallelExecute tasks).Uses allowed :=
  uses_call horder fun order => uses_seq (uses_sendTasks h order.1) fun _ => trivial

theorem uses_visit {α : Type} {l : List α} (horder : allowed (.order l.length)) :
    (visit l).Uses allowed := uses_call horder fun _ => trivial

theorem uses_scanOrEmpty {pre : String} (h : allowed (.scan pre)) :
    (scanOrEmpty pre).Uses allowed := by
  refine uses_call h fun r => ?_
  cases r <;> trivial

theorem uses_putNodesErrInfo {space : InnerSpace} {errMsg : String}
    (hget : ∀ ip port id, allowed (.get (getErrPsNodeEtcdKey ip port id)))
    (hput : ∀ ip port id v, allowed (.put (getErrPsNodeEtcdKey ip port id) v)) :
    ∀ idxs acc, (putNodesErrInfoToEtcd space errMsg idxs acc).Uses allowed := by
  intro idxs
  induction idxs with
  | nil => intro acc; trivial
  | cons idx idxs ih =>
    intro acc
    unfold putNodesErrInfoToEtcd
    cases replicaAt space idx with
    | none => trivial
    | some rep =>
      exact uses_seq (uses_putOrAppend (hget _ _ _) (hput _ _ _)) fun _ => ih _

end

theorem createTask_of_mem_psCreateTasks {space : InnerSpace} {task : Task}
    (h : task ∈ psCreateTasks space) : CreateTask space.dbName space.spaceName task := by
  obtain ⟨partition, -, h⟩ := List.mem_flatMap.mp h
  obtain ⟨rep, -, rfl⟩ := List.mem_map.mp h
  exact ⟨rfl, rfl⟩

theorem body_of_mem_psDeleteTasks {space : InnerSpace} {task : Task}
    (h : task ∈ psDeleteTasks space) : task.body = .psDelete space.dbName space.spaceName := by
  obtain ⟨rep, -, rfl⟩ := List.mem_map.mp h
  rfl

/-! ### createSpace -/

theorem uses_validateName (json : SpaceJson) (space : InnerSpace) :
    (validateNameAndGetIdlePsNode json space).Uses ReadOp := by
  refine uses_seq (uses_scanOrEmpty trivial) fun psKeys => ?_
  refine uses_seq (uses_scanOrEmpty trivial) fun errPsKeys => ?_
  cases repDeserializeFromByte (psKeys.map Prod.fst) with
  | none => trivial
  | some nodes =>
    cases repDeserializeFromByte (errPsKeys.map Prod.fst) with
    | none => trivial
    | some errNodes =>
      refine uses_seq (uses_scanOrEmpty trivial) fun spaces => ?_
      by_cases hname : space.fullName ∈
          (deserializeFromByteList json (spaces.map Prod.snd)).map Prod.fst
      · simp only [if_pos hname]
        trivial
      · simp only [if_neg hname]
        exact uses_seq (uses_visit trivial) fun _ => uses_seq (uses_visit trivial) fun _ => trivial

theorem uses_note {db sp key : String} {val : String} {n : Nat} (h : NoteKey key) :
    (putOrAppend key val n).Uses (UndoOp db sp) := uses_putOrAppend trivial fun _ => h

theorem uses_undoNodesErrInfo {db sp : String} (space : InnerSpace) (errMsg : String)
    (idxs : List Nat) (acc : String) :
    (putNodesErrInfoToEtcd space errMsg idxs acc).Uses (UndoOp db sp) :=
  uses_putNodesErrInfo (fun _ _ _ => trivial) (fun ip port id _ => NoteKey.errPsNode ip port id)
    idxs acc

theorem uses_parallelCreatePsSpace (space : InnerSpace) :
    (parallelCreatePsSpace space).Uses (CreateOp space.dbName space.spaceName) :=
  uses_seq (uses_parallelExecute trivial fun _ h => createTask_of_mem_psCreateTasks h)
    fun _ => trivial

theorem uses_parallelDeletePsSpace (space : InnerSpace) :
    (parallelDeletePsSpace space).Uses (UndoOp space.dbName space.spaceName) :=
  uses_seq (uses_parallelExecute trivial fun _ h => body_of_mem_psDeleteTasks h)
    fun _ => trivial

/-- The end of both roll-backs: the nodes delete the space, and what they fail at is
noted. -/
def rollBack (space : InnerSpace) (note eStr : String) : Prog (Option (Bool × String)) := do
  match ← parallelDeletePsSpace space with
  | none => return none
  | some failed =>
    match ← putNodesErrInfoToEtcd space note failed "" with
    | none => return none
    | some nodes =>
      if nodes ≠ "" then
        let _ ← putOrAppend ddlDisabledKey ("delete ps failed nodes: " ++ nodes ++ "; ")
          etcdValMaxLen
        return some (false, eStr)
      else return some (false, eStr)

theorem uses_rollBack (space : InnerSpace) (note eStr : String) :
    (rollBack space note eStr).Uses (UndoOp space.dbName space.spaceName) := by
  refine uses_seq (uses_parallelDeletePsSpace space) fun failed => ?_
  cases failed with
  | none => trivial
  | some failed =>
    refine uses_seq (uses_undoNodesErrInfo space note failed "") fun nodes => ?_
    cases nodes with
    | none => trivial
    | some nodes =>
      by_cases hn : nodes ≠ ""
      · simp only [if_pos hn]
        exact uses_seq (uses_note .disabled) fun _ => trivial
      · simp only [if_neg hn]
        trivial

theorem uses_createFailed {space : InnerSpace} {errSpaceKey : String} (hkey : NoteKey errSpaceKey)
    (eStr : String) (failed : List Nat) :
    (createFailed space errSpaceKey eStr failed).Uses
      (UndoOp space.dbName space.spaceName) := by
  refine uses_seq (uses_undoNodesErrInfo space eStr failed "") fun nodes => ?_
  cases nodes with
  | none => trivial
  | some nodes =>
    refine uses_seq (uses_note hkey) fun _ => uses_seq (uses_note .disabled) fun _ => ?_
    exact uses_rollBack space "delete ps space failed; " eStr

theorem uses_storeFailed {space : InnerSpace} {errSpaceKey : String} (hkey : NoteKey errSpaceKey)
    (eStr : String) :
    (storeFailed space errSpaceKey eStr).Uses (UndoOp space.dbName space.spaceName) :=
  uses_seq (uses_note hkey) fun _ => uses_rollBack space eStr eStr

theorem uses_routerCreate {allowed : Op → Prop} {space : InnerSpace}
    (hread : ∀ o, ReadOp o → allowed o)
    (hpost : ∀ task : Task, task.body = .routerCreate space → allowed (.post task)) :
    (addRouterSpace space).Uses allowed := by
  refine uses_seq (uses_scanOrEmpty (hread _ trivial)) fun kvs => ?_
  cases routerDeserializeFromByte (kvs.map Prod.fst) with
  | none => trivial
  | some routers =>
    refine uses_seq (uses_visit (hread _ trivial)) fun routers => ?_
    refine uses_seq (uses_parallelExecute (hread _ trivial) fun task h => ?_) fun _ => trivial
    obtain ⟨r, -, rfl⟩ := List.mem_map.mp h
    exact hpost _ rfl

theorem uses_addRouterSpace (space : InnerSpace) :
    (addRouterSpace space).Uses (CreateOp space.dbName space.spaceName) := by
  refine uses_routerCreate ReadOp.createOp fun task h => ?_
  show CreateTask _ _ task
  unfold CreateTask
  rw [h]
  exact ⟨rfl, rfl⟩

theorem uses_createFilled_of {allowed : Op → Prop} {json : SpaceJson} {pre : String}
    {sp : InnerSpace} (hcreate : ∀ o, CreateOp sp.dbName sp.spaceName o → allowed o)
    (hput : allowed (.put (getSpaceEtcdKey sp.dbName sp.spaceName) (json.marshal sp)))
    (hdelete : allowed (.delete ddlDisabledKey)) : (createFilled json pre sp).Uses allowed := by
  have hundo : ∀ o, UndoOp sp.dbName sp.spaceName o → allowed o :=
    fun o ho => hcreate o (ho.createOp)
  refine uses_call (hcreate _ NoteKey.disabled) fun _ => ?_
  refine uses_seq ((uses_parallelCreatePsSpace sp).mono hcreate) fun failed => ?_
  rcases failed with _ | _ | ⟨i, is⟩
  · trivial
  · refine uses_call hput fun r => ?_
    cases r with
    | error e =>
      exact uses_seq ((uses_storeFailed (.errSpace _ _ _) _).mono hundo) fun _ => trivial
    | ok u => exact uses_call hdelete fun _ => trivial
  · exact uses_seq ((uses_createFailed (.errSpace _ _ _) _ _).mono hundo) fun _ => trivial

theorem uses_createFilled (json : SpaceJson) (pre : String) (sp : InnerSpace) :
    (createFilled json pre sp).Uses (PublishOp json sp.dbName sp.spaceName) :=
  uses_createFilled_of (fun _ h => Or.inl h) (Or.inr (Or.inr ⟨sp, rfl, rfl, rfl⟩))
    (Or.inr (Or.inl rfl))

theorem uses_createPsSpaceImpl (json : SpaceJson) (space : InnerSpace) (idle : List Replica) :
    (createPsSpaceImpl json space idle).Uses
      (PublishOp json space.dbName space.spaceName) := by
  refine uses_call (Or.inl trivial) fun time => ?_
  by_cases hlen : (idle.length : Int) < space.partitionNum * space.replicaNum
  · simp only [if_pos hlen]
    trivial
  · simp only [if_neg hlen]
    exact uses_call (Or.inl rfl) fun id => uses_createFilled json _ (filledSpace space idle time _)

/-- The space that comes back has the names of the request. -/
theorem returns_createPsSpaceImpl (json : SpaceJson) (space : InnerSpace) (idle : List Replica) :
    (createPsSpaceImpl json space idle).Returns (fun r => ∀ x, r = some x →
      x.1.dbName = space.dbName ∧ x.1.spaceName = space.spaceName) := by
  refine returns_after fun time => ?_
  by_cases hlen : (idle.length : Int) < space.partitionNum * space.replicaNum
  · simp only [if_pos hlen]
    intro x hx
    cases hx
    exact ⟨rfl, rfl⟩
  · simp only [if_neg hlen]
    refine returns_after fun id => returns_after fun _ => returns_after fun failed => ?_
    have hmap : ∀ (r : Option (Bool × String)) (sp : InnerSpace), sp.dbName = space.dbName →
        sp.spaceName = space.spaceName → ∀ x, r.map (fun y => (sp, y)) = some x →
        x.1.dbName = space.dbName ∧ x.1.spaceName = space.spaceName := by
      intro r sp hdb hsp x hx
      obtain ⟨y, -, rfl⟩ := Option.map_eq_some_iff.mp hx
      exact ⟨hdb, hsp⟩
    rcases failed with _ | _ | ⟨i, is⟩
    · exact fun x hx => (nomatch hx)
    · refine returns_after fun r => ?_
      cases r with
      | error e => exact returns_after fun r => hmap r _ rfl rfl
      | ok u =>
        refine returns_after fun _ x hx => ?_
        cases hx
        exact ⟨rfl, rfl⟩
    · exact returns_after fun r => hmap r _ rfl rfl

theorem uses_createLocked (json : SpaceJson) (space : InnerSpace) :
    (createLocked json space).Uses (PublishOp json space.dbName space.spaceName) := by
  have hread : ∀ o, ReadOp o → PublishOp json space.dbName space.spaceName o := fun o h =>
    Or.inl (ReadOp.createOp o h)
  refine uses_call (Or.inl trivial) fun val => ?_
  rcases val with e | _ | val
  · trivial
  · refine uses_seq ((uses_validateName json space).mono hread) fun idle => ?_
    rcases idle with _ | msg | idle
    · trivial
    · trivial
    refine uses_bind_returns (uses_createPsSpaceImpl json space idle)
      (returns_createPsSpaceImpl json space idle) fun res hres => ?_
    rcases res with _ | ⟨sp, abled, msg⟩
    · trivial
    · by_cases hmsg : msg ≠ ""
      · simp only [if_pos hmsg]
        trivial
      · simp only [if_neg hmsg]
        obtain ⟨hdb, hsp⟩ := hres _ rfl
        have hadd := uses_addRouterSpace sp
        rw [hdb, hsp] at hadd
        refine uses_seq (hadd.mono fun o h => Or.inl h) fun r => ?_
        cases r <;> trivial
  · trivial

theorem uses_createSpace (json : SpaceJson) (api : ApiSpace) :
    (createSpace json (.ok api)).Uses
      (fun o => LockOp o ∨ PublishOp json api.dbName api.spaceName o) := by
  unfold createSpace
  simp only
  cases checkApiSpace api with
  | none => trivial
  | some msg =>
    by_cases hmsg : msg ≠ ""
    · simp only [if_pos hmsg]
      trivial
    · simp only [if_neg hmsg]
      refine uses_call (Or.inl trivial) fun r => ?_
      cases r with
      | error e => trivial
      | ok u =>
        refine uses_seq ?_ fun ans => uses_call (Or.inl trivial) fun _ => trivial
        refine uses_seq ((uses_tryLock 20).mono fun o h => Or.inl h) fun locked => ?_
        cases locked with
        | false => trivial
        | true =>
          exact (uses_createLocked json (apiSpaceToInnerSpace json api)).mono fun o h => Or.inr h

/-! ### deleteSpace -/

theorem uses_deleteRouterSpace (db sp : String) : (deleteRouterSpace db sp).Uses PurgeOp := by
  refine uses_call trivial fun kvs => ?_
  cases kvs with
  | error e => trivial
  | ok kvs =>
    dsimp only
    cases routerDeserializeFromByte (kvs.map Prod.fst) with
    | none => trivial
    | some routers =>
      refine uses_seq (uses_visit trivial) fun routers => ?_
      refine uses_seq (uses_parallelExecute trivial fun task h => ?_) fun _ => trivial
      obtain ⟨r, -, rfl⟩ := List.mem_map.mp h
      exact Or.inr ⟨db, sp, rfl⟩

theorem uses_deletePsSpace (space : InnerSpace) : (parallelDeletePsSpace space).Uses PurgeOp := by
  refine uses_seq (uses_parallelExecute trivial fun task h => ?_) fun _ => trivial
  obtain ⟨rep, -, rfl⟩ := List.mem_map.mp h
  exact Or.inl ⟨_, _, rfl⟩

theorem uses_deleteNote {key val : String} {n : Nat} (h : NoteKey key) :
    (putOrAppend key val n).Uses PurgeOp := uses_putOrAppend trivial fun _ => h

theorem uses_deleteNodesErrInfo (space : InnerSpace) (errMsg : String) (idxs : List Nat)
    (acc : String) : (putNodesErrInfoToEtcd space errMsg idxs acc).Uses PurgeOp :=
  uses_putNodesErrInfo (fun _ _ _ => trivial) (fun ip port id _ => NoteKey.errPsNode ip port id)
    idxs acc

theorem uses_deleteFound (json : SpaceJson) (req : DeleteSpaceRequest) (detail : String) :
    (deleteFound json req detail).Uses (DeleteOp req.dbName req.spaceName) := by
  have hpurge : ∀ o, PurgeOp o → DeleteOp req.dbName req.spaceName o := fun o h => Or.inl h
  refine uses_call (Or.inl (NoteKey.deletedSpace _ _ _)) fun _ => ?_
  refine uses_call (Or.inl NoteKey.disabled) fun _ => uses_call (Or.inr (Or.inr rfl)) fun r => ?_
  cases r with
  | error e => exact uses_seq ((uses_deleteNote (.errSpace _ _ _)).mono hpurge) fun _ => trivial
  | ok u =>
    refine uses_seq ((uses_deleteRouterSpace _ _).mono hpurge) fun r => ?_
    cases r with
    | none => trivial
    | some u =>
      refine uses_seq ((uses_deletePsSpace _).mono hpurge) fun failed => ?_
      rcases failed with _ | _ | ⟨i, is⟩
      · trivial
      · refine uses_call (Or.inr (Or.inl rfl)) fun _ => ?_
        exact uses_seq ((uses_deleteNote (.deletedSpace _ _ _)).mono hpurge) fun _ => trivial
      · refine uses_seq ((uses_deleteNodesErrInfo _ _ _ _).mono hpurge) fun nodes => ?_
        cases nodes with
        | none => trivial
        | some nodes =>
          refine uses_seq ((uses_deleteNote (.errSpace _ _ _)).mono hpurge) fun _ => ?_
          exact uses_call (Or.inr (Or.inl rfl)) fun _ => trivial

theorem uses_deleteBody (json : SpaceJson) (req : DeleteSpaceRequest) :
    (deleteBody json req).Uses (DeleteOp req.dbName req.spaceName) := by
  refine uses_call (Or.inl trivial) fun detail => ?_
  rcases detail with e | _ | detail
  · trivial
  · trivial
  · refine uses_call (Or.inl trivial) fun val => ?_
    rcases val with e | _ | val
    · trivial
    · exact uses_deleteFound json req detail
    · trivial

/-! ### register -/

/-- `register` only looks: its TTL is refused before the put. -/
theorem uses_registerLocked (json : SpaceJson) (req : RegisterRequest) :
    (registerLocked json req).Uses ReadOp := by
  refine uses_seq (uses_scanOrEmpty trivial) fun psKeys => ?_
  refine uses_seq (uses_scanOrEmpty trivial) fun errPsKeys => ?_
  cases repDeserializeFromByte (psKeys.map Prod.fst) with
  | none => trivial
  | some nodes =>
    cases repDeserializeFromByte (errPsKeys.map Prod.fst) with
    | none => trivial
    | some errNodes =>
      refine uses_seq (uses_scanOrEmpty trivial) fun spaces => ?_
      refine uses_seq (uses_visit trivial) fun busy => ?_
      cases registerConflict req [getAllPsMap busy, nodes, errNodes] with
      | some node => trivial
      | none => exact uses_seq (p := createWithTTL _ _ psNodeTtl) trivial fun _ => trivial

end SimSearch.Master
