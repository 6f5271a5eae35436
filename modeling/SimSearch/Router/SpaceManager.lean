import SimSearch.Router.IndexMap
import SimSearch.Lib.Runs

/-!
# The spaces that a router serves

`SpaceManager` of `service/router/space_manager.cc`, `LocalSpaces` of `local_spaces.cc`,
`SpaceConnection::Init`, and the handlers of `RouterSpaceRpcImpl`.

The connections are kept in a vector of slots, and `_space_idx_mp` says in which slot a
key is.  The two are updated one after the other, the result of `Put` is dropped, and the
slot number is cut to 16 bits.  `addSpace_cases` and `deleteSpace_cases` say once what
a call can do.  From them `Wf` is an invariant: the index names only slots with a
connection of the key, and there are never so many slots that a number that was cut could
name another slot.  A lookup then never returns the connection of another key
(`lookup_sound`).

The growth of the vector is that of libstdc++: its size is doubled.
-/

namespace SimSearch.Router

open SimSearch.Lib

/-! ### Connections -/

/-- What the router runs on: the hash function of the library, and what
`PartitionConnetion::Init` makes of the partition of a space. -/
structure Env where
  hasher : String → UInt64
  dial : String → String → Partition → PartitionConnetion

def genSpaceKey (dbName spaceName : String) : String := dbName ++ "-" ++ spaceName

/-- The getter `SpaceKey()`; `Init` sets it from the two names. -/
def SpaceConnection.spaceKey (conn : SpaceConnection) : String :=
  genSpaceKey conn.pbSpace.dbName conn.pbSpace.spaceName

inductive DType
  | undefine
  | int
  | long
  | float
  | double
  | string
  | stringArray
  | vector
  deriving DecidableEq, Repr

def sdtypeToDType (sdtype : String) : DType :=
  if sdtype = intSdtype then .int
  else if sdtype = longSdtype then .long
  else if sdtype = floatSdtype then .float
  else if sdtype = doubleSdtype then .double
  else if sdtype = stringSdtype then .string
  else if sdtype = stringarraySdtype then .stringArray
  else if sdtype = vectorSdtype then .vector
  else .undefine

def isIdDType (t : DType) : Bool := t = .long || t = .string

/-- The loop of `SpaceConnection::Init` over the fields, with `_id_type` so far. -/
def checkIdField : List Field → DType → String
  | [], t => if t = .undefine then "not has _id field." else ""
  | f :: fs, t =>
    if f.name = idField then
      if isIdDType (sdtypeToDType f.type) then checkIdField fs (sdtypeToDType f.type)
      else "_id type:" ++ f.type ++ " is not allowed, it only is string or long type."
    else checkIdField fs t

/-- `SpaceConnection::Init`.  Every caller drops the text. -/
def SpaceConnection.init (env : Env) (space : Space) : String × SpaceConnection :=
  (checkIdField space.fields .undefine,
    { pbSpace := space
      partitionList := fun i =>
        env.dial space.dbName space.spaceName (space.partitions[i.toNat]?.getD {}) })

def connOf (env : Env) (space : Space) : SpaceConnection := (SpaceConnection.init env space).2

/-! ### The local list -/

/-- `_pb_spaces` of `LocalSpaces`. -/
abbrev LocalSpaces := List Space

def LocalSpaces.addSpace (l : LocalSpaces) (space : Space) : LocalSpaces := l ++ [space]

/-- Every entry of the names goes. -/
def LocalSpaces.deleteSpace (l : LocalSpaces) (dbName spaceName : String) : LocalSpaces :=
  l.filter fun space => ¬ (space.dbName = dbName ∧ space.spaceName = spaceName)

/-! ### The manager -/

structure SpaceManager where
  spacesConn : List (Option SpaceConnection) := []
  capacity : Nat := 0
  spaceIdxMp : OneWriterMultiReaderMap := {}

/-- The manager and the local list, which are one object each in the process. -/
structure State where
  manager : SpaceManager := {}
  localSpaces : LocalSpaces := []

def int16 (n : Nat) : Int :=
  if n % 2 ^ 16 < 2 ^ 15 then (n % 2 ^ 16 : Nat) else (n % 2 ^ 16 : Nat) - 2 ^ 16

theorem int16_of_lt {n : Nat} (h : n < 2 ^ 15) : int16 n = n := by
  unfold int16
  split_ifs <;> omega

/-- Below `2 ^ 16` a number is kept or becomes negative. -/
theorem int16_of_nonneg {n : Nat} (h : n < 2 ^ 16) (hn : 0 ≤ int16 n) : int16 n = n := by
  unfold int16 at hn ⊢
  split_ifs at hn ⊢ <;> omega

namespace SpaceManager

def slot (m : SpaceManager) : Nat → Option SpaceConnection := slotsOf m.spacesConn

def index (env : Env) (m : SpaceManager) : String → Option Nat := m.spaceIdxMp.index env.hasher

def reserve (m : SpaceManager) (n : Nat) : SpaceManager := { m with capacity := max m.capacity n }

def pushBack (m : SpaceManager) (conn : SpaceConnection) : SpaceManager :=
  { m with
    spacesConn := m.spacesConn ++ [some conn]
    capacity := if m.spacesConn.length < m.capacity then m.capacity
      else m.spacesConn.length + max m.spacesConn.length 1 }

/-- `_space_idx_mp.Put(key, i)`, of which the result is dropped. -/
def putIdx (env : Env) (m : SpaceManager) (key : String) (i : Nat) : SpaceManager :=
  { m with spaceIdxMp := (m.spaceIdxMp.put env.hasher key (int16 i)).2 }

def freeSlot (m : SpaceManager) : Option Nat := m.spacesConn.findIdx? Option.isNone

def nextSlot (m : SpaceManager) : Nat := m.freeSlot.getD m.spacesConn.length

end SpaceManager

def addSpace (env : Env) (s : State) (space : Space) : String × State :=
  let m := s.manager
  let conn := connOf env space
  if 0 ≤ m.spaceIdxMp.get env.hasher conn.spaceKey then
    ("space_key:" ++ conn.spaceKey ++ " is already exist, not add.", s)
  else
    match m.freeSlot with
    | some i =>
      -- a slot that is used again does not go to the local list
      ("", { s with manager :=
        { m with spacesConn := m.spacesConn.set i (some conn) }.putIdx env conn.spaceKey i })
    | none =>
      if m.capacity ≤ m.spacesConn.length then
        ("spaces num > max_space_num[" ++ toString m.capacity ++ "] create space failed", s)
      else
        ("", { manager := (m.pushBack conn).putIdx env conn.spaceKey m.spacesConn.length
               localSpaces := s.localSpaces.addSpace space })

def deleteSpace (env : Env) (s : State) (spaceKey : String) : String × State :=
  let m := s.manager
  let idx := m.spaceIdxMp.get env.hasher spaceKey
  if 0 ≤ idx then
    ("", { s with manager :=
      { m with spaceIdxMp := (m.spaceIdxMp.delete env.hasher spaceKey).2
               spacesConn := m.spacesConn.set idx.toNat none } })
  else ("space_key:" ++ spaceKey ++ " is not exit, not delete.", s)

/-- What `GetSpaceConn` returns; the vector is indexed without a bound check. -/
inductive Lookup
  | null (msg : String)
  | found (conn : SpaceConnection)
  | outOfRange

/-- The second step of `GetSpaceConn`: the slot is read. -/
def readSlot (m : SpaceManager) (spaceKey : String) (i : Nat) : Lookup :=
  match m.spacesConn[i]? with
  | none => .outOfRange
  | some none => .null ("db_name and space_name  [" ++ spaceKey ++ "] is deleted.")
  | some (some conn) => .found conn

def getSpaceConn (env : Env) (m : SpaceManager) (spaceKey : String) : Lookup :=
  if spaceKey.utf8ByteSize ≤ 1 then .null "db_name and space_name is null"
  else
    match m.index env spaceKey with
    | none => .null ("db_name and space_name [" ++ spaceKey ++ "] is not exist")
    | some i => readSlot m spaceKey i

/-! ### Starting up -/

/-- What `Init` meets: the answer of etcd, the parser of protobuf, and the list that
`LocalSpaces::Load` reads. -/
structure Startup where
  range : Option (List (String × String))
  jsonToPb : String → Except String Space
  file : List Space := []

def Startup.spaceJsonToPb (w : Startup) (json : String) : Except String Space :=
  match w.jsonToPb json with
  | .ok space => .ok space
  | .error status =>
    .error ("Failed to parse space JSON: " ++ status ++ " space_json:" ++ json)

/-- `Init` up to the lock: the spaces to be served, which are also the local list. -/
def Startup.load (w : Startup) : Except String (List Space) :=
  match w.range with
  | none => .error "Init SpaceManager fail, get space info from etcd failed"
  | some [] => .ok w.file
  | some kvs => kvs.mapM fun kv => w.spaceJsonToPb kv.2

/-- The turn `i` of the loop of `Init` under the lock: the index gets the number of the
turn, not that of the slot. -/
def fillTurn (env : Env) (i : Nat) (space : Space) (m : SpaceManager) : SpaceManager :=
  (m.pushBack (connOf env space)).putIdx env (connOf env space).spaceKey i

def fill (env : Env) : Nat → List Space → SpaceManager → SpaceManager
  | _, [], m => m
  | i, space :: spaces, m => fill env (i + 1) spaces (fillTurn env i space m)

/-- `SpaceManager::Init` in a new process. -/
def init (env : Env) (maxSpaceNum : Nat) (w : Startup) : String × State :=
  let m := ({} : SpaceManager).reserve maxSpaceNum
  match w.load with
  | .error msg => (msg, { manager := m })
  | .ok spaces => ("", { manager := fill env 0 spaces m, localSpaces := spaces })

/-! ### Handlers -/

structure Status where
  code : Int32
  msg : String
  deriving DecidableEq, Repr

def rpcAddSpace (env : Env) (s : State) (space : Space) : Status × State :=
  let (msg, s) := addSpace env s space
  (if msg ≠ "" then ⟨101, msg⟩ else ⟨0, ""⟩, s)

/-- `RouterSpaceRpcImpl::DeleteSpace`: the local list first, then the manager. -/
def rpcDeleteSpace (env : Env) (s : State) (dbName spaceName : String) : Status × State :=
  let s := { s with localSpaces := s.localSpaces.deleteSpace dbName spaceName }
  let (msg, s) := deleteSpace env s (genSpaceKey dbName spaceName)
  (if msg ≠ "" then ⟨101, msg⟩ else ⟨0, "success"⟩, s)

/-! ### What a call does -/

variable {env : Env}

/-- The space was added in the slot `i`: one that was free, or a new one. -/
structure SlotTaken (env : Env) (s s' : State) (space : Space) (i : Nat) : Prop where
  absent : s.manager.index env (connOf env space).spaceKey = none
  next : i = s.manager.nextSlot
  free : s.manager.slot i = none
  slot : s'.manager.slot = Function.update s.manager.slot i (some (connOf env space))
  idxMp : s'.manager.spaceIdxMp
    = (s.manager.spaceIdxMp.put env.hasher (connOf env space).spaceKey (int16 i)).2
  capacity : s'.manager.capacity = s.manager.capacity
  position : (s'.manager.spacesConn.length = s.manager.spacesConn.length ∧
      i < s.manager.spacesConn.length ∧ s'.localSpaces = s.localSpaces) ∨
    (s'.manager.spacesConn = s.manager.spacesConn ++ [some (connOf env space)] ∧
      i = s.manager.spacesConn.length ∧ i < s.manager.capacity ∧
      s'.localSpaces = s.localSpaces ++ [space] ∧ none ∉ s.manager.spacesConn)

theorem slot_of_getElem? {m : SpaceManager} {i : Nat} {conn : SpaceConnection}
    (h : m.spacesConn[i]? = some (some conn)) : m.slot i = some conn := by
  rw [SpaceManager.slot, slotsOf, h, Option.join_some]

theorem freeSlot_some {m : SpaceManager} {i : Nat} (h : m.freeSlot = some i) :
    i < m.spacesConn.length ∧ m.slot i = none := by
  obtain ⟨hlt, hnone, -⟩ := List.findIdx?_eq_some_iff_getElem.mp h
  refine ⟨hlt, ?_⟩
  rw [SpaceManager.slot, slotsOf, List.getElem?_eq_getElem hlt, Option.join_some]
  exact Option.isNone_iff_eq_none.mp hnone

theorem freeSlot_none {m : SpaceManager} (h : m.freeSlot = none) : none ∉ m.spacesConn := by
  intro hmem
  have := List.findIdx?_eq_none_iff.mp h none hmem
  cases this

/-- **`AddSpace` refuses the space, or puts it into one slot.** -/
theorem addSpace_cases (env : Env) (s : State) (space : Space) :
    (∃ msg, msg ≠ "" ∧ addSpace env s space = (msg, s)) ∨
      ∃ i s', addSpace env s space = ("", s') ∧ SlotTaken env s s' space i := by
  unfold addSpace
  by_cases hkey : 0 ≤ s.manager.spaceIdxMp.get env.hasher (connOf env space).spaceKey
  · simp only [if_pos hkey]
    exact Or.inl ⟨_, by simp, rfl⟩
  simp only [if_neg hkey]
  have habsent : s.manager.index env (connOf env space).spaceKey = none :=
    OneWriterMultiReaderMap.index_eq_none.mpr (by omega)
  cases hfree : s.manager.freeSlot with
  | some i =>
    obtain ⟨hlt, hnone⟩ := freeSlot_some hfree
    have hnext : i = s.manager.nextSlot := by rw [SpaceManager.nextSlot, hfree, Option.getD_some]
    refine Or.inr ⟨i, _, rfl, habsent, hnext, hnone, slotsOf_set hlt _, rfl, rfl,
      Or.inl ⟨?_, hlt, rfl⟩⟩
    exact List.length_set
  | none =>
    by_cases hcap : s.manager.capacity ≤ s.manager.spacesConn.length
    · simp only [if_pos hcap]
      exact Or.inl ⟨_, by simp, rfl⟩
    simp only [if_neg hcap]
    have hlt : s.manager.spacesConn.length < s.manager.capacity := by omega
    refine Or.inr ⟨s.manager.spacesConn.length, _, rfl, habsent, ?_, ?_, slotsOf_append _ _, rfl,
      if_pos hlt, Or.inr ⟨rfl, rfl, hlt, rfl, freeSlot_none hfree⟩⟩
    · rw [SpaceManager.nextSlot, hfree, Option.getD_none]
    · exact slotsOf_length _

/-- **`DeleteSpace` refuses the key, or empties the slot of the key.** -/
theorem deleteSpace_cases (env : Env) (s : State) (key : String) :
    (s.manager.index env key = none ∧ ∃ msg, msg ≠ "" ∧ deleteSpace env s key = (msg, s)) ∨
      ∃ i, s.manager.index env key = some i ∧ deleteSpace env s key = ("", { s with manager :=
        { s.manager with
          spaceIdxMp := (s.manager.spaceIdxMp.delete env.hasher key).2
          spacesConn := s.manager.spacesConn.set i none } }) := by
  unfold deleteSpace
  simp only
  split_ifs with hkey
  · exact Or.inr ⟨_, if_pos hkey, rfl⟩
  · exact Or.inl ⟨if_neg hkey, _, by simp, rfl⟩

/-! ### The invariant -/

/-- The index names only slots with a connection of the key, and the slots can be
numbered. -/
structure Wf (env : Env) (m : SpaceManager) : Prop where
  sound : Sound SpaceConnection.spaceKey (m.index env) m.slot
  room : m.spacesConn.length ≤ m.capacity
  bound : m.capacity ≤ 2 ^ 16

theorem SlotTaken.lt_capacity {s s' : State} {space : Space} {i : Nat} (h : SlotTaken env s s' space i)
    (hroom : s.manager.spacesConn.length ≤ s.manager.capacity) : i < s.manager.capacity := by
  rcases h.position with ⟨-, hi, -⟩ | ⟨-, -, hi, -⟩
  · exact lt_of_lt_of_le hi hroom
  · exact hi

theorem SlotTaken.names {s s' : State} {space : Space} {i : Nat} (h : SlotTaken env s s' space i)
    (hi : i < 2 ^ 16) :
    Names (s.manager.index env) (s'.manager.index env) (connOf env space).spaceKey i := by
  unfold SpaceManager.index
  rw [h.idxMp]
  exact OneWriterMultiReaderMap.names_put fun hpos => int16_of_nonneg hi hpos

theorem Wf.slotTaken {s s' : State} {space : Space} {i : Nat} (hs : Wf env s.manager)
    (h : SlotTaken env s s' space i) : Wf env s'.manager := by
  have hi := h.lt_capacity hs.room
  have hbound := hs.bound
  have hroom := hs.room
  refine ⟨?_, ?_, by rw [h.capacity]; exact hbound⟩
  · rw [h.slot]
    exact hs.sound.place h.free (h.names (by omega))
  · rw [h.capacity]
    rcases h.position with ⟨hlen, -⟩ | ⟨hlist, heq, -⟩
    · omega
    · rw [hlist, List.length_append, List.length_singleton]
      omega

theorem wf_addSpace {s : State} (hs : Wf env s.manager) (space : Space) :
    Wf env (addSpace env s space).2.manager := by
  rcases addSpace_cases env s space with ⟨msg, -, heq⟩ | ⟨i, s', heq, htaken⟩
  · rw [heq]
    exact hs
  · rw [heq]
    exact hs.slotTaken htaken

theorem wf_deleteSpace {s : State} (hs : Wf env s.manager) (key : String) :
    Wf env (deleteSpace env s key).2.manager := by
  rcases deleteSpace_cases env s key with ⟨-, msg, -, heq⟩ | ⟨i, hi, heq⟩
  · rw [heq]
    exact hs
  · rw [heq]
    obtain ⟨v, hv, -⟩ := hs.sound hi
    refine ⟨?_, ?_, hs.bound⟩
    · show Sound _ ((s.manager.spaceIdxMp.delete env.hasher key).2.index env.hasher)
        (slotsOf (s.manager.spacesConn.set i none))
      rw [slotsOf_set (lt_length_of_slotsOf hv)]
      refine hs.sound.clear hi fun k j hj => ?_
      rw [OneWriterMultiReaderMap.index_delete] at hj
      by_cases hk : k = key
      · subst hk
        rw [Function.update_self] at hj
        cases hj
      · rw [Function.update_of_ne hk] at hj
        exact ⟨hj, hk⟩
    · exact le_trans (le_of_eq List.length_set) hs.room

/-! ### Init -/

theorem length_fillTurn (i : Nat) (space : Space) (m : SpaceManager) :
    (fillTurn env i space m).spacesConn.length = m.spacesConn.length + 1 := List.length_append

theorem slot_fillTurn (i : Nat) (space : Space) (m : SpaceManager) :
    (fillTurn env i space m).slot
      = Function.update m.slot m.spacesConn.length (some (connOf env space)) :=
  slotsOf_append _ _

theorem wf_fillTurn {m : SpaceManager} (hm : Wf env m) (space : Space)
    (hlen : 2 * (m.spacesConn.length + 1) ≤ 2 ^ 16) :
    Wf env (fillTurn env m.spacesConn.length space m) := by
  have hroom := hm.room
  have hbound := hm.bound
  have hgrow : (fillTurn env m.spacesConn.length space m).capacity
      = if m.spacesConn.length < m.capacity then m.capacity
        else m.spacesConn.length + max m.spacesConn.length 1 := rfl
  refine ⟨?_, ?_, ?_⟩
  · rw [slot_fillTurn]
    refine hm.sound.place (slotsOf_length _) ?_
    exact OneWriterMultiReaderMap.names_put fun hpos => int16_of_nonneg (by omega) hpos
  · rw [length_fillTurn, hgrow]
    split_ifs <;> omega
  · rw [hgrow]
    split_ifs <;> omega

/-- The loop of `Init`, when the turns are numbered as the slots are. -/
theorem wf_fill : ∀ (spaces : List Space) (m : SpaceManager), Wf env m →
    2 * (m.spacesConn.length + spaces.length) ≤ 2 ^ 16 →
    Wf env (fill env m.spacesConn.length spaces m) := by
  intro spaces
  induction spaces with
  | nil => intro m hm _; exact hm
  | cons space spaces ih =>
    intro m hm hlen
    rw [List.length_cons] at hlen
    rw [fill, ← length_fillTurn m.spacesConn.length space m]
    refine ih _ (wf_fillTurn hm space (by omega)) ?_
    rw [length_fillTurn]
    omega

def Startup.spaces (w : Startup) : List Space :=
  match w.load with
  | .error _ => []
  | .ok spaces => spaces

theorem wf_empty {n : Nat} (hn : n < 2 ^ 15) : Wf env (({} : SpaceManager).reserve n) := by
  refine ⟨?_, Nat.zero_le _, ?_⟩
  · intro k i hi
    cases hi
  · show max 0 n ≤ 2 ^ 16
    omega

theorem wf_init {n : Nat} (hn : n < 2 ^ 15) (w : Startup) (hw : w.spaces.length < 2 ^ 15) :
    Wf env (init env n w).2.manager := by
  unfold init
  unfold Startup.spaces at hw
  cases hload : w.load with
  | error msg => exact wf_empty hn
  | ok spaces =>
    rw [hload] at hw
    refine wf_fill spaces _ (wf_empty hn) ?_
    show 2 * (0 + spaces.length) ≤ 2 ^ 16
    simp only at hw
    omega

/-! ### Runs -/

inductive Call
  | addSpace (space : Space)
  | deleteSpace (key : String)

def step (env : Env) (s : State) : Call → State
  | .addSpace space => (addSpace env s space).2
  | .deleteSpace key => (deleteSpace env s key).2

theorem wf_step (s : State) (c : Call) (hs : Wf env s.manager) : Wf env (step env s c).manager := by
  cases c with
  | addSpace space => exact wf_addSpace hs space
  | deleteSpace key => exact wf_deleteSpace hs key

/-- A slot that the index names is read without leaving the vector. -/
theorem readSlot_of_sound {m : SpaceManager} (hm : Wf env m) {key : String} {i : Nat}
    (hi : m.index env key = some i) :
    ∃ conn, readSlot m key i = .found conn ∧ conn.spaceKey = key ∧ m.slot i = some conn := by
  obtain ⟨conn, hslot, hkey⟩ := hm.sound hi
  have hlt := lt_length_of_slotsOf hslot
  have hget : m.spacesConn[i]? = some (some conn) := by
    rw [SpaceManager.slot, slotsOf, List.getElem?_eq_getElem hlt, Option.join_some] at hslot
    rw [List.getElem?_eq_getElem hlt, hslot]
  exact ⟨conn, by rw [readSlot, hget], hkey, hslot⟩

/-- **A lookup returns no connection or one of the key.**  This holds after `Init` has
loaded at most 32767 spaces and after any calls that follow one another, whatever the
hash function; two keys are never in one slot. -/
theorem lookup_sound (env : Env) (maxSpaceNum : Nat) (hmax : maxSpaceNum < 2 ^ 15) (w : Startup)
    (hw : w.spaces.length ≤ 32767) (s : State)
    (h : Reach (step env) anyEvent (init env maxSpaceNum w).2 s) :
    (∀ key, (∃ msg, getSpaceConn env s.manager key = .null msg) ∨
      ∃ conn, getSpaceConn env s.manager key = .found conn ∧ conn.spaceKey = key) ∧
    ∀ key key' i, key ≠ key' → s.manager.index env key = some i →
      s.manager.index env key' ≠ some i := by
  have hs : Wf env s.manager :=
    h.invariant (fun s => Wf env s.manager) (wf_init hmax w (by omega)) fun s c hs _ =>
      wf_step s c hs
  refine ⟨fun key => ?_, fun key key' i hne hi hi' => hne (hs.sound.inj hi hi')⟩
  unfold getSpaceConn
  split_ifs with hsize
  · exact Or.inl ⟨_, rfl⟩
  · cases hidx : s.manager.index env key with
    | none => exact Or.inl ⟨_, rfl⟩
    | some i =>
      obtain ⟨conn, hread, hkey, -⟩ := readSlot_of_sound hs hidx
      exact Or.inr ⟨conn, hread, hkey⟩

/-! ### A run -/

def Lookup.key : Lookup → Option String
  | .found conn => some conn.spaceKey
  | _ => none

def libEnv : Env where
  hasher := libstdcxxHash
  dial db sp _ :=
    { dbName := db, spaceName := sp, hasOpt := true, serializeToString := fun _ => some []
      raftWrite := fun _ _ _ => ("", { success := some true }), psGet := fun _ _ => ("", {}) }

def spaceNamed (name : String) : Space := { dbName := "db", spaceName := name }

/-- etcd lists no space, and the local file one. -/
def oneLocal : Startup where
  range := some []
  jsonToPb _ := .error ""
  file := [spaceNamed "a"]

/-- The space of the file is deleted, and another one takes its slot. -/
def swapRun : List Call := [.deleteSpace "db-a", .addSpace (spaceNamed "b")]

theorem lookup_sound_swap :
    oneLocal.spaces.length ≤ 32767 ∧
      ((getSpaceConn libEnv (swapRun.foldl (step libEnv) (init libEnv 1000 oneLocal).2).manager
        "db-b").key = some "db-b") ∧
      ∀ key, (∃ msg, getSpaceConn libEnv
          (swapRun.foldl (step libEnv) (init libEnv 1000 oneLocal).2).manager key = .null msg) ∨
        ∃ conn, getSpaceConn libEnv
          (swapRun.foldl (step libEnv) (init libEnv 1000 oneLocal).2).manager key = .found conn ∧
            conn.spaceKey = key :=
  ⟨by decide, by decide +kernel, (lookup_sound libEnv 1000 (by decide) oneLocal (by decide) _
    (reach_foldl _ _ _)).1⟩

end SimSearch.Router
