import SimSearch.Cluster.Messages
import SimSearch.Lib.Incarnations
import SimSearch.Master.Gate
import SimSearch.Master.SpaceIds
import SimSearch.Router.Startup
import SimSearch.Ps.Node

/-!
# Spaces of one name

The master, the routers and the PS nodes together.  A request of the master that was
posted is a message, which its receiver can process at any later time, also when the
master has long been told that the call timed out, or never.

Every space has an id, but `DeleteSpaceRequest` carries only the two names, and
`RouterSpaceRpcImpl::DeleteSpace` and `PsRpcImpl::DeleteSpace` compare nothing else.
`issuedFor` is the id of the space that the master meant.  Beside the state stands what
each receiver has processed (`log`).

* `follows_createSpace`, `follows_deleteSpace`, `follows_rpcAddSpace` and
  `follows_rpcDeleteSpace`: what one message does to the spaces that a receiver keeps
  under their names.
* `accounted_step`: so a receiver keeps only what was added since the last delete of the
  name.
* `delete_removes_own`: if the deletes come in order, each removes only the space that it
  was issued for; `late_delete_removes_successor` is a delete that comes too late.
-/

namespace SimSearch.Cluster

open SimSearch.Lib SimSearch.Master

/-! ### Messages -/

abbrev Address := String × Int

abbrev SpaceName := String × String

inductive Receiver
  | ps (addr : Address)
  | router (addr : Address)
  deriving DecidableEq, Repr

def receiver (task : Task) : Receiver :=
  match task.body with
  | .psCreate _ _ => .ps (task.ip, task.port)
  | .psDelete _ _ => .ps (task.ip, task.port)
  | .routerCreate _ => .router (task.ip, task.port)
  | .routerDelete _ _ => .router (task.ip, task.port)

def deletedName : Body → Option SpaceName
  | .psDelete dbName spaceName => some (dbName, spaceName)
  | .routerDelete dbName spaceName => some (dbName, spaceName)
  | _ => none

/-- A call that settles which space a request of the master is about: a create draws the
id, and a delete reads the space that it found. -/
def chosenId (json : SpaceJson) (i : Request) : (Σ o, Res o) → Option Int
  | ⟨.newId _, x⟩ => some (drawnId x)
  | ⟨.get key, .ok (some detail)⟩ =>
    match i with
    | .delete (.ok req) =>
      if key = getSpaceEtcdKey req.dbName req.spaceName then some (json.unmarshal detail).id
      else none
    | _ => none
  | _ => none

/-- The id of the space that a message of the thread was issued for. -/
def issuedFor (json : SpaceJson) (th : Thread Op Res Request Outcome) : Body → Option Int
  | .psCreate space _ => some space.id
  | .routerCreate space => some space.id
  | .psDelete _ _ => th.trace.findSome? (chosenId json th.label)
  | .routerDelete _ _ => th.trace.findSome? (chosenId json th.label)

structure Message where
  task : Task
  id : Option Int
  deriving DecidableEq, Repr

variable {net : Network} {C : Type}

def posted (tr : Trace Op Res) (n : Nat) : Option Task :=
  match tr[n]? with
  | some ⟨.post task, _⟩ => some task
  | _ => none

/-- The message that the call `n` of the thread `t` has sent. -/
def sent (json : SpaceJson) (c : Master.Cluster net) (t n : Nat) : Option Message :=
  (c.threads t).bind fun th =>
    (posted th.trace n).map fun task => ⟨task, issuedFor json th task.body⟩

theorem sent_of_posted {json : SpaceJson} {c : Master.Cluster net} {t n : Nat}
    {th : Thread Op Res Request Outcome} {task : Task} (ht : c.threads t = some th)
    (htask : posted th.trace n = some task) :
    sent json c t n = some ⟨task, issuedFor json th task.body⟩ := by
  rw [sent, ht, Option.bind_some, htask, Option.map_some]

/-! ### Receivers -/

/-- The message of protobuf has the names and the id of the master's space. -/
def SameSpace (space : InnerSpace) (pb : Space) : Prop :=
  pb.dbName = space.dbName ∧ pb.spaceName = space.spaceName ∧ (pb.id.toNat : Int) = space.id

/-- What brpc makes of the JSON bodies of the master. -/
structure Parser where
  createReq : InnerSpace → Master.Partition → Option CreateSpaceRequest
  space : InnerSpace → Option Space
  sameCreate : ∀ {sp partition req}, createReq sp partition = some req → SameSpace sp req.space
  sameSpace : ∀ {sp pb}, space sp = some pb → SameSpace sp pb

structure Site (C : Type) where
  conf : Address → Ps.Conf
  fresh : C
  env : Address → Router.Env
  parser : Parser

structure PsOutcome (C : Type) where
  create : Ps.CreateOutcome C := {}
  delete : Ps.DeleteOutcome C := {}

structure Sys (net : Network) (C : Type) where
  master : Master.Cluster net
  nodes : Address → Ps.Proc × Ps.Disk C
  routers : Address → Router.State
  log : Receiver → List (Note SpaceName (Option Int))

def Sys.note (s : Sys net C) (r : Receiver) (x : Note SpaceName (Option Int)) :
    Receiver → List (Note SpaceName (Option Int)) :=
  Function.update s.log r (s.log r ++ [x])

/-- The receiver processes the message; a body that does not parse is refused before. -/
def deliver (site : Site C) (s : Sys net C) (msg : Message) (out : PsOutcome C) : Sys net C :=
  let addr := (msg.task.ip, msg.task.port)
  match msg.task.body with
  | .psCreate space partition =>
    match site.parser.createReq space partition with
    | none => s
    | some req =>
      { s with
        nodes := Function.update s.nodes addr (Ps.createSpace (site.conf addr) site.fresh req
          out.create (s.nodes addr).1 (s.nodes addr).2).2
        log := s.note (.ps addr) (.add (space.dbName, space.spaceName) msg.id) }
  | .psDelete dbName spaceName =>
    { s with
      nodes := Function.update s.nodes addr
        (Ps.deleteSpace dbName spaceName out.delete (s.nodes addr).1 (s.nodes addr).2).2
      log := s.note (.ps addr) (.delete (dbName, spaceName) msg.id) }
  | .routerCreate space =>
    match site.parser.space space with
    | none => s
    | some pb =>
      { s with
        routers := Function.update s.routers addr
          (Router.rpcAddSpace (site.env addr) (s.routers addr) pb).2
        log := s.note (.router addr) (.add (space.dbName, space.spaceName) msg.id) }
  | .routerDelete dbName spaceName =>
    { s with
      routers := Function.update s.routers addr
        (Router.rpcDeleteSpace (site.env addr) (s.routers addr) dbName spaceName).2
      log := s.note (.router addr) (.delete (dbName, spaceName) msg.id) }

inductive SysEvent (net : Network) (C : Type)
  | master (e : Lib.Event (Master.master net) Request)
  /-- The message of the call `n` of the thread `t` is processed. -/
  | deliver (t n : Nat) (out : PsOutcome C)

def sysStep (json : SpaceJson) (site : Site C) (s : Sys net C) : SysEvent net C → Sys net C
  | .master e => { s with master := Lib.step (serve json) s.master e }
  | .deliver t n out =>
    match sent json s.master t n with
    | none => s
    | some msg => deliver site s msg out

/-! ### What the receivers hold -/

/-- The space of a PS.  After a failed create the flag stays set, with an empty request. -/
def psSpace (p : Ps.Proc) : Option Space :=
  if p.mata.hasSpace = true ∧ p.mata.spaceReq.space.dbName ≠ "" then some p.mata.spaceReq.space
  else none

/-- A PS holds one space, and a router one in each of its slots. -/
def Sys.content (s : Sys net C) : Receiver → Nat → Option Space
  | .ps addr, 0 => psSpace (s.nodes addr).1
  | .ps _, _ + 1 => none
  | .router addr, i => ((s.routers addr).manager.slot i).map (·.pbSpace)

def spaceId (space : Space) : Option Int := some space.id.toNat

def psKept (p : Ps.Proc) (name : SpaceName) (id : Option Int) : Prop :=
  ∃ space, psSpace p = some space ∧ Router.Space.names space = name ∧ spaceId space = id

/-- What a router finds by the name; a slot that the index does not know is not reached by
any delete. -/
def routerKept (env : Router.Env) (m : Router.SpaceManager) (name : SpaceName)
    (id : Option Int) : Prop :=
  ∃ i conn, m.index env (Router.genSpaceKey name.1 name.2) = some i ∧ m.slot i = some conn ∧
    Router.Space.names conn.pbSpace = name ∧ spaceId conn.pbSpace = id

def Sys.kept (site : Site C) (s : Sys net C) : Receiver → SpaceName → Option Int → Prop
  | .ps addr => psKept (s.nodes addr).1
  | .router addr => routerKept (site.env addr) (s.routers addr).manager

/-! ### One message -/

theorem psSpace_undone (m : Ps.Mata) (block : Option Ps.Block) :
    psSpace { mata := m.setCreateSapceReq {}, block := block } = none :=
  if_neg fun h => h.2 rfl

theorem psSpace_createSpace {conf : Ps.Conf} {fresh : C} {req : CreateSpaceRequest}
    {out : Ps.CreateOutcome C} {p : Ps.Proc} {disk : Ps.Disk C} {space : Space}
    (h : psSpace (Ps.createSpace conf fresh req out p disk).2.1 = some space) :
    space = req.space ∨ psSpace p = some space := by
  unfold Ps.createSpace at h
  by_cases hs : p.mata.hasSpace = true
  · rw [if_pos hs] at h
    exact Or.inr h
  rw [if_neg hs] at h
  simp only at h
  by_cases hengine : out.engineCode ≠ 0
  · rw [if_pos hengine, psSpace_undone] at h
    cases h
  rw [if_neg hengine] at h
  split_ifs at h
  · rw [psSpace_undone] at h
    cases h
  · rw [psSpace_undone] at h
    cases h
  · unfold psSpace at h
    split_ifs at h
    exact Or.inl (Option.some.inj h).symm

theorem follows_createSpace (conf : Ps.Conf) (fresh : C) (req : CreateSpaceRequest)
    (out : Ps.CreateOutcome C) (p : Ps.Proc) (disk : Ps.Disk C) :
    Follows (.add (Router.Space.names req.space) (spaceId req.space)) (psKept p)
      (psKept (Ps.createSpace conf fresh req out p disk).2.1) := by
  refine ⟨?_, fun _ _ _ _ => nofun⟩
  rintro name id ⟨space, hspace, rfl, rfl⟩
  rcases psSpace_createSpace hspace with rfl | hold
  · exact Or.inl rfl
  · exact Or.inr ⟨space, hold, rfl, rfl⟩

theorem psSpace_deleteSpace {dbName spaceName : String} {out : Ps.DeleteOutcome C} {p : Ps.Proc}
    {disk : Ps.Disk C} {space : Space}
    (h : psSpace (Ps.deleteSpace dbName spaceName out p disk).2.1 = some space) :
    psSpace p = some space ∧ Router.Space.names space ≠ (dbName, spaceName) := by
  unfold Ps.deleteSpace at h
  by_cases hnames : p.mata.spaceReq.space.dbName ≠ dbName ∨
      p.mata.spaceReq.space.spaceName ≠ spaceName
  · rw [if_pos hnames] at h
    refine ⟨h, fun heq => ?_⟩
    unfold psSpace at h
    split_ifs at h
    cases h
    cases heq
    rcases hnames with hdb | hsp
    · exact hdb rfl
    · exact hsp rfl
  · rw [if_neg hnames] at h
    have hnone : psSpace { mata := p.mata.deleteSpace, block := none } = none :=
      if_neg fun hs => Bool.false_ne_true hs.1
    exact absurd (hnone.symm.trans h) nofun

theorem follows_deleteSpace (dbName spaceName : String) (id : Option Int)
    (out : Ps.DeleteOutcome C) (p : Ps.Proc) (disk : Ps.Disk C) :
    Follows (.delete (dbName, spaceName) id) (psKept p)
      (psKept (Ps.deleteSpace dbName spaceName out p disk).2.1) := by
  constructor
  · rintro name i ⟨space, hspace, hname, hid⟩
    exact Or.inr ⟨space, (psSpace_deleteSpace hspace).1, hname, hid⟩
  · rintro name i j ⟨space, hspace, rfl, -⟩ heq
    apply (psSpace_deleteSpace hspace).2
    cases heq
    rfl

theorem follows_rpcAddSpace {env : Router.Env} {s : Router.State} (hs : Router.Wf env s.manager)
    (pb : Space) :
    Follows (.add (Router.Space.names pb) (spaceId pb)) (routerKept env s.manager)
      (routerKept env (Router.rpcAddSpace env s pb).2.manager) := by
  refine ⟨?_, fun _ _ _ _ => nofun⟩
  rintro name id ⟨i, conn, hidx, hslot, hname, hid⟩
  unfold Router.rpcAddSpace at hidx hslot
  rcases Router.addSpace_cases env s pb with ⟨msg, -, heq⟩ | ⟨j, s', heq, htaken⟩
  · rw [heq] at hidx hslot
    exact Or.inr ⟨i, conn, hidx, hslot, hname, hid⟩
  rw [heq] at hidx hslot
  have hj := htaken.lt_capacity hs.room
  have hbound := hs.bound
  -- the slot is the one that was taken, or another one that the index named before
  by_cases hij : i = j
  · subst hij
    simp only [htaken.slot, Function.update_self, Option.some.injEq] at hslot
    subst hslot
    exact Or.inl (by rw [← hname, ← hid]; rfl)
  · rcases htaken.names (by omega) hidx with hold | ⟨-, hnew⟩
    · simp only [htaken.slot, Function.update_of_ne hij] at hslot
      exact Or.inr ⟨i, conn, hold, hslot, hname, hid⟩
    · exact absurd hnew hij

/-- The index forgets the key, and the slot that it named is emptied. -/
theorem rpcDeleteSpace_manager {env : Router.Env} {s : Router.State}
    (hs : Router.Wf env s.manager) (dbName spaceName : String) {m' : Router.SpaceManager}
    (hm' : (Router.rpcDeleteSpace env s dbName spaceName).2.manager = m') :
    m'.index env = Function.update (s.manager.index env) (Router.genSpaceKey dbName spaceName) none ∧
      ∀ i, m'.slot i = s.manager.slot i ∨
        m'.slot i = none ∧ s.manager.index env (Router.genSpaceKey dbName spaceName) = some i := by
  rw [Router.rpcDeleteSpace_state] at hm'
  rcases Router.deleteSpace_cases env s (Router.genSpaceKey dbName spaceName) with
    ⟨hidx, msg, -, heq⟩ | ⟨i, hidx, heq⟩
  · rw [heq] at hm'
    subst hm'
    exact ⟨(Function.update_eq_self_iff.mpr hidx.symm).symm, fun i => Or.inl rfl⟩
  · rw [heq] at hm'
    subst hm'
    obtain ⟨conn, hconn, -⟩ := hs.sound hidx
    refine ⟨Router.OneWriterMultiReaderMap.index_delete _, fun j => ?_⟩
    have hslot := congrFun (slotsOf_set (lt_length_of_slotsOf hconn) none) j
    by_cases hij : j = i
    · subst hij
      exact Or.inr ⟨hslot.trans (Function.update_self ..), hidx⟩
    · exact Or.inl (hslot.trans (Function.update_of_ne hij ..))

theorem follows_rpcDeleteSpace {env : Router.Env} {s : Router.State}
    (hs : Router.Wf env s.manager) (dbName spaceName : String) (id : Option Int) :
    Follows (.delete (dbName, spaceName) id) (routerKept env s.manager)
      (routerKept env (Router.rpcDeleteSpace env s dbName spaceName).2.manager) := by
  obtain ⟨hindex, hslots⟩ := rpcDeleteSpace_manager hs dbName spaceName rfl
  constructor
  · rintro name j ⟨i, conn, hidx, hslot, hname, hid⟩
    rw [hindex] at hidx
    have hkey : Router.genSpaceKey name.1 name.2 ≠ Router.genSpaceKey dbName spaceName := by
      intro heq
      rw [heq, Function.update_self] at hidx
      cases hidx
    rw [Function.update_of_ne hkey] at hidx
    rcases hslots i with heq | ⟨hnone, -⟩
    · exact Or.inr ⟨i, conn, hidx, heq ▸ hslot, hname, hid⟩
    · rw [hnone] at hslot
      cases hslot
  · rintro name j k ⟨i, conn, hidx, -⟩ heq
    cases heq
    rw [hindex, Function.update_self] at hidx
    cases hidx

/-! ### Whole runs -/

/-- The routers are well-formed, and what a receiver keeps was added since the last delete
of the name. -/
structure Accounted (site : Site C) (s : Sys net C) : Prop where
  wf : ∀ addr, Router.Wf (site.env addr) (s.routers addr).manager
  live : ∀ r name id, s.kept site r name id → id ∈ live name (s.log r)

def Sys.init (w : World net) (maxSpaceNum : Nat) : Sys net C where
  master := Config.init w
  nodes _ := ({}, {})
  routers _ := { manager := ({} : Router.SpaceManager).reserve maxSpaceNum }
  log _ := []

theorem accounted_init {site : Site C} (w : World net) {maxSpaceNum : Nat}
    (hmax : maxSpaceNum < 2 ^ 15) : Accounted site (Sys.init w maxSpaceNum) := by
  refine ⟨fun addr => Router.wf_empty hmax, ?_⟩
  intro r name id hkept
  cases r with
  | ps addr =>
    obtain ⟨space, hspace, -⟩ := hkept
    cases hspace
  | router addr =>
    obtain ⟨i, conn, hidx, -⟩ := hkept
    cases hidx

section

variable {site : Site C} {s : Sys net C}

theorem live_note {s' : Sys net C} {r : Receiver} {x : Note SpaceName (Option Int)}
    (hs : Accounted site s) (hlog : s'.log = s.note r x)
    (hself : Follows x (s.kept site r) (s'.kept site r))
    (hothers : ∀ r', r' ≠ r → s'.kept site r' = s.kept site r') :
    ∀ r' name id, s'.kept site r' name id → id ∈ live name (s'.log r') := by
  intro r' name id hkept
  rw [hlog]
  by_cases hr : r' = r
  · subst hr
    rw [Sys.note, Function.update_self]
    exact hself.live (hs.live r') name id hkept
  · rw [hothers r' hr] at hkept
    rw [Sys.note, Function.update_of_ne hr]
    exact hs.live r' name id hkept

theorem accounted_nodes (hs : Accounted site s) {addr : Address} {node : Ps.Proc × Ps.Disk C}
    {x : Note SpaceName (Option Int)} (h : Follows x (psKept (s.nodes addr).1) (psKept node.1)) :
    Accounted site { s with nodes := Function.update s.nodes addr node
                            log := s.note (.ps addr) x } := by
  refine ⟨hs.wf, live_note hs rfl ?_ fun r hr => ?_⟩
  · simp only [Sys.kept, Function.update_self]
    exact h
  · cases r with
    | router a => rfl
    | ps a =>
      have ha : a ≠ addr := fun heq => hr (by rw [heq])
      simp only [Sys.kept, Function.update_of_ne ha]

theorem accounted_routers (hs : Accounted site s) {addr : Address} {st : Router.State}
    {x : Note SpaceName (Option Int)} (hwf : Router.Wf (site.env addr) st.manager)
    (h : Follows x (routerKept (site.env addr) (s.routers addr).manager)
      (routerKept (site.env addr) st.manager)) :
    Accounted site { s with routers := Function.update s.routers addr st
                            log := s.note (.router addr) x } := by
  refine ⟨fun a => ?_, live_note hs rfl ?_ fun r hr => ?_⟩
  · by_cases ha : a = addr
    · subst ha
      simp only [Function.update_self]
      exact hwf
    · simp only [Function.update_of_ne ha]
      exact hs.wf a
  · simp only [Sys.kept, Function.update_self]
    exact h
  · cases r with
    | ps a => rfl
    | router a =>
      have ha : a ≠ addr := fun heq => hr (by rw [heq])
      simp only [Sys.kept, Function.update_of_ne ha]

/-- An add carries the id that it was issued for. -/
def Message.Tells (msg : Message) : Prop :=
  match msg.task.body with
  | .psCreate space _ => msg.id = some space.id
  | .routerCreate space => msg.id = some space.id
  | _ => True

theorem tells_sent {json : SpaceJson} {c : Master.Cluster net} {t n : Nat} {msg : Message}
    (h : sent json c t n = some msg) : msg.Tells := by
  obtain ⟨th, -, hposted⟩ := Option.bind_eq_some_iff.mp h
  obtain ⟨⟨ip, port, body⟩, -, rfl⟩ := Option.map_eq_some_iff.mp hposted
  cases body with
  | psCreate space partition => rfl
  | routerCreate space => rfl
  | psDelete dbName spaceName => trivial
  | routerDelete dbName spaceName => trivial

theorem add_eq_of_sameSpace {space : InnerSpace} {pb : Space} (h : SameSpace space pb) :
    (Note.add (space.dbName, space.spaceName) (some space.id) : Note SpaceName (Option Int))
      = .add (Router.Space.names pb) (spaceId pb) := by
  obtain ⟨hdb, hsp, hid⟩ := h
  rw [Router.Space.names, spaceId, hdb, hsp, hid]

/-- **A message that is processed keeps the account.** -/
theorem accounted_deliver (hs : Accounted site s) {msg : Message} (hmsg : msg.Tells)
    (out : PsOutcome C) : Accounted site (deliver site s msg out) := by
  obtain ⟨⟨ip, port, body⟩, id⟩ := msg
  cases body with
  | psCreate space partition =>
    obtain rfl : id = some space.id := hmsg
    simp only [deliver]
    cases hparse : site.parser.createReq space partition with
    | none => exact hs
    | some req =>
      simp only [add_eq_of_sameSpace (site.parser.sameCreate hparse)]
      exact accounted_nodes hs (follows_createSpace ..)
  | psDelete dbName spaceName => exact accounted_nodes hs (follows_deleteSpace ..)
  | routerCreate space =>
    obtain rfl : id = some space.id := hmsg
    simp only [deliver]
    cases hparse : site.parser.space space with
    | none => exact hs
    | some pb =>
      simp only [add_eq_of_sameSpace (site.parser.sameSpace hparse)]
      exact accounted_routers hs (Router.wf_addSpace (hs.wf _) pb) (follows_rpcAddSpace (hs.wf _) pb)
  | routerDelete dbName spaceName =>
    refine accounted_routers hs ?_ (follows_rpcDeleteSpace (hs.wf _) _ _ _)
    rw [Router.rpcDeleteSpace_state]
    exact Router.wf_deleteSpace (hs.wf _) _

theorem accounted_step (json : SpaceJson) (hs : Accounted site s) (e : SysEvent net C) :
    Accounted site (sysStep json site s e) := by
  cases e with
  | master e => exact ⟨hs.wf, hs.live⟩
  | deliver t n out =>
    simp only [sysStep]
    cases hsent : sent json s.master t n with
    | none => exact hs
    | some msg => exact accounted_deliver hs (tells_sent hsent) out

/-- **What a delete removes, its receiver kept under the name.** -/
theorem kept_of_removed (hs : Accounted site s) {msg : Message} {out : PsOutcome C} {r : Receiver}
    {i : Nat} {space : Space} (hdel : deletedName msg.task.body = some (Router.Space.names space))
    (hbefore : s.content r i = some space)
    (hafter : (deliver site s msg out).content r i ≠ some space) :
    r = receiver msg.task ∧ s.kept site r (Router.Space.names space) (spaceId space) := by
  obtain ⟨⟨ip, port, body⟩, id⟩ := msg
  cases body with
  | psCreate sp partition => cases hdel
  | routerCreate sp => cases hdel
  | psDelete dbName spaceName =>
    match r, i with
    | .router addr, i => exact absurd hbefore hafter
    | .ps addr, i + 1 => cases hbefore
    | .ps addr, 0 =>
      by_cases haddr : addr = (ip, port)
      · subst haddr
        exact ⟨rfl, space, hbefore, rfl, rfl⟩
      · refine absurd ?_ hafter
        simp only [deliver, Sys.content, Function.update_of_ne haddr]
        exact hbefore
  | routerDelete dbName spaceName =>
    match r, i with
    | .ps addr, i + 1 => cases hbefore
    | .ps addr, 0 => exact absurd hbefore hafter
    | .router addr, i =>
      by_cases haddr : addr = (ip, port)
      · subst haddr
        refine ⟨rfl, ?_⟩
        obtain ⟨conn, hconn, rfl⟩ := Option.map_eq_some_iff.mp hbefore
        obtain ⟨-, hslots⟩ := rpcDeleteSpace_manager (hs.wf (ip, port)) dbName spaceName rfl
        simp only [deliver, Sys.content, Function.update_self] at hafter
        rcases hslots i with hsame | ⟨-, hidx⟩
        · rw [hsame, hconn] at hafter
          exact absurd rfl hafter
        · obtain ⟨hdb, hsp⟩ := Prod.mk.inj (Option.some.inj hdel)
          rw [hdb, hsp] at hidx
          exact ⟨i, conn, hidx, hconn, rfl, rfl⟩
      · refine absurd ?_ hafter
        simp only [deliver, Sys.content, Function.update_of_ne haddr]
        exact hbefore

/-- When a delete is processed, every add of the name that the receiver has processed since
the last delete of the name was of the same space. -/
def InOrder (json : SpaceJson) (s : Sys net C) : SysEvent net C → Prop
  | .master _ => True
  | .deliver t n _ => ∀ msg name, sent json s.master t n = some msg →
      deletedName msg.task.body = some name →
      ∀ id ∈ live name (s.log (receiver msg.task)), id = msg.id

end

/-- **A delete removes only the space that it was issued for.**  In every run, whatever
happens to the messages and however late they come, a delete that is processed in order
and removes a space of its names from a router or a PS was issued for the id of that
space. -/
theorem delete_removes_own (json : SpaceJson) (site : Site C) (s₀ s : Sys net C)
    (h₀ : Accounted site s₀) (h : Reach (sysStep json site) anyEvent s₀ s) (t n : Nat)
    (out : PsOutcome C) (hok : InOrder json s (.deliver t n out)) (msg : Message)
    (hsent : sent json s.master t n = some msg) (r : Receiver) (i : Nat) (space : Space)
    (hdel : deletedName msg.task.body = some (space.dbName, space.spaceName))
    (hbefore : s.content r i = some space)
    (hafter : (sysStep json site s (.deliver t n out)).content r i ≠ some space) :
    msg.id = some (space.id.toNat : Int) := by
  have hs : Accounted site s :=
    h.invariant (Accounted site) h₀ fun s e hs _ => accounted_step json hs e
  simp only [sysStep, hsent] at hafter
  obtain ⟨rfl, hkept⟩ := kept_of_removed hs hdel hbefore hafter
  -- what is kept under the name is live, and all that is live is of the delete's own space
  exact (hok msg _ hsent hdel _ (hs.live _ _ _ hkept)).symm

/-! ### A delete that comes late -/

section

variable {json : SpaceJson} {site : Site C} {s : Sys net C} {c c' : Master.Cluster net} {t n : Nat}
  {msg : Message}

theorem sysStep_deliver (hm : s.master = c) (hsent : sent json c t n = some msg)
    (out : PsOutcome C) : sysStep json site s (.deliver t n out) = deliver site s msg out := by
  simp only [sysStep, hm, hsent]

theorem reach_deliver (hm : s.master = c) (hsent : sent json c t n = some msg)
    (out : PsOutcome C) : Reach (sysStep json site) anyEvent s (deliver site s msg out) :=
  sysStep_deliver hm hsent out ▸ Reach.next (SysEvent.deliver t n out) Reach.start trivial

theorem master_with (s : Sys net C) (c : Master.Cluster net) :
    ({ s with master := c } : Sys net C).master = c := rfl

theorem master_deliver (hm : s.master = c) (out : PsOutcome C) :
    (deliver site s msg out).master = c := by
  unfold deliver
  simp only
  split
  · split
    · exact hm
    · exact hm
  · exact hm
  · split
    · exact hm
    · exact hm
  · exact hm

/-- The receivers may wait while the master goes on. -/
theorem reach_master :
    ∀ (es : List (Lib.Event (Master.master net) Request)) {s : Sys net C} {c : Master.Cluster net},
      s.master = c → es.foldl (Lib.step (serve json)) c = c' →
      Reach (sysStep json site) anyEvent s { s with master := c' } := by
  intro es
  induction es with
  | nil =>
    rintro s c rfl rfl
    exact Reach.start
  | cons e es ih =>
    rintro s c rfl hc
    exact (Reach.next (SysEvent.master e) Reach.start trivial).trans (ih rfl hc)

end

def lateRouters : Network where
  State := Unit
  Choice := Unit
  send _ task _ :=
    (match task.body with
      | .psCreate _ _ => {}
      | .psDelete _ _ => {}
      | _ => { err := "timeout" }, ())

def lateWorld : World lateRouters where
  etcd := (sampleWorld "/nodes/router/:10.0.0.2:8082").etcd
  net := ()

abbrev latePick : (o : Op) → Choice lateRouters o := smooth lateRouters sampleTime ()

theorem reach_alone {site : Site C} {s : Sys lateRouters C} {c c' : Master.Cluster lateRouters}
    {t : Nat} {i : Request} (hm : s.master = c) (hc : c' = alone latePick c t i) :
    Reach (sysStep goJson site) anyEvent s { s with master := c' } :=
  reach_master (soloEvents latePick c.state t i) hm hc.symm

def created : Master.Cluster lateRouters :=
  alone latePick (Config.init lateWorld) 0 (.create (.ok sampleApi))

def deleted : Master.Cluster lateRouters := alone latePick created 1 (.delete (.ok imagesRequest))

def recreated : Master.Cluster lateRouters := alone latePick deleted 2 (.create (.ok sampleApi))

/-- What the master works on after the first create, and after the delete. -/
def createdWorld₁ : World lateRouters := (soloRun latePick lateWorld 0 (.create (.ok sampleApi))).2.2

def deletedWorld : World lateRouters := (@deleteRest lateRouters () createdWorld₁ 1 1).2.2

theorem createdWorld₁_lock : createdWorld₁.lock = none := by decide +kernel

theorem createdWorld₁_stored :
    createdWorld₁.etcd[getSpaceEtcdKey imagesRequest.dbName imagesRequest.spaceName]?
      = some (goJson.marshal (createdSpace 1)) := by rfl

theorem createdWorld₁_gate : createdWorld₁.etcd[ddlDisabledKey]? = none := by decide +kernel

theorem soloRun_created :
    soloRun latePick createdWorld₁ 1 (.delete (.ok imagesRequest))
      = (@deleteTrace lateRouters () createdWorld₁ 1 1,
        (@deleteRest lateRouters () createdWorld₁ 1 1).2) :=
  soloRun_delete createdWorld₁_lock createdWorld₁_stored createdWorld₁_gate

theorem state_soloRun_created :
    (soloRun latePick createdWorld₁ 1 (.delete (.ok imagesRequest))).2.2
      = (@deleteRest lateRouters () createdWorld₁ 1 1).2.2 := by
  have hlock := createdWorld₁_lock
  have hstored := createdWorld₁_stored
  have hgate := createdWorld₁_gate
  generalize createdWorld₁ = w at hlock hstored hgate ⊢
  exact state_soloRun_delete hlock hstored hgate

theorem created_new {u : Nat} (hu : u ≠ 0) : created.threads u = none := by
  rw [created, threads_alone rfl hu]
  rfl

theorem created_state : created.state = createdWorld₁ := by
  rw [created, state_alone rfl, createdWorld₁]
  dsimp only [Config.init]

theorem deleted_thread : ∃ rest, deleted.threads 1
    = some ⟨.delete (.ok imagesRequest),
        @deleteTrace lateRouters () createdWorld₁ 1 1, rest⟩ := by
  rw [deleted, thread_alone (created_new (by decide)), created_state, soloRun_created]
  exact ⟨_, rfl⟩

theorem deleted_state : deleted.state = deletedWorld := by
  rw [deleted, state_alone (created_new (by decide)), created_state, state_soloRun_created,
    deletedWorld]

theorem deleted_new : deleted.threads 2 = none := by
  rw [deleted, threads_alone (created_new (by decide)) (by decide), created_new (by decide)]

theorem recreated_thread : ∃ rest, recreated.threads 2 = some ⟨.create (.ok sampleApi),
    (soloRun latePick deletedWorld 2 (.create (.ok sampleApi))).1, rest⟩ := by
  rw [recreated, thread_alone deleted_new, deleted_state]
  exact ⟨_, rfl⟩

theorem recreated_delete : recreated.threads 1 = deleted.threads 1 := by
  rw [recreated, threads_alone deleted_new (by decide)]

/-! #### What was sent -/

theorem sameSpace_pbSpace {sp : InnerSpace} (h : 0 ≤ sp.id ∧ sp.id < 2 ^ 32) :
    SameSpace sp (pbSpace sp) := by
  refine ⟨rfl, rfl, ?_⟩
  show ((UInt32.ofNat sp.id.toNat).toNat : Int) = sp.id
  rw [UInt32.toNat_ofNat']
  omega

/-- A parser that refuses an id which is no `uint32`. -/
def sampleParser : Parser where
  createReq sp partition :=
    if 0 ≤ sp.id ∧ sp.id < 2 ^ 32 then
      some { space := pbSpace sp, curPartition := pbPartition partition }
    else none
  space sp := if 0 ≤ sp.id ∧ sp.id < 2 ^ 32 then some (pbSpace sp) else none
  sameCreate := by
    intro sp partition req h
    split_ifs at h with hid
    cases h
    exact sameSpace_pbSpace hid
  sameSpace := by
    intro sp pb h
    split_ifs at h with hid
    cases h
    exact sameSpace_pbSpace hid

def lateSite : Site Unit where
  conf addr := { psStorageDir := "/ps", raftRootDir := "/raft", curIp := addr.1,
                 rpcPort := Int32.ofInt addr.2 }
  fresh := ()
  env _ := Router.libEnv
  parser := sampleParser

def psAdd (space : InnerSpace) : Task :=
  ⟨"10.0.0.1", 8081, .psCreate space (space.partitions.headD {})⟩

def psDelete : Task := ⟨"10.0.0.1", 8081, .psDelete "database" "images"⟩

def routerAdd : Task := ⟨"10.0.0.2", 8082, .routerCreate (createdSpace 2)⟩

def routerDelete : Task := ⟨"10.0.0.2", 8082, .routerDelete "database" "images"⟩

theorem sent_created : sent goJson created 0 12 = some ⟨psAdd (createdSpace 1), some 1⟩ := by
  have htask : posted (soloRun latePick lateWorld 0 (.create (.ok sampleApi))).1 12
      = some (psAdd (createdSpace 1)) := by decide +kernel
  refine (sent_of_posted (thread_alone rfl) htask).trans ?_
  rfl

theorem issuedFor_delete (w : World lateRouters) :
    (@deleteTrace lateRouters () w 1 1).findSome?
      (chosenId goJson (.delete (.ok imagesRequest))) = some 1 := by
  simp only [deleteTrace, List.findSome?_cons, chosenId, if_true, unmarshal_marshal]
  rfl

theorem sent_deleted {c : Master.Cluster lateRouters} (hc : c.threads 1 = deleted.threads 1) :
    sent goJson c 1 12 = some ⟨psDelete, some 1⟩ ∧
      sent goJson c 1 10 = some ⟨routerDelete, some 1⟩ := by
  obtain ⟨rest, hthread⟩ := deleted_thread
  have htasks : posted (@deleteTrace lateRouters () createdWorld₁ 1 1) 12 = some psDelete ∧
      posted (@deleteTrace lateRouters () createdWorld₁ 1 1) 10 = some routerDelete := by decide +kernel
  have hid := issuedFor_delete createdWorld₁
  constructor
  · rw [sent_of_posted (hc.trans hthread) htasks.1]
    exact congrArg (fun id => some (Message.mk psDelete id)) hid
  · rw [sent_of_posted (hc.trans hthread) htasks.2]
    exact congrArg (fun id => some (Message.mk routerDelete id)) hid

theorem sent_recreated : sent goJson recreated 2 12 = some ⟨psAdd (createdSpace 2), some 2⟩ ∧
    sent goJson recreated 2 18 = some ⟨routerAdd, some 2⟩ := by
  obtain ⟨rest, hthread⟩ := recreated_thread
  have htasks : posted (soloRun latePick deletedWorld 2 (.create (.ok sampleApi))).1 12
        = some (psAdd (createdSpace 2)) ∧
      posted (soloRun latePick deletedWorld 2 (.create (.ok sampleApi))).1 18 = some routerAdd := by
    decide +kernel
  exact ⟨sent_of_posted hthread htasks.1, sent_of_posted hthread htasks.2⟩

/-! #### What was processed -/

def deletedSys : Sys lateRouters Unit :=
  { deliver lateSite { Sys.init lateWorld 1000 with master := created }
      ⟨psAdd (createdSpace 1), some 1⟩ {} with
    master := deleted }

/-- The PS has deleted the space, the second create ran, and both receivers have added the
new space.  The router has processed nothing else. -/
def recreatedSys : Sys lateRouters Unit :=
  deliver lateSite (deliver lateSite
      { deliver lateSite deletedSys ⟨psDelete, some 1⟩ {} with master := recreated }
      ⟨psAdd (createdSpace 2), some 2⟩ {}) ⟨routerAdd, some 2⟩ {}

theorem master_deletedSys : deletedSys.master = deleted := by
  rw [deletedSys, master_with]

theorem reach_deletedSys :
    Reach (sysStep goJson lateSite) anyEvent (Sys.init lateWorld 1000) deletedSys := by
  have hcreate : Reach (sysStep goJson lateSite) anyEvent (Sys.init lateWorld 1000)
      { Sys.init lateWorld 1000 with master := created } := reach_alone rfl created.eq_1
  have hadd := hcreate.trans (reach_deliver (master_with _ _) sent_created {})
  exact hadd.trans (reach_alone (master_deliver (master_with _ _) {}) deleted.eq_1)

theorem master_recreatedSys : recreatedSys.master = recreated := by
  rw [recreatedSys]
  exact master_deliver (master_deliver (master_with _ _) {}) {}

theorem reach_recreatedSys :
    Reach (sysStep goJson lateSite) anyEvent (Sys.init lateWorld 1000) recreatedSys := by
  have hdelete := reach_deletedSys.trans
    (reach_deliver master_deletedSys (sent_deleted rfl).1 {})
  have hcreate := hdelete.trans
    (reach_alone (master_deliver master_deletedSys {}) recreated.eq_1)
  have hps := hcreate.trans (reach_deliver (master_with _ _) sent_recreated.1 {})
  exact hps.trans (reach_deliver (master_deliver (master_with _ _) {}) sent_recreated.2 {})

theorem delete_removes_own_ps :
    InOrder goJson deletedSys (.deliver 1 12 {}) ∧
      deletedSys.content (.ps ("10.0.0.1", 8081)) 0 = some (pbSpace (createdSpace 1)) ∧
      (sysStep goJson lateSite deletedSys (.deliver 1 12 {})).content (.ps ("10.0.0.1", 8081)) 0
        = none ∧
      (some 1 : Option Int) = some ((pbSpace (createdSpace 1)).id.toNat : Int) := by
  have hsent := (sent_deleted (c := deleted) rfl).1
  have hlive : live ("database", "images") (deletedSys.log (.ps ("10.0.0.1", 8081)))
      = [some 1] := by decide +kernel
  have hbefore : deletedSys.content (.ps ("10.0.0.1", 8081)) 0
      = some (pbSpace (createdSpace 1)) := by decide +kernel
  have hafter : (deliver lateSite deletedSys ⟨psDelete, some 1⟩ {}).content
      (.ps ("10.0.0.1", 8081)) 0 = none := by decide +kernel
  have hstep : sysStep goJson lateSite deletedSys (.deliver 1 12 {})
      = deliver lateSite deletedSys ⟨psDelete, some 1⟩ {} :=
    sysStep_deliver master_deletedSys hsent {}
  have hok : InOrder goJson deletedSys (.deliver 1 12 {}) := by
    intro msg name hmsg hname id hid
    rw [master_deletedSys, hsent] at hmsg
    cases hmsg
    cases hname
    rw [show receiver psDelete = .ps ("10.0.0.1", 8081) from rfl, hlive] at hid
    exact List.mem_singleton.mp hid
  rw [hstep]
  refine ⟨hok, hbefore, hafter, ?_⟩
  refine delete_removes_own goJson lateSite (Sys.init lateWorld 1000) deletedSys
    (accounted_init lateWorld (by decide)) reach_deletedSys 1 12 {} hok ⟨psDelete, some 1⟩
    (by rw [master_deletedSys, hsent]) (.ps ("10.0.0.1", 8081)) 0 (pbSpace (createdSpace 1)) rfl hbefore ?_
  rw [hstep, hafter]
  exact nofun

/-- **A delete of the first space removes the second.**  The router processes the delete,
of which the master had been told that it timed out, after the space was created again. -/
theorem late_delete_removes_successor :
    Reach (sysStep goJson lateSite) anyEvent (Sys.init lateWorld 1000) recreatedSys ∧
      sent goJson recreatedSys.master 1 10 = some ⟨routerDelete, some 1⟩ ∧
      recreatedSys.content (.router ("10.0.0.2", 8082)) 0 = some (pbSpace (createdSpace 2)) ∧
      deletedName routerDelete.body
        = some ((pbSpace (createdSpace 2)).dbName, (pbSpace (createdSpace 2)).spaceName) ∧
      (pbSpace (createdSpace 2)).id = 2 ∧
      (sysStep goJson lateSite recreatedSys (.deliver 1 10 {})).content
        (.router ("10.0.0.2", 8082)) 0 = none := by
  have hsent := (sent_deleted recreated_delete).2
  have hbefore : recreatedSys.content (.router ("10.0.0.2", 8082)) 0
      = some (pbSpace (createdSpace 2)) := by decide +kernel
  have hafter : (deliver lateSite recreatedSys ⟨routerDelete, some 1⟩ {}).content
      (.router ("10.0.0.2", 8082)) 0 = none := by decide +kernel
  refine ⟨reach_recreatedSys, ?_, hbefore, rfl, by decide +kernel, ?_⟩
  · rw [master_recreatedSys]
    exact hsent
  · rw [sysStep_deliver master_recreatedSys hsent]
    exact hafter

end SimSearch.Cluster
