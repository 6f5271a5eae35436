import SimSearch.Master.Answers
import SimSearch.Ps.CreateAtomic

/-!
# What a failed create leaves on the nodes

The roll-back of `CreatePsSpaceImpl` sends `DeleteSpace` by name to every node that it
had chosen.  `psNet` is a network of PS nodes that hold at most one space each; a request
can be lost, its reply can be lost, and a create can fail on the node.

`spared_of_not_recorded` is the easy half: all deletes carry the names of the request, so
a node that holds another space keeps it.  `spared_of_scanned` is the other: a name that
is recorded is refused before any node is called, if the scan of the spaces did not fail.
`createSpace_destroys_recorded` shows what happens when it did.
-/

namespace SimSearch.Master

open SimSearch.Lib Program

variable {t : Nat}

/-! ### The nodes -/

abbrev Names := String × String

/-- What becomes of a request: it is `delivered` or not, a create `fails` on the node and
leaves it with something or not, and the reply is `answered` or not. -/
structure Delivery where
  delivered : Bool := true
  fails : Option (Option Names) := none
  answered : Bool := true
  deriving DecidableEq, Repr

/-- A PS that holds `held`.  It refuses a create while it holds a space, and accepts a
delete exactly when the names are those it holds. -/
def psHandle (held : Option Names) (body : Body) (fails : Option (Option Names)) :
    Status × Option Names :=
  match body with
  | .psCreate space _ =>
    match held, fails with
    | some names, _ => (⟨201, "Space has exist, space_name:" ++ names.2⟩, held)
    | none, some left => (⟨202, "Fail to start Block"⟩, left)
    | none, none => ({}, some (space.dbName, space.spaceName))
  | .psDelete db sp =>
    if held = some (db, sp) then ({}, none)
    else (⟨201, "db_name and space_name is not exist."⟩, held)
  | _ => ({}, held)

def psNet : Network where
  State := String × Int → Option Names
  Choice := Delivery
  send hold task c :=
    if c.delivered then
      let (status, held) := psHandle (hold (task.ip, task.port)) task.body c.fails
      (if c.answered then { status := status } else { err := "request timeout" },
        Function.update hold (task.ip, task.port) held)
    else ({ err := "connection refused" }, hold)

/-- A node keeps a space unless it is told to delete it by its own names. -/
theorem psHandle_held {names : Names} {body : Body} {fails : Option (Option Names)}
    (h : body ≠ .psDelete names.1 names.2) : (psHandle (some names) body fails).2 = some names := by
  cases body with
  | psCreate space partition => rfl
  | psDelete db sp =>
    have hne : some names ≠ some (db, sp) := by
      intro heq
      cases Option.some.inj heq
      exact h rfl
    unfold psHandle
    simp only [if_neg hne]
  | routerCreate space => rfl
  | routerDelete db sp => rfl

theorem send_held {hold : String × Int → Option Names} {task : Task} {c : Delivery}
    {addr : String × Int} {names : Names} (hheld : hold addr = some names)
    (h : task.body ≠ .psDelete names.1 names.2) :
    (psNet.send hold task c).2 addr = some names := by
  by_cases hd : c.delivered = true
  · by_cases ha : addr = (task.ip, task.port)
    · subst ha
      simp only [psNet, hd, if_true, Function.update_self, hheld]
      exact psHandle_held h
    · simp only [psNet, hd, if_true, Function.update_of_ne ha]
      exact hheld
  · simp only [psNet, hd]
    exact hheld

/-! ### The node of the source

`Ps/Node.lean` is the PS as it is coded; what it holds is what its metadata say. -/

def holds (p : Ps.Proc) : Option Names :=
  if p.mata.hasSpace then some (p.mata.spaceReq.space.dbName, p.mata.spaceReq.space.spaceName)
  else none

theorem createSpace_ok_request {C : Type} (conf : Ps.Conf) (fresh : C) (req : CreateSpaceRequest)
    (out : Ps.CreateOutcome C) {p : Ps.Proc} (disk : Ps.Disk C) (hs : p.mata.hasSpace = false)
    (hdb : req.space.dbName ≠ "") (h : (Ps.createSpace conf fresh req out p disk).1.code = 0) :
    (Ps.createSpace conf fresh req out p disk).2.1.mata.spaceReq = req := by
  obtain ⟨hengine, hstart, hdump⟩ := (Ps.createSpace_named conf fresh out disk hs hdb).1.mp h
  unfold Ps.createSpace
  simp [hs, hengine, hstart, hdump, Ps.createAndStart, Ps.dumpCreateSpaceReq,
    Ps.Mata.setCreateSapceReq, hdb]

/-- **`CreateSpace` of the source is one of the ways in which `psHandle` creates.** -/
theorem psHandle_createSpace {C : Type} (conf : Ps.Conf) (fresh : C) (req : CreateSpaceRequest)
    (out : Ps.CreateOutcome C) (p : Ps.Proc) (disk : Ps.Disk C) {space : InnerSpace}
    (partition : Partition) (hdb : req.space.dbName = space.dbName)
    (hsp : req.space.spaceName = space.spaceName) (hne : space.dbName ≠ "") :
    ∃ fails, (psHandle (holds p) (.psCreate space partition) fails).2
        = holds (Ps.createSpace conf fresh req out p disk).2.1 ∧
      ((psHandle (holds p) (.psCreate space partition) fails).1.code = 0 ↔
        (Ps.createSpace conf fresh req out p disk).1.code = 0) := by
  by_cases hs : p.mata.hasSpace = true
  · have hheld : holds p = some (p.mata.spaceReq.space.dbName, p.mata.spaceReq.space.spaceName) :=
      if_pos hs
    refine ⟨none, ?_⟩
    rw [Ps.createSpace, if_pos hs, hheld]
    refine ⟨rfl, ?_⟩
    show (201 : Int) = 0 ↔ (201 : Int32) = 0
    decide
  · have hs' : p.mata.hasSpace = false := by simpa using hs
    have hheld : holds p = none := if_neg hs
    have hnamed := Ps.createSpace_named conf fresh out disk hs' (hdb ▸ hne)
    rw [hheld]
    by_cases hcode : (Ps.createSpace conf fresh req out p disk).1.code = 0
    · refine ⟨none, ?_, fun _ => hcode, fun _ => rfl⟩
      rw [holds, if_pos hnamed.2, createSpace_ok_request conf fresh req out disk hs' (hdb ▸ hne)
        hcode, hdb, hsp]
      rfl
    · refine ⟨some (holds (Ps.createSpace conf fresh req out p disk).2.1), rfl, ?_⟩
      exact ⟨fun h => absurd h (by decide : (202 : Int) ≠ 0), fun h => absurd h hcode⟩

/-- **`DeleteSpace` of the source is that of `psHandle`.** -/
theorem psHandle_deleteSpace {C : Type} (db sp : String) (out : Ps.DeleteOutcome C) (p : Ps.Proc)
    (disk : Ps.Disk C) (hempty : p.mata.hasSpace = false → p.mata.spaceReq = {}) (hdb : db ≠ "") :
    (psHandle (holds p) (.psDelete db sp) none).2 = holds (Ps.deleteSpace db sp out p disk).2.1 ∧
      ((psHandle (holds p) (.psDelete db sp) none).1.code = 0 ↔
        (Ps.deleteSpace db sp out p disk).1.code = 0) := by
  have hrefused : ¬ (201 : Int) = 0 ∧ ¬ (201 : Int32) = 0 := by decide
  by_cases hnames : p.mata.spaceReq.space.dbName ≠ db ∨ p.mata.spaceReq.space.spaceName ≠ sp
  · have hne : holds p ≠ some (db, sp) := by
      unfold holds
      by_cases hs : p.mata.hasSpace = true
      · rw [if_pos hs]
        intro h
        obtain ⟨h₁, h₂⟩ := Prod.mk.inj (Option.some.inj h)
        rcases hnames with hn | hn
        · exact hn h₁
        · exact hn h₂
      · rw [if_neg hs]
        exact fun h => (nomatch h)
    rw [Ps.deleteSpace, if_pos hnames, psHandle]
    simp only [if_neg hne]
    exact ⟨trivial, iff_of_false hrefused.1 hrefused.2⟩
  · have hboth : p.mata.spaceReq.space.dbName = db ∧ p.mata.spaceReq.space.spaceName = sp := by
      simpa [not_or] using hnames
    have hs : p.mata.hasSpace = true := by
      by_contra hs
      rw [hempty (by simpa using hs)] at hboth
      exact hdb hboth.1.symm
    have hheld : holds p = some (db, sp) := by
      rw [holds, if_pos hs, hboth.1, hboth.2]
    rw [Ps.deleteSpace, if_neg hnames, psHandle]
    simp only [if_pos hheld]
    exact ⟨rfl, trivial⟩

/-! ### Recorded spaces -/

/-- A space of these names is stored under `SpacesMataPrefix`. -/
def Recorded (json : SpaceJson) (etcd : Std.TreeMap String String) (names : Names) : Prop :=
  ∃ key val : String, etcd[key]? = some val ∧ startsWith spacesMataPrefix key = true ∧
    ((json.unmarshal val).dbName, (json.unmarshal val).spaceName) = names

/-- Every node that held a recorded space in `w` holds it in `w'`. -/
def Spared (json : SpaceJson) (w w' : World psNet) : Prop :=
  ∀ (addr : String × Int) (names : Names), Recorded json w.etcd names →
    w.net addr = some names → w'.net addr = some names

theorem spared_refl (json : SpaceJson) (w : World psNet) : Spared json w w :=
  fun _ _ _ h => h

theorem exec_net (w : World psNet) (o : Op) (c : Choice psNet o) :
    (exec psNet t w o c).2.net = w.net ∨ ∃ task d, o = .post task ∧
      (exec psNet t w o c).2.net = (psNet.send w.net task d).2 := by
  cases o with
  | post task => exact Or.inr ⟨task, c, rfl, rfl⟩
  | put k v => cases c <;> exact Or.inl rfl
  | delete k => cases c <;> exact Or.inl rfl
  | newId k =>
    left
    simp only [exec]
    cases c with
    | some e => rfl
    | none => cases nextId w.etcd[k]? <;> rfl
  | tryLock i => exact Or.inl (exec_lockOp w (.tryLock i) c trivial).2
  | unlock => exact Or.inl (exec_lockOp w .unlock c trivial).2
  | _ => exact Or.inl rfl

/-- A request of a create that has other names leaves a held space. -/
theorem body_ne_psDelete {db sp : String} {task : Task} {names : Names}
    (htask : CreateTask db sp task) (hne : names ≠ (db, sp)) :
    task.body ≠ .psDelete names.1 names.2 := by
  intro hbody
  unfold CreateTask at htask
  rw [hbody] at htask
  exact hne (Prod.ext htask.1 htask.2)

/-- **A create whose names are not recorded spares every recorded space.** -/
theorem spared_of_not_recorded (json : SpaceJson) (api : ApiSpace) (w : World psNet)
    (hfree : ¬ Recorded json w.etcd (api.dbName, api.spaceName)) :
    Post (master psNet) t (createSpace json (.ok api)) w (fun _ _ w' => Spared json w w') := by
  refine post_of_uses (M := master psNet) (fun s : World psNet => Spared json w s) ?_
    (uses_createSpace json api) w (spared_refl json w)
  intro s o c ho hs addr names hrec hheld
  have hne : names ≠ (api.dbName, api.spaceName) := by
    rintro rfl
    exact hfree hrec
  rcases exec_net (t := t) s o c with hsame | ⟨task, d, rfl, hsend⟩
  · exact (congrFun hsame addr).trans (hs addr names hrec hheld)
  · have htask : CreateTask api.dbName api.spaceName task := by
      rcases ho with h | h | h | ⟨space, -, -, h⟩
      · exact h.elim
      · exact h
      · cases h
      · cases h
    exact (congrFun hsend addr).trans
      (send_held (hs addr names hrec hheld) (body_ne_psDelete htask hne))

/-! ### The scan of the spaces -/

def SpacesScanned (tr : Trace Op Res) : Prop :=
  ∀ e : String, (⟨.scan spacesMataPrefix, .error e⟩ : Σ o, Res o) ∉ tr

theorem SpacesScanned.mono {tr tr' : Trace Op Res} (h : SpacesScanned tr')
    (hsub : ∀ x ∈ tr, x ∈ tr') : SpacesScanned tr := fun e he => h e (hsub _ he)

theorem post_read {net : Network} {α : Type} {p : Prog α} (hp : p.Uses ReadOp) (w : World net) :
    Post (master net) t p w (fun _ _ w' => w' = w) := by
  refine post_of_uses (M := master net) (fun s : World net => s = w) ?_ hp w rfl
  rintro s o c ho rfl
  cases o <;> first | exact ho.elim | rfl

theorem scanOrEmpty_spaces (w : World psNet) :
    Post (master psNet) t (scanOrEmpty spacesMataPrefix) w (fun tr kvs _ =>
      SpacesScanned tr → kvs = scanEtcd w.etcd spacesMataPrefix) := by
  refine post_perform fun c => ?_
  cases c with
  | some e => exact post_ret fun hscan => absurd List.mem_cons_self (hscan e)
  | none => exact post_ret fun _ => rfl

/-- A name that is recorded does not get any nodes. -/
theorem validateName_recorded (json : SpaceJson) (space : InnerSpace) (w : World psNet)
    (hrec : Recorded json w.etcd (space.dbName, space.spaceName)) :
    Post (master psNet) t (validateNameAndGetIdlePsNode json space) w (fun tr r _ =>
      SpacesScanned tr → ∀ idle, r ≠ some (.ok idle)) := by
  refine post_seq ((post_read (uses_scanOrEmpty trivial) w).mono ?_)
  rintro tr₁ psKeys w₁ rfl
  refine post_seq ((post_read (uses_scanOrEmpty trivial) w₁).mono ?_)
  rintro tr₂ errPsKeys w₂ rfl
  cases repDeserializeFromByte (psKeys.map Prod.fst) with
  | none => exact post_ret fun _ idle h => (nomatch h)
  | some nodes =>
    cases repDeserializeFromByte (errPsKeys.map Prod.fst) with
    | none => exact post_ret fun _ idle h => (nomatch h)
    | some errNodes =>
      refine post_seq ((scanOrEmpty_spaces w₂).mono fun tr₃ spaces w₃ hspaces => ?_)
      by_cases hname : space.fullName ∈
          (deserializeFromByteList json (spaces.map Prod.snd)).map Prod.fst
      · simp only [if_pos hname]
        exact post_ret fun _ idle h => (nomatch h)
      · -- the recorded value is in the scan, so its name would have been found
        intro tr₄ r w₄ hrun hscan
        refine absurd ?_ hname
        rw [hspaces (hscan.mono fun x hx => by simp [hx]), mem_keys_deserializeFromByteList]
        obtain ⟨key, val, hval, hpre, hnames⟩ := hrec
        refine ⟨val, List.mem_map.mpr ⟨(key, val), mem_scanEtcd.mpr ⟨hval, hpre⟩, rfl⟩, ?_⟩
        obtain ⟨hdb, hsp⟩ := Prod.mk.inj hnames
        rw [InnerSpace.fullName, InnerSpace.fullName, hdb, hsp]

theorem createLocked_recorded (json : SpaceJson) (space : InnerSpace) (w : World psNet)
    (hrec : Recorded json w.etcd (space.dbName, space.spaceName)) :
    Post (master psNet) t (createLocked json space) w (fun tr _ w' =>
      SpacesScanned tr → w'.net = w.net) := by
  refine post_perform fun c => ?_
  rcases ((master psNet).exec t w (.get ddlDisabledKey) c).1 with e | _ | val
  · exact post_ret fun _ => rfl
  · refine post_seq (((validateName_recorded json space w hrec).and
      (post_read (uses_validateName json space) w)).mono ?_)
    rintro tr r w₁ ⟨hno, rfl⟩
    rcases r with _ | msg | idle
    · exact post_ret fun _ => rfl
    · exact post_ret fun _ => rfl
    · intro tr' ans w' _ hscan
      exact absurd rfl (hno (hscan.mono fun x hx => by simp [hx]) idle)
  · exact post_ret fun _ => rfl

/-- **A name that is recorded is refused before any node is called**, if the scan of the
spaces did not fail. -/
theorem spared_of_scanned (json : SpaceJson) (api : ApiSpace) (w : World psNet)
    (hrec : Recorded json w.etcd (api.dbName, api.spaceName)) :
    Post (master psNet) t (createSpace json (.ok api)) w (fun tr _ w' =>
      SpacesScanned tr → w'.net = w.net) := by
  unfold createSpace
  simp only
  cases checkApiSpace api with
  | none => exact post_ret fun _ => rfl
  | some msg =>
    by_cases hmsg : msg ≠ ""
    · simp only [if_pos hmsg]
      exact post_ret fun _ => rfl
    simp only [if_neg hmsg]
    refine post_perform fun c => ?_
    cases c with
    | some e => exact post_ret fun _ => rfl
    | none =>
      have htry : Post (master psNet) t (createTry json (apiSpaceToInnerSpace json api)) w
          (fun tr _ w' => SpacesScanned tr → w'.net = w.net) := by
        refine post_seq ((post_lock (uses_tryLock 20) w).mono ?_)
        rintro tr locked w₁ ⟨hetcd, hnet⟩
        cases locked with
        | false => exact post_ret fun _ => hnet
        | true =>
          have hrec₁ : Recorded json w₁.etcd (api.dbName, api.spaceName) := by
            rw [hetcd]
            exact hrec
          refine (createLocked_recorded json _ w₁ hrec₁).mono fun tr' ans w' h hscan => ?_
          rw [h (hscan.mono fun x hx => by simp [hx]), hnet]
      refine post_seq (htry.mono fun tr ans w₁ h => post_perform fun c => post_ret fun hscan => ?_)
      exact (exec_lockOp (t := t) w₁ .unlock c trivial).2.trans
        (h (hscan.mono fun x hx => by simp [hx]))

/-! ### Histories -/

structure Served where
  req : Except String ApiSpace
  before : World psNet
  trace : Trace Op Res
  answer : Answer
  after : World psNet

/-- The states that a cluster reaches, with the creates on the way.  Requests are served
one after the other; outside of them nodes come and go, sessions expire and an operator
tidies up, all without touching the spaces. -/
inductive History (json : SpaceJson) : List Served → World psNet → Prop
  | start : History json [] { net := fun _ => none }
  | create {l : List Served} {w w' : World psNet} {t : Nat} {req : Except String ApiSpace}
      {tr : Trace Op Res} {ans : Answer} (h : History json l w)
      (hrun : Runs (master psNet) t (createSpace json req) w tr ans w') :
      History json (⟨req, w, tr, ans, w'⟩ :: l) w'
  | delete {l : List Served} {w w' : World psNet} {t : Nat}
      {req : Except String DeleteSpaceRequest} {tr : Trace Op Res} {ans : Answer}
      (h : History json l w) (hrun : Runs (master psNet) t (deleteSpace json req) w tr ans w') :
      History json l w'
  | register {l : List Served} {w w' : World psNet} {t : Nat}
      {req : Except String RegisterRequest} {tr : Trace Op Res} {ans : RegisterAnswer}
      (h : History json l w) (hrun : Runs (master psNet) t (register json req) w tr ans w') :
      History json l w'
  | outside {l : List Served} {w : World psNet} {etcd : Std.TreeMap String String}
      {lock : Option Nat} (h : History json l w) (he : Agree spacesMataPrefix w.etcd etcd) :
      History json l { w with etcd := etcd, lock := lock }

/-- No scan of the spaces failed, or the names of the request are not recorded. -/
def Served.Safe (json : SpaceJson) (s : Served) : Prop :=
  SpacesScanned s.trace ∨
    ∀ api, s.req = .ok api → ¬ Recorded json s.before.etcd (api.dbName, api.spaceName)

theorem spared_of_safe {json : SpaceJson} {s : Served}
    (hrun : Runs (master psNet) t (createSpace json s.req) s.before s.trace s.answer s.after)
    (hsafe : s.Safe json) : Spared json s.before s.after := by
  obtain ⟨req, before, trace, answer, after⟩ := s
  cases req with
  | error e =>
    have hsame : Post (master psNet) t (createSpace json (.error e)) before
        (fun _ _ w' => w' = before) := post_ret rfl
    cases hsame trace answer after hrun
    exact spared_refl json _
  | ok api =>
    by_cases hrec : Recorded json before.etcd (api.dbName, api.spaceName)
    · rcases hsafe with hscan | hfree
      · have hnet := spared_of_scanned json api before hrec trace answer after hrun hscan
        exact fun addr names _ hheld => (congrFun hnet addr).trans hheld
      · exact absurd hrec (hfree api rfl)
    · exact spared_of_not_recorded json api before hrec trace answer after hrun

/-- **A failed create destroys nothing**, in every history, if no scan of the spaces failed
in it while its names were recorded. -/
theorem failed_create_spares {json : SpaceJson} {l : List Served} {w : World psNet}
    (h : History json l w) :
    ∀ s ∈ l, s.Safe json → s.answer.code ≠ 0 → Spared json s.before s.after := by
  induction h with
  | start => exact fun s hs => (nomatch hs)
  | create h hrun ih =>
    intro s hs hsafe hcode
    rcases List.mem_cons.mp hs with rfl | hs
    · exact spared_of_safe hrun hsafe
    · exact ih s hs hsafe hcode
  | delete h hrun ih => exact ih
  | register h hrun ih => exact ih
  | outside h he ih => exact ih

/-! ### A create that loses its scan -/

def oneNode : World psNet where
  etcd := startedEtcd.insert (getPsRegisterKey "10.0.0.1" 8081 1) ""
  net := fun _ => none

/-- No call fails, except the scan of the spaces if `lost`. -/
def scanPick (lost : Bool) : (o : Op) → Choice psNet o
  | .scan pre => if lost && pre == spacesMataPrefix then some "request timed out" else none
  | o => smooth psNet sampleTime {} o

def createSample (lost : Bool) (api : ApiSpace) (w : World psNet) : Served :=
  let run := runWith (master psNet) 0 (fun _ => scanPick lost) (createSpace goJson (.ok api)) 0 w
  ⟨.ok api, w, run.1, run.2.1, run.2.2⟩

theorem runs_createSample (lost : Bool) (api : ApiSpace) (w : World psNet) :
    Runs (master psNet) 0 (createSpace goJson (createSample lost api w).req)
      (createSample lost api w).before (createSample lost api w).trace
      (createSample lost api w).answer (createSample lost api w).after :=
  runs_runWith (M := master psNet) (fun _ => scanPick lost) (createSpace goJson (.ok api)) 0 w

def withSpace : World psNet := (createSample false sampleApi oneNode).after

theorem history_again (lost : Bool) (api : ApiSpace) :
    History goJson [createSample lost api withSpace, createSample false sampleApi oneNode]
      (createSample lost api withSpace).after := by
  have hempty : Agree spacesMataPrefix ∅ oneNode.etcd := by
    unfold oneNode
    rw [startedEtcd_eq]
    exact ((agree_insert (by decide)).trans (agree_insert (by decide))).trans
      (agree_insert (by decide +kernel))
  have hnode : History goJson [] oneNode :=
    @History.outside goJson [] _ _ none History.start hempty
  have hspace : History goJson [createSample false sampleApi oneNode] withSpace :=
    History.create hnode (runs_createSample false sampleApi oneNode)
  exact History.create hspace (runs_createSample lost api withSpace)

theorem keys_withSpace : (scanEtcd withSpace.etcd spacesMataPrefix).map Prod.fst
    = [getSpaceEtcdKey "database" "images"] := by decide +kernel

theorem stored_withSpace : ∃ sp : InnerSpace, sp.dbName = "database" ∧ sp.spaceName = "images" ∧
    withSpace.etcd[getSpaceEtcdKey "database" "images"]? = some (goJson.marshal sp) := by
  have hcode : (createSample false sampleApi oneNode).answer.code = 0 := by decide +kernel
  obtain ⟨sp, hdb, hsp, hstored, -⟩ := (createSpace_spec goJson sampleApi oneNode _ _ _
    (runs_createSample false sampleApi oneNode)).1 hcode
  refine ⟨sp, hdb, hsp, ?_⟩
  rw [hdb, hsp] at hstored
  unfold withSpace
  exact hstored

theorem recorded_withSpace_iff (names : Names) :
    Recorded goJson withSpace.etcd names ↔ names = ("database", "images") := by
  obtain ⟨sp, hdb, hsp, hstored⟩ := stored_withSpace
  have hnames : ((goJson.unmarshal (goJson.marshal sp)).dbName,
      (goJson.unmarshal (goJson.marshal sp)).spaceName) = ("database", "images") := by
    rw [unmarshal_marshal, hdb, hsp]
  constructor
  · rintro ⟨key, val, hval, hpre, rfl⟩
    have hkey : key ∈ (scanEtcd withSpace.etcd spacesMataPrefix).map Prod.fst :=
      List.mem_map.mpr ⟨(key, val), mem_scanEtcd.mpr ⟨hval, hpre⟩, rfl⟩
    rw [keys_withSpace, List.mem_singleton] at hkey
    rw [hkey, hstored, Option.some.injEq] at hval
    rw [← hval]
    exact hnames
  · rintro rfl
    exact ⟨_, _, hstored, startsWith_getSpaceEtcdKey _ _, hnames⟩

theorem held_withSpace : withSpace.net ("10.0.0.1", 8081) = some ("database", "images") := by
  decide +kernel

def deleteAnswered (db sp : String) (code : Int) : (Σ o, Res o) → Bool
  | ⟨.post task, r⟩ => task.body = .psDelete db sp ∧ (Reply.status r).code = code
  | _ => false

/-- A create of another name finds the node idle, since the scan fails, and is refused by it;
the roll-back reaches the node, which keeps its space. -/
theorem failed_create_spares_other :
    (createSample true moviesApi withSpace).answer.code = 100 ∧
      (createSample true moviesApi withSpace).trace.any (deleteAnswered "database" "movies" 201)
        = true ∧
      (createSample true moviesApi withSpace).after.net ("10.0.0.1", 8081)
        = some ("database", "images") := by
  have hrun : (createSample true moviesApi withSpace).answer.code = 100 ∧
      (createSample true moviesApi withSpace).trace.any (deleteAnswered "database" "movies" 201)
        = true := by decide +kernel
  have hfree : (createSample true moviesApi withSpace).Safe goJson := by
    refine Or.inr fun api hapi hrec => ?_
    cases hapi
    exact absurd ((recorded_withSpace_iff _).mp hrec) (by decide)
  have hspared := failed_create_spares (history_again true moviesApi) _ List.mem_cons_self hfree
    (by rw [hrun.1]; decide)
  exact ⟨hrun.1, hrun.2, hspared _ _ ((recorded_withSpace_iff _).mpr rfl) held_withSpace⟩

/-- **If the scan of the spaces fails, a second create destroys the space**: the node is
taken for idle, refuses the create, and is told to delete the space by its name. -/
theorem createSpace_destroys_recorded :
    History goJson [createSample true sampleApi withSpace, createSample false sampleApi oneNode]
        (createSample true sampleApi withSpace).after ∧
      (createSample true sampleApi withSpace).answer.code = 100 ∧
      Recorded goJson (createSample true sampleApi withSpace).before.etcd ("database", "images") ∧
      (createSample true sampleApi withSpace).before.net ("10.0.0.1", 8081)
        = some ("database", "images") ∧
      (createSample true sampleApi withSpace).after.net ("10.0.0.1", 8081) = none ∧
      ¬ Spared goJson (createSample true sampleApi withSpace).before
        (createSample true sampleApi withSpace).after := by
  have hrun : (createSample true sampleApi withSpace).answer.code = 100 ∧
      (createSample true sampleApi withSpace).after.net ("10.0.0.1", 8081) = none := by
    decide +kernel
  have hrec := (recorded_withSpace_iff ("database", "images")).mpr rfl
  refine ⟨history_again true sampleApi, hrun.1, hrec, held_withSpace, hrun.2, fun hspared => ?_⟩
  have hheld := hspared ("10.0.0.1", 8081) ("database", "images") hrec held_withSpace
  rw [hrun.2] at hheld
  cases hheld

end SimSearch.Master
