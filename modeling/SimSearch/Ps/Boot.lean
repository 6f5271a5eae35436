import SimSearch.Ps.Durability

/-!
# Handlers that run while `main` is still starting

`main` of `service/ps_main.cc` starts the RPC server before it looks for a space, and it opens the
engine, creates the block and starts raft without `raft_mgr.mtx()`.  So `CreateSpace` and
`DeleteSpace` can come in between any two of its steps.  `Boot` is a process in this window, with
the step that `main` takes next.

* `boot_alone`: without handlers the steps do what the one event `restart` of `Ps/Node.lean` does.
* `boot_keeps`: with any handlers in between, the directory of a live space is kept and `main` ends
  in a state from which all further runs keep it, if no `CreateSpace` succeeds before raft is
  started.
* `boot_race`: a `CreateSpace` that succeeds before `main` has created its block is lost.
-/

namespace SimSearch.Ps

open SimSearch.Lib

variable {C : Type}

/-! ### The steps of `main` -/

/-- What `main` does next, once the RPC server runs. -/
inductive Phase
  /-- `if (mata.HasSpace())` -/
  | serving
  /-- `InitEngine` and `Load` -/
  | loading
  /-- `raft_mgr.CreateBlock()` -/
  | creating
  /-- `local_store.GetRaftParams(..)` -/
  | fetching
  /-- `raft_mgr.StartRaftServer(..)` -/
  | starting (params : Block)
  /-- `LaunchRegister`, which answers 0 in any case -/
  | registering
  /-- `WaitBrpcStop` -/
  | up

structure Boot (C : Type) where
  phase : Phase
  world : World C

def Boot.setProc (b : Boot C) (phase : Phase) (p : Proc) (disk : Disk C) : Boot C :=
  { phase := phase, world := { b.world with proc := some p, disk := disk } }

/-- `main` returns, and the destructor of `RaftManager` runs. -/
def Boot.exit (b : Boot C) (p : Proc) (left : Option C) (disk : Disk C) : Boot C :=
  { b with world := { b.world with proc := none, disk := deleteBlock p.block left disk } }

/-- `RaftManager::StartRaftServer`; without a block it returns an error, which is only logged. -/
def startRaftServer (fresh : C) (params : Block) (out : StartOutcome) (p : Proc) (disk : Disk C) :
    Proc × Disk C :=
  match p.block with
  | none => (p, disk)
  | some _ =>
    ({ p with block := some { params with started := decide (out = .started) } },
      { disk with raftDirs := startDirs fresh params.rootPath out disk.raftDirs })

def Boot.mainStep (conf : Conf) (fresh : C) (out : RestartOutcome C) (b : Boot C) : Boot C :=
  match b.world.proc with
  | none => b
  | some p =>
    match b.phase with
    | .serving => { b with phase := if p.mata.hasSpace then .loading else .registering }
    | .loading =>
      if out.engineLoaded then { b with phase := .creating } else b.exit p out.left b.world.disk
    | .creating =>
      b.setProc .fetching { p with block := some {} } (deleteBlock p.block out.left b.world.disk)
    | .fetching => { b with phase := .starting (getRaftParams conf p.mata) }
    | .starting params =>
      let (p, disk) := startRaftServer fresh params out.start p b.world.disk
      b.setProc .registering p disk
    | .registering => { b with phase := .up }
    | .up => b

inductive Boot.Event (C : Type)
  | main (out : RestartOutcome C)
  | createSpace (req : CreateSpaceRequest) (out : CreateOutcome C)
  | deleteSpace (dbName spaceName : String) (out : DeleteOutcome C)
  | raftWrite (content : C)
  | crash

/-- The handlers hold `raft_mgr.mtx()`, so they are one event each. -/
def Boot.step (conf : Conf) (fresh : C) (b : Boot C) : Boot.Event C → Boot C
  | .main out => b.mainStep conf fresh out
  | .createSpace req out =>
    { b with world := Ps.step conf fresh b.world (.createSpace req out) }
  | .deleteSpace dbName spaceName out =>
    { b with world := Ps.step conf fresh b.world (.deleteSpace dbName spaceName out) }
  | .raftWrite content => { b with world := Ps.step conf fresh b.world (.raftWrite content) }
  | .crash => { b with world := { b.world with proc := none } }

def Boot.init (m : Mata) (disk : Disk C) (live : Option (String × C)) : Boot C :=
  { phase := .serving, world := { proc := some { mata := m }, disk := disk, live := live } }

/-! ### Without handlers -/

/-- **The steps of `main` alone do what a restart does.** -/
theorem boot_alone (conf : Conf) (fresh : C) (out : RestartOutcome C) (disk disk' : Disk C)
    (m : Mata) (live : Option (String × C)) (hserver : out.serverStarted = true)
    (hload : createOrLoadNodeMata conf out disk = some (m, disk')) :
    let b := (Boot.mainStep conf fresh out)^[6] (Boot.init m disk' live)
    (b.world.proc, b.world.disk) = main conf fresh out disk ∧ b.world.live = live ∧
      (b.world.proc ≠ none → b.phase = .up) := by
  simp only [main, hload, hserver, Bool.true_eq_false, if_false, createAndStart]
  cases hs : m.hasSpace with
  | true =>
    cases he : out.engineLoaded with
    | true =>
      simp [Boot.init, Boot.mainStep, Boot.setProc, startRaftServer, deleteBlock, hs, he]
    | false => simp [Boot.init, Boot.mainStep, Boot.exit, deleteBlock, hs, he]
  | false => simp [Boot.init, Boot.mainStep, hs]

/-! ### With handlers -/

def Phase.early : Phase → Bool
  | .registering | .up => false
  | _ => true

/-- The block of a process that holds a live space with this root directory. -/
def Phase.Blocked (root : String) : Phase → Option Block → Prop
  | .serving, block | .loading, block | .creating, block => block = none
  | .fetching, block => block = some {}
  | .starting params, block => params.rootPath = root ∧ block = some {}
  | .registering, block | .up, block => ∃ b, block = some b ∧ b.rootPath = root

/-- The invariant of a start: as `Kept`, where the block is the one of the phase. -/
structure BootKept (conf : Conf) (b : Boot C) : Prop where
  named : ∀ p, b.world.proc = some p → b.world.disk.nodeInfo.isSome = true
  dir : Durable b.world
  files : ∀ root c, b.world.live = some (root, c) → Restorable conf root b.world.disk
  holds : ∀ root c p, b.world.live = some (root, c) → b.world.proc = some p →
    p.mata.hasSpace = true ∧ getRaftRoot conf p.mata = root ∧ b.phase.Blocked root p.block

theorem bootKept_of_not_live {conf : Conf} {b : Boot C} (hlive : b.world.live = none)
    (hnamed : ∀ p, b.world.proc = some p → b.world.disk.nodeInfo.isSome = true) :
    BootKept conf b := by
  refine ⟨hnamed, fun root c h => ?_, fun root c h => ?_, fun root c p h => ?_⟩
  all_goals rw [hlive] at h; cases h

/-- Once raft is started, the invariant is the one of the runs. -/
theorem bootKept_iff_kept {conf : Conf} {b : Boot C} (h : b.phase.early = false) :
    BootKept conf b ↔ Kept conf b.world := by
  have hblocked : ∀ root block, b.phase.Blocked root block
      ↔ ∃ x, block = some x ∧ x.rootPath = root := by
    intro root block
    cases hph : b.phase with
    | registering | up => rfl
    | _ => rw [hph] at h; cases h
  constructor
  · intro hk
    refine ⟨hk.named, hk.dir, hk.files, fun root c p hl hp => ?_⟩
    obtain ⟨hhas, hroot, hblock⟩ := hk.holds root c p hl hp
    exact ⟨hhas, hroot, (hblocked root _).mp hblock⟩
  · intro hk
    refine ⟨hk.named, hk.dir, hk.files, fun root c p hl hp => ?_⟩
    obtain ⟨hhas, hroot, hblock⟩ := hk.holds root c p hl hp
    exact ⟨hhas, hroot, (hblocked root _).mpr hblock⟩

theorem BootKept.ended {conf : Conf} {b : Boot C} (h : BootKept conf b) {phase : Phase} :
    BootKept conf { phase := phase, world := { b.world with proc := none } } :=
  ⟨fun _ hp => (nomatch hp), h.dir, h.files, fun _ _ _ _ hp => (nomatch hp)⟩

theorem BootKept.not_live {conf : Conf} {b : Boot C} (h : BootKept conf b) {p : Proc}
    (hp : b.world.proc = some p) (hs : p.mata.hasSpace = false) : b.world.live = none := by
  cases hl : b.world.live with
  | none => rfl
  | some l =>
    have hflag := (h.holds l.1 l.2 p hl hp).1
    rw [hs] at hflag
    cases hflag

theorem BootKept.rephase {conf : Conf} {b : Boot C} (h : BootKept conf b) {phase : Phase}
    (hblock : ∀ root c p, b.world.live = some (root, c) → b.world.proc = some p →
      b.phase.Blocked root p.block → phase.Blocked root p.block) :
    BootKept conf { b with phase := phase } := by
  refine ⟨h.named, h.dir, h.files, fun root c p hl hp => ?_⟩
  obtain ⟨hhas, hroot, hb⟩ := h.holds root c p hl hp
  exact ⟨hhas, hroot, hblock root c p hl hp hb⟩

/-- A process that ends without a block leaves the disk alone. -/
theorem BootKept.exit {conf : Conf} {b : Boot C} (h : BootKept conf b) {p : Proc}
    (left : Option C)
    (hnone : ∀ root c, b.world.live = some (root, c) → p.block = none) :
    BootKept conf (b.exit p left b.world.disk) := by
  cases hl : b.world.live with
  | none => exact bootKept_of_not_live hl fun _ hq => (nomatch hq)
  | some l =>
    have hexit : b.exit p left b.world.disk
        = { phase := b.phase, world := { b.world with proc := none } } := by
      unfold Boot.exit
      rw [hnone l.1 l.2 hl]
      rfl
    rw [hexit]
    exact h.ended

theorem startRaftServer_nodeInfo (fresh : C) (params : Block) (out : StartOutcome) (p : Proc)
    (disk : Disk C) : (startRaftServer fresh params out p disk).2.nodeInfo = disk.nodeInfo := by
  unfold startRaftServer
  cases p.block <;> rfl

/-- `CreateBlock` finds no block to remove, because the process is new. -/
theorem bootKept_creating {conf : Conf} {b : Boot C} (h : BootKept conf b) {p : Proc}
    (hp : b.world.proc = some p) (hph : b.phase = .creating) (left : Option C) :
    BootKept conf (b.setProc .fetching { p with block := some {} }
      (deleteBlock p.block left b.world.disk)) := by
  cases hl : b.world.live with
  | none =>
    refine bootKept_of_not_live hl fun q _ => ?_
    show (deleteBlock p.block left b.world.disk).nodeInfo.isSome = true
    rw [deleteBlock_nodeInfo]
    exact h.named p hp
  | some l =>
    obtain ⟨-, -, hb⟩ := h.holds l.1 l.2 p hl hp
    rw [hph] at hb
    have hnone : p.block = none := hb
    have hdisk : deleteBlock p.block left b.world.disk = b.world.disk := by
      rw [hnone]
      rfl
    rw [hdisk]
    refine ⟨fun q _ => h.named p hp, h.dir, h.files, fun root c q hlive hq => ?_⟩
    cases hq
    obtain ⟨hhas, hroot, -⟩ := h.holds root c p hlive hp
    exact ⟨hhas, hroot, rfl⟩

/-- `StartRaftServer` finds the directory and leaves it as it is. -/
theorem bootKept_starting {conf : Conf} {fresh : C} {b : Boot C} (h : BootKept conf b) {p : Proc}
    (hp : b.world.proc = some p) {params : Block} (hph : b.phase = .starting params)
    (out : StartOutcome) :
    BootKept conf (b.setProc .registering (startRaftServer fresh params out p b.world.disk).1
      (startRaftServer fresh params out p b.world.disk).2) := by
  cases hl : b.world.live with
  | none =>
    refine bootKept_of_not_live hl fun q _ => ?_
    show (startRaftServer fresh params out p b.world.disk).2.nodeInfo.isSome = true
    rw [startRaftServer_nodeInfo]
    exact h.named p hp
  | some l =>
    obtain ⟨-, -, hb⟩ := h.holds l.1 l.2 p hl hp
    rw [hph] at hb
    have hstart : startRaftServer fresh params out p b.world.disk
        = ({ p with block := some { params with started := decide (out = .started) } },
            { b.world.disk with
              raftDirs := startDirs fresh params.rootPath out b.world.disk.raftDirs }) := by
      rw [startRaftServer, hb.2]
    simp only [hstart]
    refine ⟨fun q _ => h.named p hp, ?_, h.files, ?_⟩
    · intro root c hlive
      have hroot : params.rootPath = root := by
        have hb' := (h.holds root c p hlive hp).2.2
        rw [hph] at hb'
        exact hb'.1
      show (startDirs fresh params.rootPath out b.world.disk.raftDirs)[root]? = some c
      rw [hroot]
      exact startDirs_kept fresh root out _ (h.dir root c hlive)
    · intro root c q hlive hq
      cases hq
      obtain ⟨hhas, hroot, hb'⟩ := h.holds root c p hlive hp
      rw [hph] at hb'
      exact ⟨hhas, hroot, _, rfl, hb'.1⟩

/-- **A step of `main` keeps the invariant.** -/
theorem bootKept_mainStep {conf : Conf} {fresh : C} {b : Boot C} (h : BootKept conf b)
    (out : RestartOutcome C) :
    BootKept conf (b.mainStep conf fresh out) := by
  unfold Boot.mainStep
  cases hp : b.world.proc with
  | none => exact h
  | some p =>
    cases hph : b.phase with
    | serving =>
      simp only
      cases hs : p.mata.hasSpace with
      | true => exact h.rephase fun root c q _ _ hb => by rw [hph] at hb; exact hb
      | false => exact bootKept_of_not_live (h.not_live hp hs) h.named
    | loading =>
      cases he : out.engineLoaded with
      | true =>
        simp only [if_true]
        exact h.rephase fun root c q _ _ hb => by rw [hph] at hb; exact hb
      | false =>
        simp only [Bool.false_eq_true, if_false]
        refine h.exit out.left fun root c hl => ?_
        have hb := (h.holds root c p hl hp).2.2
        rw [hph] at hb
        exact hb
    | creating => exact bootKept_creating h hp hph out.left
    | fetching =>
      refine h.rephase fun root c q hl hq hb => ?_
      rw [hp, Option.some.injEq] at hq
      subst hq
      rw [hph] at hb
      refine ⟨?_, hb⟩
      rw [getRaftParams_rootPath]
      exact (h.holds root c p hl hp).2.1
    | starting params => exact bootKept_starting h hp hph out.start
    | registering => exact h.rephase fun root c q _ _ hb => by rw [hph] at hb; exact hb
    | up => exact h

/-! ### The handlers -/

theorem bootKept_late {conf : Conf} {phase : Phase} {w : World C} (hph : phase.early = false)
    (hk : Kept conf w) : BootKept conf { phase := phase, world := w } :=
  (@bootKept_iff_kept C conf { phase := phase, world := w } hph).mpr hk

theorem step_createSpace_refused {conf : Conf} {fresh : C} {w : World C} {p : Proc}
    (hp : w.proc = some p) (hs : p.mata.hasSpace = true) (req : CreateSpaceRequest)
    (out : CreateOutcome C) : Ps.step conf fresh w (.createSpace req out) = w := by
  have heq : createSpace conf fresh req out p w.disk
      = (⟨201, "Space has exist, space_name:" ++ p.mata.spaceReq.space.spaceName⟩, p, w.disk) := by
    rw [createSpace, if_pos hs]
  obtain ⟨proc, disk, live⟩ := w
  subst hp
  simp [Ps.step, heq]

theorem step_deleteSpace_refused {conf : Conf} {fresh : C} {w : World C} {p : Proc}
    (hp : w.proc = some p) {db sp : String}
    (hname : p.mata.spaceReq.space.dbName ≠ db ∨ p.mata.spaceReq.space.spaceName ≠ sp)
    (out : DeleteOutcome C) : Ps.step conf fresh w (.deleteSpace db sp out) = w := by
  obtain ⟨proc, disk, live⟩ := w
  subst hp
  simp only [Ps.step, deleteSpace, if_pos hname]
  rfl

theorem bootKept_createSpace {conf : Conf} {fresh : C} {b : Boot C} (h : BootKept conf b)
    {p : Proc} (hp : b.world.proc = some p) (req : CreateSpaceRequest) (out : CreateOutcome C)
    (hlate : b.phase.early = true → (createSpace conf fresh req out p b.world.disk).1.code ≠ 0) :
    BootKept conf { b with world := Ps.step conf fresh b.world (.createSpace req out) } := by
  cases hph : b.phase.early with
  | false =>
    exact bootKept_late hph (kept_createSpace ((bootKept_iff_kept hph).mp h) hp req out)
  | true =>
    cases hs : p.mata.hasSpace with
    | true =>
      rw [step_createSpace_refused hp hs]
      exact h
    | false =>
      -- it fails, so there is still no live space
      refine bootKept_of_not_live ?_ fun q _ => ?_
      · simp only [Ps.step, hp]
        rw [if_neg (hlate hph)]
        exact h.not_live hp hs
      · simp only [Ps.step, hp]
        rw [createSpace_nodeInfo]
        exact h.named p hp

theorem bootKept_deleteSpace {conf : Conf} {fresh : C} {b : Boot C} (h : BootKept conf b)
    {p : Proc} (hp : b.world.proc = some p) (db sp : String) (out : DeleteOutcome C) :
    BootKept conf { b with world := Ps.step conf fresh b.world (.deleteSpace db sp out) } := by
  by_cases hname : p.mata.spaceReq.space.dbName ≠ db ∨ p.mata.spaceReq.space.spaceName ≠ sp
  · rw [step_deleteSpace_refused hp hname]
    exact h
  · refine bootKept_of_not_live ?_ fun q _ => ?_
    · simp only [Ps.step, hp, deleteSpace, if_neg hname]
      rfl
    · simp only [Ps.step, hp]
      rw [deleteSpace_nodeInfo]
      exact h.named p hp

/-- Before raft is started nothing is written to a live directory. -/
theorem writtenRoot_early {conf : Conf} {b : Boot C} (h : BootKept conf b) {p : Proc}
    (hp : b.world.proc = some p) (hph : b.phase.early = true) {l : String × C}
    (hl : b.world.live = some l) : writtenRoot p b.world.disk = none := by
  have hb := (h.holds l.1 l.2 p hl hp).2.2
  unfold writtenRoot
  cases hphase : b.phase with
  | serving | loading | creating =>
    rw [hphase] at hb
    have hnone : p.block = none := hb
    rw [hnone]
  | fetching =>
    rw [hphase] at hb
    have hnew : p.block = some {} := hb
    rw [hnew]
    rfl
  | starting params =>
    rw [hphase] at hb
    rw [hb.2]
    rfl
  | registering | up =>
    rw [hphase] at hph
    cases hph

theorem bootKept_raftWrite {conf : Conf} {fresh : C} {b : Boot C} (h : BootKept conf b)
    {p : Proc} (hp : b.world.proc = some p) (content : C) :
    BootKept conf { b with world := Ps.step conf fresh b.world (.raftWrite content) } := by
  cases hph : b.phase.early with
  | false => exact bootKept_late hph (kept_raftWrite ((bootKept_iff_kept hph).mp h) hp content)
  | true =>
    cases hl : b.world.live with
    | some l =>
      have hstep : Ps.step conf fresh b.world (.raftWrite content) = b.world := by
        simp only [Ps.step, hp, writtenRoot_early h hp hph hl]
      rw [hstep]
      exact h
    | none =>
      cases hroot : writtenRoot p b.world.disk with
      | none =>
        simp only [Ps.step, hp, hroot]
        exact h
      | some root =>
        refine bootKept_of_not_live ?_ fun q _ => ?_
        · simp only [Ps.step, hp, hroot, hl]
          rfl
        · simp only [Ps.step, hp, hroot]
          exact h.named p hp

/-! ### Every interleaving -/

/-- What must not happen during a start: a `CreateSpace` succeeds before raft is started. -/
def Orderly (conf : Conf) (fresh : C) (b : Boot C) : Boot.Event C → Prop
  | .createSpace req out => b.phase.early = true → ∀ p, b.world.proc = some p →
      (createSpace conf fresh req out p b.world.disk).1.code ≠ 0
  | _ => True

theorem bootKept_step {conf : Conf} {fresh : C} {b : Boot C} (h : BootKept conf b)
    {e : Boot.Event C} (he : Orderly conf fresh b e) : BootKept conf (b.step conf fresh e) := by
  cases hp : b.world.proc with
  | none =>
    cases e with
    | main out => exact bootKept_mainStep h out
    | crash => exact h.ended
    | _ =>
      simp only [Boot.step, Ps.step, hp]
      exact h
  | some p =>
    cases e with
    | main out => exact bootKept_mainStep h out
    | createSpace req out => exact bootKept_createSpace h hp req out fun hph => he hph p hp
    | deleteSpace db sp out => exact bootKept_deleteSpace h hp db sp out
    | raftWrite content => exact bootKept_raftWrite h hp content
    | crash => exact h.ended

theorem bootKept_init {conf : Conf} {out : RestartOutcome C} {w : World C} (hk : Kept conf w)
    {m : Mata} {disk : Disk C} (hload : createOrLoadNodeMata conf out w.disk = some (m, disk)) :
    BootKept conf (Boot.init m disk w.live) := by
  obtain ⟨hinfo, hschema, hdirs, hspace⟩ := createOrLoad_spec hload
  refine ⟨fun _ _ => hinfo, fun root c hl => ?_, fun root c hl => ?_, fun root c p hl hp => ?_⟩
  · show disk.raftDirs[root]? = some c
    rw [hdirs]
    exact hk.dir root c hl
  · obtain ⟨-, req, hreq, hroot⟩ := hk.files root c hl
    exact ⟨hinfo, req, hschema.trans hreq, hroot⟩
  · obtain ⟨hnode, req, hreq, hroot⟩ := hk.files root c hl
    obtain ⟨hhas, hsame⟩ := hspace hnode req hreq
    cases hp
    refine ⟨hhas, ?_, rfl⟩
    rw [getRaftRoot, if_pos hhas, hsame]
    exact hroot

/-- **A start with handlers in between keeps the space.**  From any state that the runs of a PS
keep, while `main` goes through its steps and any handlers come in between, the directory of the
live space has its content at every point, if no `CreateSpace` succeeds before raft is started; and
once raft is started, the state is one that all further runs keep. -/
theorem boot_keeps (conf : Conf) (fresh : C) (w : World C) (hk : Kept conf w)
    (out : RestartOutcome C) (m : Mata) (disk : Disk C)
    (hload : createOrLoadNodeMata conf out w.disk = some (m, disk)) (b : Boot C)
    (h : Reach (Boot.step conf fresh) (Orderly conf fresh) (Boot.init m disk w.live) b) :
    Durable b.world ∧ (b.phase.early = false → Kept conf b.world) := by
  have hinv := h.invariant (BootKept conf) (bootKept_init hk hload)
    fun _ _ hb he => bootKept_step hb he
  exact ⟨hinv.dir, fun hph => (bootKept_iff_kept hph).mp hinv⟩

/-- The first start of a PS, with a space that is created when raft would have been started. -/
def lateCreate : List (Boot.Event Bytes) :=
  [.main {}, .createSpace sampleReq {}, .raftWrite [7], .main {}]

def lateBoot : Boot Bytes :=
  lateCreate.foldl (Boot.step sampleConf []) (Boot.init startedProc.mata startedPs.disk none)

theorem boot_keeps_late :
    lateBoot.world.live = some ("data/raft_data/g0", [7]) ∧ Durable lateBoot.world ∧
      Kept sampleConf lateBoot.world := by
  have hstart : Kept sampleConf ({} : World Bytes) :=
    ⟨fun _ hp => (nomatch hp), fun _ _ hl => (nomatch hl), fun _ _ hl => (nomatch hl),
      fun _ _ _ hl => (nomatch hl)⟩
  have hrun : RunOk (Boot.step sampleConf []) (Orderly sampleConf [])
      (Boot.init startedProc.mata startedPs.disk none) lateCreate := by
    exact ⟨trivial, fun h => (nomatch h), trivial, trivial, trivial⟩
  obtain ⟨hdur, hkept⟩ := boot_keeps sampleConf [] {} hstart {} startedProc.mata startedPs.disk rfl
    lateBoot (reach_of_runOk lateCreate _ Reach.start hrun)
  exact ⟨by decide, hdur, hkept rfl⟩

/-! ### A space that is created too early -/

theorem getElem?_foldl_erase (P : String → Bool) {root : String} (hP : P root = true) :
    ∀ (paths : List String) (dirs : Std.TreeMap String C), root ∈ paths ∨ dirs[root]? = none →
      (paths.foldl (fun m path => if P path then m.erase path else m) dirs)[root]? = none := by
  intro paths
  induction paths with
  | nil =>
    rintro dirs (hmem | hnone)
    · cases hmem
    · exact hnone
  | cons path paths ih =>
    intro dirs h
    refine ih _ ?_
    dsimp only
    by_cases hpath : path = root
    · subst hpath
      rw [if_pos hP]
      exact Or.inr Std.TreeMap.getElem?_erase_self
    · rcases h with hmem | hnone
      · exact Or.inl ((List.mem_cons.mp hmem).resolve_left fun h => hpath h.symm)
      · refine Or.inr ?_
        split
        · rw [Std.TreeMap.getElem?_erase, hnone, ite_self]
        · exact hnone

theorem getElem?_deleteFile {root : String} (hroot : root ≠ "") (dirs : Std.TreeMap String C) :
    (deleteFile root none dirs)[root]? = none := by
  unfold deleteFile
  rw [if_neg hroot]
  refine getElem?_foldl_erase (isUnder root) (by simp [isUnder]) dirs.keys dirs ?_
  by_cases hmem : root ∈ dirs
  · exact Or.inl (Std.TreeMap.mem_keys.mpr hmem)
  · exact Or.inr (Std.TreeMap.getElem?_eq_none hmem)

theorem reqRoot_ne (conf : Conf) (req : CreateSpaceRequest) : reqRoot conf req ≠ "" := by
  intro h
  have hlen := congrArg String.length h
  simp only [reqRoot, String.length_append] at hlen
  have hsep : "/".length = 1 := by decide
  have hnil : "".length = 0 := by decide
  omega

theorem step_createSpace_ok {conf : Conf} {fresh : C} {w : World C} {p : Proc}
    (hp : w.proc = some p) {req : CreateSpaceRequest} {out : CreateOutcome C}
    (hok : (createSpace conf fresh req out p w.disk).1.code = 0) :
    ∃ p', (Ps.step conf fresh w (.createSpace req out)).proc = some p' ∧
      Holds conf (reqRoot conf req) p' ∧
      ∃ c, (Ps.step conf fresh w (.createSpace req out)).live = some (reqRoot conf req, c) := by
  have hs : p.mata.hasSpace = false := by
    cases hs : p.mata.hasSpace with
    | false => rfl
    | true =>
      rw [createSpace, if_pos hs] at hok
      cases hok
  obtain ⟨hholds, -, -⟩ := createSpace_ok conf fresh hs hok
  refine ⟨(createSpace conf fresh req out p w.disk).2.1, ?_, hholds, ?_⟩
  · simp only [Ps.step, hp]
  · simp only [Ps.step, hp]
    rw [if_pos hok, hholds.2.1]
    exact ⟨_, rfl⟩

/-- How many steps `main` takes until its `CreateBlock` is done. -/
def Phase.stepsToBlock : Phase → Nat
  | .serving => 3
  | .loading => 2
  | .creating => 1
  | _ => 0

/-- **A space that is created too early is lost.**  If `CreateSpace` succeeds after the server is
up and before `main` has created its block, then `main` takes the space for one of an earlier run,
and the directory is removed: by the `CreateBlock` of `main`, or, if the engine does not load, by
the destructor. -/
theorem boot_race (conf : Conf) (fresh : C) (b : Boot C) (p : Proc)
    (hp : b.world.proc = some p) (hph : 0 < b.phase.stepsToBlock) (req : CreateSpaceRequest)
    (out : CreateOutcome C) (hok : (createSpace conf fresh req out p b.world.disk).1.code = 0)
    (answers : RestartOutcome C) (hleft : answers.left = none) :
    ¬ Durable ((Boot.mainStep conf fresh answers)^[b.phase.stepsToBlock]
      (b.step conf fresh (.createSpace req out))).world := by
  intro hdur
  obtain ⟨p', hp', ⟨hhas, -, block, hblock, hroot⟩, c, hlive⟩ := step_createSpace_ok hp hok
  have hgone : ∀ disk : Disk C,
      (deleteBlock p'.block none disk).raftDirs[reqRoot conf req]? ≠ some c := by
    intro disk hsome
    rw [hblock] at hsome
    have hnone := getElem?_deleteFile (reqRoot_ne conf req) disk.raftDirs
    rw [← hroot] at hnone hsome
    exact absurd (hnone.symm.trans hsome) (by simp)
  have hdir := hdur (reqRoot conf req) c
  cases hphase : b.phase with
  | serving =>
    cases hload : answers.engineLoaded <;>
      simp [hphase, Phase.stepsToBlock, Boot.step, Boot.mainStep, Boot.setProc, Boot.exit, hp',
        hhas, hload, hleft, hlive, hgone] at hdir
  | loading =>
    cases hload : answers.engineLoaded <;>
      simp [hphase, Phase.stepsToBlock, Boot.step, Boot.mainStep, Boot.setProc, Boot.exit, hp',
        hload, hleft, hlive, hgone] at hdir
  | creating =>
    simp [hphase, Phase.stepsToBlock, Boot.step, Boot.mainStep, Boot.setProc, hp', hleft, hlive,
      hgone] at hdir
  | _ => simp [hphase, Phase.stepsToBlock] at hph

/-- The space is created as soon as the server of a new node is up. -/
theorem boot_race_first :
    ¬ Durable ((Boot.mainStep sampleConf [] {})^[3] ((Boot.init startedProc.mata startedPs.disk
      none).step sampleConf [] (.createSpace sampleReq {}))).world :=
  boot_race sampleConf [] (Boot.init startedProc.mata startedPs.disk none) startedProc rfl
    (by decide) sampleReq {} (by decide) {} rfl

end SimSearch.Ps
