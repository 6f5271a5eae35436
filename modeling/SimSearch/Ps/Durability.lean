import SimSearch.Ps.CreateAtomic

/-!
# Raft directories across restarts

The root directory of a space that was created and not deleted should outlive the
process.  `RaftManager` is a singleton whose destructor calls `DeleteBlock`, so a
graceful exit removes the directory of the block it still holds.

`Kept` is what a run without such an exit keeps: the directory has the content raft
last gave it, the files that bring the space back are there, and a running process
has the space and its block.  Each operation has a lemma that says what it does to
the disk, `kept_step` puts them together, and `raft_dir_durable` is the statement
over runs.
-/

namespace SimSearch.Ps

open SimSearch.Lib

variable {C : Type}

/-- **The directory of the live space exists with its content.** -/
def Durable (w : World C) : Prop :=
  ∀ root c, w.live = some (root, c) → w.disk.raftDirs[root]? = some c

def stopsWithoutBlock (w : World C) : Event C → Prop
  | .stop _ => ∀ p, w.proc = some p → p.block = none
  | _ => True

def reqRoot (conf : Conf) (req : CreateSpaceRequest) : String :=
  conf.raftRootDir ++ "/" ++ req.curPartition.groupName

/-- The process has the space with this root directory, and a block on it. -/
def Holds (conf : Conf) (root : String) (p : Proc) : Prop :=
  p.mata.hasSpace = true ∧ getRaftRoot conf p.mata = root ∧
    ∃ b, p.block = some b ∧ b.rootPath = root

/-- The files from which a restart brings the space back. -/
def Restorable (conf : Conf) (root : String) (disk : Disk C) : Prop :=
  disk.nodeInfo.isSome = true ∧ ∃ req, disk.spaceSchema = some req ∧ reqRoot conf req = root

structure Kept (conf : Conf) (w : World C) : Prop where
  named : ∀ p, w.proc = some p → w.disk.nodeInfo.isSome = true
  dir : Durable w
  files : ∀ root c, w.live = some (root, c) → Restorable conf root w.disk
  holds : ∀ root c p, w.live = some (root, c) → w.proc = some p → Holds conf root p

/-! ### What the operations do to the disk -/

theorem deleteBlock_nodeInfo (b : Option Block) (left : Option C) (disk : Disk C) :
    (deleteBlock b left disk).nodeInfo = disk.nodeInfo := by
  cases b <;> rfl

theorem createAndStart_nodeInfo (fresh : C) (params : Block) (b : Option Block) (left : Option C)
    (out : StartOutcome) (disk : Disk C) :
    (createAndStart fresh params b left out disk).2.2.nodeInfo = disk.nodeInfo := by
  simp only [createAndStart]
  exact deleteBlock_nodeInfo b left disk

theorem createSpace_nodeInfo (conf : Conf) (fresh : C) (req : CreateSpaceRequest)
    (out : CreateOutcome C) (p : Proc) (disk : Disk C) :
    (createSpace conf fresh req out p disk).2.2.nodeInfo = disk.nodeInfo := by
  unfold createSpace
  by_cases hs : p.mata.hasSpace = true
  · rw [if_pos hs]
  rw [if_neg hs]
  by_cases hcode : out.engineCode ≠ 0
  · simp only [if_pos hcode]
  simp only [if_neg hcode]
  have hstart := createAndStart_nodeInfo fresh (getRaftParams conf (p.mata.setCreateSapceReq req))
    p.block out.left out.start disk
  split_ifs
  · exact hstart
  · exact hstart
  · exact hstart

theorem deleteSpace_nodeInfo (db sp : String) (out : DeleteOutcome C) (p : Proc) (disk : Disk C) :
    (deleteSpace db sp out p disk).2.2.nodeInfo = disk.nodeInfo := by
  unfold deleteSpace
  by_cases h : p.mata.spaceReq.space.dbName ≠ db ∨ p.mata.spaceReq.space.spaceName ≠ sp
  · rw [if_pos h]
  · rw [if_neg h]
    exact deleteBlock_nodeInfo _ _ _

theorem startDirs_started (fresh : C) (root : String) (dirs : Std.TreeMap String C) :
    ((startDirs fresh root .started dirs)[root]?).isSome = true := by
  unfold startDirs
  by_cases h : dirs.contains root
  · rw [if_pos (Or.inr h), ← Std.TreeMap.contains_eq_isSome_getElem?]
    exact h
  · rw [if_neg (by simp [h])]
    simp

theorem startDirs_kept (fresh : C) (root : String) (out : StartOutcome)
    (dirs : Std.TreeMap String C) {c : C} (h : dirs[root]? = some c) :
    (startDirs fresh root out dirs)[root]? = some c := by
  have hc : dirs.contains root = true := by
    rw [Std.TreeMap.contains_eq_isSome_getElem?, h]
    rfl
  unfold startDirs
  rw [if_pos (Or.inr hc)]
  exact h

theorem createSpace_eq (conf : Conf) (fresh : C) {req : CreateSpaceRequest}
    {out : CreateOutcome C} {p : Proc} {disk : Disk C} (hs : p.mata.hasSpace = false)
    (hdb : req.space.dbName ≠ "") (hcode : out.engineCode = 0) (hstart : out.start = .started)
    (hdump : out.dump = .written) :
    createSpace conf fresh req out p disk
      = (⟨0, ""⟩,
          { mata := p.mata.setCreateSapceReq req,
            block := some { getRaftParams conf (p.mata.setCreateSapceReq req) with
                            started := true } },
          { nodeInfo := (deleteBlock p.block out.left disk).nodeInfo,
            spaceSchema := some req,
            raftDirs := startDirs fresh (getRaftParams conf (p.mata.setCreateSapceReq req)).rootPath
              .started (deleteBlock p.block out.left disk).raftDirs }) := by
  have hreq : (p.mata.setCreateSapceReq req).spaceReq = req := rfl
  simp [createSpace, hs, hcode, hstart, hdump, createAndStart, dumpCreateSpaceReq, hreq, hdb]

theorem getRaftRoot_set (conf : Conf) (m : Mata) {req : CreateSpaceRequest}
    (hdb : req.space.dbName ≠ "") :
    getRaftRoot conf (m.setCreateSapceReq req) = reqRoot conf req := by
  simp [getRaftRoot, reqRoot, Mata.setCreateSapceReq, hdb]

theorem getRaftParams_rootPath (conf : Conf) (m : Mata) :
    (getRaftParams conf m).rootPath = getRaftRoot conf m := by
  unfold getRaftParams
  by_cases h : m.hasSpace = true
  · rw [if_pos h]
  · rw [if_neg h, getRaftRoot, if_neg h]

theorem createSpace_ok (conf : Conf) (fresh : C) {req : CreateSpaceRequest}
    {out : CreateOutcome C} {p : Proc} {disk : Disk C} (hs : p.mata.hasSpace = false)
    (h : (createSpace conf fresh req out p disk).1.code = 0) :
    Holds conf (reqRoot conf req) (createSpace conf fresh req out p disk).2.1 ∧
      (createSpace conf fresh req out p disk).2.2.spaceSchema = some req ∧
      ((createSpace conf fresh req out p disk).2.2.raftDirs[reqRoot conf req]?).isSome = true := by
  have hdb : req.space.dbName ≠ "" := fun hdb =>
    (createSpace_unnamed conf fresh out disk hs hdb).1 h
  obtain ⟨hcode, hstart, hdump⟩ := (createSpace_named conf fresh out disk hs hdb).1.mp h
  have hroot := getRaftRoot_set conf p.mata hdb
  have hpath : (getRaftParams conf (p.mata.setCreateSapceReq req)).rootPath = reqRoot conf req := by
    rw [getRaftParams_rootPath, hroot]
  rw [createSpace_eq conf fresh hs hdb hcode hstart hdump]
  refine ⟨⟨by simp [Mata.setCreateSapceReq, hdb], hroot, _, rfl, hpath⟩, rfl, ?_⟩
  rw [hpath]
  exact startDirs_started fresh _ _

/-! ### What a restart does -/

theorem createOrLoad_spec {conf : Conf} {out : RestartOutcome C} {disk disk' : Disk C} {m : Mata}
    (h : createOrLoadNodeMata conf out disk = some (m, disk')) :
    disk'.nodeInfo.isSome = true ∧ disk'.spaceSchema = disk.spaceSchema ∧
      disk'.raftDirs = disk.raftDirs ∧
      (disk.nodeInfo.isSome = true → ∀ req, disk.spaceSchema = some req →
        m.hasSpace = true ∧ m.spaceReq = req) := by
  unfold createOrLoadNodeMata initMata at h
  cases hinfo : disk.nodeInfo with
  | none =>
    simp only [hinfo, Mata.isLoadFromFile] at h
    split_ifs at h with h1 h2
    · exact absurd h1 (by decide)
    · cases h
      exact ⟨rfl, rfl, rfl, fun hn => by cases hn⟩
  | some info =>
    simp only [hinfo] at h
    by_cases hparsed : out.nodeInfoParsed = false
    · simp [hparsed] at h
    rw [if_neg hparsed] at h
    cases hschema : disk.spaceSchema with
    | none =>
      simp only [hschema] at h
      split_ifs at h
      · cases h
        exact ⟨by rw [hinfo]; rfl, hschema, rfl, fun _ req hreq => by cases hreq⟩
      · cases h
        exact ⟨rfl, rfl, rfl, fun _ req hreq => by cases hreq⟩
    | some req =>
      simp only [hschema] at h
      by_cases hreq : out.schemaParsed = false
      · simp [hreq] at h
      rw [if_neg hreq] at h
      simp only at h
      split_ifs at h
      · cases h
        exact ⟨by rw [hinfo]; rfl, hschema, rfl, fun _ r hr => ⟨rfl, by cases hr; rfl⟩⟩
      · cases h
        exact ⟨rfl, rfl, rfl, fun _ r hr => ⟨rfl, by cases hr; rfl⟩⟩

theorem main_named {conf : Conf} {fresh : C} {out : RestartOutcome C} {disk : Disk C} {p : Proc}
    (h : (main conf fresh out disk).1 = some p) :
    (main conf fresh out disk).2.nodeInfo.isSome = true := by
  unfold main at h ⊢
  cases hload : createOrLoadNodeMata conf out disk with
  | none =>
    simp only [hload] at h
    cases h
  | some r =>
    obtain ⟨m, disk'⟩ := r
    have hinfo := (createOrLoad_spec hload).1
    simp only [hload] at h ⊢
    split_ifs at h ⊢
    · rw [createAndStart_nodeInfo]
      exact hinfo
    · exact hinfo

/-- A restart brings the space back: the directory and the files stay, and a process
that runs afterwards has the space and a block on it. -/
theorem main_kept {conf : Conf} {fresh : C} (out : RestartOutcome C) {disk : Disk C}
    {root : String} {c : C} (hdir : disk.raftDirs[root]? = some c)
    (hfiles : Restorable conf root disk) :
    (main conf fresh out disk).2.raftDirs[root]? = some c ∧
      Restorable conf root (main conf fresh out disk).2 ∧
      ∀ p, (main conf fresh out disk).1 = some p → Holds conf root p := by
  obtain ⟨hinfo, req, hschema, hroot⟩ := hfiles
  unfold main
  cases hload : createOrLoadNodeMata conf out disk with
  | none => exact ⟨hdir, ⟨hinfo, req, hschema, hroot⟩, fun p hp => by cases hp⟩
  | some r =>
    obtain ⟨m, disk'⟩ := r
    obtain ⟨hinfo', hschema', hdirs', hspace⟩ := createOrLoad_spec hload
    obtain ⟨hhas, hreq⟩ := hspace hinfo req hschema
    have hmroot : getRaftRoot conf m = root := by
      rw [getRaftRoot, if_pos hhas, hreq]
      exact hroot
    have hrest : Restorable conf root disk' := ⟨hinfo', req, by rw [hschema', hschema], hroot⟩
    simp only
    by_cases hserver : out.serverStarted = false
    · rw [if_pos hserver]
      exact ⟨by rw [hdirs']; exact hdir, hrest, fun p hp => by cases hp⟩
    rw [if_neg hserver, if_pos hhas]
    by_cases hengine : out.engineLoaded = false
    · rw [if_pos hengine]
      exact ⟨by rw [hdirs']; exact hdir, hrest, fun p hp => by cases hp⟩
    rw [if_neg hengine]
    -- the process is new, so `CreateBlock` finds no block to remove
    have hpath : (getRaftParams conf m).rootPath = root := by rw [getRaftParams_rootPath, hmroot]
    refine ⟨?_, hrest, ?_⟩
    · simp only [createAndStart, deleteBlock, hpath]
      exact startDirs_kept fresh root out.start disk'.raftDirs (by rw [hdirs']; exact hdir)
    · intro p hp
      cases hp
      exact ⟨hhas, hmroot, _, rfl, hpath⟩

/-! ### Runs -/

theorem kept_createSpace {conf : Conf} {fresh : C} {w : World C} {p : Proc}
    (hk : Kept conf w) (hp : w.proc = some p) (req : CreateSpaceRequest) (out : CreateOutcome C) :
    Kept conf (step conf fresh w (.createSpace req out)) := by
  have hnode := createSpace_nodeInfo conf fresh req out p w.disk
  cases hs : p.mata.hasSpace with
  | true =>
    have heq : createSpace conf fresh req out p w.disk
        = (⟨201, "Space has exist, space_name:" ++ p.mata.spaceReq.space.spaceName⟩, p, w.disk) := by
      rw [createSpace, if_pos hs]
    have hstep : step conf fresh w (.createSpace req out) = w := by
      obtain ⟨proc, disk, live⟩ := w
      simp only at hp heq
      subst hp
      simp [step, heq]
    rw [hstep]
    exact hk
  | false =>
    have hnone : w.live = none := by
      cases hl : w.live with
      | none => rfl
      | some l =>
        have hflag := (hk.holds l.1 l.2 p hl hp).1
        rw [hs] at hflag
        cases hflag
    by_cases hcode : (createSpace conf fresh req out p w.disk).1.code = 0
    · obtain ⟨hholds, hschema, hdir⟩ := createSpace_ok conf fresh hs hcode
      obtain ⟨c, hc⟩ := Option.isSome_iff_exists.mp hdir
      have hroot := hholds.2.1
      constructor
      · intro q _
        simp only [step, hp]
        rw [hnode]
        exact hk.named p hp
      · intro root c' hl
        simp only [step, hp, hcode, if_true, Option.some.injEq, Prod.mk.injEq] at hl ⊢
        obtain ⟨rfl, rfl⟩ := hl
        rw [hroot, hc]
        rfl
      · intro root c' hl
        simp only [step, hp, hcode, if_true, Option.some.injEq, Prod.mk.injEq] at hl ⊢
        refine ⟨by rw [hnode]; exact hk.named p hp, req, hschema, ?_⟩
        rw [← hl.1, hroot]
      · intro root c' q hl hq
        simp only [step, hp, hcode, if_true, Option.some.injEq, Prod.mk.injEq] at hl hq
        subst hq
        rw [← hl.1, hroot]
        exact hholds
    · have hlive : (step conf fresh w (.createSpace req out)).live = none := by
        simp [step, hp, hcode, hnone]
      refine ⟨?_, fun root c h => ?_, fun root c h => ?_, fun root c q h => ?_⟩
      · intro q _
        simp only [step, hp]
        rw [hnode]
        exact hk.named p hp
      all_goals rw [hlive] at h; cases h

theorem kept_deleteSpace {conf : Conf} {fresh : C} {w : World C} {p : Proc}
    (hk : Kept conf w) (hp : w.proc = some p) (db sp : String) (out : DeleteOutcome C) :
    Kept conf (step conf fresh w (.deleteSpace db sp out)) := by
  by_cases hname : p.mata.spaceReq.space.dbName ≠ db ∨ p.mata.spaceReq.space.spaceName ≠ sp
  · have hstep : step conf fresh w (.deleteSpace db sp out) = w := by
      obtain ⟨proc, disk, live⟩ := w
      simp only at hp
      subst hp
      simp only [step, deleteSpace, if_pos hname]
      rfl
    rw [hstep]
    exact hk
  · have hlive : (step conf fresh w (.deleteSpace db sp out)).live = none := by
      simp only [step, hp, deleteSpace, if_neg hname]
      rfl
    refine ⟨?_, fun root c h => ?_, fun root c h => ?_, fun root c q h => ?_⟩
    · intro q _
      simp only [step, hp]
      rw [deleteSpace_nodeInfo]
      exact hk.named p hp
    all_goals rw [hlive] at h; cases h

/-- Raft writes to the directory of its block, which is the one that is kept. -/
theorem kept_raftWrite {conf : Conf} {fresh : C} {w : World C} {p : Proc}
    (hk : Kept conf w) (hp : w.proc = some p) (content : C) :
    Kept conf (step conf fresh w (.raftWrite content)) := by
  cases hroot : writtenRoot p w.disk with
  | none =>
    have hstep : step conf fresh w (.raftWrite content) = w := by
      simp only [step, hp, hroot]
    rw [hstep]
    exact hk
  | some root =>
    have hlive : ∀ r c, (step conf fresh w (.raftWrite content)).live = some (r, c) →
        ∃ c₀, w.live = some (r, c₀) ∧ (r = root → c = content) ∧ (r ≠ root → c = c₀) := by
      intro r c h
      simp only [step, hp, hroot, Option.map_eq_some_iff] at h
      obtain ⟨l, hl, hmap⟩ := h
      by_cases hr : l.1 = root
      · rw [if_pos hr, Prod.mk.injEq] at hmap
        have hlr : l = (r, l.2) := Prod.ext (hr.trans hmap.1) rfl
        exact ⟨l.2, by rw [hl, ← hlr], fun _ => hmap.2.symm, fun hne => absurd hmap.1.symm hne⟩
      · rw [if_neg hr] at hmap
        subst hmap
        exact ⟨c, hl, fun h => absurd h hr, fun _ => rfl⟩
    have hproc : (step conf fresh w (.raftWrite content)).proc = some p := by
      simp only [step, hp, hroot]
    have hdisk : (step conf fresh w (.raftWrite content)).disk
        = { w.disk with raftDirs := w.disk.raftDirs.insert root content } := by
      simp only [step, hp, hroot]
    constructor
    · intro q _
      rw [hdisk]
      exact hk.named p hp
    · intro r c h
      obtain ⟨c₀, hl, heq, hne⟩ := hlive r c h
      rw [hdisk]
      simp only
      rw [Std.TreeMap.getElem?_insert]
      by_cases hr : r = root
      · rw [if_pos (by simpa using hr.symm), heq hr]
      · rw [if_neg (by simpa using fun h => hr h.symm), hne hr]
        exact hk.dir r c₀ hl
    · intro r c h
      obtain ⟨c₀, hl, -⟩ := hlive r c h
      rw [hdisk]
      exact hk.files r c₀ hl
    · intro r c q h hq
      obtain ⟨c₀, hl, -⟩ := hlive r c h
      rw [hproc, Option.some.injEq] at hq
      subst hq
      exact hk.holds r c₀ p hl hp

/-- Nothing that stops the process touches the disk, as long as a graceful stop finds
no block. -/
theorem kept_ended {conf : Conf} {w : World C} (hk : Kept conf w) :
    Kept conf { w with proc := none } :=
  ⟨fun _ hp => (nomatch hp), hk.dir, hk.files, fun _ _ _ _ hp => (nomatch hp)⟩

theorem kept_restart {conf : Conf} {fresh : C} {w : World C} (hk : Kept conf w)
    (hp : w.proc = none) (out : RestartOutcome C) :
    Kept conf (step conf fresh w (.restart out)) := by
  have hstep : step conf fresh w (.restart out)
      = { w with proc := (main conf fresh out w.disk).1, disk := (main conf fresh out w.disk).2 } := by
    simp only [step, hp]
  rw [hstep]
  constructor
  · intro p h
    exact main_named h
  · intro root c h
    exact (main_kept out (hk.dir root c h) (hk.files root c h)).1
  · intro root c h
    exact (main_kept out (hk.dir root c h) (hk.files root c h)).2.1
  · intro root c p h hq
    exact (main_kept out (hk.dir root c h) (hk.files root c h)).2.2 p hq

/-- **One event keeps `Kept`**, unless it is a graceful stop with a block. -/
theorem kept_step (conf : Conf) (fresh : C) (w : World C) (e : Event C) (hk : Kept conf w)
    (hok : stopsWithoutBlock w e) : Kept conf (step conf fresh w e) := by
  cases hp : w.proc with
  | none =>
    cases e with
    | restart out => exact kept_restart hk hp out
    | _ => simpa only [step, hp] using hk
  | some p =>
    cases e with
    | createSpace req out => exact kept_createSpace hk hp req out
    | deleteSpace db sp out => exact kept_deleteSpace hk hp db sp out
    | raftWrite content => exact kept_raftWrite hk hp content
    | stop left =>
      have hblock : p.block = none := hok p hp
      simp only [step, hp, hblock, deleteBlock]
      exact kept_ended hk
    | crash =>
      simp only [step, hp]
      exact kept_ended hk
    | restart out => simpa only [step, hp] using hk

/-- **Raft directories survive every run in which a graceful stop finds no raft block.** -/
theorem raft_dir_durable (conf : Conf) (fresh : C) (w : World C)
    (h : Reach (step conf fresh) stopsWithoutBlock {} w) : Durable w := by
  have hstart : Kept conf ({} : World C) :=
    ⟨fun _ hp => (nomatch hp), fun _ _ hl => (nomatch hl), fun _ _ hl => (nomatch hl),
      fun _ _ _ hl => (nomatch hl)⟩
  exact (h.invariant (Kept conf) hstart (fun s e hs hok => kept_step conf fresh s e hs hok)).dir

/-- A space is created, raft writes to it, and the process crashes and comes back. -/
def crashRun : List (Event Bytes) :=
  [.restart {}, .createSpace sampleReq {}, .raftWrite [7], .crash, .restart {}]

theorem raft_dir_durable_crash :
    (crashRun.foldl (step sampleConf []) {}).live = some ("data/raft_data/g0", [7]) ∧
      Durable (crashRun.foldl (step sampleConf []) {}) :=
  ⟨by decide, raft_dir_durable sampleConf [] _
    (reach_of_runOk crashRun _ Reach.start
      ⟨trivial, trivial, trivial, trivial, trivial, trivial⟩)⟩

/-- The same space, and a graceful stop in place of the crash: the destructor of
`RaftManager` removes the directory, and the restart makes an empty one. -/
def stopRun : List (Event Bytes) :=
  [.restart {}, .createSpace sampleReq {}, .raftWrite [7], .stop none, .restart {}]

theorem raft_dir_removed_by_stop :
    Reach (step sampleConf []) anyEvent {} (stopRun.foldl (step sampleConf []) {}) ∧
      (stopRun.foldl (step sampleConf []) {}).live = some ("data/raft_data/g0", [7]) ∧
      ¬ Durable (stopRun.foldl (step sampleConf []) {}) := by
  refine ⟨reach_foldl _ _ stopRun, by decide, fun h => ?_⟩
  have hdir := h "data/raft_data/g0" [7] (by decide)
  exact absurd hdir (by decide)

end SimSearch.Ps
