import SimSearch.Ps.Node

/-!
# What a failed `CreateSpace` leaves behind

`CreateSpace` stores the request and sets the flag before it calls the engine and
raft, and undoes this on failure by storing the empty request.  That does not clear
the flag, and the block of a failed start stays.

`noSpace_reach`: a reachable process without a space holds the empty request, so
storing it again is no change.  The rest is the case analysis of
`createSpace`, one lemma for a request with a database name and one for a request
without, and from these follows exactly when a failure changes nothing.
-/

namespace SimSearch.Ps

open SimSearch.Lib

variable {C : Type}

/-- What a failed request must leave as it is: the flag, the stored request and the
presence of a block. -/
def Proc.view (p : Proc) : Bool × CreateSpaceRequest × Bool :=
  (p.mata.hasSpace, p.mata.spaceReq, p.block.isSome)

/-- **`CreateSpace` is atomic on failure**, on this request with these outcomes: a
failed one changes nothing, and a process without a space accepts the next request. -/
def CreateAtomic (conf : Conf) (fresh : C) (req : CreateSpaceRequest) (out : CreateOutcome C)
    (p : Proc) (disk : Disk C) : Prop :=
  (createSpace conf fresh req out p disk).1.code ≠ 0 →
    (createSpace conf fresh req out p disk).2.1.view = p.view ∧
      (p.mata.hasSpace = false →
        (createSpace conf fresh req out p disk).2.1.mata.hasSpace = false)

/-! ### Processes without a space -/

/-- A process without a space holds the empty request. -/
def NoSpaceEmpty (w : World C) : Prop :=
  ∀ p, w.proc = some p → p.mata.hasSpace = false → p.mata.spaceReq = {}

/-- After `CreateSpace` the process has a space or holds the empty request. -/
theorem createSpace_noSpace (conf : Conf) (fresh : C) (req : CreateSpaceRequest)
    (out : CreateOutcome C) (p : Proc) (disk : Disk C)
    (hp : p.mata.hasSpace = false → p.mata.spaceReq = {})
    (h : (createSpace conf fresh req out p disk).2.1.mata.hasSpace = false) :
    (createSpace conf fresh req out p disk).2.1.mata.spaceReq = {} := by
  unfold createSpace at h ⊢
  by_cases hs : p.mata.hasSpace = true
  · rw [if_pos hs] at h ⊢
    exact hp h
  rw [if_neg hs] at h ⊢
  by_cases hcode : out.engineCode ≠ 0
  · simp only [if_pos hcode]
    rfl
  simp only [if_neg hcode] at h ⊢
  by_cases hmsg : (createAndStart fresh (getRaftParams conf (p.mata.setCreateSapceReq req)) p.block
      out.left out.start disk).1 ≠ ""
  · simp only [if_pos hmsg]
    rfl
  simp only [if_neg hmsg] at h ⊢
  split_ifs at h ⊢ with hdump
  · rfl
  · -- the dump went through, so the request has a database name and the flag is set
    exfalso
    by_cases hdb : req.space.dbName = ""
    · exact hdump (by simp [dumpCreateSpaceReq, Mata.setCreateSapceReq, hdb])
    · simp [Mata.setCreateSapceReq, hdb] at h

theorem initMata_noSpace {out : RestartOutcome C} {disk : Disk C} {m : Mata}
    (h : initMata out disk = some m) (hs : m.hasSpace = false) : m.spaceReq = {} := by
  unfold initMata at h
  cases hinfo : disk.nodeInfo with
  | none =>
    simp only [hinfo, Option.some.injEq] at h
    subst h
    rfl
  | some info =>
    simp only [hinfo] at h
    by_cases hparsed : out.nodeInfoParsed = false
    · rw [if_pos hparsed] at h
      cases h
    rw [if_neg hparsed] at h
    cases hschema : disk.spaceSchema with
    | none =>
      simp only [hschema, Option.some.injEq] at h
      subst h
      rfl
    | some req =>
      simp only [hschema] at h
      by_cases hreq : out.schemaParsed = false
      · rw [if_pos hreq] at h
        cases h
      · rw [if_neg hreq, Option.some.injEq] at h
        subst h
        exact absurd hs (by simp)

theorem createOrLoad_noSpace {conf : Conf} {out : RestartOutcome C} {disk disk' : Disk C}
    {m : Mata} (h : createOrLoadNodeMata conf out disk = some (m, disk'))
    (hs : m.hasSpace = false) : m.spaceReq = {} := by
  unfold createOrLoadNodeMata at h
  cases hinit : initMata out disk with
  | none =>
    simp only [hinit] at h
    cases h
  | some m₀ =>
    have hm₀ : m₀.hasSpace = false → m₀.spaceReq = {} := initMata_noSpace hinit
    simp only [hinit] at h
    split_ifs at h
    · cases h
      exact hm₀ hs
    · cases h
      exact hm₀ hs

theorem main_noSpace {conf : Conf} {fresh : C} {out : RestartOutcome C} {disk : Disk C} {p : Proc}
    (h : (main conf fresh out disk).1 = some p) (hs : p.mata.hasSpace = false) :
    p.mata.spaceReq = {} := by
  unfold main at h
  split at h
  · cases h
  · rename_i m disk' hload
    split_ifs at h
    all_goals cases h
    all_goals exact createOrLoad_noSpace hload hs

theorem noSpace_step (conf : Conf) (fresh : C) (w : World C) (e : Event C)
    (h : NoSpaceEmpty w) : NoSpaceEmpty (step conf fresh w e) := by
  intro p' hp' hs'
  cases hproc : w.proc with
  | none =>
    cases e with
    | restart out =>
      simp only [step, hproc] at hp'
      exact main_noSpace hp' hs'
    | _ => simp only [step, hproc] at hp'; cases hp'
  | some p =>
    cases e with
    | createSpace req out =>
      simp only [step, hproc, Option.some.injEq] at hp'
      subst hp'
      exact createSpace_noSpace conf fresh req out p w.disk (h p hproc) hs'
    | deleteSpace db sp out =>
      simp only [step, hproc, Option.some.injEq] at hp'
      subst hp'
      unfold deleteSpace at hs' ⊢
      by_cases hname : p.mata.spaceReq.space.dbName ≠ db ∨ p.mata.spaceReq.space.spaceName ≠ sp
      · rw [if_pos hname] at hs' ⊢
        exact h p hproc hs'
      · rw [if_neg hname]
        rfl
    | raftWrite c =>
      simp only [step, hproc] at hp'
      split at hp' <;> exact h p' (by simpa [hproc] using hp') hs'
    | stop left => simp only [step, hproc] at hp'; cases hp'
    | crash => simp only [step, hproc] at hp'; cases hp'
    | restart out => simp only [step, hproc] at hp'; exact h p' (by rw [hproc]; exact hp') hs'

theorem noSpace_reach {conf : Conf} {fresh : C} {w : World C}
    (h : Reach (step conf fresh) anyEvent {} w) : NoSpaceEmpty w :=
  h.invariant NoSpaceEmpty (fun p hp => by cases hp) (fun s e hs _ => noSpace_step conf fresh s e hs)

/-! ### Failures -/

section

variable (conf : Conf) (fresh : C) {req : CreateSpaceRequest} (out : CreateOutcome C) {p : Proc}
  (disk : Disk C)

/-- With a database name a new space succeeds exactly when all three calls do, and the
flag is set either way. -/
theorem createSpace_named (hs : p.mata.hasSpace = false) (hdb : req.space.dbName ≠ "") :
    ((createSpace conf fresh req out p disk).1.code = 0
        ↔ out.engineCode = 0 ∧ out.start = .started ∧ out.dump = .written) ∧
      (createSpace conf fresh req out p disk).2.1.mata.hasSpace = true := by
  unfold createSpace
  rw [if_neg (by simp [hs])]
  by_cases hcode : out.engineCode = 0
  · by_cases hstart : out.start = .started
    · cases out.dump <;>
        simp [hcode, hstart, createAndStart, dumpCreateSpaceReq, Mata.setCreateSapceReq, hdb]
    · simp [hcode, hstart, createAndStart, Mata.setCreateSapceReq, hdb]
  · simp [hcode, Mata.setCreateSapceReq, hdb]

/-- Without a database name nothing is ever created; the flag stays clear, the request
stays empty, and a block is left as soon as the engine agrees. -/
theorem createSpace_unnamed (hs : p.mata.hasSpace = false) (hdb : req.space.dbName = "") :
    (createSpace conf fresh req out p disk).1.code ≠ 0 ∧
      (createSpace conf fresh req out p disk).2.1.view
        = (false, {}, p.block.isSome || decide (out.engineCode = 0)) := by
  unfold createSpace
  rw [if_neg (by simp [hs])]
  by_cases hcode : out.engineCode = 0
  · by_cases hstart : out.start = .started
    · simp [hcode, hstart, createAndStart, dumpCreateSpaceReq, Mata.setCreateSapceReq, hdb, hs,
        Proc.view]
    · simp [hcode, hstart, createAndStart, Mata.setCreateSapceReq, hdb, hs, Proc.view]
  · simp [hcode, Mata.setCreateSapceReq, hdb, hs, Proc.view]

end

/-- **When a failed `CreateSpace` changes nothing**: in every reachable state, exactly
when there was a space already, or the request has a database name and no call fails,
or it has none and the engine fails or a block was there. -/
theorem createSpace_atomic_iff (conf : Conf) (fresh : C) (w : World C) (p : Proc)
    (req : CreateSpaceRequest) (out : CreateOutcome C)
    (hreach : Reach (step conf fresh) anyEvent {} w) (hp : w.proc = some p) :
    CreateAtomic conf fresh req out p w.disk
      ↔ p.mata.hasSpace = true ∨
        (req.space.dbName ≠ "" ∧ out.engineCode = 0 ∧ out.start = .started
          ∧ out.dump = .written) ∨
        (req.space.dbName = "" ∧ (out.engineCode ≠ 0 ∨ p.block.isSome = true)) := by
  cases hs : p.mata.hasSpace with
  | true =>
    have hsame : (createSpace conf fresh req out p w.disk).2.1 = p := by
      simp [createSpace, hs]
    refine ⟨fun _ => Or.inl rfl, fun _ _ => ?_⟩
    rw [hsame]
    exact ⟨rfl, id⟩
  | false =>
    have hempty : p.mata.spaceReq = {} := noSpace_reach hreach p hp hs
    by_cases hdb : req.space.dbName = ""
    · obtain ⟨hcode, hview⟩ := createSpace_unnamed conf fresh out w.disk hs hdb
      have hflag : (createSpace conf fresh req out p w.disk).2.1.mata.hasSpace = false :=
        congrArg Prod.fst hview
      have hbefore : p.view = (false, {}, p.block.isSome) := by
        rw [Proc.view, hs, hempty]
      unfold CreateAtomic
      rw [hview, hbefore]
      by_cases he : out.engineCode = 0 <;> cases hb : p.block.isSome <;>
        simp [hcode, hflag, hdb, he]
    · obtain ⟨hcode, hflag⟩ := createSpace_named conf fresh out w.disk hs hdb
      constructor
      · intro hatomic
        refine Or.inr (Or.inl ⟨hdb, hcode.mp ?_⟩)
        by_contra hne
        -- a failure would have to leave the flag clear
        have hclear := (hatomic hne).2 hs
        rw [hflag] at hclear
        cases hclear
      · rintro (h | ⟨-, hok⟩ | ⟨h, -⟩)
        · cases h
        · exact fun hne => absurd (hcode.mpr hok) hne
        · exact absurd h hdb

/-! ### A PS that a failed start wedges -/

def sampleConf : Conf :=
  { psStorageDir := "data/ps_storage", raftRootDir := "data/raft_data", curIp := "10.0.0.1",
    rpcPort := 8200 }

def sampleReq : CreateSpaceRequest :=
  { space := { dbName := "db", spaceName := "s", partitionNum := 1, replicaNum := 1 },
    curPartition := { groupName := "g0", replicas := [{ psId := 1, psIp := "10.0.0.1",
                                                        psPort := 8200 }] } }

def startedPs : World Bytes := [Event.restart {}].foldl (step sampleConf []) {}

def startedProc : Proc :=
  { mata := { psNodeInfo := { psId := 1, psIp := "10.0.0.1", psPort := 8200 } } }

theorem startedPs_proc : startedPs.proc = some startedProc := by decide

def busyPs : World Bytes :=
  [Event.restart {}, Event.createSpace sampleReq {}].foldl (step sampleConf []) {}

def busyProc : Proc := (createSpace sampleConf [] sampleReq {} startedProc startedPs.disk).2.1

theorem busyPs_proc : busyPs.proc = some busyProc := by decide

/-- A second request is refused and changes nothing. -/
theorem createSpace_atomic_started :
    (createSpace sampleConf [] sampleReq {} busyProc busyPs.disk).1.code = 201 ∧
      CreateAtomic sampleConf [] sampleReq {} busyProc busyPs.disk :=
  ⟨by decide, (createSpace_atomic_iff sampleConf [] busyPs busyProc sampleReq {}
    (reach_foldl _ _ [Event.restart {}, Event.createSpace sampleReq {}]) busyPs_proc).mpr
    (Or.inl (by decide))⟩

/-- Raft does not start for the first request of a new PS.  The flag stays set, and the
next request is refused although there is no space. -/
theorem createSpace_start_failed_not_atomic :
    Reach (step sampleConf []) anyEvent {} startedPs ∧ startedPs.proc = some startedProc ∧
      ¬ CreateAtomic sampleConf [] sampleReq { start := .failed } startedProc startedPs.disk ∧
      (createSpace sampleConf [] sampleReq {}
        (createSpace sampleConf [] sampleReq { start := .failed } startedProc startedPs.disk).2.1
        (createSpace sampleConf [] sampleReq { start := .failed } startedProc
          startedPs.disk).2.2).1.code = 201 := by
  refine ⟨reach_foldl _ _ [Event.restart {}], startedPs_proc, fun h => ?_, by decide⟩
  have hflag := (h (by decide)).2 (by decide)
  exact absurd hflag (by decide)

end SimSearch.Ps
