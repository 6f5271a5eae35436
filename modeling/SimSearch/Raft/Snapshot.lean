import SimSearch.Raft.Apply

/-!
# Snapshots of the raft state machine

`Block::save_snapshot`, `on_snapshot_load` and `read` of `raft_store/raft_store.cc`,
and `Engine` of `engine/engine.cc`.

`on_apply` writes documents to the gamma engine and `read` takes them from there, but a
snapshot holds the two files of `Engine`, which neither of them touches.
`onSnapshotLoad_store` says that loading a snapshot leaves the gamma store as it was,
so a fresh replica has nothing to return, and `applied_nonempty` that a replica that
has applied an entry does.
-/

namespace SimSearch.Raft

open SimSearch.Lib

/-! ### The engine and its files -/

abbrev Files := Std.TreeMap String Bytes

/-- `Engine`; its `_path` stays empty, because the call of `Init` in `main` is commented
out. -/
structure Engine where
  path : String := ""
  keyToOffset : Std.TreeMap Int (Int × Int) := ∅
  dataSize : Nat := 0
  mataOffset : Nat := 0
  rawDataOffset : Nat := 0

def dataFilename : String := "/engine_data.txt"
def mataFilename : String := "/engine_mata.dat"

def oneDocMataSize : Nat := 4 + 8 + 2

/-- `butil::CopyFile`; without a source there is nothing to copy. -/
def copyFile (src dst : String) (source target : Files) : Files :=
  match source[src]? with
  | some content => target.insert dst content
  | none => target

/-- `BackupFile`: the file gets the first free of a hundred names.  The loop goes on after
the renaming and then fails, which its caller does not look at. -/
def backupFile (name : String) (files : Files) : Files :=
  match files[name]?, (List.range 100).find? fun i => !files.contains (name ++ toString i) with
  | some content, some i => (files.erase name).insert (name ++ toString i) content
  | _, _ => files

/-- `Engine::Snapshot`: the files of the snapshot directory. -/
def Engine.snapshot (e : Engine) (files : Files) : Files :=
  let snap := copyFile (e.path ++ dataFilename) dataFilename files ∅
  copyFile (e.path ++ mataFilename) mataFilename files snap

def signedOf (bs : Bytes) : Int :=
  let v := ofLeBytes bs
  if v < 256 ^ bs.length / 2 then v else (v : Int) - 256 ^ bs.length

/-- The loop of `CreatOrLoad` over the records of the metadata file. -/
def loadMata (mata : Bytes) (start : Std.TreeMap Int (Int × Int)) : Std.TreeMap Int (Int × Int) :=
  (List.range (mata.length / oneDocMataSize)).foldl (fun m i =>
    let buf := (mata.drop (i * oneDocMataSize)).take oneDocMataSize
    m.insert (signedOf (buf.take 4)) (signedOf ((buf.drop 4).take 8), signedOf (buf.drop 12))) start

structure OpenOutcome where
  data : Bool := true
  mata : Bool := true

/-- `Engine::CreatOrLoad` on a snapshot: its error text, and the engine and the files
afterwards. -/
def Engine.creatOrLoad (e : Engine) (snap : Files) (out : OpenOutcome) (files : Files) :
    String × Engine × Files :=
  let dataPath := e.path ++ dataFilename
  let mataPath := e.path ++ mataFilename
  let files :=
    if snap.contains mataFilename ∧ snap.contains dataFilename then
      let files := backupFile mataPath (backupFile dataPath files)
      copyFile mataFilename mataPath snap (copyFile dataFilename dataPath snap files)
    else files
  if out.data = false then ("open '" ++ dataPath ++ "' file failed", e, files)
  else
    -- `O_CREAT` makes a file that is not there
    let data := files[dataPath]?.getD []
    let files := files.insert dataPath data
    if out.mata = false then ("open '" ++ mataPath ++ "' file failed", e, files)
    else
      let mata := files[mataPath]?.getD []
      ("", { e with keyToOffset := loadMata mata e.keyToOffset,
                    dataSize := mata.length / oneDocMataSize,
                    mataOffset := mata.length, rawDataOffset := data.length },
        files.insert mataPath mata)

/-! ### The state machine -/

/-- A replica with both engines: gamma in `node`, and the one that is snapshotted. -/
structure Machine where
  node : Replica := {}
  engine : Engine := {}
  files : Files := ∅

def saveSnapshot (m : Machine) : Files := m.engine.snapshot m.files

/-- `Block::on_snapshot_load`: its return value, and the replica afterwards. -/
def onSnapshotLoad (snap : Files) (out : OpenOutcome) (m : Machine) : Int × Machine :=
  let (msg, engine, files) := m.engine.creatOrLoad snap out m.files
  (if msg ≠ "" then -1 else 0, { m with engine := engine, files := files })

/-- `Block::read`: the response and the attachment.  `ser` is `SerializeToString` of
`common_rpc::Document`. -/
def read (ser : Document → Option Bytes) (isLeader : Bool) (leader : Option String) (m : Machine)
    (req : BlockRequest) : BlockResponse × Bytes :=
  if isLeader = false then (redirect leader, [])
  else
    match m.node.store[req.key]? with
    | none => ({ success := some false, msg := "gamma engine get failed, key:" ++ req.key }, [])
    | some gammaDoc =>
      match ser (gammaDocToPbDoc gammaDoc) with
      | none =>
        ({ success := some false,
           msg := "SerializeToString gamma_doc failed, key:" ++ req.key }, [])
      | some data => ({ success := some true }, data)

def returned (ser : Document → Option Bytes) (m : Machine) (req : BlockRequest) : Option Bytes :=
  let (resp, data) := read ser true none m req
  if resp.success = some true then some data else none

/-- **A snapshot is complete**: a fresh replica that loads it returns for every request
what the replica that took it returns. -/
def SnapshotComplete (ser : Document → Option Bytes) (m : Machine) (out : OpenOutcome) : Prop :=
  ∀ req, returned ser (onSnapshotLoad (saveSnapshot m) out {}).2 req = returned ser m req

/-- Loading a snapshot does not touch the gamma store. -/
theorem onSnapshotLoad_store (snap : Files) (out : OpenOutcome) (m : Machine) :
    (onSnapshotLoad snap out m).2.node = m.node := rfl

theorem returned_none {ser : Document → Option Bytes} {m : Machine} {req : BlockRequest}
    (h : m.node.store[req.key]? = none) : returned ser m req = none := by
  simp [returned, read, h]

theorem returned_some {ser : Document → Option Bytes} {m : Machine} {req : BlockRequest}
    {g : GammaDoc} (h : m.node.store[req.key]? = some g) :
    returned ser m req = ser (gammaDocToPbDoc g) := by
  cases hs : ser (gammaDocToPbDoc g) with
  | none => simp [returned, read, h, hs]
  | some data => simp [returned, read, h, hs]

theorem returned_fresh (ser : Document → Option Bytes) (snap : Files) (out : OpenOutcome)
    (req : BlockRequest) : returned ser (onSnapshotLoad snap out {}).2 req = none := by
  apply returned_none
  rw [onSnapshotLoad_store]
  simp

/-! ### What applying leaves in the store -/

section

variable {codec : RequestCodec} (env : Env) (space : Space)

def entryDoc (e : Seen codec) : Option GammaDoc :=
  ((entryData codec e.data? e.entry.log).bind env.parse).map
    fun doc => (pbDocToGammaDoc doc space {}).2

/-- Nothing is written: there is no entry, or the first one brings no document or one
that an empty engine refuses. -/
def NothingApplied : List (Seen codec) → Prop
  | [] => True
  | e :: _ => ∀ g, entryDoc env space e = some g → env.addCode ∅ g ≠ 0

/-- One turn of the loop, for a node that runs. -/
theorem applyEntry_running {s : Replica} (hs : s.status = .running) (e : Seen codec) :
    (∃ g, entryDoc env space e = some g ∧ env.addCode s.store g = 0 ∧
      (applyEntry codec env space s e.data? e.entry.log).status = .running ∧
      (applyEntry codec env space s e.data? e.entry.log).store
        = s.store.insert (env.keyOf g) g) ∨
    ((∀ g, entryDoc env space e = some g → env.addCode s.store g ≠ 0) ∧
      (applyEntry codec env space s e.data? e.entry.log).status ≠ .running ∧
      (applyEntry codec env space s e.data? e.entry.log).store = s.store) := by
  unfold applyEntry entryDoc
  rw [if_neg (by simp [hs])]
  cases hdata : entryData codec e.data? e.entry.log with
  | none => exact Or.inr ⟨fun g hg => by simp at hg, by simp, rfl⟩
  | some data =>
    simp only [Option.bind_some, applyData]
    cases hdoc : env.parse data with
    | none => exact Or.inr ⟨fun g hg => by simp at hg, by simp, rfl⟩
    | some doc =>
      simp only [Option.map_some]
      by_cases hcode : env.addCode s.store (pbDocToGammaDoc doc space {}).2 = 0
      · refine Or.inl ⟨_, rfl, hcode, ?_, ?_⟩
        · rw [if_neg (by simpa using hcode)]
        · rw [if_neg (by simpa using hcode)]
      · refine Or.inr ⟨fun g hg => ?_, ?_, ?_⟩
        · rw [Option.some.injEq] at hg
          rw [← hg]
          exact hcode
        · rw [if_pos hcode]
          simp
        · rw [if_pos hcode]

theorem onApply_stopped {s : Replica} (hs : s.status ≠ .running) :
    ∀ batch : List (Seen codec), onApply codec env space s batch = s := by
  intro batch
  induction batch with
  | nil => rfl
  | cons e r ih =>
    have hone : applyEntry codec env space s e.data? e.entry.log = s := by
      rw [applyEntry, if_pos hs]
    rw [onApply, List.foldl_cons, hone]
    exact ih

/-- A document in the store came from an entry, and a store that holds one keeps holding
some. -/
theorem onApply_store (P : GammaDoc → Prop) :
    ∀ (batch : List (Seen codec)) (s : Replica),
      (∀ e ∈ batch, ∀ g, entryDoc env space e = some g → P g) →
      (∃ (k : String) (g : GammaDoc), s.store[k]? = some g ∧ P g) →
      ∃ (k : String) (g : GammaDoc), (onApply codec env space s batch).store[k]? = some g ∧ P g := by
  intro batch
  induction batch with
  | nil => intro s _ h; exact h
  | cons e r ih =>
    intro s hP hstore
    have hr : ∀ x ∈ r, ∀ g, entryDoc env space x = some g → P g :=
      fun x hx => hP x (List.mem_cons_of_mem _ hx)
    by_cases hs : s.status = .running
    · rw [onApply, List.foldl_cons]
      refine ih _ hr ?_
      rcases applyEntry_running env space hs e with ⟨g, hg, -, -, hins⟩ | ⟨-, -, hsame⟩
      · refine ⟨env.keyOf g, g, ?_, hP e List.mem_cons_self g hg⟩
        rw [hins]
        simp
      · rw [hsame]
        exact hstore
    · rw [onApply_stopped env space hs]
      exact hstore

theorem applied_nonempty (P : GammaDoc → Prop) (entries : List (Seen codec))
    (hP : ∀ e ∈ entries, ∀ g, entryDoc env space e = some g → P g)
    (h : ¬ NothingApplied env space entries) :
    ∃ (k : String) (g : GammaDoc),
      (onApply codec env space {} entries).store[k]? = some g ∧ P g := by
  cases entries with
  | nil => exact absurd trivial h
  | cons e r =>
    have hr : ∀ x ∈ r, ∀ g, entryDoc env space x = some g → P g :=
      fun x hx => hP x (List.mem_cons_of_mem _ hx)
    rw [onApply, List.foldl_cons]
    refine onApply_store env space P r _ hr ?_
    rcases applyEntry_running env space (s := {}) rfl e with ⟨g, hg, -, -, hins⟩ | ⟨hno, -, -⟩
    · refine ⟨env.keyOf g, g, ?_, hP e List.mem_cons_self g hg⟩
      rw [hins]
      simp
    · exact absurd hno h

theorem nothingApplied_store (entries : List (Seen codec))
    (h : NothingApplied env space entries) :
    (onApply codec env space {} entries).store = ∅ := by
  cases entries with
  | nil => rfl
  | cons e r =>
    rw [onApply, List.foldl_cons]
    rcases applyEntry_running env space (s := {}) rfl e with ⟨g, hg, hcode, -, -⟩ | ⟨-, hstop, hsame⟩
    · exact absurd hcode (h g hg)
    · have hrest := onApply_stopped env space hstop r
      rw [onApply] at hrest
      rw [hrest, hsame]

end

/-- **When a snapshot is complete**: exactly when the replica that took it has written
nothing. -/
theorem snapshot_complete_iff (codec : RequestCodec) (env : Env) (space : Space)
    (ser : Document → Option Bytes) (engine : Engine) (files : Files) (out : OpenOutcome)
    (batches : List (List (Seen codec)))
    (hser : ∀ e ∈ batches.flatten, ∀ g, entryDoc env space e = some g →
      (ser (gammaDocToPbDoc g)).isSome = true) :
    SnapshotComplete ser ⟨applyBatches codec env space batches, engine, files⟩ out
      ↔ NothingApplied env space batches.flatten := by
  rw [applyBatches_flatten]
  constructor
  · intro hcomplete
    by_contra hno
    obtain ⟨k, g, hg, hsome⟩ := applied_nonempty env space
      (fun g => (ser (gammaDocToPbDoc g)).isSome = true) batches.flatten hser hno
    have hread := hcomplete { key := k }
    rw [returned_fresh, returned_some hg] at hread
    rw [← hread] at hsome
    cases hsome
  · intro hnothing req
    have hstore := nothingApplied_store env space batches.flatten hnothing
    rw [returned_fresh, returned_none]
    simp only
    rw [hstore]
    simp

/-! ### A replica that loses a document -/

/-- What `SerializeToString` gives for the document with the key `1`: the key as a long,
and its eight bytes again as a vector of two floats. -/
def keptBytes : Bytes :=
  [0x1a, 7, 0x0a, 3, 0x5f, 0x69, 0x64, 0x10, 1,
    0x42, 17, 0x0a, 3, 0x5f, 0x69, 0x64, 0x12, 10, 0x0a, 8, 1, 0, 0, 0, 0, 0, 0, 0]

def sampleSer (doc : Document) : Option Bytes :=
  if doc.longs.toList = [(idField, 1)] ∧ doc.vectors.toList = [(idField, [1, 0])] then
    some keptBytes
  else if doc.longs.toList = [] ∧ doc.vectors.toList = [] then some []
  else none

def longSpace : Space := { idTypeOpt := some longSdtype }

def oneDocLog : List (List (Seen wireCodec)) := [[⟨routedEntry, true⟩]]

/-- The log whose only entry is the empty document, which has no key. -/
def noKeyLog : List (List (Seen wireCodec)) := [[⟨emptyEntry, true⟩]]

theorem entryDoc_empty :
    entryDoc sampleEnv longSpace (⟨emptyEntry, true⟩ : Seen wireCodec) = some {} := rfl

/-- The engine refuses the document without a key, so nothing is lost. -/
theorem snapshot_complete_noKey :
    SnapshotComplete sampleSer ⟨applyBatches wireCodec sampleEnv longSpace noKeyLog, {}, ∅⟩ {} := by
  refine (snapshot_complete_iff wireCodec sampleEnv longSpace sampleSer {} ∅ {} noKeyLog ?_).mpr ?_
  · intro e he g hg
    have hentry : e = ⟨emptyEntry, true⟩ := by simpa [noKeyLog] using he
    rw [hentry, entryDoc_empty, Option.some.injEq] at hg
    rw [← hg]
    decide
  · intro g hg
    rw [entryDoc_empty, Option.some.injEq] at hg
    rw [← hg]
    decide

/-- The document with the key `1` is applied and read back on the replica, and a fresh
replica that has loaded its snapshot does not find it. -/
theorem snapshot_loses_document :
    returned sampleSer ⟨applyBatches wireCodec sampleEnv longSpace oneDocLog, {}, ∅⟩
        { key := "1" } = some keptBytes ∧
      ¬ SnapshotComplete sampleSer
        ⟨applyBatches wireCodec sampleEnv longSpace oneDocLog, {}, ∅⟩ {} := by
  have hread : returned sampleSer ⟨applyBatches wireCodec sampleEnv longSpace oneDocLog, {}, ∅⟩
      { key := "1" } = some keptBytes := by decide
  refine ⟨hread, fun h => ?_⟩
  have hfresh := h { key := "1" }
  rw [returned_fresh, hread] at hfresh
  cases hfresh

end SimSearch.Raft
