import SimSearch.Raft.Reload

/-!
# Restarts after torn writes

Histories of `Engine::BatchAdd` and of restarts with `Engine::CreatOrLoad("")` of
`engine/engine.cc`, in which any write may stop early or fail.

`CreatOrLoad` reads the whole records of the metadata file, but it sets `_mata_offset` to the
length of the file.  After a write that stopped within a record the two do not agree.

* `reads_batchAddFrom`: as long as `_mata_offset` is at the end of a record, a failed write does
  no harm: the next one overwrites it.
* `tracked_restart`: a restart on a torn file reads the right index.
* `reads_lost`: but the next record is written after the torn one, where no restart looks for
  it, so there is always a document that is added without an error and lost.
-/

namespace SimSearch.Raft

open SimSearch.Lib

/-! ### Histories -/

inductive EngineEvent
  | add (c : AddCall)
  | restart

/-- The documents of a call whose turn of the loop has ended without an error. -/
def completedFrom (data : Bytes) (out : Nat → AddOutcome) :
    Engine → Files → List (Int32 × Int16) → Nat → Nat → List (Int32 × Bytes)
  | _, _, [], _, _ => []
  | e, files, kv :: kvs, i, allLen =>
    let raw := readAt data allLen kv.2.toInt.toNat
    let (msg, e, files) := e.addDoc files kv.1 kv.2 raw (out i)
    if msg ≠ "" then []
    else (kv.1, raw) :: completedFrom data out e files kvs (i + 1) (allLen + kv.2.toInt.toNat)

/-- An engine, and the documents that were added to it without an error. -/
structure Logged where
  state : EngineState
  docs : List (Int32 × Bytes) := []

def Logged.add (l : Logged) (c : AddCall) : Logged where
  state := addStep l.state c
  docs := l.docs ++ completedFrom c.data c.out l.state.engine l.state.files c.kvList 0 0

def Logged.restart (l : Logged) : Logged where
  state := opened l.state.engine.path l.state.files
  docs := l.docs

def engineStep (l : Logged) : EngineEvent → Logged
  | .add c => l.add c
  | .restart => l.restart

/-- `Get` returns for every key the bytes that were added last. -/
def Reads (s : EngineState) (docs : List (Int32 × Bytes)) : Prop :=
  ∀ key, s.engine.get s.files key .complete = lastAdded docs key

/-- The process that a call is made in has its next record at the end of a whole one: it was not
started on a metadata file that ends within a record. -/
def AddsWhole (l : Logged) : EngineEvent → Prop
  | .add c => AddFits l.state c ∧ oneDocMataSize ∣ l.state.engine.mataOffset
  | .restart => True

/-! ### One turn of the loop -/

/-- `Get` depends on the place of the key, and on the part of the data that it lies in. -/
theorem get_frame {s s' : EngineState} {key : Int32} {n : Nat}
    (hplace : s.engine.keyToOffset[key.toInt]? = s'.engine.keyToOffset[key.toInt]?)
    (hinside : ∀ off size : Int, s.engine.keyToOffset[key.toInt]? = some (off, size) →
      0 ≤ off ∧ 0 ≤ size ∧ off + size ≤ n)
    (hdata : s.data.take n = s'.data.take n) (out : Transfer) :
    s.engine.get s.files key out = s'.engine.get s'.files key out := by
  cases hkey : s.engine.keyToOffset[key.toInt]? with
  | none => rw [get_of_none hkey, get_of_none (hplace.symm.trans hkey)]
  | some place =>
    obtain ⟨off, size⟩ := place
    obtain ⟨hoff, hsize, hend⟩ := hinside off size hkey
    have hread : readAt (s.files[s.engine.dataPath]?.getD []) off.toNat size.toNat
        = readAt (s'.files[s'.engine.dataPath]?.getD []) off.toNat size.toNat :=
      readAt_congr (by omega) hdata
    have hkey' := hplace.symm.trans hkey
    simp only [Engine.get, hkey, hkey', hread]

theorem get_of_place {s : EngineState} {key : Int32} {off size : Int} {v : Bytes}
    (hplace : s.engine.keyToOffset[key.toInt]? = some (off, size))
    (hread : readAt s.data off.toNat size.toNat = v) (hlen : v.length = size.toNat) :
    s.engine.get s.files key .complete = v := by
  have hread' : readAt (s.files[s.engine.dataPath]?.getD []) off.toNat size.toNat = v := hread
  simp only [Engine.get, hplace, hread', Transfer.bytes, hlen, Nat.sub_self, List.replicate_zero,
    List.append_nil]

theorem take_data_writeData {s : EngineState} (h : s.engine.rawDataOffset ≤ s.data.length)
    (bs : Bytes) : (s.writeData bs).data.take s.engine.rawDataOffset
      = s.data.take s.engine.rawDataOffset := by
  rw [data_writeData, take_writeAt 0 h]

/-- An add changes what `Get` returns for its key alone. -/
theorem reads_added {s : EngineState} {docs : List (Int32 × Bytes)} (h : Recorded s)
    (hreads : Reads s docs) (key : Int32) {dataLen : Int16} {raw : Bytes}
    (hraw : (raw.length : Int) = dataLen.toInt) :
    Reads (added s.engine.path s key dataLen raw) (docs ++ [(key, raw)]) := by
  have hindex : ∀ k : Int32, (added s.engine.path s key dataLen raw).engine.keyToOffset[k.toInt]?
      = if key = k then some ((s.engine.rawDataOffset : Int), dataLen.toInt)
        else s.engine.keyToOffset[k.toInt]? := by
    intro k
    show (s.engine.keyToOffset.insert key.toInt _)[k.toInt]? = _
    rw [Std.TreeMap.getElem?_insert]
    by_cases hk : key = k
    · rw [if_pos hk, if_pos (by rw [hk]; exact compare_eq_iff_eq.mpr rfl)]
    · have hne : compare key.toInt k.toInt ≠ .eq := fun hc =>
        hk (Int32.toInt_inj.mp (compare_eq_iff_eq.mp hc))
      rw [if_neg hk, if_neg hne]
  intro k
  rw [lastAdded_concat]
  by_cases hk : key = k
  · -- the new bytes are where the index says
    have hnat : dataLen.toInt.toNat = raw.length := by omega
    rw [if_pos hk]
    refine get_of_place ((hindex k).trans (if_pos hk)) ?_ hnat.symm
    rw [data_added_eq, data_writeData, hnat, Int.toNat_natCast, readAt_writeAt 0 h.raw]
  · rw [if_neg hk, ← hreads k]
    refine (get_frame ((hindex k).trans (if_neg hk)).symm (h.inside k.toInt) ?_ _).symm
    rw [data_added_eq, take_data_writeData h.raw]

/-- A turn that ends with an error leaves what `Get` returns. -/
theorem reads_addDoc {s : EngineState} {docs : List (Int32 × Bytes)} (h : Recorded s)
    (hreads : Reads s docs) (key : Int32) {dataLen : Int16} {raw : Bytes} (out : AddOutcome)
    (hraw : (raw.length : Int) = dataLen.toInt) {msg : String} {e : Engine} {files : Files}
    (hadd : s.engine.addDoc s.files key dataLen raw out = (msg, e, files)) :
    Reads ⟨e, files⟩ (docs ++ if msg ≠ "" then [] else [(key, raw)]) := by
  rcases addDoc_cases s key out hraw hadd with ⟨hmsg, bs, hs⟩ | ⟨hmsg, bs, -, hs⟩ | ⟨hmsg, hs⟩
  · rw [if_pos hmsg, List.append_nil, hs]
    intro k
    rw [← hreads k]
    refine (get_frame ?_ (h.inside k.toInt) (take_data_writeData h.raw bs).symm _).symm
    rfl
  · rw [if_pos hmsg, List.append_nil, hs]
    intro k
    have hdata : s.data.take s.engine.rawDataOffset
        = ((s.writeData raw).writeMata bs).data.take s.engine.rawDataOffset := by
      rw [data_writeMata, take_data_writeData h.raw]
    rw [← hreads k]
    refine (get_frame ?_ (h.inside k.toInt) hdata _).symm
    rfl
  · rw [if_neg (not_not.mpr hmsg), hs]
    exact reads_added h hreads key hraw

/-- **The loop of one call**, whichever of its writes fail. -/
theorem reads_batchAddFrom {data : Bytes} {out : Nat → AddOutcome} :
    ∀ (kvs : List (Int32 × Int16)) (i allLen : Nat) {s : EngineState}
      {docs : List (Int32 × Bytes)}, Recorded s → Reads s docs →
      (∀ kv ∈ kvs, 0 ≤ kv.2.toInt) →
      (allLen : Int) + (kvs.map fun kv => kv.2.toInt).sum ≤ data.length →
      s.engine.rawDataOffset + (data.length - allLen) < 2 ^ 63 →
      Reads ⟨(Engine.batchAddFrom data out s.engine s.files kvs i allLen).2.1,
          (Engine.batchAddFrom data out s.engine s.files kvs i allLen).2.2⟩
        (docs ++ completedFrom data out s.engine s.files kvs i allLen) := by
  intro kvs
  induction kvs with
  | nil =>
    intro i allLen s docs _ hreads _ _ _
    rw [completedFrom, List.append_nil]
    exact hreads
  | cons kv kvs ih =>
    intro i allLen s docs h hreads hnonneg hfits hoff
    obtain ⟨hlen, hraw, hrest, hfits'⟩ := batch_turn hnonneg hfits
    obtain ⟨hturn, hle⟩ := recorded_addDoc h kv.1 (out i) hraw (by omega)
    obtain ⟨⟨msg, e, files⟩, hadd⟩ : ∃ r, s.engine.addDoc s.files kv.1 kv.2
      (readAt data allLen kv.2.toInt.toNat) (out i) = r := ⟨_, rfl⟩
    have hnext := reads_addDoc h hreads kv.1 (out i) hraw hadd
    rw [hadd] at hturn hle
    simp only [Engine.batchAddFrom, completedFrom, hadd]
    by_cases hmsg : msg ≠ ""
    · rw [if_pos hmsg] at hnext
      rw [if_pos hmsg, if_pos hmsg]
      exact hnext
    · rw [if_neg hmsg] at hnext
      rw [if_neg hmsg, if_neg hmsg, ← List.singleton_append, ← List.append_assoc]
      have hoffset : e.rawDataOffset ≤ s.engine.rawDataOffset + kv.2.toInt.toNat := hle
      refine ih (i + 1) (allLen + kv.2.toInt.toNat) hturn hnext hrest hfits' ?_
      show e.rawDataOffset + _ < _
      omega

/-! ### Runs -/

/-- What a history keeps.  After a restart on a torn file the engine is not `Recorded`, but its
index is that of the whole records. -/
structure Tracked (path : String) (l : Logged) : Prop where
  samePath : l.state.engine.path = path
  index : l.state.engine.keyToOffset = loadMata l.state.mata ∅
  raw : l.state.engine.rawDataOffset ≤ l.state.data.length
  inside : ∀ key off size : Int, l.state.engine.keyToOffset[key]? = some (off, size) →
    0 ≤ off ∧ 0 ≤ size ∧ off + size ≤ l.state.engine.rawDataOffset
  recorded : oneDocMataSize ∣ l.state.engine.mataOffset → Recorded l.state
  reads : Reads l.state l.docs

theorem tracked_of_recorded {path : String} {l : Logged} (hpath : l.state.engine.path = path)
    (h : Recorded l.state) (hreads : Reads l.state l.docs) : Tracked path l where
  samePath := hpath
  index := h.index.trans (h.loadMata_mata ∅).symm
  raw := h.raw
  inside := h.inside
  recorded _ := h
  reads := hreads

theorem path_addDoc (e : Engine) (files : Files) (key : Int32) (dataLen : Int16) (raw : Bytes)
    (out : AddOutcome) : (e.addDoc files key dataLen raw out).2.1.path = e.path := by
  unfold Engine.addDoc
  simp only
  split_ifs <;> rfl

theorem path_batchAddFrom {data : Bytes} {out : Nat → AddOutcome} :
    ∀ (kvs : List (Int32 × Int16)) (e : Engine) (files : Files) (i allLen : Nat),
      (Engine.batchAddFrom data out e files kvs i allLen).2.1.path = e.path := by
  intro kvs
  induction kvs with
  | nil => intro e files i allLen; rfl
  | cons kv kvs ih =>
    intro e files i allLen
    have hpath := path_addDoc e files kv.1 kv.2 (readAt data allLen kv.2.toInt.toNat) (out i)
    simp only [Engine.batchAddFrom]
    split_ifs
    · exact hpath
    · exact (ih _ _ _ _).trans hpath

theorem tracked_add {path : String} {l : Logged} (h : Tracked path l) {c : AddCall}
    (hc : AddFits l.state c) (hwhole : oneDocMataSize ∣ l.state.engine.mataOffset) :
    Tracked path (l.add c) := by
  have hrec := h.recorded hwhole
  have hfits := hc.fits
  have hoffsets := hc.offsets
  refine tracked_of_recorded ?_ (recorded_addStep hrec hc) ?_
  · exact (path_batchAddFrom c.kvList _ _ _ _).trans h.samePath
  · exact reads_batchAddFrom c.kvList 0 0 hrec h.reads hc.nonneg (by omega) (by omega)

theorem engine_restart {path : String} {l : Logged} (h : Tracked path l) :
    l.restart.state.engine =
      { path := path
        keyToOffset := l.state.engine.keyToOffset
        dataSize := l.state.mata.length / oneDocMataSize
        mataOffset := l.state.mata.length
        rawDataOffset := l.state.data.length } := by
  refine (engine_opened l.state.engine.path l.state.files).trans ?_
  rw [h.index, h.samePath, EngineState.mata, EngineState.data, Engine.mataPath, Engine.dataPath,
    h.samePath]

theorem data_restart (l : Logged) : l.restart.state.data = l.state.data := data_opened _ _

theorem mata_restart (l : Logged) : l.restart.state.mata = l.state.mata := mata_opened _ _

/-- **A restart keeps everything that can be read**, also on a torn file. -/
theorem tracked_restart {path : String} {l : Logged} (h : Tracked path l) :
    Tracked path l.restart := by
  have hengine := engine_restart h
  have hinside : ∀ key off size : Int, l.state.engine.keyToOffset[key]? = some (off, size) →
      0 ≤ off ∧ 0 ≤ size ∧ off + size ≤ l.state.data.length := by
    intro key off size hkey
    have hplace := h.inside key off size hkey
    have hraw := h.raw
    omega
  have hindex : l.restart.state.engine.keyToOffset = l.state.engine.keyToOffset := by rw [hengine]
  refine ⟨?_, ?_, ?_, ?_, ?_, ?_⟩
  · rw [hengine]
  · rw [hindex, mata_restart, h.index]
  · rw [hengine, data_restart]
  · rw [hengine]
    exact hinside
  · intro hwhole
    rw [hengine] at hwhole
    refine recorded_opened ⟨hwhole, ?_⟩
    intro key off size hkey
    have hkey' : (loadMata l.state.mata ∅)[key]? = some (off, size) := hkey
    rw [← h.index] at hkey'
    exact hinside key off size hkey'
  · intro key
    refine (get_congr (by rw [hindex]) (data_restart l) _).trans (h.reads key)

theorem tracked_run {path : String} {files : Files}
    (hdata : files[path ++ dataFilename]?.getD [] = [])
    (hmata : files[path ++ mataFilename]?.getD [] = []) {l : Logged}
    (hl : Reach engineStep AddsWhole ⟨opened path files, []⟩ l) : Tracked path l := by
  refine Reach.invariant (Tracked path) ?_ ?_ hl
  · have hholds := holds_opened hdata hmata
    exact tracked_of_recorded hholds.samePath (recorded_opened (filesOk_empty hmata))
      fun key => get_of_holds hholds key
  · intro l e h hok
    cases e with
    | add c => exact tracked_add h hok.1 hok.2
    | restart => exact tracked_restart h

/-! ### A record after a torn one -/

theorem signedOf_emod {b : UInt8} {bs : Bytes} : signedOf (b :: bs) % 256 = b.toNat := by
  have hb := b.toNat_lt
  have hpow : ((256 : Int) ^ (b :: bs).length) = 256 * 256 ^ bs.length := by
    rw [List.length_cons, pow_succ, mul_comm]
  unfold signedOf
  simp only [ofLeBytes]
  split_ifs
  · push_cast
    omega
  · rw [hpow]
    push_cast
    omega

/-- Some key is not the one that the load loop reads from a torn record, and one byte is not what
is stored for it. -/
theorem exists_unread (b : UInt8) (old : Int32 → Bytes) : ∃ (key : Int32) (v : UInt8),
    key.toInt % 256 ≠ b.toNat ∧ old key ≠ [v] := by
  obtain ⟨key, hkey⟩ : ∃ key : Int32, key.toInt % 256 ≠ b.toNat := by
    by_cases hb : b.toNat = 0
    · exact ⟨1, by rw [hb]; decide⟩
    · refine ⟨0, fun heq => hb ?_⟩
      have hzero : ((0 : Int32).toInt % 256) = 0 := by decide
      omega
  by_cases hv : old key = [0]
  · exact ⟨key, 1, hkey, by rw [hv]; decide⟩
  · exact ⟨key, 0, hkey, hv⟩

def byteCall (key : Int32) (v : UInt8) : AddCall := { kvList := [(key, 1)], data := [v] }

theorem add_byteCall (l : Logged) (key : Int32) (v : UInt8) :
    l.add (byteCall key v)
      = ⟨added l.state.engine.path l.state key 1 [v], l.docs ++ [(key, [v])]⟩ := by
  have hadd : l.state.engine.addDoc l.state.files key 1 [v] {} = _ := addDoc_complete rfl key rfl
  have hraw : readAt [v] 0 (1 : Int16).toInt.toNat = [v] := rfl
  have hstate : addStep l.state (byteCall key v) = added l.state.engine.path l.state key 1 [v] := by
    simp only [addStep, byteCall, Engine.batchAdd, Engine.batchAddFrom, hraw, hadd, ne_eq,
      not_true, if_false]
  have hdocs : completedFrom [v] (fun _ => {}) l.state.engine l.state.files [(key, 1)] 0 0
      = [(key, [v])] := by
    simp only [completedFrom, hraw, hadd, ne_eq, not_true, if_false]
  unfold Logged.add
  rw [hstate]
  exact congrArg (Logged.mk _) (congrArg _ hdocs)

/-- What the load loop reads when a record was written after a torn one: the record that it
finds there starts with a byte of the torn one. -/
theorem loadMata_shifted {mata : Bytes} (htorn : ¬ oneDocMataSize ∣ mata.length) :
    ∃ b : UInt8, ∀ record : Bytes, record.length = oneDocMataSize → ∃ rest : Bytes,
      loadMata (mata ++ record) ∅ = loadRecord (loadMata mata ∅) (b :: rest) := by
  obtain ⟨n, hn⟩ : ∃ n, n = mata.length / oneDocMataSize * oneDocMataSize := ⟨_, rfl⟩
  have hmod : 0 < mata.length % oneDocMataSize :=
    Nat.pos_of_ne_zero fun h => htorn (Nat.dvd_of_mod_eq_zero h)
  have hlt : mata.length % oneDocMataSize < oneDocMataSize := Nat.mod_lt _ (by decide)
  have hdiv := Nat.div_add_mod' mata.length oneDocMataSize
  have hlen : (mata.take n).length = n := List.length_take_of_le (by omega)
  have hdrop : (mata.drop n).length = mata.length % oneDocMataSize := by
    rw [List.length_drop]
    omega
  have hwhole : oneDocMataSize ∣ (mata.take n).length := by
    rw [hlen, hn]
    exact Nat.dvd_mul_left _ _
  have hold : loadMata mata ∅ = foldRecords oneDocMataSize loadRecord ∅ (mata.take n) := by
    have htail := foldRecords_append_tail loadRecord ∅ hwhole (hdrop ▸ hlt)
    rw [List.take_append_drop] at htail
    exact htail
  cases htail : mata.drop n with
  | nil =>
    rw [htail, List.length_nil] at hdrop
    omega
  | cons b bs =>
    refine ⟨b, fun record hrecord => ⟨(bs ++ record).take (oneDocMataSize - 1), ?_⟩⟩
    have hlength : (b :: bs ++ record).length = mata.length % oneDocMataSize + oneDocMataSize := by
      rw [List.length_append, ← htail, hdrop, hrecord]
    have hnew := foldRecords_append_shifted loadRecord ∅ hwhole
      (show oneDocMataSize ≤ (b :: bs ++ record).length by omega) (by omega)
    rw [← List.append_assoc, ← htail, List.take_append_drop, htail, ← hold] at hnew
    exact hnew

/-- **A torn record costs a document**: after a restart on a metadata file that ends within a
record, some document is added without an error and not found after the next restart. -/
theorem reads_lost {path : String} {l : Logged} (h : Tracked path l)
    (htorn : ¬ oneDocMataSize ∣ l.state.mata.length) : ∃ (key : Int32) (v : UInt8),
    ¬ Reads ((l.restart.add (byteCall key v)).restart).state
      ((l.restart.add (byteCall key v)).restart).docs := by
  have hengine := engine_restart h
  obtain ⟨b, hshifted⟩ := loadMata_shifted htorn
  obtain ⟨key, v, hkey, hold⟩ := exists_unread b (lastAdded l.docs)
  refine ⟨key, v, fun hreads => hold ?_⟩
  obtain ⟨s, hs⟩ : ∃ s, s = added l.restart.state.engine.path l.restart.state key 1 [v] := ⟨_, rfl⟩
  have hmata : s.mata = l.state.mata ++ mataRecord key l.state.data.length 1 := by
    rw [hs, mata_added_eq, hengine, mata_restart, writeAt_length]
  have hdata : s.data = l.state.data ++ [v] := by
    rw [hs, data_added_eq, data_writeData, hengine, data_restart, writeAt_length]
  -- the place of the key is what it was before the call
  have hplace : (opened s.engine.path s.files).engine.keyToOffset[key.toInt]?
      = l.state.engine.keyToOffset[key.toInt]? := by
    obtain ⟨rest, hload⟩ := hshifted _ (length_mataRecord key l.state.data.length 1)
    have hne : compare (signedOf ((b :: rest).take 4)) key.toInt ≠ .eq := by
      intro hc
      rw [← compare_eq_iff_eq.mp hc] at hkey
      exact hkey signedOf_emod
    rw [engine_opened]
    show (loadMata s.mata ∅)[key.toInt]? = _
    rw [hmata, hload, loadRecord, Std.TreeMap.getElem?_insert, if_neg hne, ← h.index]
  have hget : (opened s.engine.path s.files).engine.get (opened s.engine.path s.files).files key
      .complete = lastAdded l.docs key := by
    rw [← h.reads key]
    refine (get_frame hplace.symm (h.inside key.toInt) ?_ _).symm
    rw [data_opened]
    show _ = s.data.take _
    rw [hdata, List.take_append_of_le_length h.raw]
  rw [add_byteCall, ← hs] at hreads
  rw [← hget]
  refine (hreads key).trans ?_
  show lastAdded (l.docs ++ [(key, [v])]) key = [v]
  rw [lastAdded_concat, if_pos rfl]

/-! ### Torn writes -/

def HasRoom (s : EngineState) : Prop :=
  s.data.length + 1 < 2 ^ 63 ∧ s.mata.length + oneDocMataSize < 2 ^ 31

theorem addFits_byte {s : EngineState} {key : Int32} {v : UInt8} (out : Nat → AddOutcome)
    (hoff : s.engine.rawDataOffset + 1 < 2 ^ 63)
    (hbelow : (addStep s { byteCall key v with out := out }).mata.length < 2 ^ 31) :
    AddFits s { byteCall key v with out := out } := by
  refine ⟨?_, Int.le_refl 1, hoff, hbelow⟩
  intro kv hkv
  rw [List.mem_singleton.mp hkv]
  exact Int.zero_le_ofNat 1

theorem byteCall_fits {path : String} {l : Logged} (h : Tracked path l) (hroom : HasRoom l.state)
    (key : Int32) (v : UInt8) : AddFits l.restart.state (byteCall key v) := by
  have hengine := engine_restart h
  have hstate : (addStep l.restart.state (byteCall key v)).mata.length
      = l.state.mata.length + oneDocMataSize := by
    have hadd : addStep l.restart.state (byteCall key v) = _ :=
      congrArg Logged.state (add_byteCall l.restart key v)
    rw [hadd, mata_added_eq, hengine, mata_restart, writeAt_length, List.length_append,
      length_mataRecord]
  refine addFits_byte _ ?_ ?_
  · rw [hengine]
    exact hroom.1
  · exact hstate.trans_lt hroom.2

/-- **When torn writes do no harm**: as long as no call is made by a process that was started on a
metadata file that ends within a record, every restart finds for every key the last document that
was added without an error.  The condition is needed: at a restart, every next call is safe if and
only if the file ends with a whole record. -/
theorem torn_writes_iff (path : String) (files : Files)
    (hdata : files[path ++ dataFilename]?.getD [] = [])
    (hmata : files[path ++ mataFilename]?.getD [] = []) (l : Logged)
    (hl : Reach engineStep AddsWhole ⟨opened path files, []⟩ l) :
    Reads l.restart.state l.docs ∧
    (HasRoom l.state →
      ((∀ c, AddFits l.restart.state c →
          Reads (l.restart.add c).restart.state (l.restart.add c).docs) ↔
        oneDocMataSize ∣ l.state.mata.length)) := by
  have h := tracked_run hdata hmata hl
  have hrestart := tracked_restart h
  refine ⟨hrestart.reads, fun hroom => ⟨fun hsafe => ?_, fun hwhole c hc => ?_⟩⟩
  · by_contra htorn
    obtain ⟨key, v, hlost⟩ := reads_lost h htorn
    exact hlost (hsafe (byteCall key v) (byteCall_fits h hroom key v))
  · have hoffset : oneDocMataSize ∣ l.restart.state.engine.mataOffset := by
      rw [engine_restart h]
      exact hwhole
    exact (tracked_restart (tracked_add hrestart hc hoffset)).reads

/-- One byte for a key, with a record that stops after six bytes. -/
def tornCall (key : Int32) (v : UInt8) : AddCall :=
  { byteCall key v with out := fun _ => { mata := .stops 6 } }

theorem add_tornCall (l : Logged) (key : Int32) (v : UInt8) :
    l.add (tornCall key v) = ⟨(l.state.writeData [v]).writeMata
      ((mataRecord key l.state.engine.rawDataOffset 1).take 6), l.docs⟩ := by
  have hret : Transfer.ret (.stops 6) (mataRecord key l.state.engine.rawDataOffset 1)
      ≠ oneDocMataSize := by
    show (((mataRecord key l.state.engine.rawDataOffset 1).take 6).length : Int) ≠ oneDocMataSize
    rw [List.length_take, length_mataRecord]
    decide
  obtain ⟨msg, hmsg, hadd⟩ : ∃ msg, msg ≠ "" ∧ l.state.engine.addDoc l.state.files key 1 [v]
      { mata := .stops 6 } = (msg, l.state.engine, ((l.state.writeData [v]).writeMata
        ((mataRecord key l.state.engine.rawDataOffset 1).take 6)).files) := by
    unfold Engine.addDoc
    simp only
    rw [if_neg (by exact fun h => h rfl), if_pos hret]
    refine ⟨_, ?_, rfl⟩
    rw [String.append_assoc, String.append_assoc]
    exact append_ne_empty (by decide) _
  have hraw : readAt [v] 0 (1 : Int16).toInt.toNat = [v] := rfl
  have hstate : addStep l.state (tornCall key v) = (l.state.writeData [v]).writeMata
      ((mataRecord key l.state.engine.rawDataOffset 1).take 6) := by
    simp only [addStep, tornCall, byteCall, Engine.batchAdd, Engine.batchAddFrom, hraw, hadd,
      if_pos hmsg]
    rfl
  have hdocs : completedFrom [v] (fun _ => { mata := .stops 6 }) l.state.engine l.state.files
      [(key, 1)] 0 0 = [] := by
    simp only [completedFrom, hraw, hadd, if_pos hmsg]
  unfold Logged.add
  rw [hstate]
  refine congrArg (Logged.mk _) ((congrArg _ hdocs).trans (List.append_nil _))

/-- A complete add, a torn one, and one more complete add after a restart. -/
def tornHistory : List EngineEvent :=
  [.add (byteCall 1 10), .add (tornCall 2 20), .restart, .add (byteCall 3 30), .restart]

def startLog : Logged := ⟨opened "/ps" ∅, []⟩

def tornLog : Logged where
  state := ((startLog.add (byteCall 1 10)).state.writeData [20]).writeMata
    ((mataRecord 2 (startLog.add (byteCall 1 10)).state.engine.rawDataOffset 1).take 6)
  docs := (startLog.add (byteCall 1 10)).docs

theorem tornLog_eq : (startLog.add (byteCall 1 10)).add (tornCall 2 20) = tornLog :=
  add_tornCall _ 2 20

/-- Every call of the history is one that `BatchAdd` may be given. -/
theorem tornHistory_fits :
    AddFits startLog.state (byteCall 1 10) ∧
      AddFits (startLog.add (byteCall 1 10)).state (tornCall 2 20) ∧
      AddFits tornLog.restart.state (byteCall 3 30) := by
  have htorn : addStep (startLog.add (byteCall 1 10)).state (tornCall 2 20) = tornLog.state :=
    congrArg Logged.state tornLog_eq
  refine ⟨addFits_byte _ ?_ ?_, addFits_byte _ ?_ ?_, addFits_byte _ ?_ ?_⟩
  · decide +kernel
  · decide +kernel
  · decide +kernel
  · show (addStep (startLog.add (byteCall 1 10)).state (tornCall 2 20)).mata.length < 2 ^ 31
    rw [htorn]
    decide +kernel
  · decide +kernel
  · decide +kernel

/-- The first two calls are one process, started on no files.  A restart does not read the torn
record of the key `2`, and a call after it is no longer safe. -/
theorem torn_writes_first_restart :
    let l := (startLog.add (byteCall 1 10)).add (tornCall 2 20)
    l.restart.state.engine.get l.restart.state.files 1 .complete = [10] ∧
      l.restart.state.engine.get l.restart.state.files 2 .complete = [] ∧
      ¬ ∀ c, AddFits l.restart.state c →
        Reads (l.restart.add c).restart.state (l.restart.add c).docs := by
  obtain ⟨hfits₁, hfits₂, -⟩ := tornHistory_fits
  have hrun : RunOk engineStep AddsWhole startLog (tornHistory.take 2) :=
    ⟨⟨hfits₁, by decide +kernel⟩, ⟨hfits₂, by decide +kernel⟩, trivial⟩
  obtain ⟨hreads, hsafe⟩ := torn_writes_iff "/ps" ∅ rfl rfl
    ((startLog.add (byteCall 1 10)).add (tornCall 2 20))
    (reach_of_runOk (tornHistory.take 2) startLog Reach.start hrun)
  rw [tornLog_eq] at hreads hsafe ⊢
  refine ⟨(hreads 1).trans ?_, (hreads 2).trans ?_, (hsafe ?_).not.mpr ?_⟩
  · decide +kernel
  · decide +kernel
  · constructor
    · decide +kernel
    · decide +kernel
  · decide +kernel

/-- The key `3` is added without an error after the restart, and the next restart does not find
it. -/
theorem acknowledged_add_lost :
    let l := tornHistory.foldl engineStep startLog
    l.docs = [(1, [10]), (3, [30])] ∧
      l.state.engine.get l.state.files 3 .complete = [] ∧ ¬ Reads l.state l.docs := by
  have hrun : tornHistory.foldl engineStep startLog
      = (tornLog.restart.add (byteCall 3 30)).restart := by
    rw [← tornLog_eq]
    rfl
  rw [hrun]
  have hget : (tornLog.restart.add (byteCall 3 30)).restart.state.engine.get
      (tornLog.restart.add (byteCall 3 30)).restart.state.files 3 .complete = [] := by
    decide +kernel
  have hdocs : (tornLog.restart.add (byteCall 3 30)).restart.docs = [(1, [10]), (3, [30])] := by
    decide +kernel
  refine ⟨hdocs, hget, fun hreads => ?_⟩
  have hwrong := hreads 3
  rw [hget, hdocs] at hwrong
  exact absurd hwrong (by decide)

end SimSearch.Raft
