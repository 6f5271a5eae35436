import SimSearch.Lib.Ranges
import SimSearch.Raft.Reload

/-!
# Reading many documents

`Engine::Mget` of `engine/engine.cc`.  The first loop adds up the lengths, and the second one
reads each document into the buffer, at the offset that the document has in the data file: the
`off` that counts the bytes of the buffer is hidden by the `off` of the place.

* `mgetSizes_eq`: what the first loop leaves.
* `mgetRead_complete`: the second loop copies ranges of the file in place, and writes outside of
  the buffer unless all of them lie in it.
* `mget_complete`: both together.
-/

namespace SimSearch.Raft

open SimSearch.Lib
open SimSearch.Lib.Ranges

/-! ### The two loops -/

/-- `resize` of a vector or a string: what was in it stays, as far as there is room. -/
def resize {α : Type} (fill : α) (n : Nat) (l : List α) : List α :=
  l.take n ++ List.replicate (n - l.length) fill

/-- What `Mget` returns and leaves in its two parameters. -/
structure MgetAnswer where
  ok : Bool
  docLengths : List Int
  resBuf : Bytes
  deriving DecidableEq, Repr

/-- The first loop, from the `i`-th key on: the lengths by key, and their sum. -/
def Engine.mgetSizes (e : Engine) : List Int32 → Nat → List Int → Nat → List Int × Nat
  | [], _, docLengths, allLen => (docLengths, allLen)
  | key :: keys, i, docLengths, allLen =>
    match e.keyToOffset[key.toInt]? with
    | none => e.mgetSizes keys (i + 1) docLengths allLen
    | some (_, size) => e.mgetSizes keys (i + 1) (docLengths.set i size) (allLen + size.toNat)

/-- The second loop, from the `i`-th key on, with the end of each read; `none` is a write outside
of the buffer. -/
def Engine.mgetRead (e : Engine) (data : Bytes) (out : Nat → Transfer) :
    List Int32 → Nat → Bytes → Option (Bool × Bytes)
  | [], _, resBuf => some (true, resBuf)
  | key :: keys, i, resBuf =>
    match e.keyToOffset[key.toInt]? with
    | none => e.mgetRead data out keys (i + 1) resBuf
    | some (off, size) =>
      let raw := readAt data off.toNat size.toNat
      let bytes := (out i).bytes raw
      -- `&res_buf[off]` with the `off` of the place
      if bytes ≠ [] ∧ resBuf.length < off.toNat + bytes.length then none
      else
        let resBuf := writeAt 0 resBuf off.toNat bytes
        if (out i).ret raw ≠ size then some (false, resBuf)
        else e.mgetRead data out keys (i + 1) resBuf

/-- `Engine::Mget`, with what its two parameters hold before. -/
def Engine.mget (e : Engine) (files : Files) (keys : List Int32) (docLengths : List Int)
    (resBuf : Bytes) (out : Nat → Transfer) : Option MgetAnswer :=
  let (docLengths, allLen) := e.mgetSizes keys 0 (resize 0 keys.length docLengths) 0
  (e.mgetRead (files[e.dataPath]?.getD []) out keys 0 (resize 0 allLen resBuf)).map
    fun r => ⟨r.1, docLengths, r.2⟩

theorem length_resize {α : Type} (fill : α) (n : Nat) (l : List α) :
    (resize fill n l).length = n := by
  rw [resize, List.length_append, List.length_take, List.length_replicate]
  omega

theorem getElem?_resize {α : Type} (fill : α) {n i : Nat} (h : i < n) (l : List α) :
    (resize fill n l)[i]? = some (l[i]?.getD fill) := by
  unfold resize
  by_cases hi : i < l.length
  · rw [List.getElem?_append_left (by rw [List.length_take]; omega), List.getElem?_take_of_lt h,
      List.getElem?_eq_getElem hi]
    rfl
  · rw [List.getElem?_append_right (by rw [List.length_take]; omega), List.length_take,
      List.getElem?_replicate, if_pos (by omega), List.getElem?_eq_none (by omega)]
    rfl

/-! ### The lengths -/

def Engine.ranges (e : Engine) (keys : List Int32) : List (Nat × Nat) :=
  keys.filterMap fun key => e.keyToOffset[key.toInt]?.map fun p => (p.1.toNat, p.2.toNat)

/-- The entry of a key in the lengths, which held `old`. -/
def Engine.lengthAt (e : Engine) (key : Int32) (old : Int) : Int :=
  (e.keyToOffset[key.toInt]?.map Prod.snd).getD old

theorem ranges_cons_none {e : Engine} {key : Int32} (h : e.keyToOffset[key.toInt]? = none)
    (keys : List Int32) : e.ranges (key :: keys) = e.ranges keys := by
  rw [Engine.ranges, List.filterMap_cons, h]
  rfl

theorem ranges_cons_some {e : Engine} {key : Int32} {off size : Int}
    (h : e.keyToOffset[key.toInt]? = some (off, size)) (keys : List Int32) :
    e.ranges (key :: keys) = (off.toNat, size.toNat) :: e.ranges keys := by
  rw [Engine.ranges, List.filterMap_cons, h]
  rfl

/-- The first loop, when it has come to the entries `rest`. -/
theorem mgetSizes_eq (e : Engine) : ∀ (keys : List Int32) (done rest : List Int) (allLen : Nat),
    rest.length = keys.length →
    e.mgetSizes keys done.length (done ++ rest) allLen
      = (done ++ List.zipWith e.lengthAt keys rest, allLen + total (e.ranges keys)) := by
  intro keys
  induction keys with
  | nil =>
    intro done rest allLen hlen
    rw [List.length_eq_zero_iff.mp hlen]
    rfl
  | cons key keys ih =>
    intro done rest allLen hlen
    obtain ⟨old, rest, rfl⟩ := List.exists_cons_of_length_eq_add_one hlen
    have hrest : rest.length = keys.length := Nat.succ.inj hlen
    rw [List.zipWith_cons_cons]
    cases hplace : e.keyToOffset[key.toInt]? with
    | none =>
      have hat : e.lengthAt key old = old := by
        rw [Engine.lengthAt, hplace]
        rfl
      have hnext := ih (done ++ [old]) rest allLen hrest
      rw [List.length_append, List.append_assoc, List.append_assoc] at hnext
      simp only [Engine.mgetSizes, hplace, hat, ranges_cons_none hplace]
      exact hnext
    | some place =>
      obtain ⟨off, size⟩ := place
      have hat : e.lengthAt key old = size := by
        rw [Engine.lengthAt, hplace]
        rfl
      have hset : (done ++ old :: rest).set done.length size = done ++ size :: rest := by
        rw [List.set_append_right _ _ (Nat.le_refl _), Nat.sub_self, List.set_cons_zero]
      have hnext := ih (done ++ [size]) rest (allLen + size.toNat) hrest
      rw [List.length_append, List.append_assoc, List.append_assoc, Nat.add_assoc] at hnext
      simp only [Engine.mgetSizes, hplace, hat, ranges_cons_some hplace, total_cons, hset]
      exact hnext

/-! ### The buffer -/

def PlacesOk (e : Engine) (keys : List Int32) : Prop :=
  ∀ key ∈ keys, ∀ off size : Int, e.keyToOffset[key.toInt]? = some (off, size) →
    0 ≤ off ∧ 0 ≤ size

/-- **The second loop, when all reads complete.** -/
theorem mgetRead_complete {e : Engine} {data : Bytes} : ∀ {keys : List Int32} (i : Nat)
    {resBuf : Bytes}, PlacesOk e keys → Within data.length (e.ranges keys) →
      (Within resBuf.length (e.ranges keys) →
        e.mgetRead data (fun _ => .complete) keys i resBuf
          = some (true, copyInPlace 0 data (e.ranges keys) resBuf)) ∧
      (¬ Within resBuf.length (e.ranges keys) →
        e.mgetRead data (fun _ => .complete) keys i resBuf = none) := by
  intro keys
  induction keys with
  | nil =>
    intro i resBuf _ _
    exact ⟨fun _ => rfl, fun hno => absurd (fun r hr => (nomatch hr)) hno⟩
  | cons key keys ih =>
    intro i resBuf hplaces hdata
    have hplaces' : PlacesOk e keys := fun k hk => hplaces k (List.mem_cons_of_mem _ hk)
    cases hplace : e.keyToOffset[key.toInt]? with
    | none =>
      rw [ranges_cons_none hplace] at hdata ⊢
      simp only [Engine.mgetRead, hplace]
      exact ih (i + 1) hplaces' hdata
    | some place =>
      obtain ⟨off, size⟩ := place
      have hsize := (hplaces key List.mem_cons_self off size hplace).2
      rw [ranges_cons_some hplace] at hdata ⊢
      obtain ⟨hdata₁, hdata₂⟩ := within_cons.mp hdata
      have hlen : (readAt data off.toNat size.toNat).length = size.toNat :=
        length_readAt_of_pos hdata₁
      have hret : Transfer.ret .complete (readAt data off.toNat size.toNat) = size := by
        show ((readAt data off.toNat size.toNat).length : Int) = size
        omega
      have hempty : readAt data off.toNat size.toNat ≠ [] ↔ 0 < size.toNat := by
        rw [← List.length_pos_iff, hlen]
      simp only [Engine.mgetRead, hplace, Transfer.bytes, hret, hlen, hempty, ne_eq, not_true,
        if_false, within_cons]
      by_cases hin : 0 < size.toNat → off.toNat + size.toNat ≤ resBuf.length
      · rw [if_neg (by omega)]
        have hkeep := length_writeAt_of_within 0 hdata₁ hin
        obtain ⟨hsome, hnone⟩ := @ih (i + 1) (writeAt 0 resBuf off.toNat
          (readAt data off.toNat size.toNat)) hplaces' hdata₂
        rw [hkeep] at hsome hnone
        exact ⟨fun hall => hsome hall.2, fun hno => hnone fun hall => hno ⟨hin, hall⟩⟩
      · rw [if_pos (by omega)]
        exact ⟨fun hall => absurd hall.1 hin, fun _ => rfl⟩

/-- **`Mget` when all reads complete.** -/
theorem mget_complete {e : Engine} {files : Files} {keys : List Int32} (docLengths : List Int)
    (resBuf : Bytes) (hplaces : PlacesOk e keys)
    (hdata : Within (files[e.dataPath]?.getD []).length (e.ranges keys)) :
    (Within (total (e.ranges keys)) (e.ranges keys) →
      e.mget files keys docLengths resBuf (fun _ => .complete)
        = some ⟨true, List.zipWith e.lengthAt keys (resize 0 keys.length docLengths),
            copyInPlace 0 (files[e.dataPath]?.getD []) (e.ranges keys)
              (resize 0 (total (e.ranges keys)) resBuf)⟩) ∧
      (¬ Within (total (e.ranges keys)) (e.ranges keys) →
        e.mget files keys docLengths resBuf (fun _ => .complete) = none) := by
  have hsizes := mgetSizes_eq e keys [] (resize 0 keys.length docLengths) 0 (length_resize ..)
  rw [List.nil_append, List.nil_append, Nat.zero_add, List.length_nil] at hsizes
  have hread := @mgetRead_complete e (files[e.dataPath]?.getD []) keys 0
    (resize 0 (total (e.ranges keys)) resBuf) hplaces hdata
  rw [length_resize] at hread
  have hmget : e.mget files keys docLengths resBuf (fun _ => .complete)
      = (e.mgetRead (files[e.dataPath]?.getD []) (fun _ => .complete) keys 0
          (resize 0 (total (e.ranges keys)) resBuf)).map
        fun r => ⟨r.1, List.zipWith e.lengthAt keys (resize 0 keys.length docLengths), r.2⟩ := by
    simp only [Engine.mget, hsizes]
  rw [hmget]
  constructor
  · intro hin
    rw [hread.1 hin]
    rfl
  · intro hno
    rw [hread.2 hno]
    rfl

/-! ### Agreement with `Get` -/

/-- What `Mget` should do: succeed, without a write outside of the buffer, with the lengths of
what `Get` returns and with these documents one after the other. -/
def AgreesWithGet (e : Engine) (files : Files) (keys : List Int32) (docLengths : List Int)
    (resBuf : Bytes) : Prop :=
  e.mget files keys docLengths resBuf (fun _ => .complete) = some
    ⟨true, keys.map fun key => ((e.get files key .complete).length : Int),
      keys.flatMap fun key => e.get files key .complete⟩

/-- The lengths that are passed in are zero for the keys that are missing, as those of a fresh
vector are. -/
def FreshLengths (e : Engine) (keys : List Int32) (docLengths : List Int) : Prop :=
  ∀ (i : Nat) (key : Int32), keys[i]? = some key → e.keyToOffset[key.toInt]? = none →
    docLengths[i]?.getD 0 = 0

theorem get_complete {e : Engine} {files : Files} {key : Int32} {off size : Int}
    (h : e.keyToOffset[key.toInt]? = some (off, size))
    (hdata : 0 < size.toNat → off.toNat + size.toNat ≤ (files[e.dataPath]?.getD []).length) :
    e.get files key .complete = readAt (files[e.dataPath]?.getD []) off.toNat size.toNat := by
  have hlen : (readAt (files[e.dataPath]?.getD []) off.toNat size.toNat).length = size.toNat :=
    length_readAt_of_pos hdata
  simp only [Engine.get, h, Transfer.bytes, hlen, Nat.sub_self, List.replicate_zero,
    List.append_nil]

theorem flatMap_get {e : Engine} {files : Files} : ∀ {keys : List Int32},
    Within (files[e.dataPath]?.getD []).length (e.ranges keys) →
    (keys.flatMap fun key => e.get files key .complete)
      = gather (files[e.dataPath]?.getD []) (e.ranges keys) := by
  intro keys
  induction keys with
  | nil => intro _; rfl
  | cons key keys ih =>
    intro hdata
    rw [List.flatMap_cons]
    cases hplace : e.keyToOffset[key.toInt]? with
    | none =>
      rw [ranges_cons_none hplace] at hdata ⊢
      rw [get_of_none hplace, List.nil_append, ih hdata]
    | some place =>
      obtain ⟨off, size⟩ := place
      rw [ranges_cons_some hplace] at hdata ⊢
      obtain ⟨hdata₁, hdata₂⟩ := within_cons.mp hdata
      rw [gather_cons, get_complete hplace hdata₁, ih hdata₂]

/-- The lengths are right when the vector is fresh where keys are missing. -/
theorem lengths_eq_iff {e : Engine} (files : Files) {keys : List Int32} (hplaces : PlacesOk e keys)
    (docLengths : List Int) :
    List.zipWith e.lengthAt keys (resize 0 keys.length docLengths)
        = keys.map (fun key => ((e.get files key .complete).length : Int))
      ↔ FreshLengths e keys docLengths := by
  have hat : ∀ (i : Nat) (key : Int32), keys[i]? = some key →
      (List.zipWith e.lengthAt keys (resize 0 keys.length docLengths))[i]?
        = some (e.lengthAt key (docLengths[i]?.getD 0)) := by
    intro i key hkey
    have hi := (List.getElem?_eq_some_iff.mp hkey).1
    rw [List.getElem?_zipWith, hkey, getElem?_resize 0 hi]
  have hone : ∀ (i : Nat) (key : Int32), keys[i]? = some key →
      (e.lengthAt key (docLengths[i]?.getD 0) = ((e.get files key .complete).length : Int) ↔
        (e.keyToOffset[key.toInt]? = none → docLengths[i]?.getD 0 = 0)) := by
    intro i key hkey
    rw [Engine.lengthAt]
    cases hplace : e.keyToOffset[key.toInt]? with
    | none =>
      rw [get_of_none hplace]
      exact ⟨fun h _ => h, fun h => h rfl⟩
    | some place =>
      obtain ⟨off, size⟩ := place
      have hsize := (hplaces key (List.mem_of_getElem? hkey) off size hplace).2
      rw [length_get hplace]
      refine ⟨fun _ h => (nomatch h), fun _ => ?_⟩
      show size = _
      omega
  constructor
  · intro heq i key hkey hnone
    have hi := congrArg (·[i]?) heq
    simp only [hat i key hkey, List.getElem?_map, hkey, Option.map_some, Option.some.injEq] at hi
    exact (hone i key hkey).mp hi hnone
  · intro hfresh
    refine List.ext_getElem? fun i => ?_
    cases hkey : keys[i]? with
    | none => rw [List.getElem?_zipWith, List.getElem?_map, hkey]; rfl
    | some key =>
      rw [hat i key hkey, List.getElem?_map, hkey, (hone i key hkey).mpr (hfresh i key hkey)]
      rfl

/-- `Mget` agrees with `Get` exactly if its writes stay in the buffer, its lengths are fresh, and
the copy in place is what should be gathered. -/
theorem agreesWithGet_iff {e : Engine} {files : Files} {keys : List Int32} (docLengths : List Int)
    (resBuf : Bytes) (hplaces : PlacesOk e keys)
    (hdata : Within (files[e.dataPath]?.getD []).length (e.ranges keys)) :
    AgreesWithGet e files keys docLengths resBuf ↔
      Within (total (e.ranges keys)) (e.ranges keys) ∧ FreshLengths e keys docLengths ∧
        copyInPlace 0 (files[e.dataPath]?.getD []) (e.ranges keys)
            (resize 0 (total (e.ranges keys)) resBuf)
          = gather (files[e.dataPath]?.getD []) (e.ranges keys) := by
  obtain ⟨hsome, hnone⟩ := mget_complete docLengths resBuf hplaces hdata
  unfold AgreesWithGet
  by_cases hin : Within (total (e.ranges keys)) (e.ranges keys)
  · rw [hsome hin, Option.some.injEq, MgetAnswer.mk.injEq, lengths_eq_iff files hplaces,
      flatMap_get hdata]
    tauto
  · rw [hnone hin]
    exact ⟨fun h => (nomatch h), fun h => absurd h.1 hin⟩

theorem Recorded.placesOk {s : EngineState} (h : Recorded s) (keys : List Int32) :
    PlacesOk s.engine keys := fun _ _ off size hplace =>
  ⟨(h.inside _ off size hplace).1, (h.inside _ off size hplace).2.1⟩

theorem Recorded.within {s : EngineState} (h : Recorded s) (keys : List Int32) :
    Within s.data.length (s.engine.ranges keys) := by
  intro r hr _
  obtain ⟨key, _, hkey⟩ := List.mem_filterMap.mp hr
  obtain ⟨⟨off, size⟩, hplace, rfl⟩ := Option.map_eq_some_iff.mp hkey
  have hin := h.inside _ off size hplace
  have hraw := h.raw
  show off.toNat + size.toNat ≤ s.data.length
  omega

theorem exists_third_byte (a b : UInt8) : ∃ v, v ≠ a ∧ v ≠ b := by
  by_cases h₀ : a = 0 ∨ b = 0
  · by_cases h₁ : a = 1 ∨ b = 1
    · refine ⟨2, ?_⟩
      rcases h₀ with rfl | rfl
      · rcases h₁ with h | rfl
        · exact absurd h (by decide)
        · decide
      · rcases h₁ with rfl | h
        · decide
        · exact absurd h (by decide)
    · rw [not_or] at h₁
      exact ⟨1, Ne.symm h₁.1, Ne.symm h₁.2⟩
  · rw [not_or] at h₀
    exact ⟨0, Ne.symm h₀.1, Ne.symm h₀.2⟩

/-- **When `Mget` agrees with `Get`.**  In every state that was reached, for every list of keys,
when all reads complete:

* the writes stay in the buffer exactly if every document that is asked for ends, in the data
  file, before the sum of the lengths;
* if they do, the call succeeds, and the lengths are right if the vector is fresh;
* all is right if also each document starts, in the data file, where the documents that are asked
  for before it would end; and this is needed, if it is to be right for every content of the
  data file. -/
theorem mget_agrees_iff {path : String} {files : Files} (hfiles : FilesOk path files)
    {s : EngineState} (hs : Reach addStep AddFits (opened path files) s) (keys : List Int32)
    (docLengths : List Int) (resBuf : Bytes) :
    ((s.engine.mget s.files keys docLengths resBuf (fun _ => .complete)).isSome = true ↔
      Within (total (s.engine.ranges keys)) (s.engine.ranges keys)) ∧
    (∀ ans, s.engine.mget s.files keys docLengths resBuf (fun _ => .complete) = some ans →
      ans.ok = true ∧ (FreshLengths s.engine keys docLengths → ans.docLengths
        = keys.map fun key => ((s.engine.get s.files key .complete).length : Int))) ∧
    (FreshLengths s.engine keys docLengths → ConsecutiveFrom 0 (s.engine.ranges keys) →
      AgreesWithGet s.engine s.files keys docLengths resBuf) ∧
    ((∀ data : Bytes, data.length = s.data.length → AgreesWithGet s.engine
        (s.files.insert s.engine.dataPath data) keys docLengths resBuf) ↔
      FreshLengths s.engine keys docLengths ∧ ConsecutiveFrom 0 (s.engine.ranges keys)) := by
  have h := recorded_run hfiles hs
  have hplaces := h.placesOk keys
  have hdata := h.within keys
  obtain ⟨hsome, hnone⟩ := mget_complete docLengths resBuf hplaces hdata
  -- what the condition gives, for any bytes of the data file
  have hright : ∀ {files' : Files},
      Within (files'[s.engine.dataPath]?.getD []).length (s.engine.ranges keys) →
      FreshLengths s.engine keys docLengths → ConsecutiveFrom 0 (s.engine.ranges keys) →
      AgreesWithGet s.engine files' keys docLengths resBuf := by
    intro files' hdata' hfresh hcons
    have hin := within_consecutive hcons
    rw [Nat.zero_add] at hin
    exact (agreesWithGet_iff docLengths resBuf hplaces hdata').mpr
      ⟨hin, hfresh, copyInPlace_eq_gather 0 hcons hdata' (length_resize ..)⟩
  have hinsert : ∀ data : Bytes,
      (s.files.insert s.engine.dataPath data)[s.engine.dataPath]?.getD [] = data := by
    intro data
    rw [Std.TreeMap.getElem?_insert_self]
    rfl
  have hdata' : ∀ data : Bytes, data.length = s.data.length →
      Within ((s.files.insert s.engine.dataPath data)[s.engine.dataPath]?.getD []).length
        (s.engine.ranges keys) := by
    intro data hlen
    rw [hinsert, hlen]
    exact hdata
  refine ⟨?_, fun ans hans => ?_, hright hdata, fun hall => ?_,
    fun hcond data hlen => hright (hdata' data hlen) hcond.1 hcond.2⟩
  · by_cases hin : Within (total (s.engine.ranges keys)) (s.engine.ranges keys)
    · rw [hsome hin]
      exact ⟨fun _ => hin, fun _ => rfl⟩
    · rw [hnone hin]
      exact ⟨fun hc => (nomatch hc), fun hc => absurd hc hin⟩
  · by_cases hin : Within (total (s.engine.ranges keys)) (s.engine.ranges keys)
    · rw [hsome hin] at hans
      cases hans
      exact ⟨rfl, (lengths_eq_iff s.files hplaces docLengths).mpr⟩
    · rw [hnone hin] at hans
      cases hans
  · obtain ⟨hin, hfresh, -⟩ := (agreesWithGet_iff docLengths resBuf hplaces
      (hdata' s.data rfl)).mp (hall s.data rfl)
    have hbuf : Within (resize 0 (total (s.engine.ranges keys)) resBuf).length
        (s.engine.ranges keys) := by
      rw [length_resize]
      exact hin
    refine ⟨hfresh, consecutive_of_copyInPlace 0 exists_third_byte hdata hbuf fun data hlen => ?_⟩
    have hcopy := ((agreesWithGet_iff docLengths resBuf hplaces (hdata' data hlen)).mp
      (hall data hlen)).2.2
    rw [hinsert] at hcopy
    exact hcopy

def pairCall : AddCall := { kvList := [(1, 2), (-7, 3)], data := [10, 11, 12, 13, 14] }

def pair : EngineState := addStep (opened "/ps" ∅) pairCall

theorem pairCall_fits : AddFits (opened "/ps" ∅) pairCall := by
  refine ⟨?_, by decide, by decide +kernel, by decide +kernel⟩
  unfold pairCall
  rw [List.forall_mem_cons, List.forall_mem_singleton]
  decide

/-- In the order of the file, with a missing key, all is right. -/
theorem mget_agrees_in_order : AddFits (opened "/ps" ∅) pairCall ∧
    pair.engine.mget pair.files [1, 4, -7] [] [] (fun _ => .complete)
      = some ⟨true, [2, 0, 3], [10, 11, 12, 13, 14]⟩ := by
  have hs : Reach addStep AddFits (opened "/ps" ∅) pair :=
    Reach.next pairCall Reach.start pairCall_fits
  obtain ⟨-, -, hright, -⟩ := mget_agrees_iff (filesOk_empty rfl) hs [1, 4, -7] [] []
  have hranges : pair.engine.ranges [1, 4, -7] = [(0, 2), (2, 3)] := by decide +kernel
  refine ⟨pairCall_fits, (hright (fun i key _ _ => rfl) ?_).trans (by decide +kernel)⟩
  rw [hranges]
  exact ⟨fun _ => rfl, fun _ => rfl, trivial⟩

/-- The second document alone is written behind the end of the buffer, and the two documents in
the other order come back in the order of the file. -/
theorem mget_writes_outside : AddFits (opened "/ps" ∅) pairCall ∧
    pair.engine.get pair.files (-7) .complete = [12, 13, 14] ∧
    pair.engine.mget pair.files [-7] [] [] (fun _ => .complete) = none ∧
    pair.engine.mget pair.files [-7, 1] [] [] (fun _ => .complete)
      = some ⟨true, [3, 2], [10, 11, 12, 13, 14]⟩ ∧
    ¬ AgreesWithGet pair.engine pair.files [-7] [] [] ∧
    ¬ AgreesWithGet pair.engine pair.files [-7, 1] [] [] := by
  refine ⟨pairCall_fits, by decide +kernel, by decide +kernel, by decide +kernel, ?_, ?_⟩
  · unfold AgreesWithGet
    decide +kernel
  · unfold AgreesWithGet
    decide +kernel

end SimSearch.Raft
