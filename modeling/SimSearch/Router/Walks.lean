import SimSearch.Router.Lookup

/-!
# Lookups cell by cell

`OneWriterMultiReaderMap::Get` of `utils/one_writer_multi_reader_map.cc` takes no lock: it goes
from cell to cell while `Put` and `Delete` change the bucket.  `AddSpace` and `DeleteSpace` of
`service/router/space_manager.cc` exclude each other, but they write twice, once to a slot and once
to the index, and lookups come in between.

* `keys_put` and `keys_delete`: a bucket only grows, and its cells keep their keys.  So the cells
  that a walk has passed are still there, and none of them is of its key (`Passed`).
* `returns_get`: the number with which a walk ends is the one that the map has at that moment.
* `SlotFilled.wf`, `wf_beginDelete` and `wf_finishCall`: the index names the right slots also
  between the two writes.

Reads and writes of a number are taken to be atomic, and a new cell is seen when it is complete.
-/

namespace SimSearch.Router

open SimSearch.Lib

variable {env : Env}

/-! ### The two writes -/

/-- What the writer that holds `_mtx` has still to do. -/
inductive Writing
  /-- `AddSpace` has filled the slot; a space in a new slot goes to the local list as well. -/
  | put (key : String) (i : Nat) (added : LocalSpaces)
  /-- `DeleteSpace` has removed the key from the index. -/
  | clear (i : Nat)

/-- `AddSpace` up to its first write; `none` if it refuses the space. -/
def beginAdd (env : Env) (s : State) (space : Space) : Option (State × Writing) :=
  let m := s.manager
  let conn := connOf env space
  if 0 ≤ m.spaceIdxMp.get env.hasher conn.spaceKey then none
  else
    m.freeSlot.elim
      (if m.capacity ≤ m.spacesConn.length then none
        else some ({ s with manager := m.pushBack conn },
          .put conn.spaceKey m.spacesConn.length [space]))
      fun i => some ({ s with manager := { m with spacesConn := m.spacesConn.set i (some conn) } },
        .put conn.spaceKey i [])

/-- `DeleteSpace` up to its first write. -/
def beginDelete (env : Env) (s : State) (key : String) : Option (State × Writing) :=
  let m := s.manager
  let idx := m.spaceIdxMp.get env.hasher key
  if 0 ≤ idx then
    some ({ s with manager := { m with spaceIdxMp := (m.spaceIdxMp.delete env.hasher key).2 } },
      .clear idx.toNat)
  else none

def beginCall (env : Env) (s : State) : Call → Option (State × Writing)
  | .addSpace space => beginAdd env s space
  | .deleteSpace key => beginDelete env s key

def finishCall (env : Env) (s : State) : Writing → State
  | .put key i added =>
    { manager := s.manager.putIdx env key i, localSpaces := s.localSpaces ++ added }
  | .clear i =>
    { s with manager := { s.manager with spacesConn := s.manager.spacesConn.set i none } }

/-- **The two writes are the call.** -/
theorem finishCall_beginCall (s : State) (c : Call) :
    ((beginCall env s c).elim s fun x => finishCall env x.1 x.2) = step env s c := by
  cases c with
  | addSpace space =>
    simp only [beginCall, beginAdd, step, addSpace]
    by_cases hkey : 0 ≤ s.manager.spaceIdxMp.get env.hasher (connOf env space).spaceKey
    · simp only [if_pos hkey, Option.elim_none]
    · simp only [if_neg hkey]
      cases hfree : s.manager.freeSlot with
      | some i => simp only [Option.elim_some, finishCall, List.append_nil]
      | none =>
        by_cases hcap : s.manager.capacity ≤ s.manager.spacesConn.length
        · simp only [if_pos hcap, Option.elim_none]
        · simp only [if_neg hcap, Option.elim_none, Option.elim_some, finishCall]
          rfl
  | deleteSpace key =>
    simp only [beginCall, beginDelete, step, deleteSpace]
    by_cases hkey : 0 ≤ s.manager.spaceIdxMp.get env.hasher key
    · simp only [if_pos hkey, Option.elim_some, finishCall]
    · simp only [if_neg hkey, Option.elim_none]

/-! ### Walks -/

structure Walk where
  key : String
  passed : Nat := 0

/-- A lookup that has a number and has not read the slot. -/
structure Claim where
  key : String
  slot : Nat

structure Walks where
  state : State
  writing : Option Writing := none
  walks : List Walk := []
  claims : List Claim := []
  answered : List (String × SpaceConnection) := []

inductive WalkEvent
  /-- A call takes `_mtx` and makes its first write. -/
  | enter (c : Call)
  /-- It makes the second one, and the mutex is free. -/
  | finish
  /-- A lookup of the key begins. -/
  | get (key : String)
  /-- The `n`-th walk goes on by one cell. -/
  | next (n : Nat)
  /-- The `n`-th lookup with a number reads its slot. -/
  | readConn (n : Nat)

def State.cells (env : Env) (s : State) (key : String) : List Cell :=
  s.manager.spaceIdxMp.buckets (bucketOf env.hasher key)

def Walk.returns (env : Env) (s : State) (w : Walk) : Option Int :=
  match (s.cells env w.key)[w.passed]? with
  | none => some (-1)
  | some c => if c.key = w.key then some c.idx else none

def Walks.step (env : Env) (r : Walks) : WalkEvent → Walks
  | .enter c =>
    if r.writing.isSome then r
    else (beginCall env r.state c).elim r fun x => { r with state := x.1, writing := some x.2 }
  | .finish =>
    r.writing.elim r fun x => { r with state := finishCall env r.state x, writing := none }
  | .get key => if key.utf8ByteSize ≤ 1 then r else { r with walks := r.walks ++ [⟨key, 0⟩] }
  | .next n =>
    match r.walks[n]? with
    | none => r
    | some w =>
      (w.returns env r.state).elim { r with walks := r.walks.set n ⟨w.key, w.passed + 1⟩ } fun v =>
        { r with
          walks := r.walks.eraseIdx n
          claims := if 0 ≤ v then r.claims ++ [⟨w.key, v.toNat⟩] else r.claims }
  | .readConn n =>
    match r.claims[n]? with
    | none => r
    | some p =>
      let r := { r with claims := r.claims.eraseIdx n }
      match readSlot r.state.manager p.key p.slot with
      | .null _ => r
      | .outOfRange => r
      | .found conn => { r with answered := r.answered ++ [(p.key, conn)] }

/-! ### Buckets only grow -/

theorem keys_update {m : OneWriterMultiReaderMap} {b : Fin bucketCount} {cs : List Cell}
    (h : (m.buckets b).map Cell.key <+: cs.map Cell.key) (b' : Fin bucketCount) :
    (m.buckets b').map Cell.key <+: (Function.update m.buckets b cs b').map Cell.key := by
  by_cases hb : b' = b
  · subst hb
    rw [Function.update_self]
    exact h
  · rw [Function.update_of_ne hb]

theorem keys_put (hasher : String → UInt64) (m : OneWriterMultiReaderMap) (key : String) (idx : Int)
    (b : Fin bucketCount) :
    (m.buckets b).map Cell.key <+: ((m.put hasher key idx).2.buckets b).map Cell.key := by
  show _ <+: ((IndexLaws.put (strHashUint64 hasher) m.buckets key idx).2 b).map Cell.key
  rw [IndexLaws.put]
  split_ifs
  · exact List.prefix_rfl
  · exact keys_update (by rw [keys_assignIn]) b
  · have hkeys : (m.buckets (bucketOf hasher key)).map Cell.key
        <+: (m.buckets (bucketOf hasher key) ++ [Cell.mk idx key]).map Cell.key := by
      rw [List.map_append]
      exact List.prefix_append _ _
    exact keys_update hkeys b

theorem keys_delete (hasher : String → UInt64) (m : OneWriterMultiReaderMap) (key : String)
    (b : Fin bucketCount) :
    (m.buckets b).map Cell.key <+: ((m.delete hasher key).2.buckets b).map Cell.key :=
  keys_update (by rw [keys_eraseIn]) b

/-- The first write of an add is to a slot, and that of a delete to the index. -/
theorem keys_beginCall {s s' : State} {c : Call} {x : Writing}
    (h : beginCall env s c = some (s', x)) (b : Fin bucketCount) :
    (s.manager.spaceIdxMp.buckets b).map Cell.key
      <+: (s'.manager.spaceIdxMp.buckets b).map Cell.key := by
  cases c with
  | addSpace space =>
    have hsame : s'.manager.spaceIdxMp = s.manager.spaceIdxMp := by
      simp only [beginCall, beginAdd] at h
      by_cases hkey : 0 ≤ s.manager.spaceIdxMp.get env.hasher (connOf env space).spaceKey
      · rw [if_pos hkey] at h
        cases h
      rw [if_neg hkey] at h
      cases hfree : s.manager.freeSlot with
      | some i =>
        rw [hfree] at h
        cases h
        rfl
      | none =>
        rw [hfree, Option.elim_none] at h
        split_ifs at h
        cases h
        rfl
    rw [hsame]
  | deleteSpace key =>
    simp only [beginCall, beginDelete] at h
    split_ifs at h
    cases h
    exact keys_delete env.hasher _ key b

theorem keys_finishCall (s : State) (x : Writing) (b : Fin bucketCount) :
    (s.manager.spaceIdxMp.buckets b).map Cell.key
      <+: ((finishCall env s x).manager.spaceIdxMp.buckets b).map Cell.key := by
  cases x with
  | put key i added => exact keys_put env.hasher _ key _ b
  | clear i => exact List.prefix_rfl

/-! ### What a walk returns -/

/-- No cell that was passed is of the key. -/
structure Passed (env : Env) (s : State) (w : Walk) : Prop where
  within : w.passed ≤ (s.cells env w.key).length
  other : w.key ∉ ((s.cells env w.key).map Cell.key).take w.passed

theorem Passed.of_keys {s s' : State} {w : Walk} (h : Passed env s w)
    (hkeys : (s.cells env w.key).map Cell.key <+: (s'.cells env w.key).map Cell.key) :
    Passed env s' w := by
  have hle := hkeys.length_le
  rw [List.length_map, List.length_map] at hle
  refine ⟨h.within.trans hle, ?_⟩
  obtain ⟨more, hmore⟩ := hkeys
  rw [← hmore, List.take_append_of_le_length (by rw [List.length_map]; exact h.within)]
  exact h.other

/-- The cell at which a walk of the key stops is the first one of the key. -/
theorem idxIn_of_passed {key : String} {cs : List Cell} {p : Nat} {c : Cell}
    (h : key ∉ (cs.map Cell.key).take p) (hc : cs[p]? = some c) (hkey : c.key = key) :
    idxIn key cs = c.idx := by
  induction cs generalizing p with
  | nil => cases hc
  | cons d cs ih =>
    rw [idxIn]
    cases p with
    | zero =>
      rw [List.getElem?_cons_zero, Option.some.injEq] at hc
      rw [hc, if_pos hkey]
    | succ p =>
      rw [List.map_cons, List.take_succ_cons, List.mem_cons, not_or] at h
      rw [if_neg (Ne.symm h.1)]
      exact ih h.2 (by rwa [List.getElem?_cons_succ] at hc)

/-- **A walk ends with the number that the map has at that moment.** -/
theorem returns_get {s : State} {w : Walk} (h : Passed env s w) {v : Int}
    (hv : w.returns env s = some v) : v = s.manager.spaceIdxMp.get env.hasher w.key := by
  show v = idxIn w.key (s.cells env w.key)
  unfold Walk.returns at hv
  cases hcell : (s.cells env w.key)[w.passed]? with
  | none =>
    have hend : w.passed = (s.cells env w.key).length :=
      Nat.le_antisymm h.within (List.getElem?_eq_none_iff.mp hcell)
    have habsent := h.other
    rw [hend, ← List.length_map (f := Cell.key), List.take_length] at habsent
    rw [hcell, Option.some.injEq] at hv
    rw [idxIn_of_notMem habsent, hv]
  | some c =>
    simp only [hcell] at hv
    by_cases hkey : c.key = w.key
    · rw [if_pos hkey, Option.some.injEq] at hv
      rw [idxIn_of_passed h.other hcell hkey, hv]
    · rw [if_neg hkey] at hv
      cases hv

theorem Passed.next {s : State} {w : Walk} (h : Passed env s w) (hgo : w.returns env s = none) :
    Passed env s ⟨w.key, w.passed + 1⟩ := by
  unfold Walk.returns at hgo
  cases hcell : (s.cells env w.key)[w.passed]? with
  | none =>
    rw [hcell] at hgo
    cases hgo
  | some c =>
    simp only [hcell] at hgo
    by_cases hkey : c.key = w.key
    · rw [if_pos hkey] at hgo
      cases hgo
    have hlt : w.passed < (s.cells env w.key).length := (List.getElem?_eq_some_iff.mp hcell).1
    have hnext : ((s.cells env w.key).map Cell.key)[w.passed]? = some c.key := by
      rw [List.getElem?_map, hcell, Option.map_some]
    refine ⟨hlt, ?_⟩
    show w.key ∉ ((s.cells env w.key).map Cell.key).take (w.passed + 1)
    rw [List.take_add_one, hnext, List.mem_append, not_or]
    exact ⟨h.other, fun hmem => hkey (List.mem_singleton.mp hmem).symm⟩

/-! ### Any interleaving -/

theorem passed_step {r : Walks} (h : ∀ w ∈ r.walks, Passed env r.state w) (e : WalkEvent) :
    ∀ w ∈ (r.step env e).walks, Passed env (r.step env e).state w := by
  cases e with
  | enter c =>
    simp only [Walks.step]
    by_cases hbusy : r.writing.isSome = true
    · rw [if_pos hbusy]
      exact h
    rw [if_neg hbusy]
    cases hbegin : beginCall env r.state c with
    | none => exact h
    | some x => exact fun w hw => (h w hw).of_keys (keys_beginCall hbegin _)
  | finish =>
    simp only [Walks.step]
    cases hwriting : r.writing with
    | none => exact h
    | some x => exact fun w hw => (h w hw).of_keys (keys_finishCall r.state x _)
  | get key =>
    simp only [Walks.step]
    by_cases hsize : key.utf8ByteSize ≤ 1
    · rw [if_pos hsize]
      exact h
    · rw [if_neg hsize]
      intro w hw
      rcases List.mem_append.mp hw with hw | hw
      · exact h w hw
      · rw [List.mem_singleton.mp hw]
        exact ⟨Nat.zero_le _, List.not_mem_nil⟩
  | next n =>
    cases hw : r.walks[n]? with
    | none =>
      simp only [Walks.step, hw]
      exact h
    | some w =>
      have hpassed := h w (List.mem_of_getElem? hw)
      cases hends : w.returns env r.state with
      | none =>
        simp only [Walks.step, hw, hends, Option.elim_none]
        intro w' hw'
        rcases List.mem_or_eq_of_mem_set hw' with hold | rfl
        · exact h w' hold
        · exact hpassed.next hends
      | some v =>
        simp only [Walks.step, hw, hends, Option.elim_some]
        exact fun w' hw' => h w' (List.mem_of_mem_eraseIdx hw')
  | readConn n =>
    cases hp : r.claims[n]? with
    | none =>
      simp only [Walks.step, hp]
      exact h
    | some p =>
      cases hread : readSlot r.state.manager p.key p.slot <;> simp only [Walks.step, hp, hread]
      all_goals exact h

/-- **`Get` without a lock returns what the map holds.**  However the cells that a walk looks at
are interleaved with the writes of `Put` and `Delete` and with other walks, the number with which
it ends is the one that the map has for its key at that moment. -/
theorem get_linearizable (env : Env) (s : State) (r : Walks)
    (h : Reach (Walks.step env) anyEvent { state := s } r) (w : Walk) (hw : w ∈ r.walks) (v : Int)
    (hv : w.returns env r.state = some v) :
    v = r.state.manager.spaceIdxMp.get env.hasher w.key := by
  have hpassed := h.invariant (fun r => ∀ w ∈ r.walks, Passed env r.state w)
    (fun w hw => absurd hw List.not_mem_nil) fun r e hr _ => passed_step hr e
  exact returns_get (hpassed w hw) hv

def overtakenWalk : Walks :=
  [WalkEvent.get "db-a", .enter (.deleteSpace "db-a")].foldl (Walks.step libEnv)
    { state := (init libEnv 1000 oneLocal).2 }

theorem get_linearizable_overtaken : overtakenWalk.walks.map Walk.key = ["db-a"] ∧
    overtakenWalk.state.manager.spaceIdxMp.get libEnv.hasher "db-a" = -1 := by
  have hwalk : overtakenWalk.walks = [⟨"db-a", 0⟩] := rfl
  have hends : Walk.returns libEnv overtakenWalk.state ⟨"db-a", 0⟩ = some (-1) := by decide +kernel
  refine ⟨by rw [hwalk]; rfl, (get_linearizable libEnv _ overtakenWalk (reach_foldl _ _ _)
    ⟨"db-a", 0⟩ ?_ (-1) hends).symm⟩
  rw [hwalk]
  exact List.mem_singleton_self _

/-! ### Slots between the writes -/

/-- What the second write relies on: the slot has a connection of the key, or no key names it. -/
def Half (env : Env) (m : SpaceManager) : Writing → Prop
  | .put key i _ => i < 2 ^ 16 ∧ ∃ conn, m.slot i = some conn ∧ conn.spaceKey = key
  | .clear i => ∀ key, m.index env key ≠ some i

/-- The first write of `AddSpace`. -/
structure SlotFilled (env : Env) (s s' : State) (space : Space) (x : Writing) : Prop where
  rest : ∃ added, x = .put (connOf env space).spaceKey s.manager.nextSlot added
  free : s.manager.slot s.manager.nextSlot = none
  slot : s'.manager.slot
    = Function.update s.manager.slot s.manager.nextSlot (some (connOf env space))
  idxMp : s'.manager.spaceIdxMp = s.manager.spaceIdxMp
  capacity : s'.manager.capacity = s.manager.capacity
  next : s.manager.spacesConn.length ≤ s.manager.capacity →
    s.manager.nextSlot < s.manager.capacity
  room : s.manager.spacesConn.length ≤ s.manager.capacity →
    s'.manager.spacesConn.length ≤ s.manager.capacity

theorem slotFilled_beginAdd {s s' : State} {space : Space} {x : Writing}
    (h : beginAdd env s space = some (s', x)) : SlotFilled env s s' space x := by
  simp only [beginAdd] at h
  by_cases hkey : 0 ≤ s.manager.spaceIdxMp.get env.hasher (connOf env space).spaceKey
  · rw [if_pos hkey] at h
    cases h
  rw [if_neg hkey] at h
  cases hfree : s.manager.freeSlot with
  | some i =>
    have hnext : s.manager.nextSlot = i := by rw [SpaceManager.nextSlot, hfree, Option.getD_some]
    obtain ⟨hlt, hnone⟩ := freeSlot_some hfree
    rw [hfree, Option.elim_some] at h
    cases h
    rw [← hnext] at hlt hnone
    refine ⟨⟨[], by rw [hnext]⟩, hnone, ?_, rfl, rfl, fun hroom => by omega, fun hroom => ?_⟩
    · rw [← hnext]
      exact slotsOf_set hlt _
    · exact le_trans (le_of_eq List.length_set) hroom
  | none =>
    have hnext : s.manager.nextSlot = s.manager.spacesConn.length := by
      rw [SpaceManager.nextSlot, hfree, Option.getD_none]
    rw [hfree, Option.elim_none] at h
    by_cases hcap : s.manager.capacity ≤ s.manager.spacesConn.length
    · rw [if_pos hcap] at h
      cases h
    rw [if_neg hcap] at h
    cases h
    rw [not_le] at hcap
    refine ⟨⟨[space], by rw [hnext]⟩, ?_, ?_, rfl, if_pos hcap, fun _ => by omega, fun _ => ?_⟩
    · rw [hnext]
      exact slotsOf_length _
    · rw [hnext]
      exact slotsOf_append _ _
    · show (s.manager.spacesConn ++ [some (connOf env space)]).length ≤ _
      rw [List.length_append, List.length_singleton]
      omega

/-- **The index is right after the first write of an add**, which it does not know of yet. -/
theorem SlotFilled.wf {s s' : State} {space : Space} {x : Writing} (hs : Wf env s.manager)
    (h : SlotFilled env s s' space x) : Wf env s'.manager ∧ Half env s'.manager x := by
  have hlt := h.next hs.room
  have hbound := hs.bound
  constructor
  · refine ⟨?_, ?_, by rw [h.capacity]; exact hbound⟩
    · rw [h.slot, SpaceManager.index, h.idxMp]
      exact hs.sound.place h.free fun _ _ hj => Or.inl hj
    · rw [h.capacity]
      exact h.room hs.room
  · obtain ⟨added, rfl⟩ := h.rest
    refine ⟨by omega, connOf env space, ?_, rfl⟩
    rw [h.slot, Function.update_self]

/-- **The index is right after the first write of a delete**, and no key names the slot. -/
theorem wf_beginDelete {s s' : State} {key : String} {x : Writing} (hs : Wf env s.manager)
    (h : beginDelete env s key = some (s', x)) :
    s'.manager.slot = s.manager.slot ∧ Wf env s'.manager ∧ Half env s'.manager x := by
  simp only [beginDelete] at h
  by_cases hkey : 0 ≤ s.manager.spaceIdxMp.get env.hasher key
  · have hidx : s.manager.index env key
        = some (s.manager.spaceIdxMp.get env.hasher key).toNat := if_pos hkey
    rw [if_pos hkey] at h
    cases h
    have hdelete : ∀ k j,
        (s.manager.spaceIdxMp.delete env.hasher key).2.index env.hasher k = some j →
        s.manager.index env k = some j ∧ k ≠ key := by
      intro k j hj
      rw [OneWriterMultiReaderMap.index_delete] at hj
      by_cases hk : k = key
      · rw [hk, Function.update_self] at hj
        cases hj
      · rw [Function.update_of_ne hk] at hj
        exact ⟨hj, hk⟩
    refine ⟨rfl, ⟨hs.sound.mono fun k j hj => (hdelete k j hj).1, hs.room, hs.bound⟩, ?_⟩
    intro k hk
    obtain ⟨hold, hne⟩ := hdelete k _ hk
    exact hne (hs.sound.inj hold hidx)
  · rw [if_neg hkey] at h
    cases h

theorem wf_finishCall {s : State} {x : Writing} (hs : Wf env s.manager)
    (h : Half env s.manager x) : Wf env (finishCall env s x).manager := by
  cases x with
  | put key i added =>
    obtain ⟨hi, conn, hconn, rfl⟩ := h
    refine ⟨hs.sound.named hconn ?_, hs.room, hs.bound⟩
    exact OneWriterMultiReaderMap.names_put fun hpos => int16_of_nonneg hi hpos
  | clear i =>
    by_cases hi : i < s.manager.spacesConn.length
    · refine ⟨?_, le_trans (le_of_eq List.length_set) hs.room, hs.bound⟩
      show Sound _ (s.manager.index env) (slotsOf (s.manager.spacesConn.set i none))
      rw [slotsOf_set hi]
      exact hs.sound.vacate h
    · have hsame : s.manager.spacesConn.set i none = s.manager.spacesConn :=
        List.set_eq_of_length_le (by omega)
      simp only [finishCall, hsame]
      exact hs

/-- A lookup with a number is served right after the second write, too. -/
theorem stays_finishCall {s : State} {x : Writing} {key : String} {i : Nat}
    (h : Stays SpaceConnection.spaceKey s.manager.slot key i) :
    Stays SpaceConnection.spaceKey (finishCall env s x).manager.slot key i := by
  cases x with
  | put key' j added => exact h
  | clear j =>
    show Stays _ (slotsOf (s.manager.spacesConn.set j none)) key i
    by_cases hj : j < s.manager.spacesConn.length
    · rw [slotsOf_set hj]
      exact h.clear j
    · rw [List.set_eq_of_length_le (by omega)]
      exact h

/-! ### What lookups return -/

/-- `AddSpace` does not fill a slot that a lookup of another key is about to read. -/
def SlotsHeld (env : Env) (r : Walks) : WalkEvent → Prop
  | .enter (.addSpace space) => ∀ p ∈ r.claims, p.slot = r.state.manager.nextSlot →
      p.key = (connOf env space).spaceKey
  | _ => True

instance (env : Env) (r : Walks) : ∀ e, Decidable (SlotsHeld env r e)
  | .enter (.addSpace _) => inferInstanceAs (Decidable (∀ p ∈ _, _))
  | .enter (.deleteSpace _) => instDecidableTrue
  | .finish => instDecidableTrue
  | .get _ => instDecidableTrue
  | .next _ => instDecidableTrue
  | .readConn _ => instDecidableTrue

structure WalksOk (env : Env) (r : Walks) : Prop where
  wf : Wf env r.state.manager
  half : ∀ x, r.writing = some x → Half env r.state.manager x
  passed : ∀ w ∈ r.walks, Passed env r.state w
  claims : ∀ p ∈ r.claims, Stays SpaceConnection.spaceKey r.state.manager.slot p.key p.slot
  answered : ∀ a ∈ r.answered, a.2.spaceKey = a.1

theorem walksOk_enter {r : Walks} (h : WalksOk env r) {c : Call}
    (hheld : SlotsHeld env r (.enter c)) : WalksOk env (r.step env (.enter c)) := by
  have hpassed := passed_step h.passed (.enter c)
  simp only [Walks.step] at hpassed ⊢
  by_cases hbusy : r.writing.isSome = true
  · rw [if_pos hbusy]
    exact h
  rw [if_neg hbusy] at hpassed ⊢
  cases hbegin : beginCall env r.state c with
  | none => exact h
  | some x =>
    obtain ⟨s', x⟩ := x
    rw [hbegin] at hpassed
    cases c with
    | addSpace space =>
      have hfilled := slotFilled_beginAdd hbegin
      obtain ⟨hwf, hhalf⟩ := hfilled.wf h.wf
      refine ⟨hwf, ?_, hpassed, fun p hp => ?_, h.answered⟩
      · rintro _ ⟨⟩
        exact hhalf
      · show Stays _ s'.manager.slot p.key p.slot
        rw [hfilled.slot]
        exact (h.claims p hp).place fun hslot => (hheld p hp hslot.symm).symm
    | deleteSpace key =>
      obtain ⟨hslot, hwf, hhalf⟩ := wf_beginDelete h.wf hbegin
      refine ⟨hwf, ?_, hpassed, fun p hp => ?_, h.answered⟩
      · rintro _ ⟨⟩
        exact hhalf
      · show Stays _ s'.manager.slot p.key p.slot
        rw [hslot]
        exact h.claims p hp

theorem walksOk_finish {r : Walks} (h : WalksOk env r) : WalksOk env (r.step env .finish) := by
  have hpassed := passed_step h.passed .finish
  simp only [Walks.step] at hpassed ⊢
  cases hx : r.writing with
  | none => exact h
  | some x =>
    rw [hx] at hpassed
    refine ⟨wf_finishCall h.wf (h.half x hx), ?_, hpassed, fun p hp => ?_, h.answered⟩
    · rintro _ ⟨⟩
    · exact stays_finishCall (h.claims p hp)

/-- A walk that ends with a number has the one that the index names. -/
theorem walksOk_next {r : Walks} (h : WalksOk env r) (n : Nat) :
    WalksOk env (r.step env (.next n)) := by
  have hpassed := passed_step h.passed (.next n)
  cases hw : r.walks[n]? with
  | none =>
    simp only [Walks.step, hw]
    exact h
  | some w =>
    cases hends : w.returns env r.state with
    | none =>
      simp only [Walks.step, hw, hends, Option.elim_none] at hpassed ⊢
      exact ⟨h.wf, h.half, hpassed, h.claims, h.answered⟩
    | some v =>
      simp only [Walks.step, hw, hends, Option.elim_some] at hpassed ⊢
      refine ⟨h.wf, h.half, hpassed, fun p hp => ?_, h.answered⟩
      by_cases hpos : 0 ≤ v
      · simp only [if_pos hpos] at hp
        rcases List.mem_append.mp hp with hold | hnew
        · exact h.claims p hold
        · have hget := returns_get (h.passed w (List.mem_of_getElem? hw)) hends
          rw [List.mem_singleton.mp hnew]
          refine h.wf.sound.stays (OneWriterMultiReaderMap.index_eq_some.mpr ?_)
          rw [← hget]
          exact (Int.toNat_of_nonneg hpos).symm
      · simp only [if_neg hpos] at hp
        exact h.claims p hp

theorem walksOk_readConn {r : Walks} (h : WalksOk env r) (n : Nat) :
    WalksOk env (r.step env (.readConn n)) := by
  cases hp : r.claims[n]? with
  | none =>
    simp only [Walks.step, hp]
    exact h
  | some p =>
    have hclaims : ∀ q ∈ r.claims.eraseIdx n,
        Stays SpaceConnection.spaceKey r.state.manager.slot q.key q.slot :=
      fun q hq => h.claims q (List.mem_of_mem_eraseIdx hq)
    cases hread : readSlot r.state.manager p.key p.slot with
    | null msg =>
      simp only [Walks.step, hp, hread]
      exact ⟨h.wf, h.half, h.passed, hclaims, h.answered⟩
    | outOfRange =>
      simp only [Walks.step, hp, hread]
      exact ⟨h.wf, h.half, h.passed, hclaims, h.answered⟩
    | found conn =>
      simp only [Walks.step, hp, hread]
      refine ⟨h.wf, h.half, h.passed, hclaims, fun a ha => ?_⟩
      rcases List.mem_append.mp ha with hold | hnew
      · exact h.answered a hold
      · rw [List.mem_singleton.mp hnew]
        exact h.claims p (List.mem_of_getElem? hp) (slot_of_readSlot hread)

theorem walksOk_step {r : Walks} (h : WalksOk env r) {e : WalkEvent} (he : SlotsHeld env r e) :
    WalksOk env (r.step env e) := by
  cases e with
  | enter c => exact walksOk_enter h he
  | finish => exact walksOk_finish h
  | get key =>
    have hpassed := passed_step h.passed (.get key)
    simp only [Walks.step] at hpassed ⊢
    by_cases hsize : key.utf8ByteSize ≤ 1
    · rw [if_pos hsize]
      exact h
    · rw [if_neg hsize] at hpassed ⊢
      exact ⟨h.wf, h.half, hpassed, h.claims, h.answered⟩
  | next n => exact walksOk_next h n
  | readConn n => exact walksOk_readConn h n

/-- **A lookup returns no connection or one of its key**, also when it goes cell by cell and comes
between the two writes of an add or a delete, as long as no slot is filled for another key while
the lookup has its number. -/
theorem walked_lookup_sound (env : Env) (maxSpaceNum : Nat) (hmax : maxSpaceNum < 2 ^ 15)
    (w : Startup) (hw : w.spaces.length < 2 ^ 15) (r : Walks)
    (h : Reach (Walks.step env) (SlotsHeld env) { state := (init env maxSpaceNum w).2 } r) :
    ∀ a ∈ r.answered, a.2.spaceKey = a.1 := by
  have hstart : WalksOk env { state := (init env maxSpaceNum w).2 } := by
    refine ⟨wf_init hmax w hw, ?_, ?_, ?_, ?_⟩
    · rintro x ⟨⟩
    · exact fun w hw => absurd hw List.not_mem_nil
    · exact fun p hp => absurd hp List.not_mem_nil
    · exact fun a ha => absurd ha List.not_mem_nil
  exact (h.invariant (WalksOk env) hstart fun r e hr he => walksOk_step hr he).answered

/-- A lookup that walks past the cell of another key, while that space is deleted between its two
writes. -/
def crossingWalk : List WalkEvent :=
  [.get "db-a", .enter (.deleteSpace "db-a"), .next 0, .finish, .enter (.addSpace (spaceNamed "b")),
    .get "db-b", .finish, .next 0, .next 0, .readConn 0]

theorem walked_lookup_sound_crossing :
    (∀ a ∈ (crossingWalk.foldl (Walks.step libEnv) { state := (init libEnv 1000 oneLocal).2 }
        ).answered, a.2.spaceKey = a.1) ∧
      (crossingWalk.foldl (Walks.step libEnv) { state := (init libEnv 1000 oneLocal).2 }
        ).answered.map Prod.fst = ["db-b"] := by
  have hrun : RunOk (Walks.step libEnv) (SlotsHeld libEnv)
      { state := (init libEnv 1000 oneLocal).2 } crossingWalk := by decide +kernel
  exact ⟨walked_lookup_sound libEnv 1000 (by decide) oneLocal (by decide) _
    (reach_of_runOk crossingWalk _ Reach.start hrun), by decide +kernel⟩

end SimSearch.Router
