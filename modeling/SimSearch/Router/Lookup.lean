import SimSearch.Router.SpaceManager

/-!
# Which spaces a router finds

What `GetSpaceConn` should be is a map: `AddSpace` that answers with the empty text sets
the key, and `DeleteSpace` that does so removes it.  `Served` runs this map beside the
manager.  `exact_step` says when a call keeps the two together: the bucket of a new key
has no cell in use, its slot number fits in 16 bits, and the key is longer than one byte.
None of this is tested by the code, and a space that fails it was added for nobody to
find.

The second part takes `GetSpaceConn` apart into its two steps, the index and the slot,
with other calls between them.  A slot is given to another space as soon as it is empty,
whoever still has its number.

The last part is `given_of_found`: what holds of every space that a router was given, at its
start or by a call, holds of the space of each connection that it finds.
-/

namespace SimSearch.Router

open SimSearch.Lib

variable {env : Env}

/-! ### The map that lookups should see -/

/-- A manager, and the connections that were added and not deleted since. -/
structure Served where
  state : State
  spec : String → Option SpaceConnection

def servedStep (env : Env) (x : Served) : Call → Served
  | .addSpace space =>
    { state := (addSpace env x.state space).2
      spec := if (addSpace env x.state space).1 = "" then
          Function.update x.spec (connOf env space).spaceKey (some (connOf env space))
        else x.spec }
  | .deleteSpace key =>
    { state := (deleteSpace env x.state key).2
      spec := if (deleteSpace env x.state key).1 = "" then Function.update x.spec key none
        else x.spec }

theorem spec_of_added {x : Served} {space : Space} (h : (addSpace env x.state space).1 = "") :
    (servedStep env x (.addSpace space)).spec (connOf env space).spaceKey
      = some (connOf env space) := by
  simp only [servedStep, if_pos h]
  exact Function.update_self ..

def loadedSpec (env : Env) (spaces : List Space) (spec : String → Option SpaceConnection) :
    String → Option SpaceConnection :=
  spaces.foldl (fun spec space =>
    Function.update spec (connOf env space).spaceKey (some (connOf env space))) spec

def servedInit (env : Env) (maxSpaceNum : Nat) (w : Startup) : Served where
  state := (init env maxSpaceNum w).2
  spec := loadedSpec env w.spaces fun _ => none

/-- The space can be found where the next `AddSpace` puts it. -/
def Reachable (env : Env) (m : SpaceManager) (space : Space) : Prop :=
  m.spaceIdxMp.Idle env.hasher (connOf env space).spaceKey ∧ m.nextSlot < 2 ^ 15 ∧
    1 < (connOf env space).spaceKey.utf8ByteSize

def AddsReachable (env : Env) (x : Served) : Call → Prop
  | .addSpace space => (addSpace env x.state space).1 = "" → Reachable env x.state.manager space
  | .deleteSpace _ => True

instance (env : Env) (x : Served) : ∀ c, Decidable (AddsReachable env x c)
  | .addSpace _ => inferInstanceAs (Decidable (_ → _ ∧ _ ∧ _))
  | .deleteSpace _ => instDecidableTrue

/-- The loaded spaces are in different buckets, and their keys are long enough. -/
def Separate (env : Env) (spaces : List Space) : Prop :=
  (spaces.map fun space => bucketOf env.hasher (connOf env space).spaceKey).Nodup ∧
    ∀ space ∈ spaces, 1 < (connOf env space).spaceKey.utf8ByteSize

instance (env : Env) (spaces : List Space) : Decidable (Separate env spaces) :=
  inferInstanceAs (Decidable (_ ∧ ∀ space ∈ _, _))

/-! ### The manager refines the map -/

structure Exact (env : Env) (x : Served) : Prop where
  wf : Wf env x.state.manager
  spec : lookup (x.state.manager.index env) x.state.manager.slot = x.spec
  size : ∀ key, x.spec key ≠ none → 1 < key.utf8ByteSize

theorem SlotTaken.index {s s' : State} {space : Space} {i : Nat} (h : SlotTaken env s s' space i)
    (hidle : s.manager.spaceIdxMp.Idle env.hasher (connOf env space).spaceKey)
    (hnext : s.manager.nextSlot < 2 ^ 15) : s'.manager.index env
      = Function.update (s.manager.index env) (connOf env space).spaceKey (some i) := by
  rw [← h.next] at hnext
  unfold SpaceManager.index
  rw [h.idxMp, int16_of_lt hnext]
  exact OneWriterMultiReaderMap.index_put hidle i

theorem exact_addSpace {x : Served} (hx : Exact env x) (space : Space)
    (hr : (addSpace env x.state space).1 = "" → Reachable env x.state.manager space) :
    Exact env (servedStep env x (.addSpace space)) := by
  rcases addSpace_cases env x.state space with ⟨msg, hmsg, heq⟩ | ⟨i, s', heq, htaken⟩
  · simp only [servedStep, heq, if_neg hmsg]
    exact hx
  · have hreach := hr (by rw [heq])
    simp only [servedStep, heq, if_true]
    refine ⟨hx.wf.slotTaken htaken, ?_, fun key hkey => ?_⟩
    · rw [← hx.spec, htaken.index hreach.1 hreach.2.1, htaken.slot]
      exact lookup_place hx.wf.sound _ htaken.free
    · by_cases hk : key = (connOf env space).spaceKey
      · rw [hk]
        exact hreach.2.2
      · exact hx.size key fun hnone => hkey ((Function.update_of_ne hk _ _).trans hnone)

theorem exact_deleteSpace {x : Served} (hx : Exact env x) (key : String) :
    Exact env (servedStep env x (.deleteSpace key)) := by
  have hwf := wf_deleteSpace hx.wf key
  rcases deleteSpace_cases env x.state key with ⟨-, msg, hmsg, heq⟩ | ⟨i, hi, heq⟩
  · simp only [servedStep, heq, if_neg hmsg]
    exact hx
  · rw [heq] at hwf
    simp only [servedStep, heq, if_true]
    refine ⟨hwf, ?_, fun k hk => ?_⟩
    · obtain ⟨conn, hconn, -⟩ := hx.wf.sound hi
      show lookup ((x.state.manager.spaceIdxMp.delete env.hasher key).2.index env.hasher)
        (slotsOf (x.state.manager.spacesConn.set i none)) = _
      rw [← hx.spec, slotsOf_set (lt_length_of_slotsOf hconn), OneWriterMultiReaderMap.index_delete]
      exact lookup_clear hx.wf.sound hi
    · by_cases hkk : k = key
      · subst hkk
        exact absurd (Function.update_self ..) hk
      · exact hx.size k fun hnone => hk ((Function.update_of_ne hkk _ _).trans hnone)

/-- **One call of the manager is one update of the map.** -/
theorem exact_step (x : Served) (c : Call) (hx : Exact env x) (hc : AddsReachable env x c) :
    Exact env (servedStep env x c) := by
  cases c with
  | addSpace space => exact exact_addSpace hx space hc
  | deleteSpace key => exact exact_deleteSpace hx key

/-! ### Init -/

theorem buckets_put {hasher : String → UInt64} (m : OneWriterMultiReaderMap) (key : String)
    (idx : Int) {b : Fin bucketCount} (hb : b ≠ bucketOf hasher key) :
    (m.put hasher key idx).2.buckets b = m.buckets b := by
  show (IndexLaws.put (strHashUint64 hasher) m.buckets key idx).2 b = m.buckets b
  rw [IndexLaws.put]
  split_ifs
  · rfl
  · exact Function.update_of_ne hb _ _
  · exact Function.update_of_ne hb _ _

theorem index_fillTurn {m : SpaceManager} {space : Space}
    (hidle : m.spaceIdxMp.Idle env.hasher (connOf env space).spaceKey)
    (hlt : m.spacesConn.length < 2 ^ 15) :
    (fillTurn env m.spacesConn.length space m).index env
      = Function.update (m.index env) (connOf env space).spaceKey (some m.spacesConn.length) := by
  show ((m.spaceIdxMp.put env.hasher (connOf env space).spaceKey
    (int16 m.spacesConn.length)).2).index env.hasher = _
  rw [int16_of_lt hlt]
  exact OneWriterMultiReaderMap.index_put hidle _

/-- **The loop of `Init` over spaces in different buckets.**  What one turn keeps when the
bucket of its space is idle, the loop keeps. -/
theorem fill_rule {P : List Space → SpaceManager → Prop}
    (hturn : ∀ done space m, P done m → Wf env m → m.spacesConn.length < 2 ^ 15 →
      m.spaceIdxMp.Idle env.hasher (connOf env space).spaceKey →
        P (done ++ [space]) (fillTurn env m.spacesConn.length space m)) :
    ∀ (spaces done : List Space) (m : SpaceManager), P done m → Wf env m →
      2 * (m.spacesConn.length + spaces.length) ≤ 2 ^ 16 →
      (spaces.map fun space => bucketOf env.hasher (connOf env space).spaceKey).Nodup →
      (∀ space ∈ spaces,
        m.spaceIdxMp.buckets (bucketOf env.hasher (connOf env space).spaceKey) = []) →
      P (done ++ spaces) (fill env m.spacesConn.length spaces m) := by
  intro spaces
  induction spaces with
  | nil =>
    intro done m hP _ _ _ _
    rw [List.append_nil]
    exact hP
  | cons space spaces ih =>
    intro done m hP hm hlen hnodup hempty
    obtain ⟨hhead, hrest⟩ := List.nodup_cons.mp hnodup
    rw [List.length_cons] at hlen
    have hidle : m.spaceIdxMp.Idle env.hasher (connOf env space).spaceKey := by
      intro c hc
      rw [hempty space List.mem_cons_self] at hc
      cases hc
    rw [fill, ← length_fillTurn m.spacesConn.length space m, ← List.singleton_append,
      ← List.append_assoc]
    refine ih _ _ (hturn done space m hP hm (by omega) hidle) (wf_fillTurn hm space (by omega)) ?_
      hrest fun space' hmem => ?_
    · rw [length_fillTurn]
      omega
    · -- the buckets of the later spaces are not touched
      have hne : bucketOf env.hasher (connOf env space').spaceKey
          ≠ bucketOf env.hasher (connOf env space).spaceKey :=
        fun heq => hhead (List.mem_map.mpr ⟨space', hmem, heq⟩)
      exact (buckets_put _ _ _ hne).trans (hempty space' (List.mem_cons_of_mem _ hmem))

theorem lookup_fill {m : SpaceManager} {spaces : List Space} (hm : Wf env m)
    (hlen : 2 * (m.spacesConn.length + spaces.length) ≤ 2 ^ 16)
    (hnodup : (spaces.map fun space => bucketOf env.hasher (connOf env space).spaceKey).Nodup)
    (hempty : ∀ space ∈ spaces,
      m.spaceIdxMp.buckets (bucketOf env.hasher (connOf env space).spaceKey) = []) :
    lookup ((fill env m.spacesConn.length spaces m).index env)
        (fill env m.spacesConn.length spaces m).slot
      = loadedSpec env spaces (lookup (m.index env) m.slot) := by
  refine fill_rule (P := fun done m' => lookup (m'.index env) m'.slot
    = loadedSpec env done (lookup (m.index env) m.slot)) ?_ spaces [] m rfl hm hlen hnodup hempty
  intro done space m' hP hm' hlt hidle
  rw [index_fillTurn hidle hlt, slot_fillTurn, lookup_place hm'.sound _ (slotsOf_length _), hP,
    loadedSpec, loadedSpec, List.foldl_append]
  rfl

theorem loadedSpec_ne_none {spaces : List Space} :
    ∀ {spec : String → Option SpaceConnection} {key : String},
      loadedSpec env spaces spec key ≠ none →
      spec key ≠ none ∨ ∃ space ∈ spaces, (connOf env space).spaceKey = key := by
  induction spaces with
  | nil => intro spec key h; exact Or.inl h
  | cons space spaces ih =>
    intro spec key h
    rcases ih h with hspec | ⟨space', hmem, hkey⟩
    · by_cases hk : key = (connOf env space).spaceKey
      · exact Or.inr ⟨space, List.mem_cons_self, hk.symm⟩
      · exact Or.inl fun hnone => hspec ((Function.update_of_ne hk _ _).trans hnone)
    · exact Or.inr ⟨space', List.mem_cons_of_mem _ hmem, hkey⟩

theorem exact_init {n : Nat} (hn : n < 2 ^ 15) (w : Startup) (hw : w.spaces.length < 2 ^ 15)
    (hsep : Separate env w.spaces) : Exact env (servedInit env n w) := by
  refine ⟨wf_init hn w hw, ?_, fun key hkey => ?_⟩
  · unfold servedInit init
    unfold Startup.spaces at hw hsep ⊢
    cases hload : w.load with
    | error msg => rfl
    | ok spaces =>
      simp only [hload] at hw hsep ⊢
      refine lookup_fill (wf_empty hn) ?_ hsep.1 fun _ _ => rfl
      show 2 * (0 + spaces.length) ≤ 2 ^ 16
      omega
  · rcases loadedSpec_ne_none hkey with hnone | ⟨space, hmem, rfl⟩
    · exact absurd rfl hnone
    · exact hsep.2 space hmem

/-! ### Every space that was added is found -/

theorem Exact.found {x : Served} (hx : Exact env x) {key : String} {conn : SpaceConnection}
    (h : x.spec key = some conn) : getSpaceConn env x.state.manager key = .found conn := by
  have hsize : 1 < key.utf8ByteSize := hx.size key (by rw [h]; exact Option.some_ne_none conn)
  rw [← hx.spec] at h
  obtain ⟨i, hi, hslot⟩ := Option.bind_eq_some_iff.mp h
  obtain ⟨conn', hread, -, hslot'⟩ := readSlot_of_sound hx.wf hi
  rw [hslot] at hslot'
  cases hslot'
  rw [getSpaceConn, if_neg (by omega), hi]
  exact hread

/-- A slot that `DeleteSpace` emptied is free, and while there is a free slot `AddSpace`
takes one and does not ask for more room. -/
def SlotReusable (env : Env) (s : State) (key : String) : Prop :=
  ∀ s', deleteSpace env s key = ("", s') →
    ∃ i, s.manager.index env key = some i ∧ i < s'.manager.spacesConn.length ∧
      s'.manager.slot i = none ∧
      ∀ space, s'.manager.index env (connOf env space).spaceKey = none →
        ∃ j s'', addSpace env s' space = ("", s'') ∧ SlotTaken env s' s'' space j ∧
          j < s'.manager.spacesConn.length

theorem addSpace_reuses {s : State} {space : Space} {i : Nat}
    (hi : i < s.manager.spacesConn.length) (hfree : s.manager.slot i = none)
    (habsent : s.manager.index env (connOf env space).spaceKey = none) :
    ∃ j s', addSpace env s space = ("", s') ∧ SlotTaken env s s' space j ∧
      j < s.manager.spacesConn.length := by
  have hmem : none ∈ s.manager.spacesConn := by
    rw [SpaceManager.slot, slotsOf, List.getElem?_eq_getElem hi, Option.join_some] at hfree
    rw [← hfree]
    exact List.getElem_mem hi
  rcases addSpace_cases env s space with ⟨msg, hmsg, heq⟩ | ⟨j, s', heq, htaken⟩
  · -- neither of the two refusals applies
    exfalso
    have hneg := OneWriterMultiReaderMap.index_eq_none.mp habsent
    unfold addSpace at heq
    simp only [if_neg (not_le.mpr hneg)] at heq
    cases hslot : s.manager.freeSlot with
    | none => exact freeSlot_none hslot hmem
    | some j =>
      simp only [hslot, Prod.mk.injEq] at heq
      exact hmsg heq.1.symm
  · refine ⟨j, s', heq, htaken, ?_⟩
    rcases htaken.position with ⟨-, hlt, -⟩ | ⟨-, -, -, -, hfull⟩
    · exact hlt
    · exact absurd hmem hfull

theorem slotReusable {s : State} (hs : Wf env s.manager) (key : String) :
    SlotReusable env s key := by
  intro s' hs'
  rcases deleteSpace_cases env s key with ⟨-, msg, hmsg, heq⟩ | ⟨i, hi, heq⟩
  · rw [heq] at hs'
    exact absurd (congrArg Prod.fst hs') hmsg
  · rw [heq] at hs'
    obtain rfl := (Prod.mk.inj hs').2
    obtain ⟨conn, hconn, -⟩ := hs.sound hi
    have hlt := lt_length_of_slotsOf hconn
    have hfree : slotsOf (s.manager.spacesConn.set i none) i = none := by
      rw [slotsOf_set hlt, Function.update_self]
    have hlt' : i < (s.manager.spacesConn.set i none).length := by rw [List.length_set]; exact hlt
    exact ⟨i, hi, hlt', hfree, fun space habsent => addSpace_reuses hlt' hfree habsent⟩

/-- **Every space that was loaded or added, and not deleted since, is found.**  So it is
in a run in which the loaded spaces and each added one can be found at all. -/
theorem lookup_complete (env : Env) (maxSpaceNum : Nat) (hmax : maxSpaceNum < 2 ^ 15) (w : Startup)
    (hw : w.spaces.length ≤ 32767) (hsep : Separate env w.spaces) (x : Served)
    (h : Reach (servedStep env) (AddsReachable env) (servedInit env maxSpaceNum w) x) :
    (∀ key conn, x.spec key = some conn →
      getSpaceConn env x.state.manager key = .found conn) ∧
    ∀ key, SlotReusable env x.state key := by
  have hx : Exact env x := h.invariant (Exact env) (exact_init hmax w (by omega) hsep) exact_step
  exact ⟨fun key conn hspec => hx.found hspec, fun key => slotReusable hx.wf key⟩

theorem lookup_complete_swap :
    oneLocal.spaces.length ≤ 32767 ∧ Separate libEnv oneLocal.spaces ∧
      RunOk (servedStep libEnv) (AddsReachable libEnv) (servedInit libEnv 1000 oneLocal) swapRun ∧
      ∀ key conn, (swapRun.foldl (servedStep libEnv) (servedInit libEnv 1000 oneLocal)).spec key
          = some conn →
        getSpaceConn libEnv
          (swapRun.foldl (servedStep libEnv) (servedInit libEnv 1000 oneLocal)).state.manager key
            = .found conn := by
  have hsep : Separate libEnv oneLocal.spaces := by decide +kernel
  have hrun : RunOk (servedStep libEnv) (AddsReachable libEnv) (servedInit libEnv 1000 oneLocal)
      swapRun := by decide +kernel
  exact ⟨by decide, hsep, hrun, (lookup_complete libEnv 1000 (by decide) oneLocal (by decide) hsep _
    (reach_of_runOk swapRun _ Reach.start hrun)).1⟩

def noSpaces : Startup where
  range := some []
  jsonToPb _ := .error ""

/-- Two spaces whose keys are in one bucket under the hash of libstdc++. -/
def collidingRun : List Call := [.addSpace (spaceNamed "p"), .addSpace (spaceNamed "aa")]

/-- Both spaces were added, and the second one is not found. -/
theorem addSpace_not_found :
    let x := collidingRun.foldl (servedStep libEnv) (servedInit libEnv 1000 noSpaces)
    Reach (servedStep libEnv) anyEvent (servedInit libEnv 1000 noSpaces) x ∧
      x.spec "db-aa" = some (connOf libEnv (spaceNamed "aa")) ∧
      ∀ conn, getSpaceConn libEnv x.state.manager "db-aa" ≠ .found conn := by
  refine ⟨reach_foldl _ _ _, ?_, fun conn h => ?_⟩
  · exact spec_of_added (x := servedStep libEnv (servedInit libEnv 1000 noSpaces)
      (.addSpace (spaceNamed "p"))) (by decide +kernel)
  · have hkey : (getSpaceConn libEnv (collidingRun.foldl (servedStep libEnv)
        (servedInit libEnv 1000 noSpaces)).state.manager "db-aa").key = none := by decide +kernel
    rw [h] at hkey
    cases hkey

/-! ### Lookups without a lock -/

/-- A manager with lookups under way.  A pending lookup has a slot number from the index
and has not read the slot; `answered` are the connections that lookups have returned. -/
structure Reading where
  state : State
  pending : List (String × Nat) := []
  answered : List (String × SpaceConnection) := []

inductive ReadEvent
  | call (c : Call)
  /-- A lookup of the key begins: `_space_idx_mp.Get`. -/
  | getIdx (key : String)
  /-- The `n`-th pending lookup reads its slot. -/
  | readConn (n : Nat)

def readStep (env : Env) (r : Reading) : ReadEvent → Reading
  | .call c => { r with state := step env r.state c }
  | .getIdx key =>
    if key.utf8ByteSize ≤ 1 then r
    else
      match r.state.manager.index env key with
      | none => r
      | some i => { r with pending := r.pending ++ [(key, i)] }
  | .readConn n =>
    match r.pending[n]? with
    | none => r
    | some (key, i) =>
      let r := { r with pending := r.pending.eraseIdx n }
      match readSlot r.state.manager key i with
      | .found conn => { r with answered := r.answered ++ [(key, conn)] }
      | _ => r

/-- `AddSpace` does not take a slot that a pending lookup of another key is about to
read. -/
def SlotsKept (env : Env) (r : Reading) : ReadEvent → Prop
  | .call (.addSpace space) => ∀ p ∈ r.pending, p.2 = r.state.manager.nextSlot →
      p.1 = (connOf env space).spaceKey
  | _ => True

instance (env : Env) (r : Reading) : ∀ e, Decidable (SlotsKept env r e)
  | .call (.addSpace _) => inferInstanceAs (Decidable (∀ p ∈ _, _))
  | .call (.deleteSpace _) => instDecidableTrue
  | .getIdx _ => instDecidableTrue
  | .readConn _ => instDecidableTrue

/-- What every pending lookup will read is of its key, and so is what was returned. -/
structure ReadersOk (env : Env) (r : Reading) : Prop where
  wf : Wf env r.state.manager
  pending : ∀ p ∈ r.pending, Stays SpaceConnection.spaceKey r.state.manager.slot p.1 p.2
  answered : ∀ a ∈ r.answered, a.2.spaceKey = a.1

theorem readersOk_addSpace {r : Reading} (hr : ReadersOk env r) (space : Space)
    (hkept : SlotsKept env r (.call (.addSpace space))) :
    ReadersOk env (readStep env r (.call (.addSpace space))) := by
  refine ⟨wf_step _ _ hr.wf, fun p hp => ?_, hr.answered⟩
  show Stays _ (addSpace env r.state space).2.manager.slot p.1 p.2
  rcases addSpace_cases env r.state space with ⟨msg, -, heq⟩ | ⟨i, s', heq, htaken⟩
  · rw [heq]
    exact hr.pending p hp
  · rw [heq, htaken.slot]
    exact (hr.pending p hp).place fun hi => (hkept p hp (hi.symm.trans htaken.next)).symm

theorem readersOk_deleteSpace {r : Reading} (hr : ReadersOk env r) (key : String) :
    ReadersOk env (readStep env r (.call (.deleteSpace key))) := by
  refine ⟨wf_step _ _ hr.wf, fun p hp => ?_, hr.answered⟩
  show Stays _ (deleteSpace env r.state key).2.manager.slot p.1 p.2
  rcases deleteSpace_cases env r.state key with ⟨-, msg, -, heq⟩ | ⟨i, hi, heq⟩
  · rw [heq]
    exact hr.pending p hp
  · obtain ⟨conn, hconn, -⟩ := hr.wf.sound hi
    rw [heq]
    show Stays _ (slotsOf (r.state.manager.spacesConn.set i none)) p.1 p.2
    rw [slotsOf_set (lt_length_of_slotsOf hconn)]
    exact (hr.pending p hp).clear i

theorem readersOk_getIdx {r : Reading} (hr : ReadersOk env r) (key : String) :
    ReadersOk env (readStep env r (.getIdx key)) := by
  by_cases hsize : key.utf8ByteSize ≤ 1
  · simp only [readStep, if_pos hsize]
    exact hr
  · cases hi : r.state.manager.index env key with
    | none =>
      simp only [readStep, if_neg hsize, hi]
      exact hr
    | some i =>
      simp only [readStep, if_neg hsize, hi]
      refine ⟨hr.wf, fun p hp => ?_, hr.answered⟩
      rcases List.mem_append.mp hp with hp | hp
      · exact hr.pending p hp
      · obtain rfl := List.mem_singleton.mp hp
        exact hr.wf.sound.stays hi

theorem slot_of_readSlot {m : SpaceManager} {key : String} {i : Nat} {conn : SpaceConnection}
    (h : readSlot m key i = .found conn) : m.slot i = some conn := by
  unfold readSlot at h
  rcases hget : m.spacesConn[i]? with _ | _ | conn'
  · rw [hget] at h
    cases h
  · rw [hget] at h
    cases h
  · rw [hget] at h
    cases h
    exact slot_of_getElem? hget

theorem readersOk_readConn {r : Reading} (hr : ReadersOk env r) (n : Nat) :
    ReadersOk env (readStep env r (.readConn n)) := by
  cases hp : r.pending[n]? with
  | none =>
    simp only [readStep, hp]
    exact hr
  | some p =>
    have hpending : ∀ q ∈ r.pending.eraseIdx n,
        Stays SpaceConnection.spaceKey r.state.manager.slot q.1 q.2 :=
      fun q hq => hr.pending q (List.mem_of_mem_eraseIdx hq)
    cases hread : readSlot r.state.manager p.1 p.2 with
    | null msg =>
      simp only [readStep, hp, hread]
      exact ⟨hr.wf, hpending, hr.answered⟩
    | outOfRange =>
      simp only [readStep, hp, hread]
      exact ⟨hr.wf, hpending, hr.answered⟩
    | found conn =>
      simp only [readStep, hp, hread]
      refine ⟨hr.wf, hpending, fun a ha => ?_⟩
      rcases List.mem_append.mp ha with ha | ha
      · exact hr.answered a ha
      · obtain rfl := List.mem_singleton.mp ha
        exact hr.pending p (List.mem_of_getElem? hp) (slot_of_readSlot hread)

/-- **A lookup without a lock returns no connection or one of its key**, in any
interleaving in which no slot gets another space while a lookup is about to read it. -/
theorem lockfree_lookup_sound (env : Env) (maxSpaceNum : Nat) (hmax : maxSpaceNum < 2 ^ 15)
    (w : Startup) (hw : w.spaces.length ≤ 32767) (r : Reading)
    (h : Reach (readStep env) (SlotsKept env) { state := (init env maxSpaceNum w).2 } r) :
    ∀ a ∈ r.answered, a.2.spaceKey = a.1 := by
  refine (h.invariant (ReadersOk env) ⟨wf_init hmax w (by omega), ?_, ?_⟩ ?_).answered
  · exact fun p hp => nomatch hp
  · exact fun a ha => nomatch ha
  · intro r e hr hok
    match e with
    | .call (.addSpace space) => exact readersOk_addSpace hr space hok
    | .call (.deleteSpace key) => exact readersOk_deleteSpace hr key
    | .getIdx key => exact readersOk_getIdx hr key
    | .readConn n => exact readersOk_readConn hr n

/-- The space is deleted between the two steps of its lookup, and its slot is given to
another one after it was read. -/
def patientReader : List ReadEvent :=
  [.getIdx "db-a", .call (.deleteSpace "db-a"), .readConn 0, .call (.addSpace (spaceNamed "b")),
    .getIdx "db-b", .readConn 0]

theorem lockfree_lookup_sound_patient :
    oneLocal.spaces.length ≤ 32767 ∧
      RunOk (readStep libEnv) (SlotsKept libEnv) { state := (init libEnv 1000 oneLocal).2 }
        patientReader ∧
      (∀ a ∈ (patientReader.foldl (readStep libEnv) { state := (init libEnv 1000 oneLocal).2 }
        ).answered, a.2.spaceKey = a.1) ∧
      (patientReader.foldl (readStep libEnv) { state := (init libEnv 1000 oneLocal).2 }
        ).answered.map Prod.fst = ["db-b"] := by
  have hrun : RunOk (readStep libEnv) (SlotsKept libEnv) { state := (init libEnv 1000 oneLocal).2 }
      patientReader := by decide +kernel
  exact ⟨by decide, hrun, lockfree_lookup_sound libEnv 1000 (by decide) oneLocal (by decide) _
    (reach_of_runOk patientReader _ Reach.start hrun), by decide +kernel⟩

/-- Between the two steps of the lookup its space is deleted, and another one gets the
slot. -/
def overtakenReader : List ReadEvent :=
  [.getIdx "db-a", .call (.deleteSpace "db-a"), .call (.addSpace (spaceNamed "b")), .readConn 0]

/-- The lookup of one space returns the connection of another. -/
theorem lockfree_lookup_misroutes :
    let r := overtakenReader.foldl (readStep libEnv) { state := (init libEnv 1000 oneLocal).2 }
    Reach (readStep libEnv) anyEvent { state := (init libEnv 1000 oneLocal).2 } r ∧
      ∃ a ∈ r.answered, a.2.spaceKey ≠ a.1 :=
  ⟨reach_foldl _ _ _, by decide +kernel⟩

/-! ### What a router was given -/

def SlotsOnly (P : Space → Prop) (m : SpaceManager) : Prop :=
  ∀ i conn, m.slot i = some conn → P conn.pbSpace

def AddsOnly (P : Space → Prop) (_ : State) : Call → Prop
  | .addSpace space => P space
  | .deleteSpace _ => True

section

variable {P : Space → Prop}

theorem slotsOnly_update {m m' : SpaceManager} (hm : SlotsOnly P m) {space : Space} {i : Nat}
    (hspace : P space)
    (hslot : m'.slot = Function.update m.slot i (some (connOf env space))) : SlotsOnly P m' := by
  intro j conn hj
  rw [hslot] at hj
  by_cases hji : j = i
  · subst hji
    rw [Function.update_self, Option.some.injEq] at hj
    rw [← hj]
    exact hspace
  · rw [Function.update_of_ne hji] at hj
    exact hm j conn hj

theorem slotsOnly_step (s : State) (c : Call) (hs : SlotsOnly P s.manager)
    (hc : AddsOnly P s c) : SlotsOnly P (step env s c).manager := by
  cases c with
  | addSpace space =>
    show SlotsOnly P (addSpace env s space).2.manager
    rcases addSpace_cases env s space with ⟨msg, -, heq⟩ | ⟨i, s', heq, htaken⟩
    · rw [heq]
      exact hs
    · rw [heq]
      exact slotsOnly_update hs hc htaken.slot
  | deleteSpace key =>
    show SlotsOnly P (deleteSpace env s key).2.manager
    rcases deleteSpace_cases env s key with ⟨-, msg, -, heq⟩ | ⟨i, -, heq⟩
    · rw [heq]
      exact hs
    · rw [heq]
      intro j conn hj
      refine hs j conn ?_
      by_cases hi : i < s.manager.spacesConn.length
      · have hslot : slotsOf (s.manager.spacesConn.set i none) j = some conn := hj
        rw [slotsOf_set hi] at hslot
        by_cases hji : j = i
        · subst hji
          rw [Function.update_self] at hslot
          cases hslot
        · rw [Function.update_of_ne hji] at hslot
          exact hslot
      · have hslot : slotsOf (s.manager.spacesConn.set i none) j = some conn := hj
        rw [List.set_eq_of_length_le (by omega)] at hslot
        exact hslot

theorem slotsOnly_fill : ∀ (spaces : List Space) (i : Nat) (m : SpaceManager), SlotsOnly P m →
    (∀ space ∈ spaces, P space) → SlotsOnly P (fill env i spaces m) := by
  intro spaces
  induction spaces with
  | nil => intro i m hm _; exact hm
  | cons space spaces ih =>
    intro i m hm hspaces
    rw [fill]
    refine ih (i + 1) _ ?_ fun x hx => hspaces x (List.mem_cons_of_mem _ hx)
    exact slotsOnly_update hm (hspaces space List.mem_cons_self) (slot_fillTurn i space m)

theorem slotsOnly_init (n : Nat) (w : Startup)
    (hw : ∀ space ∈ w.spaces, P space) : SlotsOnly P (init env n w).2.manager := by
  have hempty : SlotsOnly P (({} : SpaceManager).reserve n) := by
    intro i conn hi
    cases hi
  unfold init
  unfold Startup.spaces at hw
  cases hload : w.load with
  | error msg => exact hempty
  | ok spaces =>
    rw [hload] at hw
    exact slotsOnly_fill spaces 0 _ hempty hw

theorem slots_reach {n : Nat} {w : Startup} (hw : ∀ space ∈ w.spaces, P space)
    {s : State} (h : Reach (step env) (AddsOnly P) (init env n w).2 s) :
    SlotsOnly P s.manager :=
  h.invariant (fun s => SlotsOnly P s.manager) (slotsOnly_init n w hw) slotsOnly_step

theorem slot_of_found {m : SpaceManager} {key : String} {conn : SpaceConnection}
    (h : getSpaceConn env m key = .found conn) : ∃ i, m.slot i = some conn := by
  unfold getSpaceConn at h
  split_ifs at h
  cases hidx : m.index env key with
  | none =>
    rw [hidx] at h
    cases h
  | some i =>
    rw [hidx] at h
    exact ⟨i, slot_of_readSlot h⟩

/-- **A connection that is found is that of a space that the router was given.** -/
theorem given_of_found {n : Nat} {w : Startup} (hw : ∀ space ∈ w.spaces, P space) {s : State}
    (h : Reach (step env) (AddsOnly P) (init env n w).2 s) {key : String} {conn : SpaceConnection}
    (hfound : getSpaceConn env s.manager key = .found conn) : P conn.pbSpace := by
  obtain ⟨i, hslot⟩ := slot_of_found hfound
  exact slots_reach hw h i conn hslot

end

end SimSearch.Router
