import SimSearch.Router.Lookup

/-!
# Starting a router, and what it writes down

`main` of `service/router_main.cc` starts the RPC server before it calls
`SpaceManager::Init`, so spaces may be added and deleted between the phases of `Init`.
The loop of `Init` numbers the spaces by its turns; that is the number of the slot only if
the vector was empty (`boot_sound`).

The local list is what a router starts from when etcd lists no space.  It is kept beside
the slots: `AddSpace` appends to it on one of its two ways only, and `DeleteSpace` goes by
the two names where the manager goes by the joined key.  `persisted_agrees` says when the
two stay together.
-/

namespace SimSearch.Router

open SimSearch.Lib

variable {env : Env}

/-! ### Calls between the phases of Init -/

inductive Phase
  | begun
  | reserved
  | loaded (spaces : List Space)
  | ready
  | failed
  deriving DecidableEq

structure Booting where
  state : State := {}
  phase : Phase := .begun

inductive BootEvent
  | call (c : Call)
  | reserve
  | load (w : Startup)
  | fill

/-- `Init` goes on by one phase, or a call is served. -/
def bootStep (env : Env) (maxSpaceNum : Nat) (b : Booting) : BootEvent → Booting
  | .call c => { b with state := step env b.state c }
  | .reserve =>
    match b.phase with
    | .begun =>
      { state := { b.state with manager := b.state.manager.reserve maxSpaceNum }
        phase := .reserved }
    | _ => b
  | .load w =>
    match b.phase with
    | .reserved =>
      match w.load with
      | .error _ => { b with phase := .failed }
      | .ok spaces => { state := { b.state with localSpaces := spaces }, phase := .loaded spaces }
    | _ => b
  | .fill =>
    match b.phase with
    | .loaded spaces =>
      { state := { b.state with manager := Router.fill env 0 spaces b.state.manager }
        phase := .ready }
    | _ => b

/-- When the slots are filled there is none yet, unless nothing was loaded; and at most
32767 spaces were. -/
def FillsEmpty (b : Booting) : BootEvent → Prop
  | .fill =>
    match b.phase with
    | .loaded spaces =>
      (b.state.manager.spacesConn.length = 0 ∨ spaces = []) ∧ spaces.length ≤ 32767
    | _ => True
  | _ => True

instance (b : Booting) : ∀ e, Decidable (FillsEmpty b e)
  | .fill => by
    unfold FillsEmpty
    cases b.phase <;> infer_instance
  | .call _ | .reserve | .load _ => instDecidableTrue

theorem wf_reserve {m : SpaceManager} (hm : Wf env m) {n : Nat} (hn : n < 2 ^ 15) :
    Wf env (m.reserve n) := by
  refine ⟨hm.sound, hm.room.trans (Nat.le_max_left _ _), ?_⟩
  exact max_le hm.bound (by omega)

theorem wf_bootStep {n : Nat} (hn : n < 2 ^ 15) (b : Booting) (e : BootEvent)
    (hb : Wf env b.state.manager) (he : FillsEmpty b e) :
    Wf env (bootStep env n b e).state.manager := by
  cases e with
  | call c => exact wf_step b.state c hb
  | reserve =>
    cases hphase : b.phase <;> simp only [bootStep, hphase]
    case begun => exact wf_reserve hb hn
    all_goals exact hb
  | load w =>
    cases hphase : b.phase <;> simp only [bootStep, hphase]
    case reserved =>
      cases w.load with
      | error msg => exact hb
      | ok spaces => exact hb
    all_goals exact hb
  | fill =>
    cases hphase : b.phase <;> simp only [bootStep, hphase]
    case loaded spaces =>
      simp only [FillsEmpty, hphase] at he
      obtain ⟨hempty | rfl, hlen⟩ := he
      · have hfill := wf_fill spaces b.state.manager hb (by omega)
        rw [hempty] at hfill
        exact hfill
      · exact hb
    all_goals exact hb

/-- **Every key with a number points to a slot of the key**, whatever calls came between
the phases of `Init`, if the slots were filled into an empty vector. -/
theorem boot_sound (env : Env) (maxSpaceNum : Nat) (hmax : maxSpaceNum < 2 ^ 15) (b : Booting)
    (h : Reach (bootStep env maxSpaceNum) FillsEmpty {} b) (key : String) (i : Nat)
    (hi : b.state.manager.index env key = some i) :
    ∃ conn, b.state.manager.slot i = some conn ∧ conn.spaceKey = key := by
  have hstart : Wf env ({} : Booting).state.manager := wf_empty (n := 0) (by decide)
  exact (h.invariant (fun b => Wf env b.state.manager) hstart
    fun b e hb he => wf_bootStep hmax b e hb he).sound hi

/-- A call before there is room is refused, and one after the slots are filled is served. -/
def quietBoot : List BootEvent :=
  [.call (.addSpace (spaceNamed "b")), .reserve, .load oneLocal, .fill,
    .call (.addSpace (spaceNamed "b"))]

theorem boot_sound_quiet :
    RunOk (bootStep libEnv 1000) FillsEmpty {} quietBoot ∧
      (quietBoot.foldl (bootStep libEnv 1000) {}).phase = .ready ∧
      (quietBoot.foldl (bootStep libEnv 1000) {}).state.manager.index libEnv "db-b" = some 1 ∧
      ∃ conn, (quietBoot.foldl (bootStep libEnv 1000) {}).state.manager.slot 1 = some conn ∧
        conn.spaceKey = "db-b" := by
  have hrun : RunOk (bootStep libEnv 1000) FillsEmpty {} quietBoot := by decide +kernel
  have hidx : (quietBoot.foldl (bootStep libEnv 1000) {}).state.manager.index libEnv "db-b"
      = some 1 := by decide +kernel
  have hreach := reach_of_runOk quietBoot ({} : Booting) Reach.start hrun
  have hready : (quietBoot.foldl (bootStep libEnv 1000) {}).phase = .ready := by decide +kernel
  generalize quietBoot.foldl (bootStep libEnv 1000) {} = b at hidx hreach hready ⊢
  exact ⟨hrun, hready, hidx, boot_sound libEnv 1000 (by decide) b hreach "db-b" 1 hidx⟩

def oneListed : Startup where
  range := some [("/spaces/mata/db/a", "\x7b\"db_name\":\"db\",\"space_name\":\"a\"\x7d")]
  jsonToPb _ := .ok (spaceNamed "a")

/-- The master adds a space when `Init` has read etcd and does not yet have the lock. -/
def racingBoot : List BootEvent :=
  [.reserve, .load oneListed, .call (.addSpace (spaceNamed "b")), .fill]

/-- The number of the loaded space is that of the slot of the added one. -/
theorem boot_misroutes :
    let b := racingBoot.foldl (bootStep libEnv 1000) {}
    Reach (bootStep libEnv 1000) anyEvent {} b ∧ b.phase = .ready ∧
      b.state.manager.index libEnv "db-a" = some 0 ∧
      (b.state.manager.slot 0).map SpaceConnection.spaceKey = some "db-b" :=
  ⟨reach_foldl _ _ _, by decide +kernel, by decide +kernel, by decide +kernel⟩

/-! ### The local list -/

inductive Rpc
  | addSpace (space : Space)
  | deleteSpace (dbName spaceName : String)

def rpcStep (env : Env) (s : State) : Rpc → State
  | .addSpace space => (rpcAddSpace env s space).2
  | .deleteSpace dbName spaceName => (rpcDeleteSpace env s dbName spaceName).2

def Space.names (space : Space) : String × String := (space.dbName, space.spaceName)

def heldNames (m : SpaceManager) : List (String × String) :=
  m.spacesConn.filterMap fun c => c.map fun conn => Space.names conn.pbSpace

/-- No space is in two slots, and the local list has the spaces of the slots, once each. -/
def Persisted (s : State) : Prop :=
  (heldNames s.manager).Nodup ∧ (s.localSpaces.map Space.names).Perm (heldNames s.manager)

instance (s : State) : Decidable (Persisted s) :=
  inferInstanceAs (Decidable (List.Nodup _ ∧ List.Perm _ _))

/-- A space that is added gets a new slot, and the index takes its key; and the key of a
space that is deleted is not that of a space of other names. -/
def KeepsPersisted (env : Env) (s : State) : Rpc → Prop
  | .addSpace space => (addSpace env s space).1 = "" → (∀ c ∈ s.manager.spacesConn, c.isSome) ∧
      s.manager.spaceIdxMp.Idle env.hasher (connOf env space).spaceKey ∧
      s.manager.nextSlot < 2 ^ 15
  | .deleteSpace dbName spaceName => ∀ names ∈ heldNames s.manager,
      genSpaceKey names.1 names.2 = genSpaceKey dbName spaceName → names = (dbName, spaceName)

/-- The list and the slots agree, and every space in a slot is found by its key. -/
structure PersistOk (env : Env) (s : State) : Prop where
  wf : Wf env s.manager
  complete : Complete SpaceConnection.spaceKey (s.manager.index env) s.manager.slot
  perm : (s.localSpaces.map Space.names).Perm (heldNames s.manager)

theorem PersistOk.nodup {s : State} (hs : PersistOk env s) : (heldNames s.manager).Nodup := by
  refine List.pairwise_filterMap.mpr (List.pairwise_iff_getElem.mpr ?_)
  intro i j hi hj hlt n hn n' hn' hsame
  obtain ⟨conn, hconn, rfl⟩ := Option.map_eq_some_iff.mp hn
  obtain ⟨conn', hconn', rfl⟩ := Option.map_eq_some_iff.mp hn'
  -- both are found by the one key
  have hfound := hs.complete (slot_of_getElem? (List.getElem?_eq_some_iff.mpr ⟨hi, hconn⟩))
  have hfound' := hs.complete (slot_of_getElem? (List.getElem?_eq_some_iff.mpr ⟨hj, hconn'⟩))
  obtain ⟨hdb, hsp⟩ := Prod.mk.inj hsame
  rw [SpaceConnection.spaceKey, hdb, hsp, ← SpaceConnection.spaceKey, hfound'] at hfound
  exact absurd (Option.some.inj hfound) (by omega)

theorem persistOk_addSpace {s : State} (hs : PersistOk env s) (space : Space)
    (hk : KeepsPersisted env s (.addSpace space)) :
    PersistOk env (rpcStep env s (.addSpace space)) := by
  show PersistOk env (addSpace env s space).2
  rcases addSpace_cases env s space with ⟨msg, -, heq⟩ | ⟨i, s', heq, htaken⟩
  · rw [heq]
    exact hs
  · obtain ⟨hfull, hidle, hnext⟩ := hk (by rw [heq])
    rw [heq]
    refine ⟨hs.wf.slotTaken htaken, ?_, ?_⟩
    · rw [htaken.index hidle hnext, htaken.slot]
      exact hs.complete.place htaken.absent
    · rcases htaken.position with ⟨-, hi, -⟩ | ⟨hlist, -, -, hlocal, -⟩
      · -- a slot that is used again was empty
        exfalso
        have hfree := htaken.free
        rw [SpaceManager.slot, slotsOf, List.getElem?_eq_getElem hi, Option.join_some] at hfree
        have hsome := hfull _ (List.getElem_mem hi)
        rw [hfree] at hsome
        cases hsome
      · unfold heldNames
        rw [hlist, hlocal, List.map_append, List.filterMap_append]
        exact hs.perm.append (List.Perm.refl _)

/-- Emptying the one slot of these names takes the names off the list. -/
theorem filterMap_set_none {α β : Type} [DecidableEq β] (f : α → β) (n : β) :
    ∀ (l : List (Option α)) (i : Nat), (∀ j v, l[j]? = some (some v) → (f v = n ↔ j = i)) →
      (l.set i none).filterMap (fun c => c.map f)
        = (l.filterMap (fun c => c.map f)).filter fun x => x ≠ n := by
  intro l
  induction l with
  | nil => intro i _; rfl
  | cons c l ih =>
    intro i h
    have hhead : ∀ v, c = some v → (f v = n ↔ 0 = i) := fun v hv => h 0 v (by rw [hv]; rfl)
    cases i with
    | zero =>
      -- no later slot has the names
      have hrest : ∀ x ∈ l.filterMap (fun c => c.map f), decide (x ≠ n) = true := by
        intro x hx
        obtain ⟨c', hmem, hc'⟩ := List.mem_filterMap.mp hx
        obtain ⟨v, rfl, rfl⟩ := Option.map_eq_some_iff.mp hc'
        obtain ⟨j, hj⟩ := List.getElem?_of_mem hmem
        have hne : ¬ (f v = n) := fun heq => nomatch ((h (j + 1) v hj).mp heq)
        exact decide_eq_true hne
      rw [List.set_cons_zero, List.filterMap_cons_none rfl]
      cases c with
      | none =>
        rw [List.filterMap_cons_none rfl]
        exact (List.filter_eq_self.mpr hrest).symm
      | some v =>
        rw [show (some v :: l).filterMap (fun c => c.map f) = f v :: l.filterMap (fun c => c.map f)
          from rfl, List.filter_cons_of_neg, List.filter_eq_self.mpr hrest]
        simpa using (hhead v rfl).mpr rfl
    | succ i =>
      have htail := ih i fun j v hv => (h (j + 1) v hv).trans Nat.succ_inj
      rw [List.set_cons_succ]
      cases c with
      | none =>
        rw [List.filterMap_cons_none rfl, List.filterMap_cons_none rfl]
        exact htail
      | some v =>
        have hne : f v ≠ n := fun heq => nomatch ((hhead v rfl).mp heq)
        show f v :: (l.set i none).filterMap (fun c => c.map f)
          = (f v :: l.filterMap (fun c => c.map f)).filter fun x => x ≠ n
        rw [List.filter_cons_of_pos (by simpa using hne), htail]

theorem mem_heldNames {m : SpaceManager} {i : Nat} {conn : SpaceConnection}
    (h : m.spacesConn[i]? = some (some conn)) : Space.names conn.pbSpace ∈ heldNames m :=
  List.mem_filterMap.mpr ⟨some conn, List.mem_of_getElem? h, rfl⟩

/-- `DeleteSpace` takes the names off the slots as the local list loses them. -/
theorem heldNames_deleteSpace {s : State} (hs : PersistOk env s) {dbName spaceName : String}
    (hk : KeepsPersisted env s (.deleteSpace dbName spaceName)) :
    heldNames (deleteSpace env s (genSpaceKey dbName spaceName)).2.manager
      = (heldNames s.manager).filter fun x => x ≠ (dbName, spaceName) := by
  rcases deleteSpace_cases env s (genSpaceKey dbName spaceName) with
    ⟨hnone, msg, -, heq⟩ | ⟨i, hi, heq⟩
  · rw [heq]
    refine (List.filter_eq_self.mpr fun names hmem => ?_).symm
    -- a space of these names would be found by the key
    obtain ⟨c, hc, hnames⟩ := List.mem_filterMap.mp hmem
    obtain ⟨conn, rfl, rfl⟩ := Option.map_eq_some_iff.mp hnames
    obtain ⟨j, hj⟩ := List.getElem?_of_mem hc
    refine decide_eq_true fun hsame => ?_
    have hfound := hs.complete (slot_of_getElem? hj)
    obtain ⟨hdb, hsp⟩ := Prod.mk.inj hsame
    rw [SpaceConnection.spaceKey, hdb, hsp, hnone] at hfound
    cases hfound
  · rw [heq]
    refine filterMap_set_none _ _ _ i fun j conn hj => ⟨fun hsame => ?_, ?_⟩
    · have hfound := hs.complete (slot_of_getElem? hj)
      obtain ⟨hdb, hsp⟩ := Prod.mk.inj hsame
      rw [SpaceConnection.spaceKey, hdb, hsp, hi] at hfound
      exact (Option.some.inj hfound).symm
    · rintro rfl
      obtain ⟨conn', hconn', hkey⟩ := hs.wf.sound hi
      rw [slot_of_getElem? hj] at hconn'
      cases hconn'
      exact hk _ (mem_heldNames hj) hkey

theorem map_names_deleteSpace (l : LocalSpaces) (dbName spaceName : String) :
    (l.deleteSpace dbName spaceName).map Space.names
      = (l.map Space.names).filter fun x => x ≠ (dbName, spaceName) := by
  rw [LocalSpaces.deleteSpace, List.filter_map]
  congr 1
  refine List.filter_congr fun space _ => ?_
  simp only [Function.comp_apply, Space.names, ne_eq, Prod.mk.injEq]

theorem complete_deleteSpace {s : State} (hs : PersistOk env s) (key : String) :
    Complete SpaceConnection.spaceKey ((deleteSpace env s key).2.manager.index env)
      (deleteSpace env s key).2.manager.slot := by
  rcases deleteSpace_cases env s key with ⟨-, msg, -, heq⟩ | ⟨i, hi, heq⟩
  · rw [heq]
    exact hs.complete
  · obtain ⟨conn, hconn, -⟩ := hs.wf.sound hi
    rw [heq]
    show Complete _ ((s.manager.spaceIdxMp.delete env.hasher key).2.index env.hasher)
      (slotsOf (s.manager.spacesConn.set i none))
    rw [slotsOf_set (lt_length_of_slotsOf hconn), OneWriterMultiReaderMap.index_delete]
    exact hs.complete.clear hi

theorem rpcDeleteSpace_state (env : Env) (s : State) (dbName spaceName : String) :
    (rpcDeleteSpace env s dbName spaceName).2
      = { manager := (deleteSpace env s (genSpaceKey dbName spaceName)).2.manager
          localSpaces := s.localSpaces.deleteSpace dbName spaceName } := by
  unfold rpcDeleteSpace deleteSpace
  by_cases h : 0 ≤ s.manager.spaceIdxMp.get env.hasher (genSpaceKey dbName spaceName)
  · simp only [if_pos h]
  · simp only [if_neg h]

theorem persistOk_deleteSpace {s : State} (hs : PersistOk env s) (dbName spaceName : String)
    (hk : KeepsPersisted env s (.deleteSpace dbName spaceName)) :
    PersistOk env (rpcStep env s (.deleteSpace dbName spaceName)) := by
  show PersistOk env (rpcDeleteSpace env s dbName spaceName).2
  rw [rpcDeleteSpace_state]
  refine ⟨wf_deleteSpace hs.wf _, complete_deleteSpace hs _, ?_⟩
  show ((s.localSpaces.deleteSpace dbName spaceName).map Space.names).Perm _
  rw [heldNames_deleteSpace hs hk, map_names_deleteSpace]
  exact hs.perm.filter _

/-- What the loop of `Init` keeps: each space it has passed has its slot and is found. -/
structure Filled (env : Env) (done : List Space) (m : SpaceManager) : Prop where
  complete : Complete SpaceConnection.spaceKey (m.index env) m.slot
  slots : m.spacesConn = done.map fun space => some (connOf env space)

theorem filled_empty (n : Nat) : Filled env [] (({} : SpaceManager).reserve n) := by
  refine ⟨?_, rfl⟩
  intro i conn hconn
  cases hconn

theorem filled_fillTurn {done : List Space} {space : Space} {m : SpaceManager}
    (h : Filled env done m) (hlt : m.spacesConn.length < 2 ^ 15)
    (hidle : m.spaceIdxMp.Idle env.hasher (connOf env space).spaceKey) :
    Filled env (done ++ [space]) (fillTurn env m.spacesConn.length space m) := by
  have habsent : m.index env (connOf env space).spaceKey = none :=
    OneWriterMultiReaderMap.index_eq_none.mpr (OneWriterMultiReaderMap.get_neg_of_idle hidle)
  refine ⟨?_, ?_⟩
  · rw [index_fillTurn hidle hlt, slot_fillTurn]
    exact h.complete.place habsent
  · show m.spacesConn ++ [some (connOf env space)] = _
    rw [h.slots, List.map_append, List.map_singleton]

theorem Filled.heldNames {done : List Space} {m : SpaceManager} (h : Filled env done m) :
    heldNames m = done.map Space.names := by
  rw [Router.heldNames, h.slots, List.filterMap_map, ← List.filterMap_eq_map]
  rfl

theorem persistOk_init {n : Nat} (hn : n < 2 ^ 15) (w : Startup) (hw : w.spaces.length < 2 ^ 15)
    (hnodup : (w.spaces.map fun space => bucketOf env.hasher (connOf env space).spaceKey).Nodup) :
    PersistOk env (init env n w).2 := by
  have hwf : Wf env (init env n w).2.manager := wf_init hn w hw
  unfold init at hwf ⊢
  unfold Startup.spaces at hw hnodup
  cases hload : w.load with
  | error msg =>
    simp only [hload] at hwf ⊢
    exact ⟨hwf, (filled_empty n).complete, List.Perm.nil⟩
  | ok spaces =>
    simp only [hload] at hwf hw hnodup ⊢
    have hfilled : Filled env ([] ++ spaces) (fill env 0 spaces (({} : SpaceManager).reserve n)) :=
      fill_rule (fun done space m h _ hlt hidle => filled_fillTurn h hlt hidle) spaces []
        (({} : SpaceManager).reserve n) (filled_empty n) (wf_empty hn)
        (show 2 * (0 + spaces.length) ≤ 2 ^ 16 by omega) hnodup fun _ _ => rfl
    rw [List.nil_append] at hfilled
    refine ⟨hwf, hfilled.complete, ?_⟩
    rw [hfilled.heldNames]

/-- **The local list has the spaces that the manager holds.**  So it is after `Init`, if
the loaded spaces are in different buckets, and after any calls each of which leaves the
list and the slots together. -/
theorem persisted_agrees (env : Env) (maxSpaceNum : Nat) (hmax : maxSpaceNum < 2 ^ 15) (w : Startup)
    (hw : w.spaces.length ≤ 32767)
    (hnodup : (w.spaces.map fun space => bucketOf env.hasher (connOf env space).spaceKey).Nodup)
    (s : State) (h : Reach (rpcStep env) (KeepsPersisted env) (init env maxSpaceNum w).2 s) :
    Persisted s := by
  have hok : PersistOk env s := by
    refine h.invariant (PersistOk env) (persistOk_init hmax w (by omega) hnodup) ?_
    intro s e hs he
    cases e with
    | addSpace space => exact persistOk_addSpace hs space he
    | deleteSpace dbName spaceName => exact persistOk_deleteSpace hs dbName spaceName he
  exact ⟨hok.nodup, hok.perm⟩

instance (env : Env) (s : State) : ∀ e, Decidable (KeepsPersisted env s e)
  | .addSpace _ => inferInstanceAs (Decidable (_ → (∀ c ∈ _, _) ∧ _ ∧ _))
  | .deleteSpace _ _ => inferInstanceAs (Decidable (∀ names ∈ _, _))

def growRun : List Rpc := [.addSpace (spaceNamed "b"), .deleteSpace "db" "a"]

theorem persisted_agrees_grow :
    oneLocal.spaces.length ≤ 32767 ∧
      RunOk (rpcStep libEnv) (KeepsPersisted libEnv) (init libEnv 1000 oneLocal).2 growRun ∧
      Persisted (growRun.foldl (rpcStep libEnv) (init libEnv 1000 oneLocal).2) := by
  have hrun : RunOk (rpcStep libEnv) (KeepsPersisted libEnv) (init libEnv 1000 oneLocal).2
      growRun := by decide +kernel
  exact ⟨by decide, hrun, persisted_agrees libEnv 1000 (by decide) oneLocal (by decide)
    (by decide +kernel) _ (reach_of_runOk growRun _ Reach.start hrun)⟩

def replaceRun : List Rpc := [.deleteSpace "db" "a", .addSpace (spaceNamed "b")]

/-- The space that got the slot of another is served and not written down. -/
theorem addSpace_not_persisted :
    let s := replaceRun.foldl (rpcStep libEnv) (init libEnv 1000 oneLocal).2
    Reach (rpcStep libEnv) anyEvent (init libEnv 1000 oneLocal).2 s ∧
      s.localSpaces = [] ∧ heldNames s.manager = [("db", "b")] ∧ ¬ Persisted s :=
  ⟨reach_foldl _ _ _, by decide +kernel, by decide +kernel, by decide +kernel⟩

end SimSearch.Router
