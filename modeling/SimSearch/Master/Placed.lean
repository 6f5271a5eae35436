import SimSearch.Master.Exclusive
import SimSearch.Master.Rollback
import SimSearch.Master.Blame
import SimSearch.Master.Keys

/-!
# What etcd records and what the nodes hold

A store and the nodes of `psNet`, without the handlers.  `RecordedAt` is a space of the store
together with the address of one of its replicas.  `Placed` says that the node at such an address
holds the space, and `Exact` that a node holds nothing else.

The rest is what the steps of a create and of a delete do to these two: the put and the removal of
a space, and the two rounds of requests, `CreateRound` and `DeleteRound`, one request at a time.
-/

namespace SimSearch.Master

open SimSearch.Lib Program

variable {json : SpaceJson} {e e' : Std.TreeMap String String} {n n' : String × Int → Option Names}

/-! ### The store -/

def namesOf (json : SpaceJson) (val : String) : Names :=
  ((json.unmarshal val).dbName, (json.unmarshal val).spaceName)

/-- A space of these names is stored, with a replica at this address. -/
def RecordedAt (json : SpaceJson) (e : Std.TreeMap String String) (addr : String × Int)
    (names : Names) : Prop :=
  ∃ key val, SpaceAt e key val ∧ namesOf json val = names ∧
    addr ∈ (json.unmarshal val).replicas.map Replica.address

theorem RecordedAt.recorded {addr : String × Int} {names : Names}
    (h : RecordedAt json e addr names) : Recorded json e names := by
  obtain ⟨key, val, ⟨hval, hpre⟩, hnames, -⟩ := h
  exact ⟨key, val, hval, hpre, hnames⟩

theorem RecordedAt.shrinks {addr : String × Int} {names : Names}
    (h : RecordedAt json e' addr names) (hs : Shrinks e e') : RecordedAt json e addr names := by
  obtain ⟨key, val, hval, hnames, haddr⟩ := h
  exact ⟨key, val, hs key val hval, hnames, haddr⟩

theorem Recorded.shrinks {names : Names} (h : Recorded json e' names) (hs : Shrinks e e') :
    Recorded json e names := by
  obtain ⟨key, val, hval, hpre, hnames⟩ := h
  obtain ⟨hval', hpre'⟩ := hs key val ⟨hval, hpre⟩
  exact ⟨key, val, hval', hpre', hnames⟩

theorem Agree.symm {pre : String} (h : Agree pre e e') : Agree pre e' e :=
  fun key hkey => (h key hkey).symm

/-- The store is in order, and every stored space has names that the master accepts. -/
structure WellNamed (json : SpaceJson) (e : Std.TreeMap String String) : Prop where
  store : StoreOk json e
  named : ∀ key val, SpaceAt e key val →
    nameValidate (namesOf json val).1 = "" ∧ nameValidate (namesOf json val).2 = ""

/-- Every stored space is held by the nodes of its replicas. -/
structure Placed (json : SpaceJson) (e : Std.TreeMap String String)
    (n : String × Int → Option Names) : Prop extends WellNamed json e where
  held : ∀ addr names, RecordedAt json e addr names → n addr = some names

/-- A node holds nothing that is not recorded for it. -/
def Exact (json : SpaceJson) (e : Std.TreeMap String String) (n : String × Int → Option Names) :
    Prop :=
  ∀ addr names, n addr = some names → RecordedAt json e addr names

theorem WellNamed.shrinks (h : WellNamed json e) (hs : Shrinks e e') : WellNamed json e' where
  store := h.store.shrinks hs
  named key val hval := h.named key val (hs key val hval)

theorem Placed.shrinks (h : Placed json e n) (hs : Shrinks e e') : Placed json e' n where
  toWellNamed := h.toWellNamed.shrinks hs
  held addr names hrec := h.held addr names (hrec.shrinks hs)

theorem Placed.agree (h : Placed json e n) (ha : Agree spacesMataPrefix e e') : Placed json e' n :=
  h.shrinks ha.shrinks

theorem Exact.agree (h : Exact json e n) (ha : Agree spacesMataPrefix e e') : Exact json e' n :=
  fun addr names hn => (h addr names hn).shrinks ha.symm.shrinks

theorem not_spaceAt_of_empty (h : scanEtcd e spacesMataPrefix = []) (key val : String) :
    ¬ SpaceAt e key val := by
  intro hval
  have hmem := mem_scanEtcd.mpr hval
  rw [h] at hmem
  cases hmem

theorem wellNamed_of_empty (h : scanEtcd e spacesMataPrefix = []) : WellNamed json e := by
  have hnone := not_spaceAt_of_empty h
  exact ⟨⟨fun key val hval => absurd hval (hnone key val),
    fun key val _ _ hval => absurd hval (hnone key val)⟩,
    fun key val hval => absurd hval (hnone key val)⟩

/-- **The key of two names leads to the space of these names**, also if the master would not
accept them. -/
theorem WellNamed.names_of_key (h : WellNamed json e) {db sp val : String}
    (hval : SpaceAt e (getSpaceEtcdKey db sp) val) : namesOf json val = (db, sp) := by
  obtain ⟨hdb, hsp⟩ := h.named _ _ hval
  have hslash : ∀ {n m r : String}, nameValidate n = "" → n ≠ m ++ "/" ++ r := by
    rintro n m r hn rfl
    refine Name.not_mem ⟨_, hn⟩ (c := '/') rfl ?_
    rw [@toList_join "/" _ rfl]
    exact List.mem_append_right _ List.mem_cons_self
  have hkey := (h.store.stored _ _ hval).key_eq
  have hassoc : ∀ db sp,
      getSpaceEtcdKey db sp = (spacesMataPrefix ++ "/") ++ (db ++ "/" ++ sp) := by
    intro db sp
    simp only [getSpaceEtcdKey, String.append_assoc]
  rw [hassoc, hassoc] at hkey
  rcases (@join_eq_iff "/" _ rfl _ _ _ _).mp (append_cancel_left hkey) with
    ⟨hdb', hsp'⟩ | ⟨m, hm, -⟩ | ⟨m, -, hm⟩
  · exact Prod.ext hdb'.symm hsp'.symm
  · exact absurd hm (hslash hdb)
  · exact absurd hm (hslash hsp)

/-- A name that is not recorded has no value under its key. -/
theorem WellNamed.ne_key (h : WellNamed json e) {db sp : String}
    (hno : ¬ Recorded json e (db, sp)) {key val : String} (hval : SpaceAt e key val) :
    key ≠ getSpaceEtcdKey db sp := by
  rintro rfl
  exact hno ⟨_, val, hval.1, hval.2, h.names_of_key hval⟩

/-! ### A space is stored -/

theorem agree_insert_both {pre k v : String} (h : Agree pre e e') :
    Agree pre (e.insert k v) (e'.insert k v) := by
  intro key hkey
  rw [Std.TreeMap.getElem?_insert, Std.TreeMap.getElem?_insert, h key hkey]

theorem agree_erase_both {pre k : String} (h : Agree pre e e') :
    Agree pre (e.erase k) (e'.erase k) := by
  intro key hkey
  rw [Std.TreeMap.getElem?_erase, Std.TreeMap.getElem?_erase, h key hkey]

section

variable {sp : InnerSpace} {v : String} (hv : json.unmarshal v = sp)

include hv

/-- **A space on free nodes may be stored.** -/
theorem WellNamed.insert (h : WellNamed json e) (hdb : nameValidate sp.dbName = "")
    (hsp : nameValidate sp.spaceName = "")
    (hfree : Free json sp.replicas e) :
    WellNamed json (e.insert (getSpaceEtcdKey sp.dbName sp.spaceName) v) := by
  have hnames : namesOf json v = (sp.dbName, sp.spaceName) := by rw [namesOf, hv]
  have hstored : Stored json (getSpaceEtcdKey sp.dbName sp.spaceName) v := by
    refine ⟨by rw [hv], ?_, ?_, ?_⟩
    · rw [hv]
      exact not_colon_of_nameValidate hdb
    · rw [hv]
      exact not_colon_of_nameValidate hsp
    · rw [nodeNames, hv]
      exact hfree.1
  refine ⟨h.store.insert hv hstored hfree, fun key val hval => ?_⟩
  rcases spaceAt_insert hval with ⟨-, rfl⟩ | ⟨-, hval⟩
  · rw [hnames]
    exact ⟨hdb, hsp⟩
  · exact h.named key val hval

/-- **A space that its nodes hold may be stored.** -/
theorem Placed.insert (h : Placed json e n) (hdb : nameValidate sp.dbName = "")
    (hsp : nameValidate sp.spaceName = "")
    (hfree : Free json sp.replicas e)
    (hheld : ∀ rep ∈ sp.replicas, n rep.address = some (sp.dbName, sp.spaceName)) :
    Placed json (e.insert (getSpaceEtcdKey sp.dbName sp.spaceName) v) n := by
  refine ⟨h.toWellNamed.insert hv hdb hsp hfree, fun addr names hrec => ?_⟩
  obtain ⟨key, val, hval, rfl, haddr⟩ := hrec
  rcases spaceAt_insert hval with ⟨-, rfl⟩ | ⟨-, hval⟩
  · rw [hv] at haddr
    obtain ⟨rep, hrep, rfl⟩ := List.mem_map.mp haddr
    rw [namesOf, hv]
    exact hheld rep hrep
  · exact h.held addr _ ⟨key, val, hval, rfl, haddr⟩

/-- What the nodes hold afterwards is recorded: the old spaces lie under other keys. -/
theorem Placed.exact_insert (h : Placed json e n)
    (hno : ¬ Recorded json e (sp.dbName, sp.spaceName))
    (hn : ∀ addr names, n addr = some names → RecordedAt json e addr names ∨
      names = (sp.dbName, sp.spaceName) ∧ addr ∈ sp.replicas.map Replica.address) :
    Exact json (e.insert (getSpaceEtcdKey sp.dbName sp.spaceName) v) n := by
  intro addr names hheld
  rcases hn addr names hheld with ⟨key, val, hval, hnames, haddr⟩ | ⟨rfl, haddr⟩
  · have hne : getSpaceEtcdKey sp.dbName sp.spaceName ≠ key := (h.ne_key hno hval).symm
    refine ⟨key, val, ⟨?_, hval.2⟩, hnames, haddr⟩
    rw [Std.TreeMap.getElem?_insert, if_neg (by simpa using hne)]
    exact hval.1
  · refine ⟨_, v, ⟨Std.TreeMap.getElem?_insert_self, startsWith_getSpaceEtcdKey _ _⟩, ?_, ?_⟩
    · rw [namesOf, hv]
    · rw [hv]
      exact haddr

end

/-! ### A space is removed -/

theorem shrinks_erase (e : Std.TreeMap String String) (k : String) : Shrinks e (e.erase k) := by
  rintro key val ⟨hval, hpre⟩
  rw [Std.TreeMap.getElem?_erase] at hval
  split_ifs at hval
  exact ⟨hval, hpre⟩

theorem spaceAt_erase {k key val : String} (h : SpaceAt e key val) (hne : key ≠ k) :
    SpaceAt (e.erase k) key val := by
  refine ⟨?_, h.2⟩
  rw [Std.TreeMap.getElem?_erase, if_neg (by simpa using hne.symm)]
  exact h.1

section

variable {key val : String}

theorem StoreOk.not_recorded_erase (h : StoreOk json e) (hval : SpaceAt e key val) :
    ¬ Recorded json (e.erase key) (namesOf json val) := by
  rintro ⟨key', val', hval', hpre', hnames⟩
  have hold := shrinks_erase e key key' val' ⟨hval', hpre'⟩
  obtain ⟨hdb, hsp⟩ := Prod.mk.inj hnames
  have hkey : key' = key := by
    rw [(h.stored _ _ hold).key_eq, (h.stored _ _ hval).key_eq, hdb, hsp]
  rw [hkey, Std.TreeMap.getElem?_erase_self] at hval'
  cases hval'

/-- What is recorded no longer was that space on one of its nodes. -/
theorem RecordedAt.erase {addr : String × Int} {names : Names} (h : RecordedAt json e addr names)
    (hval : SpaceAt e key val) : RecordedAt json (e.erase key) addr names ∨
      names = namesOf json val ∧ addr ∈ (json.unmarshal val).replicas.map Replica.address := by
  obtain ⟨key', val', hval', rfl, haddr⟩ := h
  by_cases hkey : key' = key
  · subst hkey
    cases hval.1.symm.trans hval'.1
    exact Or.inr ⟨rfl, haddr⟩
  · exact Or.inl ⟨key', val', spaceAt_erase hval' hkey, rfl, haddr⟩

end

/-! ### Requests to the nodes -/

section

variable {task : Task} {d : Delivery}

theorem send_other {addr : String × Int} (h : addr ≠ task.address) :
    (psNet.send n task d).2 addr = n addr := by
  by_cases hd : d.delivered = true
  · simp only [psNet, hd, if_true]
    exact Function.update_of_ne h _ _
  · simp only [psNet, hd]
    rfl

theorem send_router (h : (∃ space, task.body = .routerCreate space) ∨
    ∃ db sp, task.body = .routerDelete db sp) : (psNet.send n task d).2 = n := by
  by_cases hd : d.delivered = true
  · rcases h with ⟨space, hbody⟩ | ⟨db, sp, hbody⟩ <;>
      simp only [psNet, hd, if_true, hbody, psHandle, Function.update_eq_self]
  · simp only [psNet, hd]
    rfl

/-- **Requests of a name that is not recorded spare what is recorded.** -/
theorem Placed.send (h : Placed json e n) {db sp : String} (hno : ¬ Recorded json e (db, sp))
    (htask : CreateTask db sp task) : Placed json e (psNet.send n task d).2 :=
  { h with
    held := fun addr names hrec => by
      refine send_held (h.held addr names hrec) (body_ne_psDelete htask ?_)
      rintro rfl
      exact hno hrec.recorded }

variable {space : InnerSpace} {partition : Partition}

theorem psHandle_create_ok {held : Option Names} {fails : Option (Option Names)}
    (h : (psHandle held (.psCreate space partition) fails).1.code = 0) :
    (psHandle held (.psCreate space partition) fails).2
      = some (space.dbName, space.spaceName) := by
  cases held with
  | some names => exact absurd h (show ¬ (201 : Int) = 0 by decide)
  | none =>
    cases fails with
    | some left => exact absurd h (show ¬ (202 : Int) = 0 by decide)
    | none => rfl

theorem send_ok (h : (psNet.send n task d).1.ok = true) : d.delivered = true ∧
    (psHandle (n task.address) task.body d.fails).1.code = 0 := by
  have hreply : (psNet.send n task d).1 = if d.delivered then
      if d.answered then { status := (psHandle (n task.address) task.body d.fails).1 }
      else { err := "request timeout" }
    else { err := "connection refused" } := by
    simp only [psNet]
    split_ifs <;> rfl
  rw [hreply] at h
  split_ifs at h with hd ha
  · simp only [Reply.ok, Bool.and_eq_true, beq_iff_eq] at h
    exact ⟨hd, h.2⟩
  · cases h
  · cases h

theorem held_of_create_ok (hbody : task.body = .psCreate space partition)
    (hok : (psNet.send n task d).1.ok = true) :
    (psNet.send n task d).2 task.address = some (space.dbName, space.spaceName) := by
  obtain ⟨hd, hcode⟩ := send_ok hok
  rw [hbody] at hcode
  have hsend : (psNet.send n task d).2
      = Function.update n task.address (psHandle (n task.address) task.body d.fails).2 := by
    simp only [psNet, hd, if_true]
    rfl
  rw [hsend, Function.update_self, hbody]
  exact psHandle_create_ok hcode

theorem create_ok_of_free (hbody : task.body = .psCreate space partition)
    (hfree : n task.address = none) : (psNet.send n task {}).1.ok = true := by
  have hfree' : n (task.ip, task.port) = none := hfree
  simp only [psNet, if_true, hbody, psHandle, hfree']
  rfl

theorem held_of_create (hbody : task.body = .psCreate space partition) {addr : String × Int}
    {names : Names} (h : (psNet.send n task {}).2 addr = some names) :
    n addr = some names ∨ names = (space.dbName, space.spaceName) ∧ addr = task.address := by
  by_cases haddr : addr = task.address
  · subst haddr
    cases hheld : n task.address with
    | some old =>
      have hkept : (psNet.send n task {}).2 task.address = some old :=
        send_held hheld (by rw [hbody]; exact fun h => (nomatch h))
      exact Or.inl (hkept.symm.trans h)
    | none =>
      have hnew := held_of_create_ok hbody (create_ok_of_free hbody hheld)
      rw [hnew, Option.some.injEq] at h
      exact Or.inr ⟨h.symm, rfl⟩
  · rw [send_other haddr] at h
    exact Or.inl h

theorem held_of_delete {names : Names} (hbody : task.body = .psDelete names.1 names.2)
    {addr : String × Int} {held : Names} (h : (psNet.send n task {}).2 addr = some held) :
    n addr = some held ∧ (addr = task.address → held ≠ names) := by
  by_cases haddr : addr = task.address
  · subst haddr
    have hsend : (psNet.send n task {}).2 task.address
        = if n task.address = some names then none else n task.address := by
      simp only [psNet, if_true, hbody, psHandle]
      show Function.update n task.address _ task.address = _
      rw [Function.update_self]
      by_cases hheld : n (task.ip, task.port) = some (names.1, names.2)
      · rw [if_pos hheld]
        exact (if_pos hheld).symm
      · rw [if_neg hheld]
        exact (if_neg hheld).symm
    rw [hsend] at h
    split_ifs at h with hheld
    refine ⟨h, fun _ heq => hheld ?_⟩
    rw [h, heq]
  · rw [send_other haddr] at h
    exact ⟨h, fun heq => absurd heq haddr⟩

end

/-! ### Rounds -/

/-- A round of creates, with `left` to be sent and `got` received: a node that has acknowledged
holds the space.  If the network is `sure`, the nodes that are left are free, all others have
acknowledged, and nothing but the space has come since `n₀`. -/
structure CreateRound (sure : Bool) (names : Names) (tasks : List Task)
    (n₀ : String × Int → Option Names) (left : List Nat) (got : List (Nat × Reply))
    (n : String × Int → Option Names) : Prop where
  nodup : left.Nodup
  acked : ∀ p ∈ got, p.2.ok = true → ∀ task, tasks[p.1]? = some task → n task.address = some names
  free : sure = true → ∀ i ∈ left, ∀ task, tasks[i]? = some task → n task.address = none
  allOk : sure = true → ∀ p ∈ got, p.2.ok = true
  origin : sure = true → ∀ addr held, n addr = some held →
    n₀ addr = some held ∨ held = names ∧ addr ∈ tasks.map Task.address

theorem getElem?_map_address {tasks : List Task} {i : Nat} {task : Task}
    (h : tasks[i]? = some task) : (tasks.map Task.address)[i]? = some task.address := by
  rw [List.getElem?_map, h]
  rfl

theorem address_ne {tasks : List Task} (hnodup : (tasks.map Task.address).Nodup) {i j : Nat}
    {task task' : Task} (hi : tasks[i]? = some task) (hj : tasks[j]? = some task') (hij : i ≠ j) :
    task'.address ≠ task.address := by
  intro heq
  have hi' := getElem?_map_address hi
  have hj' := getElem?_map_address hj
  have hlt := (List.getElem?_eq_some_iff.mp hi').1
  refine hij ((List.getElem?_inj hlt hnodup).mp ?_)
  rw [hi', hj', heq]

/-- **One request of a round of creates.** -/
theorem CreateRound.post {sure : Bool} {space : InnerSpace} {tasks : List Task}
    {n₀ : String × Int → Option Names} {i : Nat} {left : List Nat} {got : List (Nat × Reply)}
    (h : CreateRound sure (space.dbName, space.spaceName) tasks n₀ (i :: left) got n)
    (hnodup : (tasks.map Task.address).Nodup) {task : Task} (hi : tasks[i]? = some task)
    {partition : Partition} (hbody : task.body = .psCreate space partition) {d : Delivery}
    (hsure : sure = true → d = {}) :
    CreateRound sure (space.dbName, space.spaceName) tasks n₀ left
      (got ++ [(i, (psNet.send n task d).1)]) (psNet.send n task d).2 where
  nodup := (List.nodup_cons.mp h.nodup).2
  acked p hp hok task' htask' := by
    rcases List.mem_append.mp hp with hp | hp
    · refine send_held (h.acked p hp hok task' htask') ?_
      rw [hbody]
      exact fun heq => (nomatch heq)
    · rw [List.mem_singleton.mp hp] at hok htask'
      cases hi.symm.trans htask'
      exact held_of_create_ok hbody hok
  free hs j hj task' htask' := by
    have hij : i ≠ j := fun heq => (List.nodup_cons.mp h.nodup).1 (heq ▸ hj)
    rw [send_other (address_ne hnodup hi htask' hij)]
    exact h.free hs j (List.mem_cons_of_mem _ hj) task' htask'
  allOk hs p hp := by
    rcases List.mem_append.mp hp with hp | hp
    · exact h.allOk hs p hp
    · rw [List.mem_singleton.mp hp, hsure hs]
      exact create_ok_of_free hbody (h.free hs i List.mem_cons_self task hi)
  origin hs addr held hheld := by
    rw [hsure hs] at hheld
    rcases held_of_create hbody hheld with hold | ⟨rfl, rfl⟩
    · exact h.origin hs addr held hold
    · exact Or.inr ⟨rfl, List.mem_map_of_mem (List.mem_of_getElem? hi)⟩

/-- A round of deletes: if the network is `sure`, a node that still has the space is left, and
nothing has come since `n₀`. -/
structure DeleteRound (sure : Bool) (names : Names) (tasks : List Task)
    (n₀ : String × Int → Option Names) (left : List Nat) (n : String × Int → Option Names) :
    Prop where
  remains : sure = true → ∀ addr, n addr = some names →
    ∃ i ∈ left, ∃ task, tasks[i]? = some task ∧ task.address = addr
  origin : sure = true → ∀ addr held, n addr = some held → n₀ addr = some held

theorem DeleteRound.post {sure : Bool} {names : Names} {tasks : List Task}
    {n₀ : String × Int → Option Names} {i : Nat} {left : List Nat}
    (h : DeleteRound sure names tasks n₀ (i :: left) n) {task : Task} (hi : tasks[i]? = some task)
    (hbody : task.body = .psDelete names.1 names.2) {d : Delivery} (hsure : sure = true → d = {}) :
    DeleteRound sure names tasks n₀ left (psNet.send n task d).2 where
  remains hs addr hheld := by
    rw [hsure hs] at hheld
    obtain ⟨hold, hne⟩ := held_of_delete hbody hheld
    obtain ⟨j, hj, task', htask', rfl⟩ := h.remains hs addr hold
    rcases List.mem_cons.mp hj with rfl | hj
    · cases hi.symm.trans htask'
      exact absurd rfl (hne rfl)
    · exact ⟨j, hj, task', htask', rfl⟩
  origin hs addr held hheld := by
    rw [hsure hs] at hheld
    exact h.origin hs addr held (held_of_delete hbody hheld).1

end SimSearch.Master
