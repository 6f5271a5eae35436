import SimSearch.Master.Mutex

/-!
# A node serves one space

When all calls to etcd succeed, no node occurs twice among the replicas of the stored
spaces, whatever the interleaving of the requests.

A create looks at the stored spaces once, under the lock, and puts its own much later.
In between a delete may run, with the lock or without it.  What carries the proof is
that the others can only make the set of stored spaces smaller (`Shrinks`) while the lock is held: a
node that was free at the scan is still free at the put (`Free.shrinks`).  The invariant
`StoreOk` says besides that every space lies under the key of its own names, so that
`DeserializeFromByteList` loses none of them.
-/

namespace SimSearch.Master

open SimSearch.Lib Program

variable {net : Network} {t : Nat} {json : SpaceJson}

/-! ### Stored spaces -/

/-- The store has `val` under `key`, which is below `SpacesMataPrefix`. -/
def SpaceAt (e : Std.TreeMap String String) (key val : String) : Prop :=
  e[key]? = some val ∧ startsWith spacesMataPrefix key = true

def nodeNames (json : SpaceJson) (val : String) : List String :=
  (json.unmarshal val).replicas.map Replica.name

/-- A space under the key of its names, with different nodes. -/
structure Stored (json : SpaceJson) (key val : String) : Prop where
  key_eq : key = getSpaceEtcdKey (json.unmarshal val).dbName (json.unmarshal val).spaceName
  dbName : ':' ∉ (json.unmarshal val).dbName.toList
  spaceName : ':' ∉ (json.unmarshal val).spaceName.toList
  nodup : (nodeNames json val).Nodup

structure StoreOk (json : SpaceJson) (e : Std.TreeMap String String) : Prop where
  stored : ∀ key val, SpaceAt e key val → Stored json key val
  apart : ∀ key val key' val', SpaceAt e key val → SpaceAt e key' val' → key ≠ key' →
    (nodeNames json val).Disjoint (nodeNames json val')

/-- No space has appeared or changed. -/
def Shrinks (e e' : Std.TreeMap String String) : Prop :=
  ∀ key val, SpaceAt e' key val → SpaceAt e key val

theorem Shrinks.refl (e : Std.TreeMap String String) : Shrinks e e := fun _ _ h => h

theorem Shrinks.trans {e e' e'' : Std.TreeMap String String} (h : Shrinks e e')
    (h' : Shrinks e' e'') : Shrinks e e'' := fun key val hval => h key val (h' key val hval)

theorem Agree.shrinks {e e' : Std.TreeMap String String} (h : Agree spacesMataPrefix e e') :
    Shrinks e e' := by
  rintro key val ⟨hval, hpre⟩
  exact ⟨(h key hpre).symm.trans hval, hpre⟩

theorem StoreOk.shrinks {e e' : Std.TreeMap String String} (h : StoreOk json e)
    (hs : Shrinks e e') : StoreOk json e' where
  stored key val hval := h.stored key val (hs key val hval)
  apart key val key' val' hval hval' := h.apart key val key' val' (hs _ _ hval) (hs _ _ hval')

/-- The nodes are different, and none of them belongs to a stored space. -/
def Free (json : SpaceJson) (nodes : List Replica) (e : Std.TreeMap String String) : Prop :=
  (nodes.map Replica.name).Nodup ∧
    ∀ key val, SpaceAt e key val → (nodes.map Replica.name).Disjoint (nodeNames json val)

theorem Free.shrinks {nodes : List Replica} {e e' : Std.TreeMap String String}
    (h : Free json nodes e) (hs : Shrinks e e') : Free json nodes e' :=
  ⟨h.1, fun key val hval => h.2 key val (hs key val hval)⟩

theorem Free.sublist {nodes nodes' : List Replica} {e : Std.TreeMap String String}
    (h : Free json nodes e) (hs : nodes'.Sublist nodes) : Free json nodes' e := by
  refine ⟨h.1.sublist (hs.map _), fun key val hval => ?_⟩
  exact List.disjoint_of_subset_left (hs.map _).subset (h.2 key val hval)

theorem spaceAt_insert {e : Std.TreeMap String String} {k v key val : String}
    (h : SpaceAt (e.insert k v) key val) : (key = k ∧ val = v) ∨ (key ≠ k ∧ SpaceAt e key val) := by
  obtain ⟨hval, hpre⟩ := h
  by_cases hk : key = k
  · subst hk
    rw [Std.TreeMap.getElem?_insert_self, Option.some.injEq] at hval
    exact Or.inl ⟨rfl, hval.symm⟩
  · rw [Std.TreeMap.getElem?_insert, if_neg (by simpa using Ne.symm hk)] at hval
    exact Or.inr ⟨hk, hval, hpre⟩

/-- **A space on free nodes may be stored.** -/
theorem StoreOk.insert {e : Std.TreeMap String String} {sp : InnerSpace} {k v : String}
    (h : StoreOk json e) (hv : json.unmarshal v = sp) (hsp : Stored json k v)
    (hfree : Free json sp.replicas e) : StoreOk json (e.insert k v) := by
  have hnames : sp.replicas.map Replica.name = nodeNames json v := by rw [nodeNames, hv]
  refine ⟨fun key val hval => ?_, fun key val key' val' hval hval' hne => ?_⟩
  · rcases spaceAt_insert hval with ⟨rfl, rfl⟩ | ⟨-, hval⟩
    · exact hsp
    · exact h.stored key val hval
  · rcases spaceAt_insert hval with ⟨hk, hw⟩ | ⟨-, hold⟩
    · rcases spaceAt_insert hval' with ⟨hk', -⟩ | ⟨-, hold'⟩
      · exact absurd (hk.trans hk'.symm) hne
      · rw [hw, ← hnames]
        exact hfree.2 key' val' hold'
    · rcases spaceAt_insert hval' with ⟨-, hw'⟩ | ⟨-, hold'⟩
      · rw [hw', ← hnames]
        exact (hfree.2 key val hold).symm
      · exact h.apart key val key' val' hold hold' hne

/-! ### What a scan of the spaces shows -/

theorem nodup_scanEtcd (e : Std.TreeMap String String) (pre : String) : (scanEtcd e pre).Nodup := by
  have hkeys := Std.TreeMap.distinct_keys_toList (t := e)
  refine List.Nodup.filter _ (hkeys.imp fun hne heq => hne ?_)
  rw [heq]
  exact Std.ReflCmp.compare_self

theorem names_of_fullName {sp sp' : InnerSpace} (hdb : ':' ∉ sp.dbName.toList)
    (hsp : ':' ∉ sp.spaceName.toList) (h : sp.fullName = sp'.fullName) :
    sp.dbName = sp'.dbName ∧ sp.spaceName = sp'.spaceName := by
  have hchars := congrArg String.toList h
  simp only [InnerSpace.fullName, String.toList_append, List.append_assoc] at hchars
  obtain ⟨h₁, -, h₂⟩ := (List.append_cons_inj_of_notMem hdb hsp).mp hchars
  exact ⟨String.toList_inj.mp h₁, String.toList_inj.mp h₂⟩

theorem StoreOk.nodup_fullName {e : Std.TreeMap String String} (h : StoreOk json e) :
    (((scanEtcd e spacesMataPrefix).map Prod.snd).map fun v =>
      (json.unmarshal v).fullName).Nodup := by
  rw [List.map_map]
  refine List.Nodup.map_on ?_ (nodup_scanEtcd e spacesMataPrefix)
  rintro ⟨key, val⟩ hmem ⟨key', val'⟩ hmem' hname
  have hst := h.stored key val (mem_scanEtcd.mp hmem)
  have hst' := h.stored key' val' (mem_scanEtcd.mp hmem')
  obtain ⟨hdb, hsp⟩ := names_of_fullName hst.dbName hst.spaceName hname
  have hkey : key = key' := by rw [hst.key_eq, hst'.key_eq, hdb, hsp]
  subst hkey
  have hval := (mem_scanEtcd.mp hmem).1.symm.trans (mem_scanEtcd.mp hmem').1
  rw [Option.some.inj hval]

theorem PsNodes.perm {m m' : List (String × Replica)} (h : PsNodes m) (hp : m'.Perm m) :
    PsNodes m' :=
  ⟨fun e he => h.named e (hp.mem_iff.mp he), (hp.map _).nodup_iff.mpr h.nodup⟩

/-- **The idle nodes are free**, as far as the scan of the spaces shows. -/
theorem StoreOk.free_idle {e : Std.TreeMap String String} (h : StoreOk json e)
    {nodes errNodes : List (String × Replica)} (hnodes : PsNodes nodes) {busy : List InnerSpace}
    (hbusy : busy.Perm ((deserializeFromByteList json
      ((scanEtcd e spacesMataPrefix).map Prod.snd)).map Prod.snd)) :
    Free json (getAllIdlePsKeys nodes [getAllPsMap busy, errNodes]) e := by
  refine ⟨(getAllIdlePsKeys_spec hnodes).1, fun key val hval x hx hx' => ?_⟩
  obtain ⟨r, hr, rfl⟩ := List.mem_map.mp hx
  obtain ⟨r', hr', hname⟩ := List.mem_map.mp hx'
  refine (getAllIdlePsKeys_spec hnodes).2 r hr _ List.mem_cons_self
    ((mem_keys_getAllPsMap busy r.name).mpr ?_)
  refine ⟨json.unmarshal val, hbusy.mem_iff.mpr ?_, r', hr', hname⟩
  rw [deserializeFromByteList_of_nodup h.nodup_fullName, List.map_map]
  exact List.mem_map.mpr ⟨(key, val), mem_scanEtcd.mpr hval, rfl⟩

/-! ### The new space -/

/-- The nodes of a new space are the first of the idle ones. -/
theorem replicas_filledSpace {space : InnerSpace} (h : space.partitions = [])
    (idle : List Replica) (time : String) (id : Int) :
    (filledSpace space idle time id).replicas
      = idle.take (space.partitionNum.toNat * space.replicaNum.toNat) := by
  unfold filledSpace InnerSpace.replicas newPartitions
  simp only [h, List.nil_append, List.flatMap_map]
  exact flatMap_slices idle _ _

theorem not_colon_of_nameValidate {s : String} (h : nameValidate s = "") : ':' ∉ s.toList :=
  fun hc => absurd (isNameChar_of_nameValidate h _ hc) (by decide)

/-! ### The protocol -/

/-- While a thread holds the lock the others add no space. -/
def storeProtocol (json : SpaceJson) (net : Network) : Protocol (master net) Request where
  inv w := StoreOk json (World.etcd w)
  rely t w w' := (World.lock w' = some t ↔ World.lock w = some t) ∧
    (World.lock w = some t → Shrinks (World.etcd w) (World.etcd w'))
  allow _ _ _ _ o c := etcdUp net o c = true
  pre _ _ _ _ _ := True
  rely_refl _ _ _ := ⟨Iff.rfl, fun _ => Shrinks.refl _⟩
  rely_trans _ _ _ _ h h' := ⟨h'.1.trans h.1, fun hl => (h.2 hl).trans (h'.2 (h.1.mpr hl))⟩

def ShrinkOp : Op → Prop
  | .put key _ => startsWith spacesMataPrefix key = false
  | .newId key => startsWith spacesMataPrefix key = false
  | _ => True

theorem exec_shrinks (w : World net) (o : Op) (c : Choice net o) (ho : ShrinkOp o) :
    Shrinks w.etcd (exec net t w o c).2.etcd := by
  cases o with
  | delete k =>
    cases c with
    | some e => exact Shrinks.refl _
    | none =>
      rintro key val ⟨hval, hpre⟩
      have hne : ¬ compare k key = .eq := by
        intro heq
        rw [show (exec net t w (.delete k) none).2.etcd = w.etcd.erase k from rfl,
          Std.TreeMap.getElem?_erase, if_pos heq] at hval
        cases hval
      rw [show (exec net t w (.delete k) none).2.etcd = w.etcd.erase k from rfl,
        Std.TreeMap.getElem?_erase, if_neg hne] at hval
      exact ⟨hval, hpre⟩
  | put k v => exact (exec_spares w (.put k v) c ho).shrinks
  | newId k => exact (exec_spares w (.newId k) c ho).shrinks
  | _ => exact (exec_spares w _ c trivial).shrinks

theorem shrink_fair (w : World net) (o : Op) (c : Choice net o) (ho : ShrinkOp o)
    (hinv : StoreOk json w.etcd) : (storeProtocol json net).Fair t w (exec net t w o c).2 :=
  ⟨hinv.shrinks (exec_shrinks w o c ho),
    fun _ hu => ⟨exec_lock_other w o c hu, fun _ => exec_shrinks w o c ho⟩⟩

/-- The holder of the lock may store a space, if the invariant allows it. -/
theorem put_fair {w : World net} (hlock : w.lock = some t) {k v : String}
    (hinv : StoreOk json (w.etcd.insert k v)) :
    (storeProtocol json net).Fair t w { w with etcd := w.etcd.insert k v } :=
  ⟨hinv, fun _ hu => ⟨Iff.rfl, fun hl => absurd (Option.some.inj (hl.symm.trans hlock)) hu⟩⟩

/-! ### The work of a create -/

/-- The thread holds the lock, and since the store was `e` no space has appeared. -/
def Held (t : Nat) (e : Std.TreeMap String String) (w : World net) : Prop :=
  w.lock = some t ∧ Shrinks e w.etcd

theorem Held.rely {e : Std.TreeMap String String} {w w' : World net} (h : Held t e w)
    (hr : (storeProtocol json net).rely t w w') : Held t e w' :=
  ⟨hr.1.mpr h.1, h.2.trans (hr.2 h.1)⟩

/-- **Nothing appears while the holder of the lock stores nothing.** -/
theorem safe_held {i : Request} {α : Type} {p : Prog α}
    (hp : p.Uses fun o => ShrinkOp o ∧ ¬ LockOp o) {e : Std.TreeMap String String}
    {tr : Trace Op Res} {w : World net} (hw : Held t e w) :
    Safe (storeProtocol json net) t i (fun _ _ w => Held t e w) p tr w := by
  refine safe_of_uses (M := master net) (P := storeProtocol json net)
    (K := fun _ (w : World net) => Held t e w) ?_ ?_ hp hw
  · intro tr w w' hw hr _
    exact hw.rely hr
  · rintro tr w o ⟨ho, hlock⟩ hw hinv
    refine ⟨trivial, fun c _ => ⟨shrink_fair w o c ho hinv, ?_, ?_⟩⟩
    · exact (exec_lock w c hlock).trans hw.1
    · exact hw.2.trans (exec_shrinks w o c ho)

theorem CreateOp.shrinkOp {db sp : String} :
    ∀ o, CreateOp db sp o → ShrinkOp o ∧ ¬ LockOp o := by
  intro o h
  have hspares := CreateOp.spares (Or.inl rfl) o h
  refine ⟨?_, CreateOp.not_lockOp o h⟩
  cases o <;> first | exact hspares | trivial

theorem ReadOp.shrinkOp (o : Op) (h : ReadOp o) : ShrinkOp o ∧ ¬ LockOp o :=
  CreateOp.shrinkOp o (@ReadOp.createOp "" "" o h)

theorem returns_visit {α : Type} (l : List α) : (visit l).Returns fun l' => l'.Perm l := by
  intro order
  have hperm := order.2.filterMap fun i => l[i]?
  rwa [filterMap_range_getElem?] at hperm

/-- The scan of the spaces shows the store at that moment. -/
theorem safe_scanSpaces {i : Request} {e : Std.TreeMap String String} {tr : Trace Op Res}
    {w : World net} (hw : Held t e w) :
    Safe (storeProtocol json net) t i (fun kvs _ w => ∃ e, StoreOk json e ∧
      kvs = scanEtcd e spacesMataPrefix ∧ Held t e w) (scanOrEmpty spacesMataPrefix) tr w := by
  refine safe_perform fun w₁ hw₁ hinv => ⟨trivial, fun c hc => ?_⟩
  refine ⟨shrink_fair w₁ (.scan spacesMataPrefix) c trivial hinv, ?_⟩
  obtain rfl : c = none := Option.isNone_iff_eq_none.mp hc
  have hnow : Held t (World.etcd w₁) w₁ := ⟨(hw.rely hw₁).1, Shrinks.refl _⟩
  exact safe_ret fun w₂ hw₂ _ => ⟨World.etcd w₁, hinv, rfl, hnow.rely hw₂⟩

/-- **The nodes that `ValidateNameAndGetIdlePsNode` returns are free.** -/
theorem safe_validateName {i : Request} (space : InnerSpace) {e : Std.TreeMap String String}
    {tr : Trace Op Res} {w : World net} (hw : Held t e w) :
    Safe (storeProtocol json net) t i (fun r _ w => ∃ e, Held t e w ∧
        ∀ idle, r = some (.ok idle) → Free json idle e)
      (validateNameAndGetIdlePsNode json space) tr w := by
  have hret : ∀ {r : Option (Except String (List Replica))} {e : Std.TreeMap String String}
      {tr : Trace Op Res} {w : World net}, Held t e w →
      (∀ idle, r = some (.ok idle) → Free json idle e) →
      Safe (storeProtocol json net) t i (fun r _ w => ∃ e, Held t e w ∧
        ∀ idle, r = some (.ok idle) → Free json idle e) (.ret r) tr w :=
    fun hw hr => safe_ret fun _ hw' _ => ⟨_, hw.rely hw', hr⟩
  have hscan : ∀ pre, (scanOrEmpty pre).Uses fun o => ShrinkOp o ∧ ¬ LockOp o := fun pre =>
    uses_scanOrEmpty ⟨trivial, fun h => h⟩
  have hvisit : ∀ {α : Type} (l : List α), (visit l).Uses fun o => ShrinkOp o ∧ ¬ LockOp o :=
    fun l => uses_visit ⟨trivial, fun h => h⟩
  refine safe_seq ((safe_held (hscan _) hw).mono fun psKeys tr₁ w₁ _ hw₁ => ?_)
  refine safe_seq ((safe_held (hscan _) hw₁).mono fun errPsKeys tr₂ w₂ _ hw₂ => ?_)
  cases hnodes : repDeserializeFromByte (psKeys.map Prod.fst) with
  | none => exact hret hw₂ fun _ h => (nomatch h)
  | some nodes =>
    cases repDeserializeFromByte (errPsKeys.map Prod.fst) with
    | none => exact hret hw₂ fun _ h => (nomatch h)
    | some errNodes =>
      refine safe_seq ((safe_scanSpaces hw₂).mono ?_)
      rintro spaces tr₃ w₃ - ⟨e₃, hstore, rfl, hw₃⟩
      by_cases hname : space.fullName ∈ (deserializeFromByteList json
          ((scanEtcd e₃ spacesMataPrefix).map Prod.snd)).map Prod.fst
      · simp only [if_pos hname]
        exact hret hw₃ fun _ h => (nomatch h)
      simp only [if_neg hname]
      refine safe_seq ((safe_yields (safe_held (hvisit _) hw₃) (returns_visit _)).mono ?_)
      rintro busy tr₄ w₄ - ⟨hw₄, -, -, hbusy⟩
      refine safe_seq ((safe_yields (safe_held (hvisit _) hw₄) (returns_visit _)).mono ?_)
      rintro nodes' tr₅ w₅ - ⟨hw₅, -, -, hperm⟩
      refine hret hw₅ fun idle hidle => ?_
      cases hidle
      exact hstore.free_idle ((psNodes_repDeserialize hnodes).perm hperm) hbusy

/-- **The put keeps the invariant**, because the nodes have stayed free. -/
theorem safe_createFilled {i : Request} (hjson : ∀ sp, json.unmarshal (json.marshal sp) = sp)
    (pre : String) (sp : InnerSpace) (hdb : ':' ∉ sp.dbName.toList)
    (hsp : ':' ∉ sp.spaceName.toList) {e : Std.TreeMap String String}
    (hfree : Free json sp.replicas e) {tr : Trace Op Res} {w : World net} (hw : Held t e w) :
    Safe (storeProtocol json net) t i (fun _ _ w => ∃ e, Held t e w) (createFilled json pre sp)
      tr w := by
  have hret : ∀ {r : Option (InnerSpace × Bool × String)} {e : Std.TreeMap String String}
      {tr : Trace Op Res} {w : World net}, Held t e w →
      Safe (storeProtocol json net) t i (fun _ _ w => ∃ e, Held t e w) (.ret r) tr w :=
    fun hw => safe_ret fun _ hw' _ => ⟨_, hw.rely hw'⟩
  have hgate : (perform (.put ddlDisabledKey (json.marshal sp ++ "; "))).Uses
      (CreateOp sp.dbName sp.spaceName) := uses_perform NoteKey.disabled
  refine safe_seq ((safe_held (hgate.mono CreateOp.shrinkOp) hw).mono fun _ tr₁ w₁ _ hw₁ => ?_)
  refine safe_seq ((safe_held ((uses_parallelCreatePsSpace sp).mono CreateOp.shrinkOp) hw₁).mono
    fun failed tr₂ w₂ _ hw₂ => ?_)
  rcases failed with _ | _ | ⟨j, js⟩
  · exact hret hw₂
  · refine safe_perform fun w₃ hw₃ hinv => ⟨trivial, fun c hc => ?_⟩
    obtain rfl : c = none := Option.isNone_iff_eq_none.mp hc
    have hheld := hw₂.rely hw₃
    have hstored : Stored json (getSpaceEtcdKey sp.dbName sp.spaceName) (json.marshal sp) := by
      refine ⟨?_, ?_, ?_, ?_⟩
      · rw [hjson]
      · rwa [hjson]
      · rwa [hjson]
      · rw [nodeNames, hjson]
        exact hfree.1
    refine ⟨put_fair hheld.1 (StoreOk.insert hinv (hjson sp) hstored (hfree.shrinks hheld.2)), ?_⟩
    have hopen : (perform (.delete ddlDisabledKey)).Uses fun o => ShrinkOp o ∧ ¬ LockOp o :=
      uses_perform ⟨trivial, fun h => h⟩
    have hnow : Held t (World.etcd w₃ |>.insert (getSpaceEtcdKey sp.dbName sp.spaceName)
        (json.marshal sp)) (exec net t w₃ (.put (getSpaceEtcdKey sp.dbName sp.spaceName)
          (json.marshal sp)) none).2 := ⟨hheld.1, Shrinks.refl _⟩
    exact safe_seq ((safe_held hopen hnow).mono fun _ tr₄ w₄ _ hw₄ => hret hw₄)
  · have hfailed : (createFailed sp (getErrSpaceEtcdKey sp.dbName sp.spaceName sp.id)
        (pre ++ ", Create ps space failed, deadly error; ") (j :: js)).Uses
          (CreateOp sp.dbName sp.spaceName) :=
        (uses_createFailed (.errSpace _ _ _) _ _).mono UndoOp.createOp
    exact safe_seq ((safe_held (hfailed.mono CreateOp.shrinkOp) hw₂).mono
      fun _ tr₃ w₃ _ hw₃ => hret hw₃)

theorem safe_createPsSpaceImpl {i : Request}
    (hjson : ∀ sp, json.unmarshal (json.marshal sp) = sp) (space : InnerSpace)
    (hdb : ':' ∉ space.dbName.toList) (hsp : ':' ∉ space.spaceName.toList)
    (hparts : space.partitions = []) {idle : List Replica} {e : Std.TreeMap String String}
    (hfree : Free json idle e) {tr : Trace Op Res} {w : World net} (hw : Held t e w) :
    Safe (storeProtocol json net) t i (fun _ _ w => ∃ e, Held t e w)
      (createPsSpaceImpl json space idle) tr w := by
  have hnow : (perform .now).Uses fun o => ShrinkOp o ∧ ¬ LockOp o :=
    uses_perform ⟨trivial, fun h => h⟩
  refine safe_seq ((safe_held hnow hw).mono fun time tr₁ w₁ _ hw₁ => ?_)
  by_cases hlen : (idle.length : Int) < space.partitionNum * space.replicaNum
  · simp only [if_pos hlen]
    exact safe_ret fun _ hw' _ => ⟨e, hw₁.rely hw'⟩
  · simp only [if_neg hlen]
    have hid : (perform (.newId genSpaceIdKey)).Uses (CreateOp "" "") := uses_perform rfl
    refine safe_seq ((safe_held (hid.mono CreateOp.shrinkOp) hw₁).mono fun id tr₂ w₂ _ hw₂ => ?_)
    have hfilled : ∀ n, Free json (filledSpace space idle time n).replicas e := by
      intro n
      rw [replicas_filledSpace hparts]
      exact hfree.sublist (List.take_sublist _ _)
    exact safe_createFilled hjson _ (filledSpace space idle time _) hdb hsp (hfilled _) hw₂

theorem safe_createLocked {i : Request} (hjson : ∀ sp, json.unmarshal (json.marshal sp) = sp)
    {api : ApiSpace} (hcheck : checkApiSpace api = some "") {tr : Trace Op Res} {w : World net}
    (hw : w.lock = some t) :
    Safe (storeProtocol json net) t i (fun _ _ _ => True)
      (createLocked json (apiSpaceToInnerSpace json api)) tr w := by
  obtain ⟨hdb, hsp, -, -, hparts⟩ := checkApiSpace_ok hcheck
  have hget : (perform (.get ddlDisabledKey)).Uses fun o => ShrinkOp o ∧ ¬ LockOp o :=
    uses_perform ⟨trivial, fun h => h⟩
  refine safe_seq ((safe_held hget ⟨hw, Shrinks.refl _⟩).mono fun val tr₁ w₁ _ hw₁ => ?_)
  rcases val with _ | _ | val
  · exact safe_ret fun _ _ _ => trivial
  · refine safe_seq ((safe_validateName _ hw₁).mono ?_)
    rintro r tr₂ w₂ - ⟨e, hw₂, hfree⟩
    rcases r with _ | _ | idle
    · exact safe_ret fun _ _ _ => trivial
    · exact safe_ret fun _ _ _ => trivial
    refine safe_seq ((safe_createPsSpaceImpl hjson (apiSpaceToInnerSpace json api)
      (not_colon_of_nameValidate hdb) (not_colon_of_nameValidate hsp) hparts (hfree idle rfl)
      hw₂).mono ?_)
    rintro res tr₃ w₃ - ⟨e₃, hw₃⟩
    rcases res with _ | ⟨sp, abled, msg⟩
    · exact safe_ret fun _ _ _ => trivial
    · by_cases hmsg : msg ≠ ""
      · simp only [if_pos hmsg]
        exact safe_ret fun _ _ _ => trivial
      · simp only [if_neg hmsg]
        refine safe_seq ((safe_held ((uses_addRouterSpace sp).mono CreateOp.shrinkOp) hw₃).mono
          fun r tr₄ w₄ _ _ => ?_)
        cases r <;> exact safe_ret fun _ _ _ => trivial
  · exact safe_ret fun _ _ _ => trivial

/-! ### All requests -/

/-- A program that stores no space needs no lock. -/
theorem safe_shrink {i : Request} {α : Type} {p : Prog α} (hp : p.Uses ShrinkOp)
    {tr : Trace Op Res} {w : World net} :
    Safe (storeProtocol json net) t i (fun _ _ _ => True) p tr w := by
  refine safe_of_uses (M := master net) (P := storeProtocol json net) (K := fun _ _ => True) ?_ ?_
    hp trivial
  · exact fun _ _ _ _ _ _ => trivial
  · exact fun tr w o ho _ hinv => ⟨trivial, fun c _ => ⟨shrink_fair w o c ho hinv, trivial⟩⟩

theorem DeleteOp.shrinkOp {db sp : String} : ∀ o, DeleteOp db sp o → ShrinkOp o := by
  rintro o (h | rfl | rfl)
  · have hspares := PurgeOp.spares_space o h
    cases o <;> first | exact hspares | trivial
  · trivial
  · trivial

theorem frameRule_store (i : Request) :
    FrameRule (storeProtocol json net) t i (fun _ _ => True) fun _ _ => True where
  lock _ _ h := h.1
  stable _ _ _ _ _ _ := trivial
  enter _ w o ho _ hinv := by
    refine ⟨trivial, fun c _ => ⟨shrink_fair w o c ?_ hinv, trivial⟩⟩
    cases o <;> first | exact ho.elim | trivial
  giveUp _ _ _ := trivial
  stableU _ _ _ _ _ _ := trivial
  leave _ w _ hinv := ⟨trivial, fun c _ => shrink_fair w .unlock c trivial hinv⟩

theorem safe_store (hjson : ∀ sp, json.unmarshal (json.marshal sp) = sp) (t : Nat) (i : Request)
    (w : World net) :
    Safe (storeProtocol json net) t i (fun _ _ _ => True) (serve json i) [] w := by
  refine (frameRule_store i).safe (S := False) (fun _ _ => trivial) (fun h => h.elim) ?_ ?_ ?_ w
  · exact fun api _ hcheck tr w _ hw => safe_createLocked hjson hcheck hw
  · exact fun req _ b tr w _ => safe_shrink ((uses_deleteBody json req).mono DeleteOp.shrinkOp)
  · exact fun req _ tr w _ _ => safe_shrink
      ((uses_registerLocked json req).mono fun o h => (ReadOp.shrinkOp o h).1)

/-! ### Runs -/

/-- All calls to etcd succeed.  From outside only other keys of the store change: nodes
come and go, and an operator may remove `DdlDisabledKey`. -/
def AllUp (c : Cluster net) : Event (master net) Request → Prop
  | .spawn _ _ => True
  | .act t pick => nextUp c t pick = true
  | .env w => World.lock w = World.lock c.state ∧
      Agree spacesMataPrefix (World.etcd c.state) (World.etcd w)

/-- No address occurs twice among the replicas of the stored spaces. -/
def NodeExclusive (json : SpaceJson) (e : Std.TreeMap String String) : Prop :=
  (((scanEtcd e spacesMataPrefix).flatMap fun kv => (json.unmarshal kv.2).replicas).map fun r =>
    (r.psIp, r.psPort)).Nodup

theorem StoreOk.nodeExclusive {e : Std.TreeMap String String} (h : StoreOk json e) :
    NodeExclusive json e := by
  have hnames : ((scanEtcd e spacesMataPrefix).flatMap fun kv => nodeNames json kv.2).Nodup := by
    refine List.nodup_flatMap.mpr ⟨fun kv hkv => ?_, ?_⟩
    · exact (h.stored kv.1 kv.2 (mem_scanEtcd.mp hkv)).nodup
    · refine (nodup_scanEtcd e spacesMataPrefix).imp_of_mem fun {kv kv'} hkv hkv' hne => ?_
      refine h.apart kv.1 kv.2 kv'.1 kv'.2 (mem_scanEtcd.mp hkv) (mem_scanEtcd.mp hkv') fun heq => ?_
      have hval := (mem_scanEtcd.mp hkv).1.symm.trans (heq ▸ (mem_scanEtcd.mp hkv').1)
      exact hne (Prod.ext heq (Option.some.inj hval))
  refine List.Nodup.of_map (fun a => getPsNodeName a.1 a.2) ?_
  rw [List.map_map, List.map_flatMap]
  exact hnames

theorem allUp_ok (c : Cluster net) (e : Event (master net) Request)
    (hinv : StoreOk json (World.etcd c.state)) (h : AllUp c e) : (storeProtocol json net).Ok c e := by
  cases e with
  | spawn t i => trivial
  | act t pick => exact fun i tr o k ht => etcdUp_of_nextUp h ht
  | env w =>
    refine ⟨hinv.shrinks h.2.shrinks, fun t => ⟨?_, fun _ => h.2.shrinks⟩⟩
    rw [show World.lock w = World.lock c.state from h.1]

/-- **A node serves one space**: in every state that is reached from a store without
spaces, by requests of any number of masters and with all calls to etcd succeeding. -/
theorem node_exclusive (json : SpaceJson) (hjson : ∀ sp, json.unmarshal (json.marshal sp) = sp)
    (w : World net) (hw : scanEtcd w.etcd spacesMataPrefix = []) (c : Cluster net)
    (h : Reach (step (serve json)) AllUp (Config.init w) c) :
    NodeExclusive json (World.etcd c.state) := by
  have hnone : ∀ key val, ¬ SpaceAt w.etcd key val := by
    intro key val hval
    have hmem := mem_scanEtcd.mpr hval
    rw [hw] at hmem
    cases hmem
  have hinit : StoreOk json w.etcd :=
    ⟨fun key val hval => absurd hval (hnone key val),
      fun key val _ _ hval => absurd hval (hnone key val)⟩
  have hsafe : AllSafe (storeProtocol json net) (fun _ _ _ _ _ => True) c := by
    refine h.invariant (AllSafe (storeProtocol json net) fun _ _ _ _ _ => True)
      (allSafe_init hinit) fun c e hc he => ?_
    exact allSafe_step (fun t i w _ => safe_store hjson t i w) c e hc (allUp_ok c e hc.1 he)
  exact StoreOk.nodeExclusive hsafe.1

/-! ### A create with two nodes -/

def twoNodes : World ackNet where
  etcd := ((∅ : Std.TreeMap String String).insert (getPsRegisterKey "10.0.0.1" 8081 1) "").insert
    (getPsRegisterKey "10.0.0.2" 8081 2) ""
  net := ()

/-- A create of a space with two partitions, from the request to the answer. -/
def twoNodesRun : List (Event (master ackNet) Request) :=
  .spawn 0 (.create (.ok { sampleApi with partitionNum := 2 })) :: List.replicate 20 (go 0)

theorem node_exclusive_twoNodes :
    (scanEtcd (World.etcd (twoNodesRun.foldl (step (serve goJson)) (Config.init twoNodes)).state)
        spacesMataPrefix).map Prod.fst = [getSpaceEtcdKey "database" "images"] ∧
      NodeExclusive goJson
        (World.etcd (twoNodesRun.foldl (step (serve goJson)) (Config.init twoNodes)).state) := by
  have hrun : Reach (step (serve goJson)) AllUp (Config.init twoNodes)
      (twoNodesRun.foldl (step (serve goJson)) (Config.init twoNodes)) := by
    refine reach_of_runOk _ _ Reach.start (runOk_of_forall _ _ fun e he c => ?_)
    rcases List.mem_cons.mp he with rfl | he
    · trivial
    · rw [(List.mem_replicate.mp he).2]
      exact nextUp_smooth c 0 sampleTime ()
  refine ⟨by decide +kernel, ?_⟩
  exact node_exclusive goJson unmarshal_marshal twoNodes (by decide +kernel) _ hrun

end SimSearch.Master
