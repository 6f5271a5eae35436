import SimSearch.Lib.Indices
import SimSearch.Master.Footprint
import SimSearch.Master.SpaceCodec

/-!
# The answers of the DDL handlers

`createSpace` and `deleteSpace` alone, on any store and any network, with any pattern
of failing calls.

`parallelExecute_exchanges` ties the replies to the calls in the trace and
`failedIdxs_eq_some_iff` the list of failures to the replies, so that an empty list means that
every node has acknowledged.
`createPsSpaceImpl_spec` is the heart: the space is stored exactly when the text is
empty.  What comes after it spares the key of the space.
-/

namespace SimSearch.Master

open SimSearch.Lib Program

variable {net : Network} {t : Nat}

/-! ### Replies -/

def Acked (tr : Trace Op Res) (task : Task) : Prop :=
  ∃ r : Reply, r.ok = true ∧ (⟨.post task, r⟩ : Σ o, Res o) ∈ tr

theorem Acked.mono {tr tr' : Trace Op Res} {task : Task} (h : Acked tr task)
    (hsub : ∀ e ∈ tr, e ∈ tr') : Acked tr' task := by
  obtain ⟨r, hr, hmem⟩ := h
  exact ⟨r, hr, hsub _ hmem⟩

def exchanges (tr : Trace Op Res) : List (Task × Reply) :=
  tr.filterMap fun
    | ⟨.post task, r⟩ => some (task, r)
    | _ => none

theorem exchanges_append (tr tr' : Trace Op Res) :
    exchanges (tr ++ tr') = exchanges tr ++ exchanges tr' := List.filterMap_append

theorem mem_exchanges {tr : Trace Op Res} {task : Task} {r : Reply} :
    (task, r) ∈ exchanges tr ↔ (⟨.post task, r⟩ : Σ o, Res o) ∈ tr := by
  unfold exchanges
  rw [List.mem_filterMap]
  constructor
  · rintro ⟨⟨o, r'⟩, hmem, heq⟩
    cases o with
    | post task' =>
      cases heq
      exact hmem
    | _ => cases heq
  · intro hmem
    exact ⟨_, hmem, rfl⟩

theorem sendTasks_spec (tasks : List Task) :
    ∀ is : List Nat, (sendTasks tasks is).Yields fun tr rs =>
      rs.map Prod.fst = is.filter (fun i => decide (i < tasks.length)) ∧
        exchanges tr = rs.filterMap fun e => tasks[e.1]?.map fun task => (task, e.2) := by
  intro is
  induction is with
  | nil => exact ⟨rfl, rfl⟩
  | cons i is ih =>
    unfold sendTasks
    cases htask : tasks[i]? with
    | none =>
      have hi : ¬ i < tasks.length := by
        rw [List.getElem?_eq_none_iff] at htask
        omega
      refine ih.mono fun tr rs hrs => ?_
      rw [List.filter_cons_of_neg (by simpa using hi)]
      exact hrs
    | some task =>
      have hi : i < tasks.length := (List.getElem?_eq_some_iff.mp htask).1
      refine yields_perform fun r => yields_seq (ih.mono ?_)
      rintro tr rs ⟨hfst, hsent⟩
      refine ⟨?_, ?_⟩
      · rw [List.map_cons, hfst, List.filter_cons_of_pos (by simpa using hi)]
      · rw [List.append_nil, List.filterMap_cons, htask, ← hsent]
        rfl

/-- **Each request is sent once, and the reply in place `i` is the one that request `i`
got.** -/
theorem parallelExecute_exchanges (tasks : List Task) :
    (parallelExecute tasks).Yields fun tr rs =>
      rs.length = tasks.length ∧ (exchanges tr).Perm (tasks.zip rs) := by
  refine yields_perform fun order => yields_seq ((sendTasks_spec tasks order.1).mono ?_)
  rintro tr rs ⟨hfst, hsent⟩
  have hself : order.1.filter (fun i => decide (i < tasks.length)) = order.1 := by
    refine List.filter_eq_self.mpr fun i hi => ?_
    simpa using order.2.mem_iff.mp hi
  refine ⟨by rw [List.length_map, List.length_range], ?_⟩
  rw [hself] at hfst
  have hall : (rs.map Prod.fst).Perm (List.range tasks.length) := by
    rw [hfst]
    exact order.2
  have hperm := perm_zip_lookup hall ({} : Reply)
  rw [List.append_nil]
  show (exchanges tr).Perm _
  rw [hsent]
  exact hperm

theorem parallelExecute_spec (tasks : List Task) :
    (parallelExecute tasks).Yields fun tr rs => ∀ (i : Nat) (task : Task), tasks[i]? = some task →
      ∃ r : Reply, rs[i]? = some r ∧ (⟨.post task, r⟩ : Σ o, Res o) ∈ tr := by
  refine (parallelExecute_exchanges tasks).mono ?_
  rintro tr rs ⟨hlen, hperm⟩ i task htask
  have hi : i < rs.length := by
    rw [hlen]
    exact (List.getElem?_eq_some_iff.mp htask).1
  refine ⟨rs[i], List.getElem?_eq_getElem hi, mem_exchanges.mp (hperm.mem_iff.mpr ?_)⟩
  exact List.mem_of_getElem? (List.getElem?_zip_eq_some.mpr ⟨htask, List.getElem?_eq_getElem hi⟩)

def failedOf (replies : List Reply) : List Nat :=
  (replies.zipIdx.filter fun e => !e.1.ok).map Prod.snd

theorem mem_failedOf {replies : List Reply} {i : Nat} :
    i ∈ failedOf replies ↔ ∃ r, replies[i]? = some r ∧ r.ok = false := by
  unfold failedOf
  constructor
  · intro h
    obtain ⟨⟨r, j⟩, hmem, rfl⟩ := List.mem_map.mp h
    obtain ⟨hmem, hok⟩ := List.mem_filter.mp hmem
    exact ⟨r, List.mk_mem_zipIdx_iff_getElem?.mp hmem, by simpa using hok⟩
  · rintro ⟨r, hr, hok⟩
    refine List.mem_map.mpr ⟨(r, i), List.mem_filter.mpr ⟨?_, by simpa using hok⟩, rfl⟩
    exact List.mk_mem_zipIdx_iff_getElem?.mpr hr

/-- **The indices that come back are those of the failures**, unless one of them is
out of range where it is looked up. -/
theorem failedIdxs_eq_some_iff {space : InnerSpace} {replies : List Reply} {failed : List Nat} :
    failedIdxs space replies = some failed ↔
      failed = failedOf replies ∧ ∀ i ∈ failedOf replies, (replicaAt space i).isSome = true := by
  have hfold : ∀ (l : List (Reply × Nat)) (acc : List Nat),
      l.foldlM (fun failed e => if e.1.ok then some failed
        else (replicaAt space e.2).map fun _ => failed ++ [e.2]) acc = some failed ↔
      failed = acc ++ (l.filter fun e => !e.1.ok).map Prod.snd ∧
        ∀ i ∈ (l.filter fun e => !e.1.ok).map Prod.snd, (replicaAt space i).isSome = true := by
    intro l
    induction l with
    | nil =>
      intro acc
      constructor
      · intro h
        cases h
        exact ⟨(List.append_nil _).symm, fun i hi => (nomatch hi)⟩
      · rintro ⟨rfl, -⟩
        exact congrArg some (List.append_nil _).symm
    | cons e l ih =>
      intro acc
      rw [List.foldlM_cons]
      cases hok : e.1.ok with
      | true =>
        rw [List.filter_cons_of_neg (by simp [hok])]
        exact ih acc
      | false =>
        rw [List.filter_cons_of_pos (by simp [hok]), List.map_cons, List.forall_mem_cons]
        cases hrep : replicaAt space e.2 with
        | none => simp
        | some rep =>
          refine (ih (acc ++ [e.2])).trans ?_
          simp
  exact hfold replies.zipIdx []

theorem failedIdxs_nil {space : InnerSpace} {replies : List Reply}
    (h : failedIdxs space replies = some []) : ∀ r ∈ replies, r.ok = true := by
  intro r hr
  obtain ⟨i, hi⟩ := List.mem_iff_getElem?.mp hr
  rw [← Bool.not_eq_false]
  intro hok
  have hmem : i ∈ failedOf replies := mem_failedOf.mpr ⟨r, hi, hok⟩
  rw [← (failedIdxs_eq_some_iff.mp h).1] at hmem
  exact (nomatch hmem)

theorem acked_of_failedIdxs_nil (space : InnerSpace) (tasks : List Task) :
    (parallelExecute tasks >>= fun rs => pure (failedIdxs space rs)).Yields
      fun tr failed => failed = some [] → ∀ task ∈ tasks, Acked tr task := by
  refine yields_seq ((parallelExecute_spec tasks).mono fun tr rs hrs hnil task htask => ?_)
  obtain ⟨i, hi⟩ := List.mem_iff_getElem?.mp htask
  obtain ⟨r, hr, hmem⟩ := hrs i task hi
  exact ⟨r, failedIdxs_nil hnil r (List.mem_of_getElem? hr), List.mem_append_left _ hmem⟩

theorem parallelCreatePsSpace_spec (space : InnerSpace) (w : World net) :
    Post (master net) t (parallelCreatePsSpace space) w (fun tr failed w' =>
      Agree spacesMataPrefix w.etcd w'.etcd ∧
        (failed = some [] → ∀ task ∈ psCreateTasks space, Acked tr task)) :=
  (post_spares ((uses_parallelCreatePsSpace space).mono (CreateOp.spares (Or.inl rfl))) w).and
    (post_yields (M := master net) (acked_of_failedIdxs_nil space (psCreateTasks space)) w)

/-! ### createSpace -/

theorem returns_rollBack (space : InnerSpace) (note eStr : String) :
    (rollBack space note eStr).Returns (fun r => ∀ x, r = some x → x = (false, eStr)) := by
  refine returns_after fun failed => ?_
  cases failed with
  | none => exact fun x h => (nomatch h)
  | some failed =>
    refine returns_after fun nodes => ?_
    cases nodes with
    | none => exact fun x h => (nomatch h)
    | some nodes =>
      by_cases hn : nodes ≠ ""
      · simp only [if_pos hn]
        exact returns_after fun _ x h => (Option.some.inj h).symm
      · simp only [if_neg hn]
        exact fun x h => (Option.some.inj h).symm

theorem returns_createFailed (space : InnerSpace) (errSpaceKey eStr : String) (failed : List Nat) :
    (createFailed space errSpaceKey eStr failed).Returns
      (fun r => ∀ x, r = some x → x = (false, eStr)) := by
  refine returns_after fun nodes => ?_
  cases nodes with
  | none => exact fun x h => (nomatch h)
  | some nodes =>
    refine returns_after fun _ => returns_after fun _ => ?_
    exact returns_rollBack space "delete ps space failed; " eStr

theorem returns_storeFailed (space : InnerSpace) (errSpaceKey eStr : String) :
    (storeFailed space errSpaceKey eStr).Returns
      (fun r => ∀ x, r = some x → x = (false, eStr)) :=
  returns_after fun _ => returns_rollBack space eStr eStr

/-- etcd holds the JSON of `sp` under its key, and every replica acknowledged its
`CreateSpace`. -/
def Created (json : SpaceJson) (tr : Trace Op Res) (sp : InnerSpace)
    (etcd : Std.TreeMap String String) : Prop :=
  etcd[getSpaceEtcdKey sp.dbName sp.spaceName]? = some (json.marshal sp) ∧
    ∀ partition ∈ sp.partitions, ∀ rep ∈ partition.replicas,
      Acked tr ⟨rep.psIp, rep.psPort, .psCreate sp partition⟩

/-- What `CreatePsSpaceImpl` leaves under the key of the space: with an empty text the
space it has filled in, and otherwise what was there. -/
def ImplOutcome (json : SpaceJson) (db sp : String) (etcd : Std.TreeMap String String)
    (tr : Trace Op Res) (res : Option (InnerSpace × Bool × String))
    (etcd' : Std.TreeMap String String) : Prop :=
  (∃ space abled, res = some (space, abled, "") ∧ space.dbName = db ∧ space.spaceName = sp ∧
      Created json tr space etcd') ∨
    ((∀ x, res = some x → x.2.2 ≠ "") ∧
      etcd'[getSpaceEtcdKey db sp]? = etcd[getSpaceEtcdKey db sp]?)

theorem ImplOutcome.mono {json : SpaceJson} {db sp : String} {e e' : Std.TreeMap String String}
    {tr tr' : Trace Op Res} {res : Option (InnerSpace × Bool × String)}
    (h : ImplOutcome json db sp e tr res e') (hsub : ∀ x ∈ tr, x ∈ tr') :
    ImplOutcome json db sp e tr' res e' := by
  rcases h with ⟨space, abled, rfl, hdb, hsp, hstored, hack⟩ | h
  · refine Or.inl ⟨space, abled, rfl, hdb, hsp, hstored, fun p hp rep hrep => ?_⟩
    exact (hack p hp rep hrep).mono hsub
  · exact Or.inr h

theorem append_ne_empty {s u : String} (h : u ≠ "") : s ++ u ≠ "" := by
  intro hs
  have hlen := congrArg String.length hs
  rw [String.length_append] at hlen
  have hu : u.length = 0 := by
    have hz : ("" : String).length = 0 := rfl
    omega
  exact h (String.length_eq_zero_iff.mp hu)

/-- The roll-backs keep the value under the key and return a text that is not empty. -/
theorem rollback_spec (json : SpaceJson) {sp : InnerSpace} {eStr : String}
    {p : Prog (Option (Bool × String))} (hp : p.Uses (CreateOp sp.dbName sp.spaceName))
    (hr : p.Returns (fun r => ∀ x, r = some x → x = (false, eStr))) (he : eStr ≠ "")
    {etcd : Std.TreeMap String String} {w : World net}
    (hw : Agree spacesMataPrefix etcd w.etcd) :
    Post (master net) t (p >>= fun r => pure (r.map fun x => (sp, x))) w
      (fun tr res w' => ImplOutcome json sp.dbName sp.spaceName etcd tr res w'.etcd) := by
  refine post_seq (((post_spares (hp.mono (CreateOp.spares (Or.inl rfl))) w).and
    (post_returns (M := master net) hr w)).mono ?_)
  rintro tr r w' ⟨hagree, hret⟩
  refine post_ret (Or.inr ⟨fun x hx => ?_, ?_⟩)
  · obtain ⟨y, hy, rfl⟩ := Option.map_eq_some_iff.mp hx
    rw [hret y hy]
    exact he
  · exact hw.trans hagree _ (startsWith_getSpaceEtcdKey sp.dbName sp.spaceName)

/-- **The space is stored exactly when the text is empty**, and only after every node
has acknowledged. -/
theorem createFilled_spec (json : SpaceJson) (pre : String) (sp : InnerSpace)
    {etcd : Std.TreeMap String String} {w : World net}
    (hw : Agree spacesMataPrefix etcd w.etcd) :
    Post (master net) t (createFilled json pre sp) w
      (fun tr res w' => ImplOutcome json sp.dbName sp.spaceName etcd tr res w'.etcd) := by
  have hkey := startsWith_getSpaceEtcdKey sp.dbName sp.spaceName
  have hdisabled := NoteKey.disabled.not_startsWith (Or.inl rfl : spacesMataPrefix = _ ∨ _)
  refine post_perform fun c => post_seq ((parallelCreatePsSpace_spec sp _).mono ?_)
  rintro tr failed w₁ ⟨hagree, hacked⟩
  have hw₁ : Agree spacesMataPrefix etcd w₁.etcd :=
    (hw.trans (exec_spares (t := t) w (.put ddlDisabledKey _) c hdisabled)).trans hagree
  rcases failed with _ | _ | ⟨i, is⟩
  · exact post_ret (Or.inr ⟨fun x hx => (nomatch hx), hw₁ _ hkey⟩)
  · refine post_perform fun c₂ => ?_
    cases c₂ with
    | some e =>
      refine (rollback_spec json ((uses_storeFailed (.errSpace _ _ _) _).mono UndoOp.createOp)
        (returns_storeFailed sp _ _) ?_ hw₁).mono ?_
      · exact append_ne_empty (by decide)
      · exact fun tr' res w' h => h.mono fun e he => by simp [he]
    | none =>
      -- the put went through: nothing touches the key any more
      refine post_perform fun c₃ => post_ret (Or.inl ⟨sp, true, rfl, rfl, rfl, ?_, ?_⟩)
      · refine (exec_spares (t := t) _ (.delete ddlDisabledKey) c₃ hdisabled _ hkey).trans ?_
        exact Std.TreeMap.getElem?_insert_self
      · intro partition hpart rep hrep
        have hmem : (⟨rep.psIp, rep.psPort, .psCreate sp partition⟩ : Task) ∈ psCreateTasks sp :=
          List.mem_flatMap.mpr ⟨partition, hpart, List.mem_map.mpr ⟨rep, hrep, rfl⟩⟩
        exact (hacked rfl _ hmem).mono fun e he => by simp [he]
  · refine (rollback_spec json ((uses_createFailed (.errSpace _ _ _) _ _).mono UndoOp.createOp)
      (returns_createFailed sp _ _ _) ?_ hw₁).mono ?_
    · exact append_ne_empty (by decide)
    · exact fun tr' res w' h => h.mono fun e he => by simp [he]

theorem createPsSpaceImpl_spec (json : SpaceJson) (space : InnerSpace) (idle : List Replica)
    {etcd : Std.TreeMap String String} {w : World net}
    (hw : Agree spacesMataPrefix etcd w.etcd) :
    Post (master net) t (createPsSpaceImpl json space idle) w
      (fun tr res w' => ImplOutcome json space.dbName space.spaceName etcd tr res w'.etcd) := by
  refine post_perform fun time => ?_
  by_cases hlen : (idle.length : Int) < space.partitionNum * space.replicaNum
  · simp only [if_pos hlen]
    refine post_ret (Or.inr ⟨fun x hx => ?_, hw _ (startsWith_getSpaceEtcdKey _ _)⟩)
    cases hx
    exact append_ne_empty (by decide)
  · simp only [if_neg hlen]
    refine post_perform fun c => ?_
    have hid : Spares spacesMataPrefix (.newId genSpaceIdKey) :=
      (by decide : startsWith spacesMataPrefix genSpaceIdKey = false)
    have hw₁ := hw.trans (exec_spares (t := t) w (.newId genSpaceIdKey) c hid)
    refine (createFilled_spec json _ (filledSpace space idle _ _) hw₁).mono fun tr res w' h => ?_
    exact h.mono fun e he => by simp [he]

/-- Every key below `RouterNodesPrefix` has an address, as `GenRouterNodeKey` of the
routers writes it. -/
def RouterKeysOk (etcd : Std.TreeMap String String) : Prop :=
  ∀ (key val : String), etcd[key]? = some val → startsWith routerNodesPrefix key = true →
    3 ≤ (splitColon key).length

theorem RouterKeysOk.of_agree {e e' : Std.TreeMap String String} (h : RouterKeysOk e)
    (hagree : Agree routerNodesPrefix e e') : RouterKeysOk e' := by
  intro key val hval hpre
  rw [hagree key hpre] at hval
  exact h key val hval hpre

theorem mem_scanEtcd {etcd : Std.TreeMap String String} {pre k v : String} :
    (k, v) ∈ scanEtcd etcd pre ↔ etcd[k]? = some v ∧ startsWith pre k = true := by
  unfold scanEtcd
  rw [List.mem_filter, Std.TreeMap.mem_toList_iff_getElem?_eq_some]

theorem getRouterNodeEtcdKey_isSome {key : String} (h : 3 ≤ (splitColon key).length) :
    ∃ router, getRouterNodeEtcdKey key = some router := by
  unfold getRouterNodeEtcdKey
  rcases hsplit : splitColon key with _ | ⟨a, _ | ⟨b, _ | ⟨c, l⟩⟩⟩
  · rw [hsplit] at h; simp at h
  · rw [hsplit] at h; simp at h
  · rw [hsplit] at h; simp at h
  · exact ⟨(b, atoi c), rfl⟩

theorem routerDeserialize_isSome {keys : List String}
    (h : ∀ key ∈ keys, 3 ≤ (splitColon key).length) :
    ∃ routers, routerDeserializeFromByte keys = some routers := by
  unfold routerDeserializeFromByte
  induction keys with
  | nil => exact ⟨[], rfl⟩
  | cons key keys ih =>
    obtain ⟨router, hrouter⟩ := getRouterNodeEtcdKey_isSome (h key List.mem_cons_self)
    obtain ⟨routers, hrouters⟩ := ih fun k hk => h k (List.mem_cons_of_mem _ hk)
    exact ⟨router :: routers, by simp [List.mapM_cons, hrouter, hrouters]⟩

/-- `AddRouterSpace` does not panic on such a store. -/
theorem addRouterSpace_spec (space : InnerSpace) {w : World net} (hr : RouterKeysOk w.etcd) :
    Post (master net) t (addRouterSpace space) w (fun _ r _ => r = some ()) := by
  have hscan : Post (master net) t (scanOrEmpty routerNodesPrefix) w
      (fun _ kvs _ => ∀ e ∈ kvs, 3 ≤ (splitColon e.1).length) := by
    refine post_perform fun c => ?_
    cases c with
    | some e => exact post_ret fun e he => (nomatch he)
    | none =>
      refine post_ret ?_
      rintro ⟨k, v⟩ he
      obtain ⟨hval, hpre⟩ := mem_scanEtcd.mp he
      exact hr k v hval hpre
  refine post_seq (hscan.mono fun tr kvs w' hkvs => ?_)
  have hkeys : ∀ key ∈ kvs.map Prod.fst, 3 ≤ (splitColon key).length := by
    intro key hkey
    obtain ⟨e, he, rfl⟩ := List.mem_map.mp hkey
    exact hkvs e he
  obtain ⟨routers, hrouters⟩ := routerDeserialize_isSome hkeys
  rw [hrouters]
  refine post_returns (M := master net) ?_ w'
  exact returns_after fun _ => returns_after fun _ => rfl

def CreateTruth (json : SpaceJson) (db sp : String) (etcd : Std.TreeMap String String)
    (tr : Trace Op Res) (ans : Answer) (etcd' : Std.TreeMap String String) : Prop :=
  (ans.code = 0 → ∃ space : InnerSpace, space.dbName = db ∧ space.spaceName = sp ∧
      Created json tr space etcd') ∧
    (ans.code ≠ 0 → RouterKeysOk etcd →
      etcd'[getSpaceEtcdKey db sp]? = etcd[getSpaceEtcdKey db sp]?)

theorem CreateTruth.refused {json : SpaceJson} {db sp msg : String} {code : Int}
    {e e' : Std.TreeMap String String} {tr : Trace Op Res} (hcode : code ≠ 0)
    (h : Agree spacesMataPrefix e e') : CreateTruth json db sp e tr ⟨code, msg⟩ e' :=
  ⟨fun h0 => absurd h0 hcode, fun _ _ => h _ (startsWith_getSpaceEtcdKey db sp)⟩

theorem createLocked_spec (json : SpaceJson) (space : InnerSpace)
    {etcd : Std.TreeMap String String} {w : World net} (hw : w.etcd = etcd) :
    Post (master net) t (createLocked json space) w (fun tr ans w' =>
      CreateTruth json space.dbName space.spaceName etcd tr ans w'.etcd) := by
  subst hw
  have hrefl : Agree spacesMataPrefix w.etcd w.etcd := fun _ _ => rfl
  refine post_perform fun c => ?_
  rcases c with _ | e
  swap
  · exact post_ret (CreateTruth.refused (by decide) hrefl)
  dsimp only [master, exec]
  rcases w.etcd[ddlDisabledKey]? with _ | val
  swap
  · exact post_ret (CreateTruth.refused (by decide) hrefl)
  have hread := (uses_validateName json space).mono
    (@ReadOp.createOp space.dbName space.spaceName)
  refine post_seq (((post_spares (hread.mono (CreateOp.spares (Or.inl rfl))) w).and
    (post_spares (hread.mono (CreateOp.spares (Or.inr rfl))) w)).mono ?_)
  rintro tr idle w₁ ⟨hspaces, hrouters⟩
  rcases idle with _ | msg | idle
  · exact post_ret (CreateTruth.refused (by decide) hspaces)
  · exact post_ret (CreateTruth.refused (by decide) hspaces)
  refine post_seq (((createPsSpaceImpl_spec json space idle hspaces).and
    (post_spares ((uses_createPsSpaceImpl json space idle).mono
      PublishOp.spares_router) w₁)).mono ?_)
  rintro tr₁ res w₂ ⟨houtcome, hrouters'⟩
  rcases houtcome with ⟨sp, abled, rfl, hdb, hsp, hstored, hack⟩ | ⟨hmsg, hsame⟩
  · -- the space is stored, and only a panic of `AddRouterSpace` can still spoil the answer
    have hadd := (uses_addRouterSpace sp).mono (CreateOp.spares (Or.inl rfl))
    have hnopanic : Post (master net) t (addRouterSpace sp) w₂
        (fun _ r _ => RouterKeysOk w.etcd → r = some ()) := by
      intro tr r w' hrun hok
      exact addRouterSpace_spec sp (hok.of_agree (hrouters.trans hrouters')) tr r w' hrun
    refine post_seq (((post_spares hadd w₂).and hnopanic).mono ?_)
    rintro tr₂ r w₃ ⟨hspaces₃, hsome⟩
    rcases r with _ | u
    · exact post_ret ⟨fun h0 => absurd h0 (by decide), fun _ hok => (nomatch hsome hok)⟩
    · refine post_ret ⟨fun _ => ⟨sp, hdb, hsp, ?_, ?_⟩, fun hne => absurd rfl hne⟩
      · rw [hspaces₃ _ (startsWith_getSpaceEtcdKey _ _)]
        exact hstored
      · intro partition hpart rep hrep
        exact (hack partition hpart rep hrep).mono fun e he => by simp [he]
  · rcases res with _ | ⟨sp, abled, msg⟩
    · exact post_ret ⟨fun h0 => absurd h0 (by decide), fun _ _ => hsame⟩
    · have hne : msg ≠ "" := hmsg _ rfl
      simp only [if_pos hne]
      refine post_ret ⟨fun h0 => ?_, fun _ _ => hsame⟩
      cases abled <;> simp at h0

/-- `UnlockAndClose` and the deferred answer change nothing that an answer is about. -/
theorem CreateTruth.unlocked {json : SpaceJson} {db sp : String} {e e' e'' : Std.TreeMap String String}
    {tr tr' : Trace Op Res} {ans : Answer} (h : CreateTruth json db sp e tr ans e') (he : e'' = e')
    (hsub : ∀ x ∈ tr, x ∈ tr') : CreateTruth json db sp e tr' ans e'' := by
  subst he
  refine ⟨fun h0 => ?_, h.2⟩
  obtain ⟨space, hdb, hsp, hstored, hack⟩ := h.1 h0
  exact ⟨space, hdb, hsp, hstored, fun p hp rep hrep => (hack p hp rep hrep).mono hsub⟩

theorem createTry_spec (json : SpaceJson) (space : InnerSpace)
    {etcd : Std.TreeMap String String} {w : World net} (hw : w.etcd = etcd) :
    Post (master net) t (createTry json space) w (fun tr ans w' =>
      CreateTruth json space.dbName space.spaceName etcd tr ans w'.etcd) := by
  refine post_seq ((post_lock (uses_tryLock 20) w).mono ?_)
  rintro tr locked w₁ ⟨hetcd, -⟩
  cases locked with
  | false =>
    refine post_ret (CreateTruth.refused (by decide) fun _ _ => ?_)
    rw [hetcd, hw]
  | true =>
    refine (createLocked_spec json space (hetcd.trans hw)).mono fun tr' ans w' h => ?_
    exact h.unlocked rfl fun e he => List.mem_append_right _ he

theorem createSpace_spec (json : SpaceJson) (api : ApiSpace) (w : World net) :
    Post (master net) t (createSpace json (.ok api)) w (fun tr ans w' =>
      CreateTruth json api.dbName api.spaceName w.etcd tr ans w'.etcd) := by
  have hrefl : Agree spacesMataPrefix w.etcd w.etcd := fun _ _ => rfl
  unfold createSpace
  simp only
  cases checkApiSpace api with
  | none => exact post_ret (CreateTruth.refused (by decide) hrefl)
  | some msg =>
    by_cases hmsg : msg ≠ ""
    · simp only [if_pos hmsg]
      exact post_ret (CreateTruth.refused (by decide) hrefl)
    simp only [if_neg hmsg]
    refine post_perform fun c => ?_
    cases c with
    | some e => exact post_ret (CreateTruth.refused (by decide) hrefl)
    | none =>
      refine post_seq ((createTry_spec json (apiSpaceToInnerSpace json api) rfl).mono
        fun tr ans w₁ h => post_perform fun c => post_ret ?_)
      refine h.unlocked (exec_lockOp (t := t) w₁ .unlock c trivial).1 fun e he => ?_
      exact List.mem_cons_of_mem _ (List.mem_append_left _ he)

/-! ### deleteSpace -/

/-- The space existed, its key is gone, and every replica in it acknowledged its
`DeleteSpace`. -/
def Deleted (json : SpaceJson) (db sp : String) (etcd : Std.TreeMap String String)
    (tr : Trace Op Res) (etcd' : Std.TreeMap String String) : Prop :=
  ∃ detail, etcd[getSpaceEtcdKey db sp]? = some detail ∧ etcd'[getSpaceEtcdKey db sp]? = none ∧
    ∀ rep ∈ (json.unmarshal detail).replicas, Acked tr ⟨rep.psIp, rep.psPort,
      .psDelete (json.unmarshal detail).dbName (json.unmarshal detail).spaceName⟩

theorem Deleted.mono {json : SpaceJson} {db sp : String} {e e' : Std.TreeMap String String}
    {tr tr' : Trace Op Res} (h : Deleted json db sp e tr e') (hsub : ∀ x ∈ tr, x ∈ tr') :
    Deleted json db sp e tr' e' := by
  obtain ⟨detail, hdetail, hgone, hack⟩ := h
  exact ⟨detail, hdetail, hgone, fun rep hrep => (hack rep hrep).mono hsub⟩

theorem parallelDeletePsSpace_spec (space : InnerSpace) (w : World net) :
    Post (master net) t (parallelDeletePsSpace space) w (fun tr failed w' =>
      Agree spacesMataPrefix w.etcd w'.etcd ∧
        (failed = some [] → ∀ task ∈ psDeleteTasks space, Acked tr task)) :=
  (post_spares ((uses_deletePsSpace space).mono PurgeOp.spares_space) w).and
    (post_yields (M := master net) (acked_of_failedIdxs_nil space (psDeleteTasks space)) w)

theorem etcd_of_get_ok {w : World net} {key : String} {c : Choice net (.get key)}
    {val : Option String} (h : ((master net).exec t w (.get key) c).1 = .ok val) :
    w.etcd[key]? = val := by
  cases c with
  | some e => cases h
  | none => exact Except.ok.inj h

theorem post_refused {p : Prog Answer} {w : World net} {Q : Trace Op Res → Answer → World net → Prop}
    (h : p.Returns fun ans => ans.code ≠ 0) :
    Post (master net) t p w (fun tr ans w' => ans.code = 0 → Q tr ans w') :=
  (post_returns (M := master net) h w).mono fun _ _ _ hne h0 => absurd h0 hne

theorem etcd_of_delete_ok {w : World net} {key : String} {c : Choice net (.delete key)}
    (h : ((master net).exec t w (.delete key) c).1 = .ok ()) :
    ((master net).exec t w (.delete key) c).2.etcd[key]? = none := by
  cases c with
  | some e => cases h
  | none => exact Std.TreeMap.getElem?_erase_self

theorem deleteFound_spec (json : SpaceJson) (req : DeleteSpaceRequest) (detail : String)
    {etcd : Std.TreeMap String String} {w : World net}
    (hdetail : etcd[getSpaceEtcdKey req.dbName req.spaceName]? = some detail) :
    Post (master net) t (deleteFound json req detail) w (fun tr ans w' =>
      ans.code = 0 → Deleted json req.dbName req.spaceName etcd tr w'.etcd) := by
  have hkey := startsWith_getSpaceEtcdKey req.dbName req.spaceName
  refine post_perform fun c₁ => post_perform fun c₂ => post_perform fun c₃ => ?_
  cases hres : ((master net).exec t ((master net).exec t ((master net).exec t w _ c₁).2 _ c₂).2
      (.delete (getSpaceEtcdKey req.dbName req.spaceName)) c₃).1 with
  | error e =>
    refine post_refused (returns_after fun _ => ?_)
    exact (by decide : (100 : Int) ≠ 0)
  | ok u =>
    have hgone := etcd_of_delete_ok hres
    refine post_seq ((post_spares ((uses_deleteRouterSpace req.dbName req.spaceName).mono
      PurgeOp.spares_space) _).mono fun tr r w₁ hw₁ => ?_)
    cases r with
    | none => exact post_ret fun h0 => absurd h0 (by decide)
    | some u =>
      refine post_seq ((parallelDeletePsSpace_spec (json.unmarshal detail) w₁).mono ?_)
      rintro tr₁ failed w₂ ⟨hw₂, hacked⟩
      rcases failed with _ | _ | ⟨i, is⟩
      · exact post_ret fun h0 => absurd h0 (by decide)
      · have htail : ((perform (.delete ddlDisabledKey) >>= fun _ =>
            putOrAppend (getDeletedSpaceEtcdKey req.dbName req.spaceName
              (json.unmarshal detail).id) "; success" etcdValMaxLen >>= fun _ =>
            pure (⟨0, "success"⟩ : Answer)) : Prog Answer).Uses (Spares spacesMataPrefix) :=
          uses_call (NoteKey.disabled.not_startsWith (Or.inl rfl)) fun _ => uses_seq
            ((uses_deleteNote (.deletedSpace _ _ _)).mono PurgeOp.spares_space) fun _ => trivial
        refine (post_spares htail w₂).mono fun tr₂ ans w₃ hw₃ _ => ?_
        refine ⟨detail, hdetail, ?_, fun rep hrep => ?_⟩
        · exact ((hw₁.trans hw₂).trans hw₃ _ hkey).trans hgone
        · have hmem : (⟨rep.psIp, rep.psPort, .psDelete (json.unmarshal detail).dbName
              (json.unmarshal detail).spaceName⟩ : Task) ∈ psDeleteTasks (json.unmarshal detail) :=
            List.mem_map.mpr ⟨rep, hrep, rfl⟩
          exact (hacked rfl _ hmem).mono fun e he => by simp [he]
      · refine post_refused (returns_after fun nodes => ?_)
        cases nodes with
        | none => exact (by decide : (100 : Int) ≠ 0)
        | some nodes =>
          refine returns_after fun _ => returns_after fun _ => ?_
          exact (by decide : (100 : Int) ≠ 0)

theorem deleteBody_spec (json : SpaceJson) (req : DeleteSpaceRequest)
    {etcd : Std.TreeMap String String} {w : World net} (hw : w.etcd = etcd) :
    Post (master net) t (deleteBody json req) w (fun tr ans w' =>
      ans.code = 0 → Deleted json req.dbName req.spaceName etcd tr w'.etcd) := by
  refine post_perform fun c₁ => ?_
  rcases hget : ((master net).exec t w (.get (getSpaceEtcdKey req.dbName req.spaceName)) c₁).1
    with e | _ | detail
  · exact post_refused (by decide : (10 : Int) ≠ 0)
  · exact post_refused (by decide : (10 : Int) ≠ 0)
  refine post_perform fun c₂ => ?_
  rcases ((master net).exec t _ (.get ddlDisabledKey) c₂).1 with e | _ | val
  · exact post_refused (by decide : (100 : Int) ≠ 0)
  · have hdetail := etcd_of_get_ok hget
    refine (deleteFound_spec json req detail (hw ▸ hdetail)).mono fun tr ans w' h h0 => ?_
    exact (h h0).mono fun e he => by simp [he]
  · exact post_refused (by decide : (100 : Int) ≠ 0)

theorem deleteSpace_spec (json : SpaceJson) (req : DeleteSpaceRequest) (w : World net) :
    Post (master net) t (deleteSpace json (.ok req)) w (fun tr ans w' =>
      ans.code = 0 → Deleted json req.dbName req.spaceName w.etcd tr w'.etcd) := by
  refine post_perform fun c => ?_
  cases c with
  | some e => exact post_refused (by decide : (10 : Int) ≠ 0)
  | none =>
    refine post_seq ((post_lock (uses_tryLock 20) w).mono ?_)
    rintro tr locked w₁ ⟨hetcd, -⟩
    refine post_seq ((deleteBody_spec json req hetcd).mono fun tr₁ ans w₂ h => ?_)
    refine post_perform fun c => post_ret fun h0 => ?_
    show Deleted json req.dbName req.spaceName w.etcd _ _
    have hunlock := (exec_lockOp (t := t) w₂ .unlock c trivial).1
    have hdel := h h0
    rw [← hunlock] at hdel
    exact hdel.mono fun e he => by simp [he]

/-! ### The answers -/

/-- **The answers of the DDL handlers tell the truth.**  A create that answers 0 has
stored the space and every replica in it has acknowledged; one that answers another code
has left the value under the key, if the routers' keys have addresses.  A delete that
answers 0 has removed a space that existed, and every replica in it has acknowledged. -/
theorem ddl_answers_truthful (json : SpaceJson) (t : Nat) (w : World net) :
    (∀ (req : Except String ApiSpace) (tr : Trace Op Res) (ans : Answer) (w' : World net),
      Runs (master net) t (createSpace json req) w tr ans w' →
        (ans.code = 0 → ∃ api, req = .ok api ∧ ∃ sp : InnerSpace, sp.dbName = api.dbName ∧
          sp.spaceName = api.spaceName ∧ Created json tr sp w'.etcd) ∧
        (ans.code ≠ 0 → RouterKeysOk w.etcd → ∀ api, req = .ok api →
          w'.etcd[getSpaceEtcdKey api.dbName api.spaceName]?
            = w.etcd[getSpaceEtcdKey api.dbName api.spaceName]?)) ∧
    (∀ (req : Except String DeleteSpaceRequest) (tr : Trace Op Res) (ans : Answer) (w' : World net),
      Runs (master net) t (deleteSpace json req) w tr ans w' → ans.code = 0 →
        ∃ r, req = .ok r ∧ Deleted json r.dbName r.spaceName w.etcd tr w'.etcd) := by
  refine ⟨fun req tr ans w' hrun => ?_, fun req tr ans w' hrun h0 => ?_⟩
  · cases req with
    | error e =>
      have hne : ans.code ≠ 0 := post_returns (M := master net) (Q := fun a : Answer => a.code ≠ 0)
        (p := createSpace json (.error e)) (by decide : (10 : Int) ≠ 0) w tr ans w' hrun
      exact ⟨fun h0 => absurd h0 hne, fun _ _ api h => (nomatch h)⟩
    | ok api =>
      obtain ⟨hzero, hother⟩ := createSpace_spec json api w tr ans w' hrun
      refine ⟨fun h0 => ⟨api, rfl, hzero h0⟩, fun hne hok api' h => ?_⟩
      cases h
      exact hother hne hok
  · cases req with
    | error e =>
      have hne : ans.code ≠ 0 := post_returns (M := master net) (Q := fun a : Answer => a.code ≠ 0)
        (p := deleteSpace json (.error e)) (by decide : (10 : Int) ≠ 0) w tr ans w' hrun
      exact absurd h0 hne
    | ok r => exact ⟨r, rfl, deleteSpace_spec json r w tr ans w' hrun h0⟩

/-- The world picks success for every call to etcd, `time` for the clock, and the order of
the list. -/
def smooth (net : Network) (time : String) (c : net.Choice) : (o : Op) → Choice net o
  | .newSession => none
  | .tryLock _ => none
  | .unlock => none
  | .get _ => none
  | .put _ _ => none
  | .delete _ => none
  | .scan _ => none
  | .newId _ => none
  | .post _ => c
  | .now => time
  | .order n => ⟨List.range n, List.Perm.refl _⟩

def ackNet : Network where
  State := Unit
  Choice := Unit
  send _ _ _ := ({}, ())

def sampleTime : String := "2025-06-01 12:00:00"

def sampleApi : ApiSpace :=
  { dbName := "database", spaceName := "images", partitionNum := 1, replicaNum := 1,
    fields := [{ name := "embedding", type := "vector", dimension := 4,
                 index := some { name := "idx", type := "FLAT",
                                 params := some { metricType := "L2" } } }] }

def moviesApi : ApiSpace := { sampleApi with spaceName := "movies" }

/-- The store once the master has started for the first time. -/
def startedEtcd : Std.TreeMap String String :=
  (runWith (master ackNet) 0 (fun _ => smooth ackNet sampleTime ()) initClusterApi 0
    { etcd := ∅, net := () }).2.2.etcd

theorem startedEtcd_eq : startedEtcd
    = ((∅ : Std.TreeMap String String).insert genPsIdKey "0").insert genSpaceIdKey "0" := rfl

/-- One PS node and a router with the given key. -/
def sampleWorld (routerKey : String) : World ackNet where
  etcd := (startedEtcd.insert (getPsRegisterKey "10.0.0.1" 8081 1) "").insert routerKey ""
  net := ()

/-- No call fails, except the put of the space if `lost`. -/
def samplePick (lost : Bool) : (o : Op) → Choice ackNet o
  | .put key _ => if lost && startsWith spacesMataPrefix key then some "request timed out" else none
  | o => smooth ackNet sampleTime () o

def sampleRun (lost : Bool) (routerKey : String) : Trace Op Res × Answer × World ackNet :=
  runWith (master ackNet) 0 (fun _ => samplePick lost) (createSpace goJson (.ok sampleApi)) 0
    (sampleWorld routerKey)

theorem runs_sampleRun (lost : Bool) (routerKey : String) :
    Runs (master ackNet) 0 (createSpace goJson (.ok sampleApi)) (sampleWorld routerKey)
      (sampleRun lost routerKey).1 (sampleRun lost routerKey).2.1 (sampleRun lost routerKey).2.2 :=
  runs_runWith _ _ 0 _

theorem routerKeysOk_sampleWorld :
    RouterKeysOk (sampleWorld "/nodes/router/:10.0.0.2:8082").etcd := by
  intro key val hval hpre
  have hall : ∀ e ∈ (sampleWorld "/nodes/router/:10.0.0.2:8082").etcd.toList,
      startsWith routerNodesPrefix e.1 = true → 3 ≤ (splitColon e.1).length := by decide +kernel
  exact hall (key, val) (Std.TreeMap.mem_toList_iff_getElem?_eq_some.mpr hval) hpre

/-- With a router's usual key the create is answered with 0, and with 100 and no change if
the put of the space is lost. -/
theorem ddl_answers_truthful_sample :
    (sampleRun false "/nodes/router/:10.0.0.2:8082").2.1.code = 0 ∧
      (∃ sp : InnerSpace, sp.dbName = "database" ∧ sp.spaceName = "images" ∧
        Created goJson (sampleRun false "/nodes/router/:10.0.0.2:8082").1 sp
          (sampleRun false "/nodes/router/:10.0.0.2:8082").2.2.etcd) ∧
      (sampleRun true "/nodes/router/:10.0.0.2:8082").2.1.code = 100 ∧
      (sampleRun true "/nodes/router/:10.0.0.2:8082").2.2.etcd[getSpaceEtcdKey "database" "images"]?
        = (sampleWorld "/nodes/router/:10.0.0.2:8082").etcd[getSpaceEtcdKey "database" "images"]? := by
  have hcreate := (ddl_answers_truthful goJson 0 (sampleWorld "/nodes/router/:10.0.0.2:8082")).1
    (.ok sampleApi)
  have hcode : (sampleRun false "/nodes/router/:10.0.0.2:8082").2.1.code = 0 := by decide +kernel
  have hlost : (sampleRun true "/nodes/router/:10.0.0.2:8082").2.1.code = 100 := by decide +kernel
  obtain ⟨api, hapi, sp, hdb, hsp, hcreated⟩ :=
    (hcreate _ _ _ (runs_sampleRun false _)).1 hcode
  cases hapi
  refine ⟨hcode, ⟨sp, hdb, hsp, hcreated⟩, hlost, ?_⟩
  exact (hcreate _ _ _ (runs_sampleRun true _)).2 (by rw [hlost]; decide) routerKeysOk_sampleWorld
    sampleApi rfl

/-- A key below `RouterNodesPrefix` without an address makes `AddRouterSpace` panic after
the space is stored: the answer is 10, and the value under the key has changed. -/
theorem createSpace_stores_before_panic :
    (sampleRun false "/nodes/router").2.1.code = 10 ∧
      (sampleWorld "/nodes/router").etcd[getSpaceEtcdKey "database" "images"]? = none ∧
      (sampleRun false "/nodes/router").2.2.etcd[getSpaceEtcdKey "database" "images"]? ≠ none ∧
      ¬ ∀ (tr : Trace Op Res) (ans : Answer) (w' : World ackNet),
        Runs (master ackNet) 0 (createSpace goJson (.ok sampleApi)) (sampleWorld "/nodes/router")
          tr ans w' → ans.code ≠ 0 → w'.etcd[getSpaceEtcdKey "database" "images"]?
            = (sampleWorld "/nodes/router").etcd[getSpaceEtcdKey "database" "images"]? := by
  have hcode : (sampleRun false "/nodes/router").2.1.code = 10 := by decide +kernel
  have hbefore :
      (sampleWorld "/nodes/router").etcd[getSpaceEtcdKey "database" "images"]? = none := by
    decide +kernel
  have hafter :
      (sampleRun false "/nodes/router").2.2.etcd[getSpaceEtcdKey "database" "images"]? ≠ none := by
    decide +kernel
  refine ⟨hcode, hbefore, hafter, fun hall => hafter ?_⟩
  rw [hall _ _ _ (runs_sampleRun false "/nodes/router") (by rw [hcode]; decide), hbefore]

end SimSearch.Master
