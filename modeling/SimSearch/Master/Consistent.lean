import SimSearch.Master.Works

/-!
# The nodes hold what etcd records

Any number of masters create, delete and register at once, over the nodes of `psNet`.  The calls
to etcd go through and no delete loses its last attempt at the lock.

* `recorded_is_held`: whatever becomes of the requests to the nodes, at every moment a recorded
  space is held by the nodes of all its replicas.  A `CreateSpace` may be handled long after its
  call has failed; a `DeleteSpace` may not, because it would take a space that was recorded since.
* `held_iff_recorded`: if the requests to the nodes go through as well, then whenever the lock is
  free the nodes hold what is recorded and nothing else.

One proof carries both, with `sure` for the network of the second.  While a thread holds the lock
nobody else changes the spaces or takes one from a node, so its proof follows the pair of the two
(`Frozen`) from step to step.
-/

namespace SimSearch.Master

open SimSearch.Lib Program

variable {json : SpaceJson} {sure : Bool} {t : Nat} {i : Request} {α : Type}
  {e : Std.TreeMap String String} {n : String × Int → Option Names}

/-! ### The protocol -/

/-- If the network is `sure`, a request to a node is delivered, handled and answered. -/
def SureOp (sure : Bool) : (o : Op) → Choice psNet o → Prop
  | .post _, d => sure = true → d = ({} : Delivery)
  | _, _ => True

/-- The nodes keep what they hold.  A node without a space may come to hold one, unless the network
is `sure`. -/
structure Grown (sure : Bool) (n n' : String × Int → Option Names) : Prop where
  kept : ∀ addr names, n addr = some names → n' addr = some names
  same : sure = true → n' = n

theorem grown_of_eq {n n' : String × Int → Option Names} (h : n' = n) : Grown sure n n' :=
  ⟨fun _ _ hheld => h ▸ hheld, fun _ => h⟩

theorem Grown.trans {n n' n'' : String × Int → Option Names} (h : Grown sure n n')
    (h' : Grown sure n' n'') : Grown sure n n'' :=
  ⟨fun addr names hheld => h'.kept addr names (h.kept addr names hheld),
    fun hs => (h'.same hs).trans (h.same hs)⟩

theorem Placed.grown {n' : String × Int → Option Names} (h : Placed json e n)
    (hn : Grown sure n n') : Placed json e n' :=
  ⟨h.toWellNamed, fun addr names hrec => hn.kept addr names (h.held addr names hrec)⟩

theorem CreateRound.grown {names : Names} {tasks : List Task} {n₀ n' : String × Int → Option Names}
    {left : List Nat} {got : List (Nat × Reply)} (h : CreateRound sure names tasks n₀ left got n)
    (hn : Grown sure n n') : CreateRound sure names tasks n₀ left got n' where
  nodup := h.nodup
  acked p hp hok task htask := hn.kept _ _ (h.acked p hp hok task htask)
  free hs := by
    rw [hn.same hs]
    exact h.free hs
  allOk := h.allOk
  origin hs := by
    rw [hn.same hs]
    exact h.origin hs

theorem DeleteRound.grown {names : Names} {tasks : List Task} {n₀ n' : String × Int → Option Names}
    {left : List Nat} (h : DeleteRound sure names tasks n₀ left n) (hn : Grown sure n n') :
    DeleteRound sure names tasks n₀ left n' where
  remains hs := by
    rw [hn.same hs]
    exact h.remains hs
  origin hs := by
    rw [hn.same hs]
    exact h.origin hs

theorem spaces_trans {w w' w'' : World psNet}
    (h : Agree spacesMataPrefix w.etcd w'.etcd ∧ Grown sure w.net w'.net)
    (h' : Agree spacesMataPrefix w'.etcd w''.etcd ∧ Grown sure w'.net w''.net) :
    Agree spacesMataPrefix w.etcd w''.etcd ∧ Grown sure w.net w''.net :=
  ⟨h.1.trans h'.1, h.2.trans h'.2⟩

theorem spaces_of_eq {w w' : World psNet} (hetcd : w'.etcd = w.etcd) (hnet : w'.net = w.net) :
    Agree spacesMataPrefix w.etcd w'.etcd ∧ Grown sure w.net w'.net := by
  rw [hetcd]
  exact ⟨fun _ _ => rfl, grown_of_eq hnet⟩

theorem placed_of_eq {w w' : World psNet} (hetcd : w'.etcd = w.etcd) (hnet : w'.net = w.net)
    (h : Placed json w.etcd w.net ∧ (sure = true → RouterKeysOk w.etcd)) :
    Placed json w'.etcd w'.net ∧ (sure = true → RouterKeysOk w'.etcd) := by
  rw [hetcd, hnet]
  exact h

theorem exact_of_same {w w' : World psNet} (h : sure = true → Exact json w.etcd w.net)
    (hsame : Agree spacesMataPrefix w.etcd w'.etcd ∧ Grown sure w.net w'.net) :
    sure = true → Exact json w'.etcd w'.net := by
  intro hs
  rw [hsame.2.same hs]
  exact (h hs).agree hsame.1

/-- The lock guards the spaces of the store and what the nodes hold. -/
def clusterGuard (json : SpaceJson) (sure : Bool) : Guard psNet where
  always w := Placed json w.etcd w.net ∧ (sure = true → RouterKeysOk w.etcd)
  good w := sure = true → Exact json w.etcd w.net
  same w w' := Agree spacesMataPrefix w.etcd w'.etcd ∧ Grown sure w.net w'.net
  extra _ o c := SureOp sure o c
  same_trans _ _ _ := spaces_trans
  same_of_eq _ _ := spaces_of_eq
  always_of_eq _ _ := placed_of_eq
  good_of_same _ _ := exact_of_same

/-- What the holder of the lock may do: anything that keeps the recorded spaces on their nodes. -/
theorem fair_holder {w w' : World psNet} (hinv : (clusterGuard json sure).Inv w)
    (hlock : w.lock = some t) (hlock' : w'.lock = some t) (hplaced : Placed json w'.etcd w'.net)
    (hrouter : Agree routerNodesPrefix w.etcd w'.etcd) :
    (clusterGuard json sure).protocol.Fair t w w' :=
  Guard.fair_holder hlock hlock' ⟨hplaced, fun hs => (hinv.always.2 hs).of_agree hrouter⟩

/-! ### Steps of the holder -/

/-- The thread holds the lock, the spaces are those of `e` and the nodes hold what they do in
`n`. -/
structure Frozen (sure : Bool) (t : Nat) (e : Std.TreeMap String String)
    (n : String × Int → Option Names) (w : World psNet) : Prop where
  lock : w.lock = some t
  agree : Agree spacesMataPrefix e w.etcd
  net : Grown sure n w.net

theorem Frozen.rely {w w' : World psNet} (h : Frozen sure t e n w)
    (hr : (clusterGuard json sure).LeftTo t w w') :
    Frozen sure t e n w' := by
  obtain ⟨hetcd, hnet⟩ := hr.2 h.lock
  exact ⟨hr.1.mpr h.lock, h.agree.trans hetcd, h.net.trans hnet⟩

theorem frozen_self {w : World psNet} (h : w.lock = some t) : Frozen sure t w.etcd w.net w :=
  ⟨h, fun _ _ => rfl, grown_of_eq rfl⟩

def RouterPost : Op → Prop
  | .post task =>
    (∃ space, task.body = .routerCreate space) ∨ ∃ db sp, task.body = .routerDelete db sp
  | _ => False

/-- The operations that leave the spaces and the nodes alone. -/
def QuietOp (o : Op) : Prop := NotingOp o ∨ RouterPost o

theorem ReadOp.quietOp (o : Op) (h : ReadOp o) : QuietOp o := Or.inl (h.notingOp o)

theorem QuietOp.not_lockOp {o : Op} (h : QuietOp o) : ¬ LockOp o := by
  rcases h with h | h
  · exact h.not_lockOp
  · intro hlock
    cases o <;> first | exact h.elim | exact hlock.elim

theorem QuietOp.spares {o : Op} (h : QuietOp o) {pre : String}
    (hpre : pre = spacesMataPrefix ∨ pre = routerNodesPrefix) : Spares pre o := by
  rcases h with h | h
  · exact h.spares hpre
  · cases o <;> first | exact h.elim | trivial

theorem QuietOp.net {o : Op} (h : QuietOp o) (w : World psNet) (c : Choice psNet o) :
    (exec psNet t w o c).2.net = w.net := by
  rcases h with h | h
  · exact h.net_eq w c
  · cases o with
    | post task => exact send_router h
    | _ => exact h.elim

theorem QuietOp.step {o : Op} (ho : QuietOp o) {w : World psNet}
    (hinv : (clusterGuard json sure).Inv w) (hw : Frozen sure t e n w) (c : Choice psNet o) :
    (clusterGuard json sure).protocol.Fair t w (exec psNet t w o c).2 ∧
      Frozen sure t e n (exec psNet t w o c).2 := by
  have hetcd := exec_spares (t := t) w o c (ho.spares (Or.inl rfl))
  have hlock := (exec_lock (t := t) w c ho.not_lockOp).trans hw.lock
  have hnet := ho.net (t := t) w c
  refine ⟨fair_holder hinv hw.lock hlock ?_ (exec_spares w o c (ho.spares (Or.inr rfl))),
    hlock, hw.agree.trans hetcd, hw.net.trans (grown_of_eq hnet)⟩
  rw [hnet]
  exact hinv.always.1.agree hetcd

theorem safe_quiet {p : Prog α} (hp : p.Uses QuietOp) {tr : Trace Op Res} {w : World psNet}
    (hw : Frozen sure t e n w) :
    Safe (clusterGuard json sure).protocol t i (fun _ _ w => Frozen sure t e n w) p tr w :=
  safe_of_uses (M := master psNet) (P := (clusterGuard json sure).protocol)
    (K := fun _ (w : World psNet) => Frozen sure t e n w) (fun _ _ _ hw hr _ => hw.rely hr)
    (fun _ _ _ ho hw hinv => ⟨trivial, fun c _ => ho.step hinv hw c⟩) hp hw

/-- The thread holds the lock and the spaces are those of `e`. -/
def Kept (t : Nat) (e : Std.TreeMap String String) (w : World psNet) : Prop :=
  w.lock = some t ∧ Agree spacesMataPrefix e w.etcd

theorem Kept.frozen {w : World psNet} (h : Kept t e w) : Frozen sure t e w.net w :=
  ⟨h.1, h.2, grown_of_eq rfl⟩

theorem Frozen.kept {w : World psNet} (h : Frozen sure t e n w) : Kept t e w := ⟨h.lock, h.agree⟩

theorem CreateOp.step {db sp : String} (hno : ¬ Recorded json e (db, sp)) {o : Op}
    (ho : CreateOp db sp o) {w : World psNet} (hinv : (clusterGuard json sure).Inv w)
    (hw : Kept t e w) (c : Choice psNet o) :
    (clusterGuard json sure).protocol.Fair t w (exec psNet t w o c).2 ∧
      Kept t e (exec psNet t w o c).2 := by
  have hetcd := exec_spares (t := t) w o c (CreateOp.spares (Or.inl rfl) o ho)
  have hlock := (exec_lock (t := t) w c (CreateOp.not_lockOp o ho)).trans hw.1
  refine ⟨fair_holder hinv hw.1 hlock ?_
    (exec_spares w o c (CreateOp.spares (Or.inr rfl) o ho)), hlock, hw.2.trans hetcd⟩
  rcases exec_net (t := t) w o c with hsame | ⟨task, d, rfl, hsend⟩
  · rw [hsame]
    exact hinv.always.1.agree hetcd
  · rw [hsend]
    have hplaced : Placed json w.etcd (psNet.send w.net task d).2 :=
      hinv.always.1.send (fun hrec => hno (hrec.shrinks hw.2.shrinks)) ho
    exact hplaced.agree hetcd

/-- **Requests for a name that is not recorded** may go to any nodes. -/
theorem safe_unrecorded {db sp : String} (hno : ¬ Recorded json e (db, sp)) {p : Prog α}
    (hp : p.Uses (CreateOp db sp)) {tr : Trace Op Res} {w : World psNet} (hw : Kept t e w) :
    Safe (clusterGuard json sure).protocol t i (fun _ _ w => Kept t e w) p tr w :=
  safe_of_uses (M := master psNet) (P := (clusterGuard json sure).protocol)
    (K := fun _ (w : World psNet) => Kept t e w)
    (fun _ _ _ hw hr _ => (hw.frozen.rely hr).kept)
    (fun _ _ _ ho hw hinv => ⟨trivial, fun c _ => CreateOp.step hno ho hinv hw c⟩) hp hw

/-! ### Rounds of requests -/

/-- **A round of requests to the nodes.**  `J` says how the nodes are when `left` is still to be
sent and `got` was received. -/
theorem safe_nodeRound {tasks : List Task} {space : InnerSpace}
    {J : List Nat → List (Nat × Reply) → (String × Int → Option Names) → Prop}
    (hstart : ∀ left : List Nat, left.Perm (List.range tasks.length) → J left [] n)
    (hgrown : ∀ left got n n', J left got n → Grown sure n n' → J left got n')
    (hskip : ∀ k left got n, tasks[k]? = none → J (k :: left) got n → J left got n)
    (hpost : ∀ k left got n task d, tasks[k]? = some task → J (k :: left) got n →
      (sure = true → d = {}) → Placed json e n → Placed json e (psNet.send n task d).2 ∧
        J left (got ++ [(k, (psNet.send n task d).1)]) (psNet.send n task d).2)
    {tr : Trace Op Res} {w : World psNet} (hw : Frozen sure t e n w) :
    Safe (clusterGuard json sure).protocol t i (fun failed _ w => Kept t e w ∧ ∃ replies got,
        failed = failedIdxs space replies ∧ Guard.Received tasks replies got ∧ J [] got w.net)
      (parallelExecute tasks >>= fun rs => pure (failedIdxs space rs)) tr w := by
  refine safe_seq ((Guard.safe_round (G := clusterGuard json sure)
    (J := fun left got w => Agree spacesMataPrefix e w.etcd ∧ J left got w.net)
    ?_ ?_ ?_ ?_).mono ?_)
  · rintro left got w w' ⟨hagree, hJ⟩ ⟨hsame, hnet⟩
    exact ⟨hagree.trans hsame, hgrown left got _ _ hJ hnet⟩
  · exact fun k left got w hnone h => ⟨h.1, hskip k left got w.net hnone h.2⟩
  · rintro k left got w task d htask halways ⟨hagree, hJ⟩ hd
    obtain ⟨hplaced, hJ'⟩ := hpost k left got w.net task d htask hJ hd
      (halways.1.agree hagree.symm)
    exact ⟨⟨hplaced.agree hagree, halways.2⟩, hagree, hJ'⟩
  · refine ⟨hw.lock, fun left hleft => ⟨hw.agree, ?_⟩⟩
    exact hgrown left [] _ _ (hstart left hleft) hw.net
  · rintro replies tr₁ w₁ - ⟨got, hgot, hlock, hagree, hJ⟩
    refine safe_ret fun w₂ hr _ => ?_
    have hw₂ := (Kept.frozen ⟨hlock, hagree⟩).rely hr
    exact ⟨hw₂.kept, replies, got, rfl, hgot, hgrown [] got _ _ hJ hw₂.net⟩

theorem body_of_mem_psCreateTasks {space : InnerSpace} {task : Task}
    (h : task ∈ psCreateTasks space) : ∃ partition, task.body = .psCreate space partition := by
  obtain ⟨partition, -, h⟩ := List.mem_flatMap.mp h
  obtain ⟨rep, -, rfl⟩ := List.mem_map.mp h
  exact ⟨partition, rfl⟩

theorem nodup_address {json : SpaceJson} {nodes : List Replica} (h : Free json nodes e) :
    (nodes.map Replica.address).Nodup := by
  refine List.Nodup.of_map (fun a => getPsNodeName a.1 a.2) ?_
  rw [List.map_map]
  exact h.1

structure RoundDone (sure : Bool) (sp : InnerSpace) (n : String × Int → Option Names)
    (failed : Option (List Nat)) (n' : String × Int → Option Names) : Prop where
  held : failed = some [] → ∀ rep ∈ sp.replicas,
    n' rep.address = some (sp.dbName, sp.spaceName)
  done : sure = true → failed = some []
  origin : sure = true → ∀ addr held, n' addr = some held → n addr = some held ∨
    held = (sp.dbName, sp.spaceName) ∧ addr ∈ sp.replicas.map Replica.address

theorem RoundDone.grown {sp : InnerSpace} {failed : Option (List Nat)}
    {n' n'' : String × Int → Option Names} (h : RoundDone sure sp n failed n')
    (hn : Grown sure n' n'') : RoundDone sure sp n failed n'' where
  held hnil rep hrep := hn.kept _ _ (h.held hnil rep hrep)
  done := h.done
  origin hs := by
    rw [hn.same hs]
    exact h.origin hs

/-- A node that is free of the recorded spaces holds nothing, if the nodes hold nothing else. -/
theorem Exact.none_of_free {nodes : List Replica} (h : Exact json e n) (hfree : Free json nodes e)
    {rep : Replica} (hrep : rep ∈ nodes) : n rep.address = none := by
  cases hheld : n rep.address with
  | none => rfl
  | some names =>
    obtain ⟨key, val, hval, -, haddr⟩ := h _ _ hheld
    obtain ⟨rep', hrep', heq⟩ := List.mem_map.mp haddr
    obtain ⟨hip, hport⟩ := Prod.mk.inj heq
    refine absurd (List.mem_map_of_mem hrep' : rep'.name ∈ nodeNames json val) ?_
    have hname : rep'.name = rep.name := by rw [Replica.name, Replica.name, hip, hport]
    rw [hname]
    exact hfree.2 key val hval (List.mem_map_of_mem hrep)

theorem mem_address_psCreateTasks {sp : InnerSpace} {addr : String × Int} :
    (∃ task ∈ psCreateTasks sp, task.address = addr) ↔ ∃ rep ∈ sp.replicas, rep.address = addr := by
  rw [← List.mem_map, ← List.mem_map, address_psCreateTasks]

/-- A round of creates that has come to its end. -/
theorem CreateRound.roundDone {sp : InnerSpace} {replies : List Reply} {got : List (Nat × Reply)}
    {n' : String × Int → Option Names} (hreceived : Guard.Received (psCreateTasks sp) replies got)
    (h : CreateRound sure (sp.dbName, sp.spaceName) (psCreateTasks sp) n [] got n') :
    RoundDone sure sp n (failedIdxs sp replies) n' where
  held hnil rep hrep := by
    obtain ⟨task, htask, heq⟩ := mem_address_psCreateTasks.mpr ⟨rep, hrep, rfl⟩
    obtain ⟨k, hk⟩ := List.mem_iff_getElem?.mp htask
    obtain ⟨r, hr⟩ := hreceived.length_eq (List.getElem?_eq_some_iff.mp hk).1
    rw [← heq]
    exact h.acked (k, r) hr (failedIdxs_nil hnil r (hreceived.mem_iff.mpr ⟨k, hr⟩)) task hk
  done hs := by
    have hnone : failedOf replies = [] := by
      refine List.eq_nil_iff_forall_not_mem.mpr fun k hk => ?_
      obtain ⟨r, hr, hbad⟩ := mem_failedOf.mp hk
      obtain ⟨k', hk'⟩ := hreceived.mem_iff.mp (List.mem_of_getElem? hr)
      rw [h.allOk hs _ hk'] at hbad
      cases hbad
    refine failedIdxs_eq_some_iff.mpr ⟨hnone.symm, fun k hk => ?_⟩
    rw [hnone] at hk
    cases hk
  origin hs addr held hheld := by
    rw [← address_psCreateTasks]
    exact h.origin hs addr held hheld

/-- **The round of creates**, on nodes that are free of the recorded spaces. -/
theorem safe_createRound {sp : InnerSpace} (hno : ¬ Recorded json e (sp.dbName, sp.spaceName))
    (hfree : Free json sp.replicas e) (hexact : sure = true → Exact json e n)
    {tr : Trace Op Res} {w : World psNet} (hw : Frozen sure t e n w) :
    Safe (clusterGuard json sure).protocol t i
      (fun failed _ w => Kept t e w ∧ RoundDone sure sp n failed w.net)
      (parallelCreatePsSpace sp) tr w := by
  have hnodup : ((psCreateTasks sp).map Task.address).Nodup := by
    rw [address_psCreateTasks]
    exact nodup_address hfree
  refine (safe_nodeRound (J := CreateRound sure (sp.dbName, sp.spaceName) (psCreateTasks sp) n)
    ?_ (fun left got _ _ h hn => h.grown hn) ?_ ?_ hw).mono ?_
  · intro left hleft
    refine ⟨hleft.nodup_iff.mpr List.nodup_range, fun p hp => (nomatch hp), ?_,
      fun _ p hp => (nomatch hp), fun _ addr held hheld => Or.inl hheld⟩
    intro hs k _ task htask
    obtain ⟨rep, hrep, heq⟩ :=
      mem_address_psCreateTasks.mp ⟨task, List.mem_of_getElem? htask, rfl⟩
    rw [← heq]
    exact (hexact hs).none_of_free hfree hrep
  · intro k left got n' _ h
    exact ⟨(List.nodup_cons.mp h.nodup).2, h.acked,
      fun hs j hj => h.free hs j (List.mem_cons_of_mem _ hj), h.allOk, h.origin⟩
  · intro k left got n' task d htask h hsure hplaced
    have hmem := List.mem_of_getElem? htask
    obtain ⟨partition, hbody⟩ := body_of_mem_psCreateTasks hmem
    exact ⟨hplaced.send hno (createTask_of_mem_psCreateTasks hmem),
      h.post hnodup htask hbody hsure⟩
  · rintro failed tr' w' - ⟨hkept, replies, got, rfl, hreceived, hround⟩
    exact ⟨hkept, hround.roundDone hreceived⟩

/-- **The round of deletes** of a space that is recorded no longer. -/
theorem safe_deleteRound {sp : InnerSpace} (hno : ¬ Recorded json e (sp.dbName, sp.spaceName))
    (hn : sure = true → ∀ addr names, n addr = some names → RecordedAt json e addr names ∨
      names = (sp.dbName, sp.spaceName) ∧ addr ∈ sp.replicas.map Replica.address)
    {tr : Trace Op Res} {w : World psNet} (hw : Frozen sure t e n w) :
    Safe (clusterGuard json sure).protocol t i
      (fun _ _ w => Kept t e w ∧ (sure = true → Exact json e w.net))
      (parallelDeletePsSpace sp) tr w := by
  refine (safe_nodeRound (J := fun left _ => DeleteRound sure (sp.dbName, sp.spaceName)
    (psDeleteTasks sp) n left) ?_ (fun left got _ _ h hn => h.grown hn) ?_ ?_ hw).mono ?_
  · intro left hleft
    refine ⟨fun hs addr hheld => ?_, fun _ addr held hheld => hheld⟩
    have hmem : addr ∈ (psDeleteTasks sp).map Task.address := by
      rw [address_psDeleteTasks]
      rcases hn hs addr _ hheld with hrec | ⟨-, hmem⟩
      · exact absurd hrec.recorded hno
      · exact hmem
    obtain ⟨task, htask, rfl⟩ := List.mem_map.mp hmem
    obtain ⟨k, hk⟩ := List.mem_iff_getElem?.mp htask
    refine ⟨k, hleft.mem_iff.mpr (List.mem_range.mpr ?_), task, hk, rfl⟩
    exact (List.getElem?_eq_some_iff.mp hk).1
  · intro k left got n' hnone h
    refine ⟨fun hs addr hheld => ?_, h.origin⟩
    obtain ⟨j, hj, task, htask, heq⟩ := h.remains hs addr hheld
    rcases List.mem_cons.mp hj with rfl | hj
    · rw [hnone] at htask
      cases htask
    · exact ⟨j, hj, task, htask, heq⟩
  · intro k left got n' task d htask h hsure hplaced
    have hbody := body_of_mem_psDeleteTasks (List.mem_of_getElem? htask)
    refine ⟨hplaced.send hno ?_, h.post htask hbody hsure⟩
    unfold CreateTask
    rw [hbody]
    exact ⟨rfl, rfl⟩
  · rintro failed tr' w' - ⟨hkept, -, -, -, -, hround⟩
    refine ⟨hkept, fun hs addr names hheld => ?_⟩
    rcases hn hs addr names (hround.origin hs addr names hheld) with hrec | ⟨rfl, -⟩
    · exact hrec
    · obtain ⟨k, hk, -⟩ := hround.remains hs addr hheld
      cases hk

theorem ofSpaces_cluster : (clusterGuard json sure).OfSpaces json where
  store _ h := h.1.store
  agree _ _ h := h.1
  ignores w w' hspaces hrouters hnet := by
    refine ⟨⟨hspaces, grown_of_eq hnet⟩, fun h => ⟨?_, fun hs => (h.2 hs).of_agree hrouters⟩⟩
    rw [hnet]
    exact h.1.agree hspaces

theorem safe_quiet_good {p : Prog α} (hp : p.Uses QuietOp) {tr : Trace Op Res} {w : World psNet}
    (hw : Guard.Held t (clusterGuard json sure).good w) :
    Safe (clusterGuard json sure).protocol t i
      (fun _ _ w => Guard.Held t (clusterGuard json sure).good w) p tr w := by
  refine (safe_quiet hp (frozen_self hw.1)).mono fun _ _ w' _ h => ⟨h.lock, fun hs => ?_⟩
  rw [h.net.same hs]
  exact (hw.2 hs).agree h.agree

/-! ### A create -/

/-- **The space gets its nodes and is stored**, on nodes that are free. -/
theorem safe_fill (hjson : ∀ sp, json.unmarshal (json.marshal sp) = sp) (pre : String)
    (sp : InnerSpace) (hdb : nameValidate sp.dbName = "") (hsp : nameValidate sp.spaceName = "")
    {tr : Trace Op Res} {w : World psNet}
    (hw : Guard.Held t (fun w => (clusterGuard json sure).good w ∧
      ¬ Recorded json w.etcd (sp.dbName, sp.spaceName) ∧ Free json sp.replicas w.etcd) w) :
    Safe (clusterGuard json sure).protocol t i
      (fun r _ w => Guard.Filled (clusterGuard json sure)
        (fun _ => (clusterGuard json sure).good) t r w) (createFilled json pre sp) tr w := by
  obtain ⟨hlock, hexact, hno, hfree⟩ := hw
  refine Guard.safe_createFilled ofSpaces_cluster (fun _ => (clusterGuard json sure).good_of_same)
    (J := fun w' => Agree spacesMataPrefix w.etcd w'.etcd ∧ Grown sure w.net w'.net)
    (D := fun w' => Agree spacesMataPrefix w.etcd w'.etcd ∧
      RoundDone sure sp w.net (some []) w'.net)
    (U := fun w' => Agree spacesMataPrefix w.etcd w'.etcd ∧ ¬ sure = true)
    ?_ ?_ ?_ ?_ ?_ pre ⟨hlock, fun _ _ => rfl, grown_of_eq rfl⟩
  · exact fun w₁ w₂ h hs => spaces_trans h hs
  · rintro w₁ w₂ ⟨hagree, hround⟩ ⟨hsame, hnet⟩
    exact ⟨hagree.trans hsame, hround.grown hnet⟩
  · rintro tr₁ w₁ ⟨hlock₁, hagree, hnet⟩
    refine (safe_createRound hno hfree hexact ⟨hlock₁, hagree, hnet⟩).mono ?_
    rintro failed tr₂ w₂ - ⟨hkept, hround⟩
    refine ⟨?_, ?_, ?_⟩
    · rintro rfl
      exact ⟨hkept.1, fun hs => (nomatch hround.done hs)⟩
    · rintro rfl
      exact ⟨hkept.1, hkept.2, hround⟩
    · rintro j js rfl
      exact ⟨hkept.1, hkept.2, fun hs => (nomatch hround.done hs)⟩
  · rintro p hp tr₁ w₁ ⟨hlock₁, hagree, hnot⟩
    refine (safe_unrecorded hno (hp.mono UndoOp.createOp) ⟨hlock₁, hagree⟩).mono ?_
    exact fun _ _ w₂ _ hw₂ => ⟨hw₂.1, fun hs => absurd hs hnot⟩
  · rintro w₁ halways ⟨hagree, hround⟩ e rfl
    have hno₁ : ¬ Recorded json w₁.etcd (sp.dbName, sp.spaceName) :=
      fun hrec => hno (hrec.shrinks hagree.shrinks)
    refine ⟨⟨halways.1.insert (hjson sp) hdb hsp (hfree.shrinks hagree.shrinks) (hround.held rfl),
      fun hs => (halways.2 hs).of_agree (agree_insert (not_routerKey_getSpaceEtcdKey _ _))⟩,
      fun hs => ?_⟩
    refine halways.1.exact_insert (hjson sp) hno₁ fun addr names hheld => ?_
    rcases hround.origin hs addr names hheld with hold | hold
    · exact Or.inl ((hexact hs addr names hold).shrinks hagree.symm.shrinks)
    · exact Or.inr hold

theorem createParts_cluster (hjson : ∀ sp, json.unmarshal (json.marshal sp) = sp) :
    Guard.CreateParts (clusterGuard json sure) json fun _ => (clusterGuard json sure).good where
  stable _ := (clusterGuard json sure).good_of_same
  filled space idle time id pre hdb hsp hparts t i tr w hw := by
    refine safe_fill hjson pre (filledSpace space idle time id) hdb hsp
      ⟨hw.1, hw.2.1, hw.2.2.1, ?_⟩
    rw [replicas_filledSpace hparts]
    exact hw.2.2.2.sublist (List.take_sublist _ _)
  routers sp _ _ _ _ hw :=
    safe_quiet_good (uses_routerCreate ReadOp.quietOp fun _ h => Or.inr (Or.inl ⟨sp, h⟩)) hw

/-! ### A delete -/

/-- `DeleteRouterSpace` does not panic where the keys of the routers have an address. -/
theorem safe_deleteRouterSpace (db sp : String) {tr : Trace Op Res} {w : World psNet}
    (hw : Frozen sure t e n w) :
    Safe (clusterGuard json sure).protocol t i
      (fun r _ w => Frozen sure t e n w ∧ (sure = true → r = some ()))
      (deleteRouterSpace db sp) tr w := by
  refine safe_perform fun w₁ hr hinv => ⟨trivial, fun c hc => ?_⟩
  obtain ⟨hfair, hw₂⟩ :=
    QuietOp.step (o := .scan routerNodesPrefix) (Or.inl trivial) hinv (hw.rely hr) c
  refine ⟨hfair, ?_⟩
  obtain rfl : c = none := Option.isNone_iff_eq_none.mp hc.1
  have hscan : ((master psNet).exec t w₁ (.scan routerNodesPrefix) none).1
      = .ok (scanEtcd (World.etcd w₁) routerNodesPrefix) := rfl
  simp only [hscan]
  cases hrouters : routerDeserializeFromByte
      ((scanEtcd (World.etcd w₁) routerNodesPrefix).map Prod.fst) with
  | none =>
    refine safe_ret fun w₃ hr₃ _ => ⟨hw₂.rely hr₃, fun hs => ?_⟩
    obtain ⟨routers, hsome⟩ := (hinv.always.2 hs).exists_routers
    rw [hsome] at hrouters
    cases hrouters
  | some routers =>
    refine safe_seq ((safe_quiet (uses_visit (Or.inl trivial)) hw₂).mono
      fun routers' tr₃ w₃ _ hw₃ => ?_)
    have hsent : (parallelExecute (routers'.map fun r => ⟨r.1, r.2, .routerDelete db sp⟩)).Uses
        QuietOp := by
      refine uses_parallelExecute (Or.inl trivial) fun task htask => ?_
      obtain ⟨r, -, rfl⟩ := List.mem_map.mp htask
      exact Or.inr (Or.inr ⟨db, sp, rfl⟩)
    refine safe_seq ((safe_quiet hsent hw₃).mono fun _ tr₄ w₄ _ hw₄ => ?_)
    exact safe_ret fun w₅ hr₅ _ => ⟨hw₄.rely hr₅, fun _ => rfl⟩

/-- The space of `val` is recorded no longer, and if the network is `sure` its nodes are the only
ones that hold something else than what is recorded. -/
def Leftover (json : SpaceJson) (sure : Bool) (val : String) (w : World psNet) : Prop :=
  ¬ Recorded json w.etcd (namesOf json val) ∧
    (sure = true → ∀ addr names, w.net addr = some names → RecordedAt json w.etcd addr names ∨
      names = namesOf json val ∧ addr ∈ (json.unmarshal val).replicas.map Replica.address)

theorem Leftover.agree {val : String} {w w' : World psNet} (h : Leftover json sure val w)
    (hagree : Agree spacesMataPrefix w.etcd w'.etcd) (hnet : Grown sure w.net w'.net) :
    Leftover json sure val w' := by
  refine ⟨fun hrec => h.1 (hrec.shrinks hagree.shrinks), fun hs addr names hheld => ?_⟩
  rw [hnet.same hs] at hheld
  rcases h.2 hs addr names hheld with hrec | hrest
  · exact Or.inl (hrec.shrinks hagree.symm.shrinks)
  · exact Or.inr hrest

/-- **The space is removed, and then the nodes are told.** -/
theorem deleteParts_cluster (req : DeleteSpaceRequest) (detail : String) :
    Guard.DeleteParts (clusterGuard json sure) json req detail (Leftover json sure detail)
      (Leftover json sure detail) where
  erase w halways hexact hat e he := by
    subst he
    refine ⟨⟨halways.1.shrinks (shrinks_erase _ _),
      fun hs => (halways.2 hs).of_agree (agree_erase (not_routerKey_getSpaceEtcdKey _ _))⟩,
      halways.1.store.not_recorded_erase hat, fun hs addr names hheld => ?_⟩
    exact (hexact hs addr names hheld).erase hat
  routers t i tr w hw := by
    refine (safe_deleteRouterSpace _ _ (frozen_self hw.1)).mono ?_
    rintro r tr₁ w₁ - ⟨hw₁, hsome⟩
    refine ⟨?_, fun _ => ⟨hw₁.lock, hw.2.agree hw₁.agree hw₁.net⟩⟩
    rintro rfl
    exact ⟨hw₁.lock, fun hs => (nomatch hsome hs)⟩
  nodes t i tr w hw := by
    refine (safe_deleteRound hw.2.1 hw.2.2 (frozen_self hw.1)).mono ?_
    rintro failed tr₁ w₁ - ⟨hkept, hexact⟩
    exact ⟨hkept.1, fun hs => (hexact hs).agree hkept.2⟩

/-- **Every request leaves the nodes as they should be**, if it finds them so. -/
theorem works_cluster (hjson : ∀ sp, json.unmarshal (json.marshal sp) = sp) :
    (clusterGuard json sure).Works json :=
  ofSpaces_cluster.works (createParts_cluster hjson)
    fun req detail => ⟨_, _, deleteParts_cluster req detail⟩

/-! ### Runs -/

def goesThrough (d : Delivery) : Bool := d = {}

theorem eq_of_goesThrough {d : Delivery} (h : goesThrough d = true) : d = {} := of_decide_eq_true h

/-- The next call of the thread, if it is a request to a node, goes through. -/
def nextSure (c : Cluster psNet) (t : Nat) (pick : (o : Op) → Choice psNet o) : Bool :=
  (Guard.nextPost c t).elim true fun task => goesThrough (pick (.post task))

theorem sureOp_of_nextSure {c : Cluster psNet} {pick : (o : Op) → Choice psNet o}
    (h : sure = true → nextSure c t pick = true) {tr : Trace Op Res} {o : Op}
    {k : Res o → Prog Outcome} (ht : c.threads t = some ⟨i, tr, .call o k⟩) :
    SureOp sure o (pick o) := by
  cases o with
  | post task =>
    intro hs
    have hnext := h hs
    rw [nextSure, Guard.nextPost_eq ht] at hnext
    exact eq_of_goesThrough hnext
  | _ => trivial

/-- All calls to etcd succeed, no delete loses its last attempt at the lock, and if the network is
`sure` the requests to the nodes go through.  From outside other keys of the store change, where
for a `sure` network those of routers have an address; and unless the network is `sure`, a node
without a space may come to hold one, as by a `CreateSpace` that is handled after its call has
failed.  No node loses its space from outside: a `DeleteSpace` is handled at its call or never. -/
def InOrder (sure : Bool) (c : Cluster psNet) : Event (master psNet) Request → Prop
  | .spawn _ _ => True
  | .act t pick => nextUp c t pick = true ∧ lastTryLost c t pick = false ∧
      (sure = true → nextSure c t pick = true)
  | .env w => World.lock w = World.lock c.state ∧
      Agree spacesMataPrefix (World.etcd c.state) (World.etcd w) ∧
      Grown sure (World.net c.state) (World.net w) ∧ (sure = true → RouterKeysOk (World.etcd w))

theorem inOrder_ok (c : Cluster psNet) (e : Event (master psNet) Request) (h : InOrder sure c e) :
    (clusterGuard json sure).Ok c e := by
  cases e with
  | spawn t i => trivial
  | act t pick =>
    exact ⟨h.1, h.2.1, fun i tr o k ht => sureOp_of_nextSure h.2.2 ht⟩
  | env w =>
    obtain ⟨hlock, hetcd, hnet, hrouter⟩ := h
    refine ⟨hlock, fun hinv => ⟨⟨?_, hrouter⟩, fun hnone => ?_, fun _ => ⟨hetcd, hnet⟩⟩⟩
    · exact (hinv.always.1.grown hnet).agree hetcd
    · exact exact_of_same (hinv.good hnone) ⟨hetcd, hnet⟩

/-- **In every state reached the cluster is in order.** -/
theorem cluster_reach (hjson : ∀ sp, json.unmarshal (json.marshal sp) = sp) {w : World psNet}
    (hw : (clusterGuard json sure).Inv w) (hlock : w.lock = none) {c : Cluster psNet}
    (h : Reach (step (serve json)) (InOrder sure) (Config.init w) c) :
    (clusterGuard json sure).Inv c.state :=
  Guard.reach (works_cluster hjson) hw hlock (h.mono inOrder_ok)

theorem placed_of_empty {w : World psNet} (hw : scanEtcd w.etcd spacesMataPrefix = []) :
    Placed json w.etcd w.net := by
  refine ⟨wellNamed_of_empty hw, ?_⟩
  rintro addr names ⟨key, val, hval, -⟩
  exact absurd hval (not_spaceAt_of_empty hw key val)

/-- **A recorded space is on its nodes.**  From a store without spaces, by requests of any number
of masters, whatever becomes of the requests to the nodes and with a `CreateSpace` handled late, but
no `DeleteSpace`: at every moment the node of every replica of a recorded space holds that space. -/
theorem recorded_is_held (json : SpaceJson) (hjson : ∀ sp, json.unmarshal (json.marshal sp) = sp)
    (w : World psNet) (hw : scanEtcd w.etcd spacesMataPrefix = []) (hlock : w.lock = none)
    (c : Cluster psNet) (h : Reach (step (serve json)) (InOrder false) (Config.init w) c)
    (addr : String × Int) (names : Names)
    (hrec : RecordedAt json (World.etcd c.state) addr names) :
    World.net c.state addr = some names := by
  have hinit : (clusterGuard json false).Inv w :=
    ⟨⟨placed_of_empty hw, fun hs => (nomatch hs)⟩, fun _ hs => (nomatch hs)⟩
  exact (cluster_reach hjson hinit hlock h).always.1.held addr names hrec

/-! #### A create and its node -/

theorem nextSure_smooth (c : Cluster psNet) (t : Nat) (time : String) :
    nextSure c t (smooth psNet time {}) = true := by
  unfold nextSure
  cases Guard.nextPost c t <;> rfl

/-- A create from the request to the answer, with a node that has registered. -/
def oneCreate : List (Event (master psNet) Request) :=
  .spawn 0 (.create (.ok sampleApi)) :: List.replicate 20 (.act 0 (smooth psNet sampleTime {}))

def oneCreated : Cluster psNet := oneCreate.foldl (step (serve goJson)) (Config.init oneNode)

theorem reach_oneCreate :
    Reach (step (serve goJson)) (InOrder sure) (Config.init oneNode) oneCreated := by
  have hlocks : RunOk (step (serve goJson)) LocksTaken (Config.init oneNode) oneCreate := by
    decide +kernel
  refine reach_of_runOk oneCreate _ Reach.start (hlocks.mono fun e he c hlock => ?_)
  rcases List.mem_cons.mp he with rfl | he
  · trivial
  · rw [(List.mem_replicate.mp he).2] at hlock ⊢
    exact ⟨nextUp_smooth c 0 sampleTime {}, hlock, fun _ => nextSure_smooth c 0 sampleTime⟩

theorem held_oneCreated :
    World.net oneCreated.state ("10.0.0.1", 8081) = some ("database", "images") := by
  decide +kernel

theorem inv_oneNode : (clusterGuard goJson true).Inv oneNode := by
  refine ⟨⟨placed_of_empty (by decide +kernel), fun _ key val hval hpre => ?_⟩,
    fun _ _ addr names h => (nomatch h)⟩
  have hmem : (key, val) ∈ scanEtcd oneNode.etcd routerNodesPrefix := mem_scanEtcd.mpr ⟨hval, hpre⟩
  rw [show scanEtcd oneNode.etcd routerNodesPrefix = [] by decide +kernel] at hmem
  cases hmem

theorem recorded_oneCreated : RecordedAt goJson (World.etcd oneCreated.state) ("10.0.0.1", 8081)
    ("database", "images") :=
  (cluster_reach unmarshal_marshal inv_oneNode rfl reach_oneCreate).good (by decide +kernel) rfl
    _ _ held_oneCreated

theorem recorded_is_held_one : RecordedAt goJson (World.etcd oneCreated.state) ("10.0.0.1", 8081)
      ("database", "images") ∧
    World.net oneCreated.state ("10.0.0.1", 8081) = some ("database", "images") :=
  ⟨recorded_oneCreated, recorded_is_held goJson unmarshal_marshal oneNode (by decide +kernel) rfl
    oneCreated reach_oneCreate _ _ recorded_oneCreated⟩

end SimSearch.Master
