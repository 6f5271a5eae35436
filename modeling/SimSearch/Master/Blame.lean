import SimSearch.Master.Answers

/-!
# Which node a failed request is put down to

A round of requests has one for each replica, partition after partition, so the request with
index `i` of a space with `r` replicas a partition goes to replica `i % r` of partition
`i / r`.  `ParallelCreatePsSpace`, `ParallelDeletePsSpace` and `PutNodesErrInfoToEtcd` split the
index with the number of partitions instead.

`Grid` is a space of equal partitions.  `replicaAt_eq` says which replica the code takes,
`replicaAt_of_sameSplit` and `sameSplit_of_replicaAt` when it is the right one, and
`recordFailed_spec` carries this to the keys under which the nodes are noted.
-/

namespace SimSearch.Master

open SimSearch.Lib Program

/-! ### Equal partitions -/

/-- `p` partitions of `r` replicas each. -/
structure Grid (space : InnerSpace) (p r : Nat) : Prop where
  partitionNum : space.partitionNum = p
  length : space.partitions.length = p
  replicas : ∀ partition ∈ space.partitions, partition.replicas.length = r

variable {space : InnerSpace} {p r : Nat}

theorem Grid.length_replicas (h : Grid space p r) : space.replicas.length = p * r := by
  unfold InnerSpace.replicas
  rw [length_flatMap_blocks h.replicas, h.length]

theorem Grid.getElem?_replicas (h : Grid space p r) (hr : 0 < r) (idx : Nat) :
    space.replicas[idx]? = space.partitions[idx / r]?.bind fun q => q.replicas[idx % r]? :=
  getElem?_flatMap_blocks hr h.replicas idx

theorem Grid.replicaAt_eq (h : Grid space p r) (hp : 0 < p) (idx : Nat) :
    replicaAt space idx = space.partitions[idx / p]?.bind fun q => q.replicas[idx % p]? := by
  have hnum : ¬ ((p : Int) = 0 ∨ ((idx / p : Nat) : Int) < 0 ∨ ((idx % p : Nat) : Int) < 0) := by
    rintro (hzero | hdiv | hmod)
    · omega
    · exact absurd hdiv (Int.not_lt.mpr (Int.natCast_nonneg _))
    · exact absurd hmod (Int.not_lt.mpr (Int.natCast_nonneg _))
  unfold replicaAt
  rw [h.partitionNum, ← Int.ofNat_tdiv, ← Int.ofNat_tmod]
  simp only [if_neg hnum, Int.toNat_natCast]

/-! ### The wrong divisor -/

def SameSplit (p r idx : Nat) : Prop := p = r ∨ (idx < p ∧ idx < r)

instance (p r idx : Nat) : Decidable (SameSplit p r idx) := inferInstanceAs (Decidable (_ ∨ _))

theorem Grid.replicaAt_place (h : Grid space p r) (hp : 0 < p) {idx : Nat} (hidx : idx % p < r) :
    replicaAt space idx = space.replicas[idx / p * r + idx % p]? := by
  have hr : 0 < r := Nat.zero_lt_of_lt hidx
  have hdiv : (idx / p * r + idx % p) / r = idx / p := by
    rw [Nat.add_comm, Nat.add_mul_div_right _ _ hr, Nat.div_eq_of_lt hidx, Nat.zero_add]
  have hmod : (idx / p * r + idx % p) % r = idx % p := by
    rw [Nat.add_comm, Nat.add_mul_mod_self_right, Nat.mod_eq_of_lt hidx]
  rw [h.replicaAt_eq hp, h.getElem?_replicas hr, hdiv, hmod]

theorem Grid.replicaAt_eq_none (h : Grid space p r) (hp : 0 < p) {idx : Nat}
    (hidx : r ≤ idx % p) : replicaAt space idx = none := by
  rw [h.replicaAt_eq hp]
  cases hq : space.partitions[idx / p]? with
  | none => rfl
  | some q =>
    refine List.getElem?_eq_none ?_
    rw [h.replicas q (List.mem_of_getElem? hq)]
    exact hidx

theorem Grid.replicaAt_of_sameSplit (h : Grid space p r) (hp : 0 < p) {idx : Nat}
    (hidx : SameSplit p r idx) : replicaAt space idx = space.replicas[idx]? := by
  rcases hidx with rfl | ⟨hlp, hlr⟩
  · rw [h.replicaAt_eq hp, h.getElem?_replicas hp]
  · have hmod : idx % p = idx := Nat.mod_eq_of_lt hlp
    rw [h.replicaAt_place hp (by omega), place_eq_iff.mpr (Or.inl (Nat.div_eq_of_lt hlp))]

/-- **With another divisor the replica is another one**, as far as `f` tells them apart. -/
theorem Grid.sameSplit_of_replicaAt {γ : Type} (h : Grid space p r) (hp : 0 < p)
    {f : Replica → γ} (hf : (space.replicas.map f).Nodup) {idx : Nat} (hidx : idx < p * r)
    (heq : (replicaAt space idx).map f = space.replicas[idx]?.map f) : SameSplit p r idx := by
  have hlt : idx < (space.replicas.map f).length := by
    rw [List.length_map, h.length_replicas]
    exact hidx
  by_cases hmod : idx % p < r
  · rw [h.replicaAt_place hp hmod, ← List.getElem?_map, ← List.getElem?_map] at heq
    rcases place_eq_iff.mp ((List.getElem?_inj hlt hf).mp heq.symm).symm with hzero | hpr
    · have hlp : idx < p := by
        rcases Nat.div_eq_zero_iff.mp hzero with h0 | hlp
        · omega
        · exact hlp
      rw [Nat.mod_eq_of_lt hlp] at hmod
      exact Or.inr ⟨hlp, hmod⟩
    · exact Or.inl hpr
  · rw [h.replicaAt_eq_none hp (Nat.le_of_not_lt hmod), ← List.getElem?_map,
      List.getElem?_eq_getElem hlt] at heq
    cases heq

/-! ### What is noted -/

def noted (tr : Trace Op Res) : List String :=
  tr.filterMap fun
    | ⟨.get key, _⟩ => some key
    | _ => none

theorem noted_append (tr tr' : Trace Op Res) : noted (tr ++ tr') = noted tr ++ noted tr' :=
  List.filterMap_append

def Replica.errKey (rep : Replica) : String := getErrPsNodeEtcdKey rep.psIp rep.psPort rep.psId

theorem noted_eq_nil {tr : Trace Op Res} (h : ∀ e ∈ tr, ∀ key, e.1 ≠ .get key) :
    noted tr = [] := by
  refine List.filterMap_eq_nil_iff.mpr fun e he => ?_
  obtain ⟨o, x⟩ := e
  cases o with
  | get key => exact absurd rfl (h _ he key)
  | _ => rfl

theorem exchanges_eq_nil {tr : Trace Op Res} (h : ∀ e ∈ tr, ∀ task, e.1 ≠ .post task) :
    exchanges tr = [] := by
  refine List.filterMap_eq_nil_iff.mpr fun e he => ?_
  obtain ⟨o, x⟩ := e
  cases o with
  | post task => exact absurd rfl (h _ he task)
  | _ => rfl

theorem noted_putOrAppend (key val : String) (n : Nat) :
    (putOrAppend key val n).Yields fun tr _ => noted tr = [key] := by
  refine yields_perform fun old => ?_
  cases old with
  | error e => exact rfl
  | ok old =>
    by_cases hlen : (old.getD "" ++ val).utf8ByteSize > n * 1024
    · simp only [if_pos hlen]
      exact rfl
    · simp only [if_neg hlen]
      exact fun _ => rfl

/-- It comes to its end exactly when every index is in range, and then it has noted the
replicas that it took. -/
theorem putNodesErrInfoToEtcd_spec (space : InnerSpace) (errMsg : String) (idxs : List Nat) :
    ∀ acc, (putNodesErrInfoToEtcd space errMsg idxs acc).Yields fun tr res =>
      (res.isSome = true ↔ ∀ i ∈ idxs, (replicaAt space i).isSome = true) ∧
        (res.isSome = true →
          (noted tr).map some = idxs.map fun i => (replicaAt space i).map Replica.errKey) := by
  induction idxs with
  | nil =>
    intro acc
    exact ⟨⟨fun _ i hi => (nomatch hi), fun _ => rfl⟩, fun _ => rfl⟩
  | cons idx idxs ih =>
    intro acc
    unfold putNodesErrInfoToEtcd
    cases hrep : replicaAt space idx with
    | none =>
      refine ⟨⟨fun h => absurd h Bool.false_ne_true, fun h => ?_⟩,
        fun h => absurd h Bool.false_ne_true⟩
      have hsome := h idx List.mem_cons_self
      rw [hrep] at hsome
      exact hsome
    | some rep =>
      refine yields_seq ((noted_putOrAppend _ _ _).mono fun tr _ htr => (ih _).mono ?_)
      rintro tr' res ⟨hiff, hnoted⟩
      have hhead : (replicaAt space idx).isSome = true := by rw [hrep]; rfl
      refine ⟨hiff.trans ?_, fun hres => ?_⟩
      · rw [List.forall_mem_cons]
        exact ⟨fun h => ⟨hhead, h⟩, fun h => h.2⟩
      · rw [noted_append, htr, List.map_append, hnoted hres, List.map_cons, List.map_cons, hrep]
        rfl

/-! ### A round of requests -/

/-- What follows each round: the nodes whose requests failed are noted. -/
def recordFailed (space : InnerSpace) (errMsg : String) (round : Prog (Option (List Nat))) :
    Prog (Option String) := do
  match ← round with
  | none => return none
  | some failed => putNodesErrInfoToEtcd space errMsg failed ""

/-- Nothing has panicked, and the nodes that are noted are those whose requests failed. -/
def FailuresNoted (space : InnerSpace) (replies : List Reply) (tr : Trace Op Res)
    (res : Option String) : Prop :=
  res.isSome = true ∧
    (noted tr).map some = (failedOf replies).map fun i => space.replicas[i]?.map Replica.errKey

/-- The requests were sent, once each, and the failures are noted from the replica that
`replicaAt` gives. -/
structure Round (space : InnerSpace) (tasks : List Task) (replies : List Reply)
    (tr : Trace Op Res) (res : Option String) : Prop where
  length : replies.length = tasks.length
  sent : (exchanges tr).Perm (tasks.zip replies)
  isSome_iff : res.isSome = true ↔ ∀ i ∈ failedOf replies, (replicaAt space i).isSome = true
  noted_eq : res.isSome = true →
    (noted tr).map some = (failedOf replies).map fun i => (replicaAt space i).map Replica.errKey

theorem recordFailed_spec (space : InnerSpace) (errMsg : String) (tasks : List Task) :
    (recordFailed space errMsg (parallelExecute tasks >>= fun rs =>
      pure (failedIdxs space rs))).Yields fun tr res =>
        ∃ replies, Round space tasks replies tr res := by
  have hround : (parallelExecute tasks).Uses fun o => ∀ key, o ≠ .get key :=
    uses_parallelExecute (fun _ h => Op.noConfusion h) fun _ _ _ h => Op.noConfusion h
  have hsent := (parallelExecute_exchanges tasks).and (yields_uses hround)
  refine yields_seq (yields_seq (hsent.mono ?_))
  rintro tr replies ⟨⟨hlen, hsent⟩, hget⟩
  have hquiet : noted tr = [] := noted_eq_nil hget
  show (_ : Prog (Option String)).Yields _
  cases hfailed : failedIdxs space replies with
  | none =>
    refine ⟨replies, hlen, by simpa using hsent, ?_, fun h => absurd h Bool.false_ne_true⟩
    refine ⟨fun h => absurd h Bool.false_ne_true, fun h => ?_⟩
    rw [failedIdxs_eq_some_iff.mpr ⟨rfl, h⟩] at hfailed
    cases hfailed
  | some failed =>
    obtain ⟨rfl, -⟩ := failedIdxs_eq_some_iff.mp hfailed
    have hput : (putNodesErrInfoToEtcd space errMsg (failedOf replies) "").Uses
        fun o => ∀ task, o ≠ .post task :=
      uses_putNodesErrInfo (fun _ _ _ _ h => Op.noConfusion h) (fun _ _ _ _ _ h => Op.noConfusion h)
        _ _
    refine ((putNodesErrInfoToEtcd_spec space errMsg _ "").and (yields_uses hput)).mono ?_
    rintro tr' res ⟨⟨hiff, hnoted⟩, hpost⟩
    refine ⟨replies, hlen, ?_, hiff, fun hres => ?_⟩
    · rw [List.append_nil, exchanges_append, exchanges_eq_nil hpost, List.append_nil]
      exact hsent
    · rw [List.append_nil, noted_append, hquiet, List.nil_append]
      exact hnoted hres

def Task.address (task : Task) : String × Int := (task.ip, task.port)
def Replica.address (rep : Replica) : String × Int := (rep.psIp, rep.psPort)

theorem address_psCreateTasks (space : InnerSpace) :
    (psCreateTasks space).map Task.address = space.replicas.map Replica.address := by
  unfold psCreateTasks InnerSpace.replicas
  rw [List.map_flatMap, List.map_flatMap]
  refine List.flatMap_congr fun partition _ => ?_
  rw [List.map_map]
  rfl

theorem address_psDeleteTasks (space : InnerSpace) :
    (psDeleteTasks space).map Task.address = space.replicas.map Replica.address := by
  unfold psDeleteTasks
  rw [List.map_map]
  rfl

/-- When the replica taken for an index is the one that the request was built from. -/
structure Selects (space : InnerSpace) (p r idx : Nat) : Prop where
  right : SameSplit p r idx → replicaAt space idx = space.replicas[idx]?
  wrong : space.replicas.Nodup → replicaAt space idx = space.replicas[idx]? → SameSplit p r idx

/-- When the nodes that are noted are those whose requests failed. -/
structure Blames (space : InnerSpace) (p r : Nat) (tasks : List Task) (replies : List Reply)
    (tr : Trace Op Res) (res : Option String) : Prop where
  length : replies.length = tasks.length
  sent : (exchanges tr).Perm (tasks.zip replies)
  right : (∀ i ∈ failedOf replies, SameSplit p r i) → FailuresNoted space replies tr res
  wrong : (space.replicas.map Replica.errKey).Nodup → FailuresNoted space replies tr res →
    ∀ i ∈ failedOf replies, SameSplit p r i

theorem Grid.selects (h : Grid space p r) (hp : 0 < p) {idx : Nat} (hidx : idx < p * r) :
    Selects space p r idx := by
  refine ⟨h.replicaAt_of_sameSplit hp, fun hnd heq => ?_⟩
  exact h.sameSplit_of_replicaAt (f := id) hp (by rw [List.map_id]; exact hnd) hidx
    (congrArg (Option.map id) heq)

theorem lt_of_mem_failedOf {replies : List Reply} {i : Nat} (h : i ∈ failedOf replies) :
    i < replies.length := by
  obtain ⟨reply, hreply, -⟩ := mem_failedOf.mp h
  exact (List.getElem?_eq_some_iff.mp hreply).1

/-- With one request for each replica, the two lists of what is noted are compared index by
index. -/
theorem Grid.blames (h : Grid space p r) (hp : 0 < p) {tasks : List Task}
    (htasks : tasks.length = space.replicas.length) {replies : List Reply} {tr : Trace Op Res}
    {res : Option String} (hround : Round space tasks replies tr res) :
    Blames space p r tasks replies tr res := by
  have hlt : ∀ i ∈ failedOf replies, i < p * r := by
    intro i hi
    have hi := lt_of_mem_failedOf hi
    rw [hround.length, htasks, h.length_replicas] at hi
    exact hi
  refine ⟨hround.length, hround.sent, fun hsplit => ?_, ?_⟩
  · have hsel : ∀ i ∈ failedOf replies, replicaAt space i = space.replicas[i]? :=
      fun i hi => h.replicaAt_of_sameSplit hp (hsplit i hi)
    have hres : res.isSome = true := by
      refine hround.isSome_iff.mpr fun i hi => ?_
      rw [hsel i hi, List.getElem?_eq_getElem (by rw [h.length_replicas]; exact hlt i hi)]
      rfl
    refine ⟨hres, (hround.noted_eq hres).trans (List.map_congr_left fun i hi => ?_)⟩
    rw [hsel i hi]
  · rintro hnd ⟨hres, hnoted⟩ i hi
    have heq := List.map_inj_left.mp ((hround.noted_eq hres).symm.trans hnoted) i hi
    exact h.sameSplit_of_replicaAt hp hnd (hlt i hi) heq

/-- **A failed request is put down to the node that it was sent to when the partitions are as
many as their replicas, or the index is below both numbers**, and otherwise to another node or
to none: the index is then out of range. -/
theorem failures_blamed (space : InnerSpace) (p r : Nat) (h : Grid space p r) (hp : 0 < p)
    (errMsg : String) :
    (psCreateTasks space).map Task.address = space.replicas.map Replica.address ∧
    (psDeleteTasks space).map Task.address = space.replicas.map Replica.address ∧
    (∀ idx < p * r, Selects space p r idx) ∧
    (recordFailed space errMsg (parallelCreatePsSpace space)).Yields (fun tr res =>
      ∃ replies, Blames space p r (psCreateTasks space) replies tr res) ∧
    (recordFailed space errMsg (parallelDeletePsSpace space)).Yields (fun tr res =>
      ∃ replies, Blames space p r (psDeleteTasks space) replies tr res) := by
  have hlen : ∀ {tasks : List Task},
      tasks.map Task.address = space.replicas.map Replica.address →
        tasks.length = space.replicas.length := by
    intro tasks htasks
    have hlen := congrArg List.length htasks
    rwa [List.length_map, List.length_map] at hlen
  have hcreate := address_psCreateTasks space
  have hdelete := address_psDeleteTasks space
  refine ⟨hcreate, hdelete, fun idx hidx => h.selects hp hidx, ?_, ?_⟩
  · refine (recordFailed_spec space errMsg (psCreateTasks space)).mono ?_
    rintro tr res ⟨replies, hround⟩
    exact ⟨replies, h.blames hp (hlen hcreate) hround⟩
  · refine (recordFailed_spec space errMsg (psDeleteTasks space)).mono ?_
    rintro tr res ⟨replies, hround⟩
    exact ⟨replies, h.blames hp (hlen hdelete) hround⟩

def gridApi (p r : Nat) : ApiSpace := { sampleApi with partitionNum := p, replicaNum := r }

def gridNodes (n : Nat) : List Replica :=
  (List.range n).map fun i => { psId := i, psIp := "10.0.0." ++ toString i, psPort := 8081 }

/-- What `CreatePsSpaceImpl` makes of it with as many idle nodes as it needs. -/
def gridSpace (p r : Nat) : InnerSpace :=
  filledSpace (apiSpaceToInnerSpace goJson (gridApi p r)) (gridNodes (p * r)) sampleTime 1

def refusingNet (ip : String) : Network where
  State := Unit
  Choice := Unit
  send _ task _ := (if task.ip = ip then { err := "connection refused" } else {}, ())

theorem grid_gridSpace : Grid (gridSpace 2 3) 2 3 ∧ Grid (gridSpace 1 3) 1 3 := by
  refine ⟨⟨rfl, rfl, ?_⟩, ⟨rfl, rfl, ?_⟩⟩
  · decide +kernel
  · decide +kernel

def refusedRun (p r : Nat) (ip : String) : Trace Op Res × Option String × World (refusingNet ip) :=
  runWith (master (refusingNet ip)) 0 (fun _ => smooth (refusingNet ip) sampleTime ())
    (recordFailed (gridSpace p r) "" (parallelCreatePsSpace (gridSpace p r))) 0
    { etcd := ∅, net := () }

/-- Two partitions of three replicas: a failure of the second request is put down to the
right node. -/
theorem failures_blamed_grid :
    Grid (gridSpace 2 3) 2 3 ∧ ((gridSpace 2 3).replicas.map Replica.errKey).Nodup ∧
      replicaAt (gridSpace 2 3) 1 = (gridSpace 2 3).replicas[1]? ∧
      ∃ replies, Blames (gridSpace 2 3) 2 3 (psCreateTasks (gridSpace 2 3)) replies
        (refusedRun 2 3 "10.0.0.1").1 (refusedRun 2 3 "10.0.0.1").2.1 := by
  obtain ⟨-, -, hselects, hcreate, -⟩ :=
    failures_blamed (gridSpace 2 3) 2 3 grid_gridSpace.1 (by decide) ""
  exact ⟨grid_gridSpace.1, by decide +kernel, (hselects 1 (by decide)).right (Or.inr (by decide)),
    post_yields (M := master (refusingNet "10.0.0.1")) hcreate _ _ _ _ (runs_runWith _ _ _ _)⟩

/-- **The wrong node is noted**: of two partitions of three replicas the node with index 2
refuses, and the one with index 3 is noted.  Of one partition of three replicas the node with
index 1 refuses, and the handler panics. -/
theorem wrong_node_noted :
    checkApiSpace (gridApi 2 3) = some "" ∧ Grid (gridSpace 2 3) 2 3 ∧
      ((exchanges (refusedRun 2 3 "10.0.0.2").1).filter (fun e => !e.2.ok)).map
        (fun e => e.1.ip) = ["10.0.0.2"] ∧
      noted (refusedRun 2 3 "10.0.0.2").1 = [getErrPsNodeEtcdKey "10.0.0.3" 8081 3] ∧
      checkApiSpace (gridApi 1 3) = some "" ∧ Grid (gridSpace 1 3) 1 3 ∧
      (refusedRun 1 3 "10.0.0.1").2.1 = none := by
  refine ⟨by decide +kernel, grid_gridSpace.1, by decide +kernel, by decide +kernel,
    by decide +kernel, grid_gridSpace.2, by decide +kernel⟩

end SimSearch.Master
