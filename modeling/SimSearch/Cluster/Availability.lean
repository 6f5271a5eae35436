import SimSearch.Cluster.Layout
import SimSearch.Cluster.Placement
import SimSearch.Lib.Failover
import SimSearch.Router.Reports

/-!
# Reads from the replicas

`PartitionConnetion::GetDocs` of `service/router/partition_connection.cc` asks a replica that it
draws (`GetReplicaIdx`), and if that one fails the next ones in a circle, three in all.  The number
of replicas is kept as an `int8_t` (`PartitionOpt`).

`CheckApiSpace` admits one, three or five replicas, so three in a row are never all in a minority.
`reads_survive_minority` puts the two together, with the layout that the master has stored and the
partitions that the router chooses: while a majority of the replicas of each partition answers,
`Get` gives for every id what a replica of its partition has answered.
-/

namespace SimSearch.Cluster

open SimSearch.Lib SimSearch.Master SimSearch.Router

/-! ### The replica of a try -/

def int8 (n : Nat) : Int :=
  if n % 2 ^ 8 < 2 ^ 7 then (n % 2 ^ 8 : Nat) else (n % 2 ^ 8 : Nat) - 2 ^ 8

theorem int8_of_lt {n : Nat} (h : n < 2 ^ 7) : int8 n = n := by
  unfold int8
  split_ifs <;> omega

/-- `GetReplicaIdx`; `draw n` is a number from `1` to `n`. -/
def getReplicaIdx (draw : Int → Int) (replicasNum : Int) : Int :=
  draw (if replicasNum < 1 then 1 else replicasNum) - 1

def nextReplica (draw : Int → Int) (replicasNum replicaIdx : Int) : Int :=
  if replicaIdx = -1 then getReplicaIdx draw replicasNum
  else (replicaIdx + 1).tmod replicasNum

def replicaIdx (draw : Int → Int) (replicasNum : Int) : Nat → Int
  | 0 => nextReplica draw replicasNum (-1)
  | i + 1 => nextReplica draw replicasNum (replicaIdx draw replicasNum i)

/-- What a read draws, and what the client of a replica answers in the try `i`. -/
structure ReadCalls where
  draw : Int → Int
  get : SimSearch.Replica → Nat → List String → String × GetResponse

/-- The connection to a partition as `Init` leaves it: without replicas there is no
`PartitionOpt`. -/
def withReplicas (conn : PartitionConnetion) (calls : ReadCalls) (p : SimSearch.Partition) :
    PartitionConnetion :=
  { conn with
    hasOpt := !p.replicas.isEmpty
    psGet := fun i keys =>
      calls.get (p.replicas[(replicaIdx calls.draw (int8 p.replicas.length) i).toNat]?.getD {})
        i keys }

def replicaEnv (hasher : String → UInt64) (conn : String → String → PartitionConnetion)
    (calls : SimSearch.Partition → ReadCalls) : Router.Env where
  hasher := hasher
  dial db sp p := withReplicas (conn db sp) (calls p) p

/-! ### Three in a row -/

section

variable {draw : Int → Int} (hdraw : ∀ n, 1 ≤ n → 1 ≤ draw n ∧ draw n ≤ n)

include hdraw

/-- **The tries go round the replicas**, from the one that was drawn. -/
theorem replicaIdx_eq {n : Nat} (hn : 0 < n) :
    ∃ first : Nat, ∀ i, replicaIdx draw n i = ((first + i) % n : Nat) := by
  obtain ⟨hlow, hhigh⟩ := hdraw n (by omega)
  refine ⟨(draw n - 1).toNat, fun i => ?_⟩
  induction i with
  | zero =>
    have hone : ¬ (n : Int) < 1 := by omega
    rw [replicaIdx, nextReplica, if_pos rfl, getReplicaIdx, if_neg hone,
      Nat.add_zero, Nat.mod_eq_of_lt (by omega)]
    omega
  | succ i ih =>
    have hstep := Nat.mod_add_mod ((draw n - 1).toNat + i) n 1
    rw [replicaIdx, nextReplica, ih, if_neg (by omega), Int.tmod_eq_emod_of_nonneg (by omega),
      ← Nat.add_assoc, ← hstep]
    norm_cast

end

theorem tryGet_of_answer {conn : PartitionConnetion} {keys : List String} :
    ∀ {is : List Nat} {msg : String}, (∃ i ∈ is, (conn.psGet i keys).1 = "") →
      ∃ i ∈ is, (conn.psGet i keys).1 = "" ∧
        conn.tryGet keys is msg = .ok (conn.psGet i keys).2 := by
  intro is
  induction is with
  | nil =>
    rintro msg ⟨i, hi, -⟩
    cases hi
  | cons i is ih =>
    rintro msg ⟨j, hj, hans⟩
    by_cases hi : (conn.psGet i keys).1 = ""
    · refine ⟨i, List.mem_cons_self, hi, ?_⟩
      simp only [PartitionConnetion.tryGet, if_pos hi]
    · have hrest : j ∈ is := by
        rcases List.mem_cons.mp hj with rfl | hj
        · exact absurd hans hi
        · exact hj
      obtain ⟨k, hk, hans', htry⟩ := @ih (conn.psGet i keys).1 ⟨j, hrest, hans⟩
      refine ⟨k, List.mem_cons_of_mem _ hk, hans', ?_⟩
      simp only [PartitionConnetion.tryGet, if_neg hi]
      exact htry

/-- What one of the replicas of a partition has answered, in one of the three tries, when it was
asked for `keys`. -/
def FromReplica (calls : ReadCalls) (p : SimSearch.Partition) (keys : List String)
    (resp : GetResponse) : Prop :=
  ∃ rep ∈ p.replicas, ∃ i < 3, calls.get rep i keys = ("", resp)

/-- **A partition of at most five replicas answers while a majority of them does.** -/
theorem verdict_of_majority {conn : PartitionConnetion} {calls : ReadCalls}
    {p : SimSearch.Partition} (hdraw : ∀ n, 1 ≤ n → 1 ≤ calls.draw n ∧ calls.draw n ≤ n)
    (hfive : p.replicas.length ≤ 5) {down : SimSearch.Replica → Bool}
    (hdown : 2 * p.replicas.countP down < p.replicas.length)
    (hup : ∀ rep ∈ p.replicas, down rep = false → ∀ i keys, (calls.get rep i keys).1 = "")
    (keys : List String) :
    ∃ resp, FromReplica calls p keys resp ∧
      (withReplicas conn calls p).verdict keys = verdictOf resp := by
  have hpos : 0 < p.replicas.length := by omega
  obtain ⟨first, hidx⟩ := replicaIdx_eq hdraw hpos
  have hrep : ∀ i, ∃ rep ∈ p.replicas, p.replicas[(first + i) % p.replicas.length]? = some rep ∧
      (withReplicas conn calls p).psGet i keys = calls.get rep i keys := by
    intro i
    have hlt := Nat.mod_lt (first + i) hpos
    refine ⟨_, List.getElem_mem hlt, List.getElem?_eq_getElem hlt, ?_⟩
    simp only [withReplicas, int8_of_lt (show p.replicas.length < 2 ^ 7 by omega), hidx,
      Int.toNat_natCast, List.getElem?_eq_getElem hlt, Option.getD_some]
  obtain ⟨i, hi, rep, hget, hrepUp⟩ :=
    @exists_up _ down p.replicas (min 3 p.replicas.length) first (by omega) (by omega)
  have hsome : ∃ i ∈ List.range 3, ((withReplicas conn calls p).psGet i keys).1 = "" := by
    obtain ⟨rep', hmem, hget', hps⟩ := hrep i
    obtain rfl := Option.some.inj (hget.symm.trans hget')
    exact ⟨i, List.mem_range.mpr (by omega), by rw [hps]; exact hup rep hmem hrepUp i keys⟩
  obtain ⟨j, hj, hans, htry⟩ := @tryGet_of_answer _ _ _ "" hsome
  obtain ⟨rep', hmem, -, hps⟩ := hrep j
  rw [hps] at hans htry
  refine ⟨(calls.get rep' j keys).2, ⟨rep', hmem, j, List.mem_range.mp hj, Prod.ext hans rfl⟩, ?_⟩
  have hopt : ¬ (withReplicas conn calls p).hasOpt = false := by
    simp only [withReplicas, Bool.not_eq_false', List.isEmpty_iff]
    exact List.ne_nil_of_length_pos hpos
  funext key
  simp only [PartitionConnetion.verdict, if_neg hopt, htry]

/-! ### A space of the master -/

theorem replicas_le_five {json : SpaceJson} {s : ApiSpace} (hs : Accepted s)
    {idle : List Master.Replica} (henough : s.partitionNum * s.replicaNum ≤ idle.length)
    (hidle : (idle.map Replica.address).Nodup) {time : String} {id : Int} {space : Space}
    (hread : SpaceRead (filledSpace (apiSpaceToInnerSpace json s) idle time id) space)
    {p : SimSearch.Partition} (hp : p ∈ space.partitions) : p.replicas.length ≤ 5 := by
  obtain ⟨stored, hstored, hpart⟩ := exists_left_of_forall₂ hread.partitions hp
  have hlen := (layout_filledSpace hs henough hidle time id).replicaNum stored hstored
  have hfive := hs.replicaNum.2.2
  rw [← hpart.replicas.length_eq]
  omega

theorem exists_partition (env : Router.Env) {space : Space}
    (h : RoutesInRange env.hasher (connOf env space)) {ids : List String} {key : String}
    (hkey : key ∈ ids) :
    ∃ p, space.partitions[(partitionIdx env.hasher (connOf env space).partitionNum
          key).toNat]? = some p ∧
      (connOf env space).partitionList (partitionIdx env.hasher (connOf env space).partitionNum key)
        = env.dial space.dbName space.spaceName p := by
  obtain ⟨ks, hks, -⟩ := (key_in_hashKeys hkey (n := (connOf env space).partitionNum) _).mpr rfl
  obtain ⟨hlow, hhigh⟩ := h.keys ids (_, ks) (Std.TreeMap.mem_toList_iff_getElem?_eq_some.mpr hks)
  have hsize : partitionListSize (connOf env space) = space.partitions.length := rfl
  have hlt : (partitionIdx env.hasher (connOf env space).partitionNum key).toNat
      < space.partitions.length := by
    omega
  refine ⟨_, List.getElem?_eq_getElem hlt, ?_⟩
  simp only [connOf, SpaceConnection.init] at hlt ⊢
  rw [List.getElem?_eq_getElem hlt, Option.getD_some]

/-- What `Get` reports for an id is what a replica of its partition has answered. -/
theorem verdict_from_replica {json : SpaceJson} {s : ApiSpace} (hs : Accepted s)
    {idle : List Master.Replica} (henough : s.partitionNum * s.replicaNum ≤ idle.length)
    (hidle : (idle.map Replica.address).Nodup) {time : String} {id : Int} {space : Space}
    (hread : SpaceRead (filledSpace (apiSpaceToInnerSpace json s) idle time id) space)
    (hasher : String → UInt64) (conn : String → String → PartitionConnetion)
    {calls : SimSearch.Partition → ReadCalls}
    (hdraw : ∀ p n, 1 ≤ n → 1 ≤ (calls p).draw n ∧ (calls p).draw n ≤ n)
    {down : SimSearch.Replica → Bool}
    (hdown : ∀ p ∈ space.partitions, 2 * p.replicas.countP down < p.replicas.length)
    (hup : ∀ p ∈ space.partitions, ∀ rep ∈ p.replicas, down rep = false →
      ∀ i keys, ((calls p).get rep i keys).1 = "")
    {ids : List String} {key : String} (hkey : key ∈ ids) :
    ∃ resp, (∃ p, FromReplica (calls p) p
          (keysOf hasher (connOf (replicaEnv hasher conn calls) space) ids (partitionIdx hasher
            (connOf (replicaEnv hasher conn calls) space).partitionNum key)) resp ∧
        space.partitions[(partitionIdx hasher
          (connOf (replicaEnv hasher conn calls) space).partitionNum key).toNat]? = some p) ∧
      (connOf (replicaEnv hasher conn calls) space).verdict hasher ids key
        = verdictOf resp key := by
  have hroutes : RoutesInRange hasher (connOf (replicaEnv hasher conn calls) space) :=
    routesInRange_of_laidOut (laidOut_filledSpace hs idle time id) hread hasher
  obtain ⟨p, hp, hdial⟩ := exists_partition (replicaEnv hasher conn calls) hroutes hkey
  have hmem := List.mem_of_getElem? hp
  obtain ⟨resp, hresp, hsame⟩ := verdict_of_majority (hdraw p)
    (replicas_le_five hs henough hidle hread hmem) (hdown p hmem) (hup p hmem) _
  refine ⟨resp, ⟨p, hresp, hp⟩, ?_⟩
  rw [← hsame]
  exact congrArg (fun c : PartitionConnetion => c.verdict _ key) hdial

/-- **`Get` answers while a majority of the replicas of each partition does**: for every space
that the master stores, every hash function and every draw, the documents and the failures of the
response are what replicas of the partitions of the ids have answered, each asked for the ids of
its partition in one of three tries. -/
theorem reads_survive_minority (json : SpaceJson) (s : ApiSpace) (hs : checkApiSpace s = some "")
    (idle : List Master.Replica) (henough : s.partitionNum * s.replicaNum ≤ idle.length)
    (hidle : (idle.map Replica.address).Nodup) (time : String) (id : Int) (space : Space)
    (hread : SpaceRead (filledSpace (apiSpaceToInnerSpace json s) idle time id) space)
    (hasher : String → UInt64) (conn : String → String → PartitionConnetion)
    (calls : SimSearch.Partition → ReadCalls)
    (hdraw : ∀ p n, 1 ≤ n → 1 ≤ (calls p).draw n ∧ (calls p).draw n ≤ n)
    (down : SimSearch.Replica → Bool)
    (hdown : ∀ p ∈ space.partitions, 2 * p.replicas.countP down < p.replicas.length)
    (hup : ∀ p ∈ space.partitions, ∀ rep ∈ p.replicas, down rep = false →
      ∀ i keys, ((calls p).get rep i keys).1 = "")
    (req : IdsRequest) (hids : checkPbIds req.ids space = "") :
    ∃ answer : String → GetResponse,
      (∀ key ∈ req.ids, ∃ p, FromReplica (calls p) p
          (keysOf hasher (connOf (replicaEnv hasher conn calls) space) req.ids (partitionIdx hasher
            (connOf (replicaEnv hasher conn calls) space).partitionNum key)) (answer key) ∧
        space.partitions[(partitionIdx hasher
          (connOf (replicaEnv hasher conn calls) space).partitionNum key).toNat]? = some p) ∧
      (get hasher (some (connOf (replicaEnv hasher conn calls) space)) "" req).documents
        = req.ids.filterMap (fun key => (verdictOf (answer key) key).toOption) ∧
      (get hasher (some (connOf (replicaEnv hasher conn calls) space)) "" req).failedDocs
        = req.ids.filterMap (fun key => (errorOf (verdictOf (answer key) key)).map
            fun msg => { id := key, msg := msg }) := by
  have : Nonempty GetResponse := ⟨{}⟩
  have hverdict := fun key (hkey : key ∈ req.ids) => verdict_from_replica
    (accepted_of_checkApiSpace hs) henough hidle hread hasher conn hdraw hdown hup hkey
  choose! answer hanswer using hverdict
  obtain ⟨hdocs, hfailed, -⟩ := @get_of_checkPbIds hasher
    (connOf (replicaEnv hasher conn calls) space) req hids
  refine ⟨answer, fun key hkey => (hanswer key hkey).1, ?_, ?_⟩
  · rw [hdocs]
    exact List.filterMap_congr fun key hkey => by rw [(hanswer key hkey).2]
  · rw [hfailed]
    exact List.filterMap_congr fun key hkey => by rw [(hanswer key hkey).2]

/-- Answers of every node but one, with a document for each id. -/
def oneDown : ReadCalls where
  draw n := n
  get rep _ keys :=
    if rep.psIp = "10.0.0.2" then ("no connection", {})
    else ("", { documents := keys.map docWithId })

theorem verdictOf_docWithId {keys : List String} {key : String} (h : key ∈ keys) :
    verdictOf { documents := keys.map docWithId } key = .ok (docWithId key) := by
  have hfound : ((keys.map docWithId).reverse.find? fun doc => doc.id = key).isSome = true := by
    rw [List.find?_isSome]
    exact ⟨docWithId key, List.mem_reverse.mpr (List.mem_map_of_mem h), decide_eq_true rfl⟩
  obtain ⟨doc, hdoc⟩ := Option.isSome_iff_exists.mp hfound
  obtain ⟨key', -, rfl⟩ := List.mem_map.mp (List.mem_reverse.mp (List.mem_of_find?_eq_some hdoc))
  have hsame := List.find?_some hdoc
  obtain rfl : key' = key := of_decide_eq_true hsame
  simp only [verdictOf, hdoc]

/-- Who answers has all documents. -/
theorem verdictOf_oneDown {p : SimSearch.Partition} {keys : List String} {resp : GetResponse}
    (h : FromReplica oneDown p keys resp) {key : String} (hkey : key ∈ keys) :
    verdictOf resp key = .ok (docWithId key) := by
  obtain ⟨rep, -, i, -, hget⟩ := h
  by_cases hdown : rep.psIp = "10.0.0.2"
  · simp only [oneDown, if_pos hdown, Prod.mk.injEq] at hget
    exact absurd hget.1 (by decide)
  · simp only [oneDown, if_neg hdown, Prod.mk.injEq, true_and] at hget
    rw [← hget]
    exact verdictOf_docWithId hkey

/-- A space of one partition with three replicas, on a router that reaches two of them. -/
def threeConn : SpaceConnection :=
  connOf (replicaEnv libstdcxxHash (fun _ _ => twoPartitions.partitionList 0) fun _ => oneDown)
    (pbSpace (gridSpace 1 3))

/-- The third replica is down and is asked first; all documents arrive. -/
theorem reads_survive_minority_three :
    (get libstdcxxHash (some threeConn) "" { ids := ["1", "2"] }).documents
        = [docWithId "1", docWithId "2"] ∧
      (get libstdcxxHash (some threeConn) "" { ids := ["1", "2"] }).failedDocs = [] := by
  obtain ⟨answer, hfrom, hdocs, hfailed⟩ := reads_survive_minority goJson (gridApi 1 3)
    (by decide +kernel) (gridNodes 3) (by decide) (by decide +kernel) sampleTime 1
    (pbSpace (gridSpace 1 3)) (spaceRead_pbSpace (by decide +kernel)) libstdcxxHash
    (fun _ _ => twoPartitions.partitionList 0) (fun _ => oneDown)
    (fun _ n hn => ⟨hn, le_refl n⟩) (fun rep => rep.psIp = "10.0.0.2") (by decide +kernel)
    (fun p _ rep _ hup i keys => by
      simp only [oneDown, if_neg (of_decide_eq_false hup)])
    { ids := ["1", "2"] } (by decide +kernel)
  have hverdict : ∀ key ∈ ["1", "2"], verdictOf (answer key) key = .ok (docWithId key) := by
    intro key hkey
    obtain ⟨p, hp, -⟩ := hfrom key hkey
    exact verdictOf_oneDown hp (List.mem_filter.mpr ⟨hkey, decide_eq_true rfl⟩)
  have hone := hverdict "1" (by decide)
  have htwo := hverdict "2" (by decide)
  refine ⟨hdocs.trans ?_, hfailed.trans ?_⟩
  · simp only [List.filterMap_cons, List.filterMap_nil, hone, htwo, Except.toOption]
  · simp only [List.filterMap_cons, List.filterMap_nil, hone, htwo, errorOf, Option.map_none]

end SimSearch.Cluster
