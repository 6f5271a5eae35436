import SimSearch.Lib.Concurrent
import SimSearch.Lib.Leases

/-!
# Registering a node and keeping it registered

`EtcdOp`, `EtcdClient::Put`, `LeaseGrant`, `LeaseKeepAlive` and `KeepNodeAliveThreadFunc`
of `clients/etcd_client.cc`.

A call goes over HTTP to one etcd node after the other until one answers.  A call that
fails may have reached etcd, and may still reach it later.  A response that does not parse
leaves what was parsed of it in the message, and the next attempt writes over it.

The thread does not look at the result of `LeaseGrant`: with no id in the response it puts
the key with the lease `0`, that is, without a lease.  `put_granted` is what the thread
does right: the lease of a `Put` is the one that its last `LeaseGrant` brought.  The key is
then always leased if no `Put` reaches etcd after a `LeaseGrant` that brought no id
(`node_key_leased`).
-/

namespace SimSearch.Clients

open SimSearch.Lib

/-! ### Calls -/

inductive Request
  | leaseGrant (ttl : Int)
  | put (key value : String) (lease : Int64)
  | leaseKeepAlive (id : Int64)
  deriving DecidableEq, Repr

structure Response where
  id : Int64 := 0
  ttl : Int64 := 0
  deriving DecidableEq, Repr

structure Fields where
  id : Option Int64 := none
  ttl : Option Int64 := none
  deriving DecidableEq, Repr

def Response.merge (r : Response) (f : Fields) : Response where
  id := f.id.getD r.id
  ttl := f.ttl.getD r.ttl

/-- How one HTTP call ends: `cntl.Failed()`, with a text that is not a response, or with a
response. -/
inductive Reply
  | failed
  | garbled (part : Fields)
  | ok (fields : Fields)
  deriving DecidableEq, Repr

abbrev Client := Program Request fun _ => Reply

/-- The loop of `EtcdOp` over the `n` channels that are left.  Which of them comes first is
drawn, and each is tried once. -/
def etcdOp (req : Request) : Nat → Response → Client (Bool × Response)
  | 0, resp => pure (false, resp)
  | n + 1, resp => do
    match ← Program.perform req with
    | .failed => etcdOp req n resp
    | .garbled part => etcdOp req n (resp.merge part)
    | .ok fields => pure (true, resp.merge fields)

structure KeepAliveArgs where
  chanSize : Nat
  key : String
  val : String
  intervalSec : Int
  /-- How often the loop finds `_keep_alive_bt_running` set. -/
  turns : Nat

def registerFunc (ka : KeepAliveArgs) : Client Int64 :=
  if ka.key = "" then pure (-1)
  else do
    let (_, grantResp) ← etcdOp (.leaseGrant (3 * ka.intervalSec)) ka.chanSize {}
    let _ ← etcdOp (.put ka.key ka.val grantResp.id) ka.chanSize {}
    pure grantResp.id

def keepAliveLoop (ka : KeepAliveArgs) : Nat → Int64 → Client Unit
  | 0, _ => pure ()
  | n + 1, grantId => do
    let (ok, aliveResp) ← etcdOp (.leaseKeepAlive grantId) ka.chanSize {}
    if ok = false ∨ aliveResp.ttl ≤ 0 then do
      let grantId ← registerFunc ka
      keepAliveLoop ka n grantId
    else keepAliveLoop ka n grantId

def keepNodeAliveThreadFunc (ka : KeepAliveArgs) : Client Unit := do
  let grantId ← registerFunc ka
  keepAliveLoop ka ka.turns grantId

/-! ### etcd -/

/-- The store, and the requests of failed calls that are still under way. -/
structure Etcd where
  store : LeaseStore String String Int64 := {}
  late : List Request := []

inductive Back
  | intact
  | garbled (part : Fields)
  | lost
  deriving DecidableEq, Repr

/-- What becomes of an HTTP call.  When it reaches etcd, `newId` and `ttl` are what etcd
picks for a lease. -/
inductive Outcome
  | lost
  | late
  | arrived (newId ttl : Int64) (back : Back)
  deriving DecidableEq, Repr

/-- What etcd does with a request; `none` is an error. -/
def serve (s : LeaseStore String String Int64) (newId ttl : Int64) :
    Request → Option (Fields × LeaseStore String String Int64)
  | .leaseGrant _ => (s.grant newId).map fun s' => ({ id := some newId, ttl := some ttl }, s')
  | .put key value lease => (s.put key value lease).map fun s' => ({}, s')
  | .leaseKeepAlive id =>
    some ({ id := some id, ttl := some (if s.live id then ttl else 0) }, s)

def arrive (s : LeaseStore String String Int64) (newId ttl : Int64) (req : Request) :
    LeaseStore String String Int64 :=
  ((serve s newId ttl req).map Prod.snd).getD s

def reply (s : LeaseStore String String Int64) (newId ttl : Int64) (back : Back) (req : Request) :
    Reply :=
  match back, serve s newId ttl req with
  | .intact, some (fields, _) => .ok fields
  | .garbled part, some _ => .garbled part
  | _, _ => .failed

def etcd : Machine Request fun _ => Reply where
  State := Etcd
  Choice _ := Outcome
  exec _ s req
    | .lost => (.failed, s)
    | .late => (.failed, { s with late := s.late ++ [req] })
    | .arrived newId ttl back =>
      (reply s.store newId ttl back req, { s with store := arrive s.store newId ttl req })

/-- What happens in etcd apart from the calls of the threads: a lease expires or is
revoked, a late request arrives or is lost, and other clients grant leases and write other
keys than `key`. -/
inductive Moves (key : String) (s : Etcd) : Etcd → Prop
  | expire (i : Int64) : Moves key s { s with store := s.store.expire i }
  | arrive (n : Nat) (req : Request) (newId ttl : Int64) (h : s.late[n]? = some req) :
      Moves key s { store := Clients.arrive s.store newId ttl req, late := s.late.eraseIdx n }
  | lose (n : Nat) : Moves key s { s with late := s.late.eraseIdx n }
  | others (store : LeaseStore String String Int64) (hkv : store.kv key = s.store.kv key)
      (hlive : ∀ i, s.store.live i = true → store.live i = true) : Moves key s { s with store := store }

/-! ### The lease of a Put -/

abbrev CallTrace := Trace Request fun _ => Reply

def Response.absorb (resp : Response) : Reply → Response
  | .failed => resp
  | .garbled part => resp.merge part
  | .ok fields => resp.merge fields

def grantingStep (x : Bool × Response) : (Σ _ : Request, Reply) → Bool × Response
  | ⟨.leaseGrant _, r⟩ => (true, (if x.1 then x.2 else {}).absorb r)
  | ⟨_, _⟩ => (false, x.2)

/-- Whether the calls end within a `LeaseGrant`, and what the last `LeaseGrant` has
brought. -/
def granting (tr : CallTrace) : Bool × Response := tr.foldl grantingStep (false, {})

/-- The id that the last `LeaseGrant` has brought, `0` if it brought none. -/
def grantedId (tr : CallTrace) : Int64 := (granting tr).2.id

theorem granting_append (tr tr₁ : CallTrace) :
    granting (tr ++ tr₁) = tr₁.foldl grantingStep (granting tr) := List.foldl_append

/-- The attempts of one `LeaseGrant`, the first of which begins with an empty response. -/
theorem foldl_grants {ttl : Int} : ∀ {tr : CallTrace} (x : Bool × Response), tr ≠ [] →
    (∀ e ∈ tr, e.1 = .leaseGrant ttl) → tr.foldl grantingStep x
      = (true, tr.foldl (fun resp e => resp.absorb e.2) (if x.1 then x.2 else {})) := by
  intro tr
  induction tr with
  | nil => intro x hne _; exact absurd rfl hne
  | cons e r ih =>
    intro x _ hall
    obtain ⟨req, rep⟩ := e
    obtain rfl : req = .leaseGrant ttl := hall _ List.mem_cons_self
    cases r with
    | nil => rfl
    | cons e' r' =>
      have hrest := ih (grantingStep x ⟨.leaseGrant ttl, rep⟩) (List.cons_ne_nil _ _)
        fun e he => hall e (List.mem_cons_of_mem _ he)
      rw [List.foldl_cons, hrest]
      rfl

theorem foldl_others : ∀ {tr : CallTrace} (x : Bool × Response),
    (∀ e ∈ tr, ∀ ttl, e.1 ≠ .leaseGrant ttl) →
      (tr.foldl grantingStep x).2 = x.2 ∧ ((tr ≠ [] ∨ x.1 = false) → (tr.foldl grantingStep x).1 = false) := by
  intro tr
  induction tr with
  | nil =>
    intro x _
    exact ⟨rfl, fun h => h.resolve_left fun hne => hne rfl⟩
  | cons e r ih =>
    intro x hall
    have hstep : grantingStep x e = (false, x.2) := by
      obtain ⟨req, rep⟩ := e
      cases req with
      | leaseGrant ttl => exact absurd rfl (hall _ List.mem_cons_self ttl)
      | put k v l => rfl
      | leaseKeepAlive id => rfl
    rw [List.foldl_cons, hstep]
    obtain ⟨hresp, hout⟩ := ih (false, x.2) fun e he => hall e (List.mem_cons_of_mem _ he)
    exact ⟨hresp, fun _ => hout (Or.inr rfl)⟩

/-- The key is leased, and no late `Put` of it is without a lease. -/
structure KeyOk (key : String) (s : Etcd) : Prop where
  leased : s.store.Leased key
  late : ∀ value, Request.put key value 0 ∉ s.late

/-- A `Put` carries the id that the last `LeaseGrant` has brought; one of the key without
an id is lost. -/
def leaseProtocol (key : String) : Protocol etcd KeepAliveArgs where
  inv := KeyOk key
  rely _ _ _ := True
  allow _ _ tr _ req outcome := ∀ value lease, req = .put key value lease → grantedId tr = 0 →
    outcome = Outcome.lost
  pre _ _ tr _ req := ∀ k value lease, req = .put k value lease → lease = grantedId tr
  rely_refl _ _ _ := trivial
  rely_trans _ _ _ _ _ _ := trivial

variable {key : String} {ka : KeepAliveArgs} {t : Nat}

theorem leased_arrive {s : LeaseStore String String Int64} {newId ttl : Int64} {req : Request}
    (h : s.Leased key) (hput : ∀ value, req ≠ .put key value 0) :
    (arrive s newId ttl req).Leased key := by
  unfold arrive
  cases hserve : serve s newId ttl req with
  | none => exact h
  | some x =>
    show x.2.Leased key
    cases req with
    | leaseGrant ttl' =>
      obtain ⟨s', hs', rfl⟩ := Option.map_eq_some_iff.mp hserve
      exact LeaseStore.leased_grant h hs'
    | put k value lease =>
      obtain ⟨s', hs', rfl⟩ := Option.map_eq_some_iff.mp hserve
      refine LeaseStore.leased_put h ?_ hs'
      rintro rfl rfl
      exact hput value rfl
    | leaseKeepAlive id =>
      cases hserve
      exact h

/-- A call keeps the key leased unless it is a `Put` without a lease that is not lost. -/
theorem keyOk_exec {s : Etcd} {req : Request} {outcome : Outcome} (h : KeyOk key s)
    (hput : ∀ value, req = .put key value 0 → outcome = .lost) :
    KeyOk key (etcd.exec t s req outcome).2 := by
  cases outcome with
  | lost => exact h
  | late =>
    refine ⟨h.leased, fun value hmem => ?_⟩
    rcases List.mem_append.mp hmem with hmem | hmem
    · exact h.late value hmem
    · have hlost := hput value (List.mem_singleton.mp hmem).symm
      cases hlost
  | arrived newId ttl back =>
    refine ⟨leased_arrive h.leased fun value hreq => ?_, h.late⟩
    have hlost := hput value hreq
    cases hlost

theorem keyOk_moves {s s' : Etcd} (h : KeyOk key s) (hm : Moves key s s') : KeyOk key s' := by
  cases hm with
  | expire i => exact ⟨LeaseStore.leased_expire h.leased i, h.late⟩
  | arrive n req newId ttl hreq =>
    refine ⟨leased_arrive h.leased fun value heq => ?_, fun value hmem => ?_⟩
    · rw [heq] at hreq
      exact h.late value (List.mem_of_getElem? hreq)
    · exact h.late value (List.mem_of_mem_eraseIdx hmem)
  | lose n => exact ⟨h.leased, fun value hmem => h.late value (List.mem_of_mem_eraseIdx hmem)⟩
  | others store hkv hlive => exact ⟨h.leased.mono hkv hlive, h.late⟩

theorem fair_exec {tr : CallTrace} {s : Etcd} {req : Request}
    {outcome : Outcome} (h : KeyOk key s) (hpre : (leaseProtocol key).pre t ka tr s req)
    (hallow : (leaseProtocol key).allow t ka tr s req outcome) :
    (leaseProtocol key).Fair t s (etcd.exec t s req outcome).2 := by
  refine ⟨keyOk_exec h fun value hreq => ?_, fun _ _ => trivial⟩
  exact hallow value 0 hreq (hpre key value 0 hreq).symm

/-! ### The thread -/

/-- `EtcdOp` makes calls of one request, and the response has what they brought. -/
theorem etcdOp_yields (req : Request) : ∀ (n : Nat) (resp : Response),
    (etcdOp req n resp).Yields fun tr a => (∀ e ∈ tr, e.1 = req) ∧ (n ≠ 0 → tr ≠ []) ∧
      a.2 = tr.foldl (fun resp e => resp.absorb e.2) resp := by
  intro n
  induction n with
  | zero =>
    intro resp
    exact ⟨fun e he => (nomatch he), fun h => absurd rfl h, rfl⟩
  | succ n ih =>
    intro resp
    refine Program.yields_perform fun r => ?_
    -- the first call, and what holds of the calls after it
    have hcons : ∀ {tr : CallTrace} {a : Bool × Response} {resp' : Response},
        resp' = resp.absorb r → (∀ e ∈ tr, e.1 = req) →
        a.2 = tr.foldl (fun resp e => resp.absorb e.2) resp' →
        (∀ e ∈ (⟨req, r⟩ :: tr : CallTrace), e.1 = req) ∧
          (n + 1 ≠ 0 → (⟨req, r⟩ :: tr : CallTrace) ≠ []) ∧
          a.2 = (⟨req, r⟩ :: tr : CallTrace).foldl (fun resp e => resp.absorb e.2) resp := by
      intro tr a resp' hresp hall ha
      refine ⟨fun e he => ?_, fun _ => List.cons_ne_nil _ _, ?_⟩
      · rcases List.mem_cons.mp he with rfl | he
        · rfl
        · exact hall e he
      · rw [List.foldl_cons, ← hresp]
        exact ha
    cases r with
    | failed => exact (ih resp).mono fun tr a h => hcons rfl h.1 h.2.2
    | garbled part => exact (ih (resp.merge part)).mono fun tr a h => hcons rfl h.1 h.2.2
    | ok fields => exact hcons rfl (fun e he => (nomatch he)) rfl

theorem etcdOp_uses (req : Request) : ∀ (n : Nat) (resp : Response),
    (etcdOp req n resp).Uses fun o => o = req := by
  intro n
  induction n with
  | zero => intro resp; trivial
  | succ n ih =>
    intro resp
    refine Program.uses_call rfl fun r => ?_
    cases r with
    | failed => exact ih resp
    | garbled part => exact ih (resp.merge part)
    | ok fields => trivial

/-- An `EtcdOp` that is no `Put`, or one with the lease that the last `LeaseGrant` brought. -/
theorem safe_etcdOp {req : Request} {n : Nat} {resp : Response} {tr : CallTrace} {s : Etcd}
    (hput : ∀ k value lease, req = .put k value lease → lease = grantedId tr) :
    Safe (leaseProtocol key) t ka (fun a tr' _ => ∃ tr₁, tr' = tr ++ tr₁ ∧
      (∀ e ∈ tr₁, e.1 = req) ∧ (n ≠ 0 → tr₁ ≠ []) ∧
        a.2 = tr₁.foldl (fun resp e => resp.absorb e.2) resp) (etcdOp req n resp) tr s := by
  -- the calls of the operation do not change what its `Put` has to carry
  have hsafe : Safe (leaseProtocol key) t ka
      (fun _ tr' _ => ∀ k value lease, req = .put k value lease → lease = grantedId tr')
      (etcdOp req n resp) tr s := by
    refine safe_of_uses (K := fun tr' _ => ∀ k value lease, req = .put k value lease →
      lease = grantedId tr') (fun _ _ _ h _ _ => h) ?_ (etcdOp_uses req n resp) hput
    rintro tr' s' o rfl hK hs'
    refine ⟨hK, fun c hc => ⟨fair_exec hs' hK hc, fun k value lease hreq => ?_⟩⟩
    subst hreq
    rw [grantedId, granting_append]
    exact hK k value lease rfl
  exact (safe_yields hsafe (etcdOp_yields req n resp)).mono fun _ _ _ _ h => h.2

/-- The calls do not end within a `LeaseGrant`. -/
def Between (tr : CallTrace) : Prop := (granting tr).1 = false

/-- **The lease of a `Put` is the one that the last `LeaseGrant` has brought.** -/
theorem put_granted {tr : CallTrace} {s : Etcd} (htr : Between tr) :
    Safe (leaseProtocol key) t ka (fun _ tr' _ => Between tr') (registerFunc ka) tr s := by
  unfold registerFunc
  by_cases hkey : ka.key = ""
  · rw [if_pos hkey]
    exact safe_ret fun _ _ _ => htr
  · rw [if_neg hkey]
    cases hn : ka.chanSize with
    | zero => exact safe_ret fun _ _ _ => htr
    | succ n =>
      refine safe_seq ((safe_etcdOp fun k value lease hreq => by cases hreq).mono ?_)
      rintro ⟨ok, grantResp⟩ tr' s' - ⟨tr₁, rfl, hall, hne, hresp⟩
      -- the response began empty, and so did what `granting` keeps
      have hgrant : granting (tr ++ tr₁) = (true, grantResp) := by
        rw [granting_append, foldl_grants _ (hne (Nat.succ_ne_zero n)) hall, htr]
        exact congrArg (Prod.mk true) hresp.symm
      refine safe_seq ((safe_etcdOp fun k value lease hreq => ?_).mono ?_)
      · cases hreq
        rw [grantedId, hgrant]
      · rintro a tr' s' - ⟨tr₂, rfl, hall₂, hne₂, -⟩
        refine safe_ret fun _ _ _ => ?_
        unfold Between
        rw [granting_append]
        refine (foldl_others _ fun e he ttl hgr => ?_).2 (Or.inl (hne₂ (Nat.succ_ne_zero n)))
        rw [hall₂ e he] at hgr
        cases hgr

theorem safe_keepAliveLoop : ∀ (n : Nat) (grantId : Int64) (tr : CallTrace) (s : Etcd), Between tr →
    Safe (leaseProtocol key) t ka (fun _ tr' _ => Between tr') (keepAliveLoop ka n grantId) tr s := by
  intro n
  induction n with
  | zero =>
    intro grantId tr s htr
    exact safe_ret fun _ _ _ => htr
  | succ n ih =>
    intro grantId tr s htr
    refine safe_seq ((safe_etcdOp fun k value lease hreq => by cases hreq).mono ?_)
    rintro ⟨ok, aliveResp⟩ tr' s' - ⟨tr₁, rfl, hall, -, -⟩
    have htr₁ : Between (tr ++ tr₁) := by
      unfold Between
      rw [granting_append]
      refine (foldl_others _ fun e he ttl hgr => ?_).2 (Or.inr htr)
      rw [hall e he] at hgr
      cases hgr
    by_cases hdead : ok = false ∨ aliveResp.ttl ≤ 0
    · simp only [if_pos hdead]
      refine safe_seq ((put_granted htr₁).mono ?_)
      intro grantId' tr' s'' _ htr'
      exact ih grantId' tr' s'' htr'
    · simp only [if_neg hdead]
      exact ih grantId _ s' htr₁

theorem safe_keepNodeAliveThreadFunc (s : Etcd) :
    Safe (leaseProtocol key) t ka (fun _ tr' _ => Between tr') (keepNodeAliveThreadFunc ka) [] s := by
  refine safe_seq ((put_granted (show Between [] from rfl)).mono ?_)
  intro grantId tr s' _ htr
  exact safe_keepAliveLoop _ grantId tr s' htr

/-! ### Membership keys are leased -/

/-- After a `LeaseGrant` that brought no id, no `Put` of the key reaches etcd; and etcd is
etcd. -/
def NoBarePut (key : String) (c : Config etcd KeepAliveArgs Unit) : Event etcd KeepAliveArgs → Prop
  | .spawn _ _ => True
  | .act t pick =>
    match c.threads t with
    | some ⟨_, tr, .call (.put k value lease) _⟩ =>
      k = key → grantedId tr = 0 → pick (.put k value lease) = Outcome.lost
    | _ => True
  | .env s => Moves key c.state s

theorem ok_of_noBarePut {c : Config etcd KeepAliveArgs Unit} {e : Event etcd KeepAliveArgs}
    (hc : KeyOk key c.state) (h : NoBarePut key c e) : (leaseProtocol key).Ok c e := by
  cases e with
  | spawn t i => trivial
  | act t pick =>
    rintro i tr o k ht value lease rfl hzero
    simp only [NoBarePut, ht] at h
    exact h trivial hzero
  | env s => exact ⟨keyOk_moves hc h, fun _ => trivial⟩

/-- **The key of a node is leased.**  In every run of threads that register nodes, with any
outcomes of their calls and threads that stop anywhere, in which no `Put` of the key
reaches etcd after a `LeaseGrant` that brought no id, the key is absent or attached to a
live lease, and it goes when that lease expires. -/
theorem node_key_leased (key : String) (s : Etcd) (hs : KeyOk key s)
    (c : Config etcd KeepAliveArgs Unit)
    (h : Reach (step keepNodeAliveThreadFunc) (NoBarePut key) (Config.init s) c) :
    (Etcd.store c.state).Leased key ∧
      ∀ value lease, (Etcd.store c.state).kv key = some (value, lease) →
        ((Etcd.store c.state).expire lease).kv key = none := by
  have hsafe : AllSafe (leaseProtocol key) (fun _ _ _ tr _ => Between tr) c := by
    refine h.invariant _ (allSafe_init hs) fun c e hc hok => ?_
    exact allSafe_step (fun t ka s _ => safe_keepNodeAliveThreadFunc s) c e hc
      (ok_of_noBarePut hc.1 hok)
  have hkey : KeyOk key c.state := hsafe.1
  exact ⟨hkey.leased, fun value lease hkv => LeaseStore.expire_kv hkv⟩

theorem keyOk_empty (key : String) : KeyOk key {} :=
  ⟨fun _ _ h => (nomatch h), fun _ h => (nomatch h)⟩

def noNodes : Config etcd KeepAliveArgs Unit := Config.init ({} : Etcd)

def routerArgs : KeepAliveArgs :=
  { chanSize := 1, key := "/nodes/router/:10.0.0.1:8081", val := "", intervalSec := 3, turns := 1 }

/-- The first attempt to renew the lease fails, and the node registers again. -/
def renewRun : List (Event etcd KeepAliveArgs) :=
  [.spawn 0 routerArgs, .act 0 fun _ => .arrived 7 9 .intact, .act 0 fun _ => .arrived 0 0 .intact,
    .act 0 fun _ => .lost, .act 0 fun _ => .arrived 8 9 .intact,
    .act 0 fun _ => .arrived 0 0 .intact]

theorem node_key_leased_renew :
    (Etcd.store (renewRun.foldl (step keepNodeAliveThreadFunc) noNodes).state).kv
        routerArgs.key = some ("", 8) ∧
      ((Etcd.store (renewRun.foldl (step keepNodeAliveThreadFunc) noNodes).state).expire
        8).kv routerArgs.key = none := by
  have hkv : (Etcd.store (renewRun.foldl (step keepNodeAliveThreadFunc) noNodes).state).kv
      routerArgs.key = some ("", 8) := by decide +kernel
  have hrun : RunOk (step keepNodeAliveThreadFunc) (NoBarePut routerArgs.key) noNodes
      renewRun := by
    refine ⟨trivial, trivial, ?_, trivial, trivial, ?_, trivial⟩
    · exact fun _ hzero => absurd hzero (by decide)
    · exact fun _ hzero => absurd hzero (by decide)
  exact ⟨hkv, (node_key_leased routerArgs.key {} (keyOk_empty _) _
    (reach_of_runOk renewRun _ Reach.start hrun)).2 "" 8 hkv⟩

/-- `LeaseGrant` fails and `Put` goes through. -/
def bareRun : List (Event etcd KeepAliveArgs) :=
  [.spawn 0 routerArgs, .act 0 fun _ => .lost, .act 0 fun _ => .arrived 0 0 .intact]

/-- The key is there without a lease, and no lease takes it along. -/
theorem node_key_not_leased :
    let c := bareRun.foldl (step keepNodeAliveThreadFunc) noNodes
    Reach (step keepNodeAliveThreadFunc) anyEvent noNodes c ∧
      (Etcd.store c.state).kv routerArgs.key = some ("", 0) ∧
      ∀ lease, lease ≠ 0 →
        ((Etcd.store c.state).expire lease).kv routerArgs.key = some ("", 0) := by
  intro c
  have hkv : (Etcd.store c.state).kv routerArgs.key = some ("", 0) := by decide +kernel
  refine ⟨reach_foldl _ _ _, hkv, fun lease hne => ?_⟩
  exact LeaseStore.expire_kv_of_ne hkv hne.symm

end SimSearch.Clients
