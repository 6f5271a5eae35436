import SimSearch.Common.Proto
import SimSearch.Lib.Program

/-!
# The client of a raft group

`RaftClient` of `raft_store/raft_client.cc`: two slots with a connection to a leader each, of
which `_idx` names the active one.  An attempt of `Write` that fails opens a new connection
in the other slot, and makes that one active only if it could be opened.

* `created_createRaftConnection`: what `CreateRaftConnection` leaves, for every outcome of the
  leader lookups and of `Build`.
* `reached_ok`: in every state that `Init` and any number of `Write` calls lead to, the active
  slot is connected exactly when some connection was ever opened.
* `wrote_writeFrom`: what the loop of `Write` returns.  An attempt that finds no connection
  leaves the error text as it is, so a call that never sends its request returns the empty
  text (`write_truthful_iff`).

braft's route table, the channels and the network are operations with any result, and `tr`
are the calls of a function with their results.
-/

namespace SimSearch.Raft

open SimSearch.Lib
open Program (Yields yields_seq yields_perform)

/-! ### Calls -/

inductive ClientOp
  | isAskedToQuit
  | updateConfiguration (group conf : String)
  | selectLeader (group : String)
  | refreshLeader (group : String)
  | updateLeader (group leader : String)
  /-- `RaftOptions::Build`. -/
  | build (leader : String)
  /-- The RPC `write` to a leader. -/
  | rpc (leader : String) (req : BlockRequest) (data : Bytes)

/-- Whether a call of the route table or of the channel succeeded; the leader that was
selected; the error text of the RPC or its response. -/
abbrev ClientRes : ClientOp → Type
  | .isAskedToQuit => Bool
  | .updateConfiguration _ _ => Bool
  | .selectLeader _ => Option String
  | .refreshLeader _ => Bool
  | .updateLeader _ _ => Unit
  | .build _ => Bool
  | .rpc _ _ _ => Except String BlockResponse

abbrev Client := Program ClientOp ClientRes

abbrev ClientTrace := Trace ClientOp ClientRes

abbrev perform (o : ClientOp) : Client (ClientRes o) := Program.perform o

/-! ### The two slots -/

/-- The text of a `braft::PeerId` that is not set. -/
def emptyPeer : String := "0.0.0.0:0:0"

structure RaftOptions where
  group : String := ""
  conf : String := ""
  leader : String := emptyPeer
  ok : Bool := false
  deriving DecidableEq, Repr

/-- `RaftClient` after `_raft_options.resize(2)`. -/
structure RaftClient where
  raftOptions : Fin 2 → RaftOptions := fun _ => {}
  idx : Fin 2 := 0

namespace RaftClient

/-- `_raft_options[_idx]`. -/
def active (c : RaftClient) : RaftOptions := c.raftOptions c.idx

def setOptions (c : RaftClient) (i : Fin 2) (opt : RaftOptions) : RaftClient :=
  { c with raftOptions := Function.update c.raftOptions i opt }

@[simp] theorem setOptions_self (c : RaftClient) (i : Fin 2) (opt : RaftOptions) :
    (c.setOptions i opt).raftOptions i = opt := by
  simp [setOptions]

theorem setOptions_of_ne (c : RaftClient) {i k : Fin 2} (h : k ≠ i) (opt : RaftOptions) :
    (c.setOptions i opt).raftOptions k = c.raftOptions k := by
  simp [setOptions, h]

/-- `GetLeader`, with the tries that are left; `leader` is what the variable holds. -/
def getLeader (group conf : String) : Nat → String → Client (String × String)
  | 0, leader =>
    pure ("Fail to select leader of group:[" ++ group ++ "] conf:[" ++ conf ++ "]", leader)
  | retries + 1, leader => do
    match ← perform (.selectLeader group) with
    | some selected => pure ("", selected)
    | none =>
      let _ ← perform (.refreshLeader group)
      getLeader group conf retries leader

def createRaftConnection (c : RaftClient) (group conf : String) (newIdx : Fin 2) :
    Client (String × RaftClient) := do
  let raftOpt := { c.raftOptions newIdx with ok := false, group := group, conf := conf }
  let quit ← perform .isAskedToQuit
  if quit then
    pure ("Brpc IsAskedToQuit, not update raft connection.", c.setOptions newIdx raftOpt)
  else
    let (msg, leader) ← getLeader group conf 3 raftOpt.leader
    let raftOpt := { raftOpt with leader := leader }
    if msg ≠ "" then pure (msg, c.setOptions newIdx raftOpt)
    else
      let built ← perform (.build leader)
      if built then
        pure ("", { c.setOptions newIdx { raftOpt with ok := true } with idx := newIdx })
      else pure ("Fail to connet brpc, leader:" ++ leader, c.setOptions newIdx raftOpt)

def initFrom (group conf : String) : List (Fin 2) → RaftClient → Client (String × RaftClient)
  | [], c => pure ("", c)
  | i :: is, c => do
    let (msg, c) ← c.createRaftConnection group conf i
    if msg ≠ "" then pure ("Fail to get leader", c) else initFrom group conf is c

def init (group conf : String) : Client (String × RaftClient) := do
  let updated ← perform (.updateConfiguration group conf)
  if updated then initFrom group conf [0, 1] {}
  else pure ("group:" ++ group ++ "update_configuratione error", {})

/-- The loop of `Write` with the attempts that are left; `msg` and `resp` are what the
variables hold. -/
def writeFrom (req : BlockRequest) (data : Bytes) :
    Nat → String → BlockResponse → RaftClient → Client (String × BlockResponse × RaftClient)
  | 0, msg, resp, c => pure (msg, resp, c)
  | n + 1, msg, _, c => do
    let raftOpt := c.active
    let reconnect := c.createRaftConnection raftOpt.group raftOpt.conf (c.idx + 1)
    if raftOpt.ok = false then
      -- the response was cleared, and `msg` stays
      let (_, c) ← reconnect
      writeFrom req data n msg {} c
    else
      match ← perform (.rpc raftOpt.leader req data) with
      | .error errorText =>
        let _ ← perform (.updateLeader raftOpt.group emptyPeer)
        let (_, c) ← reconnect
        writeFrom req data n
          ("Fail to send request to " ++ raftOpt.leader ++ " : " ++ errorText) {} c
      | .ok resp =>
        if resp.success.getD false = false then
          let _ ← perform (.updateLeader raftOpt.group resp.redirect)
          let (_, c) ← reconnect
          writeFrom req data n ("Fail to send request to " ++ raftOpt.leader
            ++ ", redirecting to " ++ (if resp.redirect ≠ "" then resp.redirect else "nowhere"))
            resp c
        else pure ("", resp, c)

/-- `Write`: the error text and the response that it leaves. -/
def write (c : RaftClient) (req : BlockRequest) (data : Bytes) :
    Client (String × BlockResponse × RaftClient) := writeFrom req data 3 "" {} c

end RaftClient

/-! ### What a trace shows -/

def rpcOf : (Σ o : ClientOp, ClientRes o) → Option (Except String BlockResponse)
  | ⟨.rpc _ _ _, r⟩ => some r
  | _ => none

def rpcs (tr : ClientTrace) : List (Except String BlockResponse) := tr.filterMap rpcOf

def responses (tr : ClientTrace) : List BlockResponse := (rpcs tr).filterMap Except.toOption

def Answered (tr : ClientTrace) : Prop :=
  ∃ resp, .ok resp ∈ rpcs tr ∧ resp.success.getD false = true

def builds : (Σ o : ClientOp, ClientRes o) → Bool
  | ⟨.build _, b⟩ => b
  | _ => false

def connected (tr : ClientTrace) : Bool := tr.any builds

@[simp] theorem rpcs_append (tr tr' : ClientTrace) : rpcs (tr ++ tr') = rpcs tr ++ rpcs tr' :=
  List.filterMap_append

@[simp] theorem connected_append (tr tr' : ClientTrace) :
    connected (tr ++ tr') = (connected tr || connected tr') := List.any_append

/-! ### `CreateRaftConnection` -/

/-- Looking for a leader opens no connection and sends no request. -/
theorem silent_getLeader (group conf : String) :
    ∀ (retries : Nat) (leader : String), (RaftClient.getLeader group conf retries leader).Yields
      fun tr _ => rpcs tr = [] ∧ connected tr = false := by
  intro retries
  induction retries with
  | zero => intro leader; exact ⟨rfl, rfl⟩
  | succ retries ih =>
    intro leader
    refine yields_perform fun selected => ?_
    cases selected with
    | some leader' => exact ⟨rfl, rfl⟩
    | none => exact yields_perform fun _ => ih leader

/-- What `CreateRaftConnection` leaves: the slot `i` is connected and active, or it is neither;
the other slot is as it was. -/
structure Created (c : RaftClient) (i : Fin 2) (tr : ClientTrace) (r : String × RaftClient) :
    Prop where
  rpcs : rpcs tr = []
  msg : r.1 = "" ↔ connected tr = true
  idx : r.2.idx = if connected tr then i else c.idx
  slot : (r.2.raftOptions i).ok = connected tr
  other : ∀ k, k ≠ i → r.2.raftOptions k = c.raftOptions k

theorem created_setOptions {c : RaftClient} {i : Fin 2} {tr : ClientTrace} {msg : String}
    {opt : RaftOptions} (hrpcs : rpcs tr = []) (hconn : connected tr = false) (hmsg : msg ≠ "")
    (hopt : opt.ok = false) : Created c i tr (msg, c.setOptions i opt) where
  rpcs := hrpcs
  msg := by rw [hconn]; exact iff_of_false hmsg Bool.false_ne_true
  idx := by rw [hconn]; rfl
  slot := by rw [hconn, RaftClient.setOptions_self, hopt]
  other := fun _ hk => RaftClient.setOptions_of_ne c hk opt

theorem created_createRaftConnection (c : RaftClient) (group conf : String) (i : Fin 2) :
    (c.createRaftConnection group conf i).Yields (Created c i) := by
  refine yields_perform fun quit => ?_
  cases quit with
  | true => exact created_setOptions rfl rfl (by decide) rfl
  | false =>
    refine yields_seq ((silent_getLeader group conf 3 _).mono ?_)
    rintro tr ⟨msg, leader⟩ ⟨hrpcs, hconn⟩
    by_cases hmsg : msg = ""
    · simp only [ne_eq, hmsg, not_true_eq_false, if_false]
      refine yields_perform fun built => ?_
      have hrpcs' : rpcs (⟨.isAskedToQuit, false⟩ :: (tr ++ [⟨.build leader, built⟩])) = [] := by
        show rpcs (tr ++ [⟨.build leader, built⟩]) = []
        rw [rpcs_append, hrpcs]
        rfl
      have hconn' : connected (⟨.isAskedToQuit, false⟩ :: (tr ++ [⟨.build leader, built⟩]))
          = built := by
        show connected (tr ++ [⟨.build leader, built⟩]) = built
        rw [connected_append, hconn]
        exact Bool.or_false _
      cases built with
      | true =>
        refine ⟨hrpcs', ?_, ?_, ?_, fun k hk => RaftClient.setOptions_of_ne c hk _⟩
        · rw [hconn']
          exact iff_of_true rfl rfl
        · rw [hconn']
          rfl
        · rw [hconn']
          simp
      | false =>
        exact created_setOptions hrpcs' hconn' (by simp) rfl
    · simp only [ne_eq, hmsg, not_false_eq_true, if_true]
      refine created_setOptions ?_ ?_ hmsg rfl
      · show rpcs (tr ++ []) = []
        rw [List.append_nil, hrpcs]
      · show connected (tr ++ []) = false
        rw [List.append_nil, hconn]

theorem next_ne : ∀ i : Fin 2, i ≠ i + 1 := by decide

/-- **A connected slot is given up only for a connected one.** -/
theorem Created.active_ok {c : RaftClient} {tr : ClientTrace} {r : String × RaftClient}
    (h : Created c (c.idx + 1) tr r) : r.2.active.ok = (c.active.ok || connected tr) := by
  unfold RaftClient.active
  rw [h.idx]
  cases hconn : connected tr with
  | true => rw [if_pos rfl, h.slot, hconn, Bool.or_true]
  | false => rw [if_neg Bool.false_ne_true, h.other _ (next_ne c.idx), Bool.or_false]

/-! ### `Write` -/

/-- What the loop of `Write` leaves when `msg` was the error text before it: either an attempt
was answered with `success`, and this was the last response; or none was, and the error text is
set if there was an attempt. -/
structure Wrote (n : Nat) (msg : String) (c : RaftClient) (tr : ClientTrace)
    (r : String × BlockResponse × RaftClient) : Prop where
  ok : r.2.2.active.ok = (c.active.ok || connected tr)
  answered : Answered tr → r.1 = "" ∧ (responses tr).getLast? = some r.2.1 ∧
    r.2.1.success.getD false = true
  refused : ¬ Answered tr → rpcs tr ≠ [] → r.1 ≠ ""
  unsent : rpcs tr = [] → r.1 = msg
  sends : c.active.ok = true → n ≠ 0 → rpcs tr ≠ []
  resp : ¬ Answered tr → r.2.1.success.getD false = false

theorem Wrote.after {n : Nat} {msg msg' : String} {c c' : RaftClient} {tr : ClientTrace}
    {r : String × BlockResponse × RaftClient} (h : Wrote n msg' c' tr r) (pre : ClientTrace)
    (hok : c'.active.ok = (c.active.ok || connected pre))
    (hfail : ∀ resp, .ok resp ∈ rpcs pre → resp.success.getD false = false)
    (hkeep : rpcs pre = [] → msg' = msg ∧ c.active.ok = false)
    (hset : rpcs pre ≠ [] → msg' ≠ "") : Wrote (n + 1) msg c (pre ++ tr) r := by
  have hans : Answered (pre ++ tr) ↔ Answered tr := by
    unfold Answered
    constructor
    · rintro ⟨resp, hmem, hsucc⟩
      rw [rpcs_append, List.mem_append] at hmem
      rcases hmem with hmem | hmem
      · rw [hfail resp hmem] at hsucc
        cases hsucc
      · exact ⟨resp, hmem, hsucc⟩
    · rintro ⟨resp, hmem, hsucc⟩
      rw [rpcs_append]
      exact ⟨resp, List.mem_append_right _ hmem, hsucc⟩
  refine ⟨?_, ?_, ?_, ?_, ?_, ?_⟩
  · rw [h.ok, hok, connected_append, Bool.or_assoc]
  · intro ha
    obtain ⟨hmsg, hlast, hsucc⟩ := h.answered (hans.mp ha)
    refine ⟨hmsg, ?_, hsucc⟩
    unfold responses at hlast ⊢
    rw [rpcs_append, List.filterMap_append, List.getLast?_append, hlast]
    rfl
  · intro ha hsent
    by_cases htail : rpcs tr = []
    · rw [h.unsent htail]
      refine hset fun hpre => hsent ?_
      rw [rpcs_append, hpre, htail, List.append_nil]
    · exact h.refused (fun hx => ha (hans.mpr hx)) htail
  · intro hnone
    rw [rpcs_append, List.append_eq_nil_iff] at hnone
    rw [h.unsent hnone.2, (hkeep hnone.1).1]
  · intro hact _ hnone
    rw [rpcs_append, List.append_eq_nil_iff] at hnone
    rw [(hkeep hnone.1).2] at hact
    cases hact
  · intro ha
    exact h.resp fun hx => ha (hans.mpr hx)

/-- A turn whose RPC failed or was refused, with the reconnect at its end. -/
theorem Wrote.after_rpc {n : Nat} {msg msg' group leader leader' : String} {req : BlockRequest}
    {data : Bytes} {outcome : Except String BlockResponse} {c : RaftClient}
    {tr tr' : ClientTrace} {x : String × RaftClient} {r : String × BlockResponse × RaftClient}
    (h : Wrote n msg' x.2 tr' r) (hx : Created c (c.idx + 1) tr x)
    (hfail : ∀ resp, outcome = .ok resp → resp.success.getD false = false) (hset : msg' ≠ "") :
    Wrote (n + 1) msg c (⟨.rpc leader req data, outcome⟩ :: ⟨.updateLeader group leader', ()⟩
      :: (tr ++ tr')) r := by
  have hrpcs : rpcs (⟨.rpc leader req data, outcome⟩ :: ⟨.updateLeader group leader', ()⟩ :: tr)
      = [outcome] := by
    show outcome :: rpcs tr = [outcome]
    rw [hx.rpcs]
  refine h.after (⟨.rpc leader req data, outcome⟩ :: ⟨.updateLeader group leader', ()⟩ :: tr)
    hx.active_ok ?_ ?_ fun _ => hset
  · intro resp hmem
    rw [hrpcs, List.mem_singleton] at hmem
    exact hfail resp hmem.symm
  · intro hnil
    rw [hrpcs] at hnil
    cases hnil

theorem wrote_writeFrom (req : BlockRequest) (data : Bytes) :
    ∀ (n : Nat) (msg : String) (resp : BlockResponse) (c : RaftClient),
      resp.success.getD false = false →
      (RaftClient.writeFrom req data n msg resp c).Yields (Wrote n msg c) := by
  intro n
  induction n with
  | zero =>
    intro msg resp c hresp
    have hnone : ¬ Answered [] := fun ⟨_, hmem, _⟩ => (List.not_mem_nil hmem)
    exact ⟨(Bool.or_false _).symm, fun h => absurd h hnone, fun _ h => absurd rfl h, fun _ => rfl,
      fun _ h => absurd rfl h, fun _ => hresp⟩
  | succ n ih =>
    intro msg resp c hresp
    have hcreate := created_createRaftConnection c c.active.group c.active.conf (c.idx + 1)
    by_cases hact : c.active.ok = false
    · -- no connection: nothing is sent, and `msg` stays
      simp only [RaftClient.writeFrom, hact, if_true]
      refine yields_seq (hcreate.mono fun tr x hx => (ih msg {} x.2 rfl).mono fun tr' r h => ?_)
      refine h.after tr hx.active_ok ?_ (fun _ => ⟨rfl, hact⟩) fun hne => absurd hx.rpcs hne
      intro resp' hmem
      rw [hx.rpcs] at hmem
      cases hmem
    · simp only [RaftClient.writeFrom, hact]
      refine yields_perform fun outcome => ?_
      cases outcome with
      | error errorText =>
        refine yields_perform fun _ => yields_seq (hcreate.mono fun tr x hx =>
          (ih _ {} x.2 rfl).mono fun tr' r h => ?_)
        exact h.after_rpc hx (fun _ h => (nomatch h)) (by simp)
      | ok resp =>
        by_cases hsucc : resp.success.getD false = false
        · simp only [hsucc, if_true]
          refine yields_perform fun _ => yields_seq (hcreate.mono fun tr x hx =>
            (ih _ resp x.2 hsucc).mono fun tr' r h => ?_)
          refine h.after_rpc hx (fun resp' heq => ?_) (by simp)
          cases heq
          exact hsucc
        · simp only [hsucc]
          have htrue : resp.success.getD false = true := by
            simpa using hsucc
          have hans : Answered [⟨.rpc c.active.leader req data, .ok resp⟩] :=
            ⟨resp, List.mem_singleton.mpr rfl, htrue⟩
          exact ⟨(Bool.or_false _).symm, fun _ => ⟨rfl, rfl, htrue⟩, fun h => absurd hans h,
            fun h => (nomatch h), fun _ _ h => (nomatch h), fun h => absurd hans h⟩

/-! ### Every run of the client -/

/-- The states that `Init`, successful or not, and any number of `Write` calls lead to, with
the calls on the way. -/
inductive Reached (group conf : String) : ClientTrace → RaftClient → Prop
  | init {tr : ClientTrace} {msg : String} {c : RaftClient}
      (h : (RaftClient.init group conf).Traces tr (msg, c)) : Reached group conf tr c
  | write {hist tr : ClientTrace} {req : BlockRequest} {data : Bytes} {msg : String}
      {resp : BlockResponse} {c c' : RaftClient} (hc : Reached group conf hist c)
      (h : (c.write req data).Traces tr (msg, resp, c')) : Reached group conf (hist ++ tr) c'

theorem active_init (group conf : String) :
    (RaftClient.init group conf).Yields fun tr r => r.2.active.ok = connected tr := by
  refine yields_perform fun updated => ?_
  cases updated with
  | false => rfl
  | true =>
    refine yields_seq ((created_createRaftConnection {} group conf 0).mono fun tr x hx => ?_)
    have hfirst : x.2.idx = 0 := by
      rw [hx.idx, ite_self]
    have hok : x.2.active.ok = connected tr := by
      unfold RaftClient.active
      rw [hfirst, hx.slot]
    by_cases hmsg : x.1 = ""
    · -- the second slot takes over if its connection is opened, too
      simp only [hmsg, ne_eq, not_true_eq_false, if_false]
      have hsecond := created_createRaftConnection x.2 group conf (x.2.idx + 1)
      rw [hfirst] at hsecond
      refine yields_seq (hsecond.mono fun tr' y hy => ?_)
      have hact : y.2.active.ok = connected (tr ++ (tr' ++ [])) := by
        rw [Created.active_ok (hfirst.symm ▸ hy), hok, List.append_nil, connected_append]
      by_cases hmsg' : y.1 = ""
      · simp only [hmsg', ne_eq, not_true_eq_false, if_false]
        exact hact
      · simp only [hmsg', ne_eq, not_false_eq_true, if_true]
        exact hact
    · simp only [hmsg, ne_eq, not_false_eq_true, if_true]
      show x.2.active.ok = connected (tr ++ [])
      rw [List.append_nil, hok]

/-- **The active slot is connected exactly when a connection was ever opened.** -/
theorem reached_ok {group conf : String} {hist : ClientTrace} {c : RaftClient}
    (h : Reached group conf hist c) : c.active.ok = connected hist := by
  induction h with
  | init h => exact h.yields (active_init group conf)
  | write _ h ih =>
    rw [connected_append, ← ih]
    exact (h.yields (wrote_writeFrom _ _ 3 "" {} _ rfl)).ok

/-- **When the text that `Write` returns is right**: in every state that can be reached and
for all outcomes, the text is empty exactly for a write that was answered with `success`, if
and only if some attempt was sent at all.  That is so once a connection was opened before. -/
theorem write_truthful_iff (group conf : String) (hist : ClientTrace) (c : RaftClient)
    (hc : Reached group conf hist c) (req : BlockRequest) (data : Bytes) :
    (c.write req data).Yields fun tr r =>
      ((r.1 = "" ↔ Answered tr) ↔ rpcs tr ≠ []) ∧ (connected hist = true → rpcs tr ≠ []) := by
  refine (wrote_writeFrom req data 3 "" {} c rfl).mono fun tr r h => ⟨⟨?_, ?_⟩, ?_⟩
  · intro htruth hnone
    obtain ⟨resp, hmem, -⟩ := htruth.mp (h.unsent hnone)
    rw [hnone] at hmem
    cases hmem
  · intro hsent
    refine ⟨fun hmsg => ?_, fun hans => (h.answered hans).1⟩
    by_contra hans
    exact h.refused hans hsent hmsg
  · intro hconn
    exact h.sends ((reached_ok hc).trans hconn) (by decide)

def allFail : (o : ClientOp) → ClientRes o
  | .isAskedToQuit => false
  | .updateConfiguration _ _ => false
  | .selectLeader _ => none
  | .refreshLeader _ => false
  | .updateLeader _ _ => ()
  | .build _ => false
  | .rpc _ _ _ => .error "connection refused"

def allRedirect : (o : ClientOp) → ClientRes o
  | .isAskedToQuit => false
  | .updateConfiguration _ _ => true
  | .selectLeader _ => some "10.0.0.1:8081:0"
  | .refreshLeader _ => true
  | .updateLeader _ _ => ()
  | .build _ => true
  | .rpc _ _ _ => .ok { success := some false, redirect := "10.0.0.2:8081:0" }

def initialised (ans : (o : ClientOp) → ClientRes o) : ClientTrace × String × RaftClient :=
  (RaftClient.init "g" "10.0.0.1:8081:0,").answered ans

theorem reached_initialised (ans : (o : ClientOp) → ClientRes o) :
    Reached "g" "10.0.0.1:8081:0," (initialised ans).1 (initialised ans).2.2 :=
  Reached.init (Program.traces_answered ans _)

/-- A write that is redirected three times: its text is not empty. -/
theorem write_truthful_redirected :
    connected (initialised allRedirect).1 = true ∧
      ((initialised allRedirect).2.2.write {} []).Yields fun tr r =>
        (r.1 = "" ↔ Answered tr) ↔ rpcs tr ≠ [] :=
  ⟨by decide, (write_truthful_iff "g" "10.0.0.1:8081:0," _ _ (reached_initialised allRedirect)
    {} []).mono fun _ _ h => h.1⟩

/-- `Init` fails, and no leader is found while writing: no request is sent, and `Write`
returns the empty text. -/
theorem write_unsent_empty :
    ∃ hist c tr resp c', Reached "g" "10.0.0.1:8081:0," hist c ∧
      (c.write {} []).Traces tr ("", resp, c') ∧ ¬ Answered tr := by
  refine ⟨_, _, _, _, _, reached_initialised allFail, Program.traces_answered allFail _, ?_⟩
  rintro ⟨resp, hmem, -⟩
  cases hmem

end SimSearch.Raft
