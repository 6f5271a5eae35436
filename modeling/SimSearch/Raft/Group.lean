import SimSearch.Raft.Acknowledged
import SimSearch.Lib.Replication

/-!
# A raft group under concurrent writes

The nodes of a group with these events in any order: `RaftRpcImpl::write` of
`service/ps/raft_rpc.cc` at any node, the callbacks of `Block`, snapshots that are loaded, and
`BlockClosure::Run`.  A process that ends, is started again or deletes its space is not among them.

braft is the environment.  It may commit a task that was handed to it at any later time and once,
also after it has told the writer that the write failed; it may run a closure that still waits with
an error at any time; it calls `on_apply` at every node with the committed entries in their order,
and it may let a node load a snapshot in the place of some of them.  Nothing else is assumed of it,
not even that only one node believes to lead.

* `group_one_history`: the store of a node that has loaded no snapshot is a stage of the log, so two
  such stores never diverge, whichever nodes took which writes and whatever the engines answer.
* `group_answers_once`: a write is either answered, and once, or its closure waits.
* `group_acknowledged`: a write that was answered with `success` stands at one place of the log,
  and every node that has come past it, and not by a snapshot, holds its document, or a later one
  with its key.
-/

namespace SimSearch.Raft

open SimSearch.Lib SimSearch.Lib.Replication

/-! ### The nodes and what braft holds of them -/

/-- What the nodes of a group share, and how the engine of each of them answers. -/
structure Setting where
  codec : RequestCodec
  space : Space
  parse : Bytes → Option Document
  keyOf : GammaDoc → String
  addCode : Nat → Std.TreeMap String GammaDoc → GammaDoc → Int

def Setting.env (G : Setting) (n : Nat) : Env where
  parse := G.parse
  addCode := G.addCode n
  keyOf := G.keyOf

/-- A task that `Block::write` has handed to `_node->apply`. -/
structure Task (codec : RequestCodec) where
  rpc : Nat
  node : Nat
  entry : Committed codec

/-- A `Block` that was started, with the leader that its node knows of, the engine that is
snapshotted with its files, and the number of entries up to which it has come. -/
structure Member where
  leaderTerm : Int := -1
  leaderId : Option String := none
  replica : Replica := {}
  engine : Engine := {}
  files : Files := ∅
  applied : Nat := 0
  /-- The stretches of the log that a snapshot stood for. -/
  skipped : List (Nat × Nat) := []

/-- The node has come past the place, and not by a snapshot. -/
def Member.Took (m : Member) (p : Nat) : Prop :=
  p < m.applied ∧ ∀ s ∈ m.skipped, ¬ (s.1 ≤ p ∧ p < s.2)

/-- A `BlockClosure` that has not run. -/
structure Waiting where
  rpc : Nat
  node : Nat
  deriving DecidableEq

/-- The group: the RPCs that came in, in their order, which gives them their numbers; the tasks
that are not committed and those that are; the closures; and the answers that were sent. -/
structure RaftGroup (G : Setting) where
  members : Nat → Option Member := fun _ => none
  sent : List (BlockRequest × Bytes) := []
  proposed : List (Task G.codec) := []
  log : List (Task G.codec) := []
  waiting : List Waiting := []
  answers : List (Nat × BlockResponse) := []

inductive RaftGroup.Event
  /-- A `Block` is created and started. -/
  | start (n : Nat)
  /-- The RPC `write`. -/
  | write (n : Nat) (req : BlockRequest) (data : Bytes)
  | onLeaderStart (n : Nat) (term : Int)
  | onLeaderStop (n : Nat)
  /-- The node of braft learns of a leader, or that there is none. -/
  | learn (n : Nat) (leader : Option String)
  /-- The `i`-th task is committed. -/
  | commit (i : Nat)
  /-- The `i`-th closure is run with an error. -/
  | fail (i : Nat)
  /-- `on_apply` gets the next entry. -/
  | apply (n : Nat)
  /-- `on_snapshot_load` gets a snapshot that stands for the first `pos` entries. -/
  | load (n pos : Nat) (snap : Files) (out : OpenOutcome)

variable {G : Setting}

theorem built_of_write {codec : RequestCodec} {term : Int} {leader : Option String}
    {req : BlockRequest} {data log : Bytes} (h : write codec term leader req data = .applied log) :
    writeEntry codec req data = some log := by
  unfold write at h
  split at h
  · cases h
  · split at h
    · cases h
    · rename_i hlog
      cases h
      exact hlog

/-- `Block::write`: the answer, or the entry of the task. -/
def Member.write (codec : RequestCodec) (m : Member) (req : BlockRequest) (data : Bytes) :
    BlockResponse ⊕ Committed codec :=
  match h : Raft.write codec m.leaderTerm m.leaderId req data with
  | .redirected resp => .inl resp
  | .failed resp => .inl resp
  | .applied log => .inr ⟨req, data, log, built_of_write h⟩

/-- `BlockClosure::Run`: with an error the response is turned into a redirect, and what else was
set stays. -/
def closureRun (ok : Bool) (leader : Option String) (resp : BlockResponse) : BlockResponse :=
  if ok then resp
  else { resp with success := some false, redirect := leader.getD resp.redirect }

/-- `Block::on_snapshot_load`.  After -1 braft gives the node up. -/
def Member.load (m : Member) (pos : Nat) (snap : Files) (out : OpenOutcome) : Member :=
  -- `CHECK(!is_leader())`
  if 0 < m.leaderTerm then { m with replica := { m.replica with status := .aborted } }
  else
    let (code, machine) := onSnapshotLoad snap out ⟨m.replica, m.engine, m.files⟩
    let m' := { m with replica := machine.node, engine := machine.engine, files := machine.files }
    if code ≠ 0 then { m' with replica := { m'.replica with status := .notLoaded } }
    else { m' with applied := pos, skipped := m.skipped ++ [(m.applied, pos)] }

namespace RaftGroup

def answer (g : RaftGroup G) (rpc : Nat) (resp : BlockResponse) : RaftGroup G :=
  { g with answers := g.answers ++ [(rpc, resp)] }

def setMember (g : RaftGroup G) (n : Nat) (m : Member) : RaftGroup G :=
  { g with members := Function.update g.members n (some m) }

@[simp] theorem setMember_self (g : RaftGroup G) (n : Nat) (m : Member) :
    (g.setMember n m).members n = some m := Function.update_self n _ _

theorem setMember_of_ne {g : RaftGroup G} {n k : Nat} {m : Member} (h : k ≠ n) :
    (g.setMember n m).members k = g.members k := Function.update_of_ne h _ _

/-- What `RaftRpcImpl::write` answers without a block. -/
def noBlock : BlockResponse :=
  { success := some false, msg := "不存在这个space, 或者space has error and not run" }

def onWrite (g : RaftGroup G) (n : Nat) (req : BlockRequest) (data : Bytes) : RaftGroup G :=
  let rpc := g.sent.length
  let g := { g with sent := g.sent ++ [(req, data)] }
  match g.members n with
  | none => g.answer rpc noBlock
  | some m =>
    match m.write G.codec req data with
    | .inl resp => g.answer rpc resp
    | .inr entry =>
      { g with waiting := g.waiting ++ [⟨rpc, n⟩], proposed := g.proposed ++ [⟨rpc, n, entry⟩] }

/-- What the node `n` sees of a task: its closure, if it has not run. -/
def seen (g : RaftGroup G) (n : Nat) (t : Task G.codec) : Seen G.codec :=
  ⟨t.entry, decide (⟨t.rpc, n⟩ ∈ g.waiting)⟩

/-- The `Block` after one turn of `on_apply`.  After `set_error_and_rollback` the entry does not
count as applied. -/
def appliedMember (g : RaftGroup G) (n : Nat) (m : Member) (t : Task G.codec) : Member :=
  let e := g.seen n t
  let replica := applyEntry G.codec (G.env n) G.space m.replica e.data? e.entry.log
  { m with
    replica := replica
    applied := if replica.status = .running then m.applied + 1 else m.applied }

/-- One turn of `on_apply` at the node `n`.  The closure is run by the guard, or by braft with the
error. -/
def onApplyAt (g : RaftGroup G) (n : Nat) (m : Member) (t : Task G.codec) : RaftGroup G :=
  let m' := g.appliedMember n m t
  match turnResponse (G.env n) G.space m.replica (g.seen n t) with
  | none => g.setMember n m'
  | some resp =>
    { g.setMember n m' with waiting := g.waiting.erase ⟨t.rpc, n⟩ }.answer t.rpc
      (closureRun (decide (m'.replica.status = Status.running)) m.leaderId resp)

def callback (g : RaftGroup G) (n : Nat) (change : Member → Member) : RaftGroup G :=
  match g.members n with
  | none => g
  | some m => g.setMember n (change m)

def step (g : RaftGroup G) : Event → RaftGroup G
  | .start n =>
    match g.members n with
    | none => g.setMember n {}
    | some _ => g
  | .write n req data => g.onWrite n req data
  | .onLeaderStart n term => g.callback n fun m => { m with leaderTerm := term }
  | .onLeaderStop n => g.callback n fun m => { m with leaderTerm := -1 }
  | .learn n leader => g.callback n fun m => { m with leaderId := leader }
  | .commit i =>
    match g.proposed[i]? with
    | none => g
    | some t => { g with proposed := g.proposed.eraseIdx i, log := g.log ++ [t] }
  | .fail i =>
    match g.waiting[i]? with
    | none => g
    | some w =>
      { g with waiting := g.waiting.eraseIdx i }.answer w.rpc
        (closureRun false ((g.members w.node).bind Member.leaderId) {})
  | .apply n =>
    match g.members n with
    | none => g
    | some m =>
      match g.log[m.applied]? with
      | none => g
      | some t => if m.replica.status ≠ .running then g else g.onApplyAt n m t
  | .load n pos snap out =>
    match g.members n with
    | none => g
    | some m =>
      -- a snapshot stands for committed entries, and one that is not ahead is not taken
      if m.replica.status = .running ∧ m.applied < pos ∧ pos ≤ g.log.length then
        g.setMember n (m.load pos snap out)
      else g

/-! ### A turn of `on_apply` -/

theorem applyData_success {env : Env} {space : Space} {s : Replica} {data : Bytes} :
    (applyData env space s data).2.success = some true ↔
      (applyData env space s data).1.status = .running := by
  unfold applyData
  cases env.parse data with
  | none => simp
  | some doc =>
    by_cases hcode : env.addCode s.store (pbDocToGammaDoc doc space {}).2 ≠ 0
    · simp only [if_pos hcode]
      simp
    · simp only [if_neg hcode]

/-- What a turn does to the closures: nothing without one, and otherwise it answers, with
`success` exactly if the node runs on. -/
inductive Settles (g : RaftGroup G) (n : Nat) (m : Member) (t : Task G.codec) : RaftGroup G → Prop
  | silent : Settles g n m t (g.setMember n (g.appliedMember n m t))
  | answers {resp : BlockResponse} (hw : (⟨t.rpc, n⟩ : Waiting) ∈ g.waiting)
      (hresp : resp.success = some true ↔ (g.appliedMember n m t).replica.status = .running) :
      Settles g n m t ({ g.setMember n (g.appliedMember n m t) with
        waiting := g.waiting.erase ⟨t.rpc, n⟩ }.answer t.rpc resp)

theorem turnResponse_running {env : Env} {space : Space} {s : Replica} {e : Seen G.codec}
    (hs : s.status = .running) : turnResponse env space s e
      = if e.closure then some (applyData env space s e.entry.data).2 else none := by
  rw [turnResponse, if_neg (not_not_intro hs)]

theorem onApplyAt_settles (g : RaftGroup G) {n : Nat} {m : Member} (t : Task G.codec)
    (hs : m.replica.status = .running) : Settles g n m t (g.onApplyAt n m t) := by
  unfold onApplyAt
  rw [turnResponse_running hs]
  by_cases hw : (⟨t.rpc, n⟩ : Waiting) ∈ g.waiting
  · have hseen : (g.seen n t).closure = true := decide_eq_true hw
    -- with the closure the attachment is at hand, so the turn ends in `applyData`
    have hreplica : (g.appliedMember n m t).replica
        = (applyData (G.env n) G.space m.replica t.entry.data).1 := by
      show applyEntry _ _ _ _ _ _ = _
      rw [applyEntry, if_neg (not_not_intro hs), Seen.data?, if_pos hseen]
      rfl
    simp only [hseen, if_true]
    refine .answers hw ?_
    rw [hreplica]
    unfold closureRun
    by_cases hrun : (applyData (G.env n) G.space m.replica t.entry.data).1.status = .running
    · rw [decide_eq_true hrun, if_pos rfl]
      exact applyData_success
    · rw [decide_eq_false hrun, if_neg Bool.false_ne_true]
      exact iff_of_false (by simp) hrun
  · have hseen : (g.seen n t).closure = false := decide_eq_false hw
    simp only [hseen, Bool.false_eq_true, if_false]
    exact .silent

/-! ### What an event does -/

theorem refused_write {m : Member} {req : BlockRequest} {data : Bytes} {resp : BlockResponse}
    (h : m.write G.codec req data = .inl resp) : resp.success = some false := by
  unfold Member.write at h
  split at h
  · rename_i hw
    cases h
    unfold Raft.write at hw
    split at hw
    · cases hw
      rfl
    · split at hw <;> cases hw
  · rename_i hw
    cases h
    unfold Raft.write at hw
    split at hw
    · cases hw
    · split at hw
      · cases hw
        rfl
      · cases hw
  · cases h

theorem taken_write {m : Member} {req : BlockRequest} {data : Bytes} {c : Committed G.codec}
    (h : m.write G.codec req data = .inr c) : c.req = req ∧ c.data = data := by
  unfold Member.write at h
  split at h
  · cases h
  · cases h
  · cases h
    exact ⟨rfl, rfl⟩

/-- What an event does, when the requests that come in satisfy `S`. -/
inductive Moves (S : BlockRequest → Prop) (g : RaftGroup G) : RaftGroup G → Prop
  | stays : Moves S g g
  | starts {n : Nat} (hn : g.members n = none) : Moves S g (g.setMember n {})
  /-- A callback that leaves the documents alone. -/
  | turns {n : Nat} {m m' : Member} (hm : g.members n = some m)
      (hr : m'.replica.store = m.replica.store) (ha : m'.applied = m.applied)
      (hk : m'.skipped = m.skipped) : Moves S g (g.setMember n m')
  | loads {n pos : Nat} {m m' : Member} (hm : g.members n = some m) (hlt : m.applied < pos)
      (hlen : pos ≤ g.log.length) (hr : m'.replica.store = m.replica.store)
      (ha : m'.applied = pos) (hk : m'.skipped = m.skipped ++ [(m.applied, pos)]) :
      Moves S g (g.setMember n m')
  | refuses {req : BlockRequest} {data : Bytes} {resp : BlockResponse}
      (hresp : resp.success = some false) :
      Moves S g ({ g with sent := g.sent ++ [(req, data)] }.answer g.sent.length resp)
  | takes {n : Nat} {c : Committed G.codec} (hc : S c.req) :
      Moves S g { g with
        sent := g.sent ++ [(c.req, c.data)]
        waiting := g.waiting ++ [⟨g.sent.length, n⟩]
        proposed := g.proposed ++ [⟨g.sent.length, n, c⟩] }
  | commits {i : Nat} {t : Task G.codec} (ht : g.proposed[i]? = some t) :
      Moves S g { g with proposed := g.proposed.eraseIdx i, log := g.log ++ [t] }
  | fails {i : Nat} {w : Waiting} {resp : BlockResponse} (hw : g.waiting[i]? = some w)
      (hresp : resp.success = some false) :
      Moves S g ({ g with waiting := g.waiting.eraseIdx i }.answer w.rpc resp)
  | applies {n : Nat} {m : Member} {t : Task G.codec} {g' : RaftGroup G} (hm : g.members n = some m)
      (ht : g.log[m.applied]? = some t) (hs : m.replica.status = .running)
      (hset : Settles g n m t g') : Moves S g g'

def Event.Brings (S : BlockRequest → Prop) : Event → Prop
  | .write _ req _ => S req
  | _ => True

theorem callback_moves {S : BlockRequest → Prop} (g : RaftGroup G) (n : Nat)
    {change : Member → Member} (hr : ∀ m, (change m).replica.store = m.replica.store)
    (ha : ∀ m, (change m).applied = m.applied) (hk : ∀ m, (change m).skipped = m.skipped) :
    Moves S g (g.callback n change) := by
  unfold callback
  cases hm : g.members n with
  | none => exact .stays
  | some m => exact .turns hm (hr m) (ha m) (hk m)

theorem load_moves {S : BlockRequest → Prop} (g : RaftGroup G) {n pos : Nat} {m : Member}
    (hm : g.members n = some m) (hlt : m.applied < pos) (hlen : pos ≤ g.log.length) (snap : Files)
    (out : OpenOutcome) : Moves S g (g.setMember n (m.load pos snap out)) := by
  unfold Member.load
  by_cases hlead : 0 < m.leaderTerm
  · rw [if_pos hlead]
    exact .turns hm rfl rfl rfl
  · rw [if_neg hlead]
    simp only
    split
    · exact .turns hm rfl rfl rfl
    · exact .loads hm hlt hlen rfl rfl rfl

theorem onWrite_moves {S : BlockRequest → Prop} (g : RaftGroup G) (n : Nat) {req : BlockRequest}
    (data : Bytes) (hreq : S req) : Moves S g (g.onWrite n req data) := by
  simp only [onWrite]
  cases hm : g.members n with
  | none => exact .refuses rfl
  | some m =>
    cases hw : m.write G.codec req data with
    | inl resp =>
      simp only [hw]
      exact .refuses (refused_write hw)
    | inr c =>
      obtain ⟨rfl, rfl⟩ := taken_write hw
      simp only [hw]
      exact .takes hreq

theorem apply_moves {S : BlockRequest → Prop} (g : RaftGroup G) (n : Nat) :
    Moves S g (g.step (.apply n)) := by
  cases hm : g.members n with
  | none =>
    simp only [step, hm]
    exact .stays
  | some m =>
    cases ht : g.log[m.applied]? with
    | none =>
      simp only [step, hm, ht]
      exact .stays
    | some t =>
      by_cases hs : m.replica.status = .running
      · simp only [step, hm, ht, hs, ne_eq, not_true_eq_false, if_false]
        exact .applies hm ht hs (onApplyAt_settles g t hs)
      · simp only [step, hm, ht, ne_eq, hs, not_false_eq_true, if_true]
        exact .stays

theorem step_moves {S : BlockRequest → Prop} (g : RaftGroup G) {e : Event} (he : e.Brings S) :
    Moves S g (g.step e) := by
  cases e with
  | start n =>
    cases hm : g.members n with
    | none =>
      simp only [step, hm]
      exact .starts hm
    | some m =>
      simp only [step, hm]
      exact .stays
  | write n req data => exact onWrite_moves g n data he
  | onLeaderStart n term => exact callback_moves g n (fun _ => rfl) (fun _ => rfl) fun _ => rfl
  | onLeaderStop n => exact callback_moves g n (fun _ => rfl) (fun _ => rfl) fun _ => rfl
  | learn n leader => exact callback_moves g n (fun _ => rfl) (fun _ => rfl) fun _ => rfl
  | commit i =>
    cases ht : g.proposed[i]? with
    | none =>
      simp only [step, ht]
      exact .stays
    | some t =>
      simp only [step, ht]
      exact .commits ht
  | fail i =>
    cases hw : g.waiting[i]? with
    | none =>
      simp only [step, hw]
      exact .stays
    | some w =>
      simp only [step, hw]
      exact .fails hw rfl
  | apply n => exact apply_moves g n
  | load n pos snap out =>
    cases hm : g.members n with
    | none =>
      simp only [step, hm]
      exact .stays
    | some m =>
      simp only [step, hm]
      split
      · rename_i hpos
        exact load_moves g hm hpos.2.1 hpos.2.2 snap out
      · exact .stays

/-! ### One answer for each write -/

/-- The writes that wait and those that were answered are all that came in. -/
def Accounted (g : RaftGroup G) : Prop :=
  (g.waiting.map Waiting.rpc ++ g.answers.map Prod.fst).Perm (List.range g.sent.length)

theorem answered_perm {ws ws' : List Waiting} {w : Waiting} (h : ws.Perm (w :: ws'))
    (answers : List (Nat × BlockResponse)) (resp : BlockResponse) :
    (ws'.map Waiting.rpc ++ (answers ++ [(w.rpc, resp)]).map Prod.fst).Perm
      (ws.map Waiting.rpc ++ answers.map Prod.fst) := by
  rw [List.map_append, List.map_singleton, ← List.append_assoc]
  refine (List.perm_append_singleton _ _).trans ?_
  exact (h.map Waiting.rpc).symm.append_right _

theorem eraseIdx_perm {α : Type} {l : List α} {i : Nat} {a : α} (h : l[i]? = some a) :
    l.Perm (a :: l.eraseIdx i) := by
  obtain ⟨hi, rfl⟩ := List.getElem?_eq_some_iff.mp h
  exact (List.getElem_cons_eraseIdx_perm hi).symm

theorem accounted_moves {S : BlockRequest → Prop} {g g' : RaftGroup G} (h : Accounted g)
    (hm : Moves S g g') : Accounted g' := by
  unfold Accounted at h ⊢
  cases hm with
  | stays => exact h
  | starts hn => exact h
  | turns hm hr ha hk => exact h
  | loads hm hlt hlen hr ha hk => exact h
  | @refuses req data resp hresp =>
    show (_ ++ (g.answers ++ [(g.sent.length, resp)]).map Prod.fst).Perm
      (List.range (g.sent ++ [(req, data)]).length)
    rw [List.map_append, List.map_singleton, ← List.append_assoc, List.length_append,
      List.length_singleton, List.range_succ]
    exact h.append_right _
  | @takes n c hc =>
    show ((g.waiting ++ [(⟨g.sent.length, n⟩ : Waiting)]).map Waiting.rpc ++ _).Perm
      (List.range (g.sent ++ [(c.req, c.data)]).length)
    rw [List.map_append, List.map_singleton, List.length_append, List.length_singleton,
      List.range_succ, List.append_assoc]
    refine (List.perm_append_comm.append_left _).trans ?_
    rw [← List.append_assoc]
    exact h.append_right _
  | commits ht => exact h
  | fails hw hresp => exact (answered_perm (eraseIdx_perm hw) g.answers _).trans h
  | applies hmem ht hs hset =>
    cases hset with
    | silent => exact h
    | answers hw hresp => exact (answered_perm (List.perm_cons_erase hw) g.answers _).trans h

/-! ### One history for all nodes -/

end RaftGroup

def Setting.docOf (G : Setting) (t : Task G.codec) : Option GammaDoc :=
  (G.parse t.entry.data).map fun doc => (pbDocToGammaDoc doc G.space {}).2

def Setting.Carries (G : Setting) (req : BlockRequest) : Prop :=
  G.codec.RoundTrips req ∧ G.codec.byteSizeLong req < 2 ^ 32

namespace RaftGroup

def file (G : Setting) (store : Std.TreeMap String GammaDoc) (t : Task G.codec) :
    Std.TreeMap String GammaDoc :=
  match G.docOf t with
  | some d => upsert G.keyOf store d
  | none => store

theorem foldl_file : ∀ (ts : List (Task G.codec)) (store : Std.TreeMap String GammaDoc),
    ts.foldl (file G) store = (ts.filterMap G.docOf).foldl (upsert G.keyOf) store := by
  intro ts
  induction ts with
  | nil => intro store; rfl
  | cons t ts ih =>
    intro store
    rw [List.foldl_cons, ih]
    unfold file
    cases hd : G.docOf t with
    | none => rw [List.filterMap_cons_none hd]
    | some d => rw [List.filterMap_cons_some hd, List.foldl_cons]

def docAt (log : List (Task G.codec)) (p : Nat) : Option GammaDoc := (log[p]?).bind G.docOf

theorem docAt_eq_some {log : List (Task G.codec)} {p : Nat} {d : GammaDoc} :
    docAt log p = some d ↔ ∃ t, log[p]? = some t ∧ G.docOf t = some d := Option.bind_eq_some_iff

/-- What a node holds: without a snapshot it is a stage of the log, and in any case the documents
of the places that it took, or later ones with their keys. -/
structure Staged (log : List (Task G.codec)) (m : Member) : Prop where
  bound : m.applied ≤ log.length
  skipped : ∀ s ∈ m.skipped, s.2 ≤ m.applied
  reads : m.skipped = [] → Reads (file G) ∅ log m.applied m.replica.store
  filed : Filed G.keyOf (docAt log) m.Took m.replica.store

theorem staged_start (log : List (Task G.codec)) : Staged log {} where
  bound := Nat.zero_le _
  skipped _ hs := (nomatch hs)
  reads _ := reads_start log
  filed := filed_of_not_read fun _ hp => absurd hp.1 (Nat.not_lt_zero _)

theorem Staged.append {log : List (Task G.codec)} {m : Member} (h : Staged log m)
    (more : List (Task G.codec)) : Staged (log ++ more) m where
  bound := by
    rw [List.length_append]
    exact Nat.le_add_right_of_le h.bound
  skipped := h.skipped
  reads hk := (h.reads hk).append more
  filed := h.filed.mono fun p d hp hd => by
    rw [docAt, List.getElem?_append_left (Nat.lt_of_lt_of_le hp.1 h.bound)]
    exact hd

/-- Only the documents, the place and the stretches matter. -/
theorem Staged.congr {log : List (Task G.codec)} {m m' : Member} (h : Staged log m)
    (hr : m'.replica.store = m.replica.store) (ha : m'.applied = m.applied)
    (hk : m'.skipped = m.skipped) : Staged log m' := by
  have htook : m'.Took = m.Took := by
    funext p
    rw [Member.Took, Member.Took, ha, hk]
  refine ⟨ha ▸ h.bound, ?_, ?_, ?_⟩
  · rw [ha, hk]
    exact h.skipped
  · rw [ha, hk, hr]
    exact h.reads
  · rw [htook, hr]
    exact h.filed

/-- A place that a node has come past stays as it is, taken or not, when a snapshot is loaded. -/
theorem took_of_loaded {m m' : Member} {pos : Nat} (hlt : m.applied < pos) (ha : m'.applied = pos)
    (hk : m'.skipped = m.skipped ++ [(m.applied, pos)]) (p : Nat) : m'.Took p ↔ m.Took p := by
  unfold Member.Took
  rw [ha, hk]
  constructor
  · rintro ⟨hp, hs⟩
    have hlast := hs (m.applied, pos) (List.mem_append_right _ List.mem_cons_self)
    exact ⟨by omega, fun s hin => hs s (List.mem_append_left _ hin)⟩
  · rintro ⟨hp, hs⟩
    refine ⟨by omega, fun s hin => ?_⟩
    rcases List.mem_append.mp hin with hin | hin
    · exact hs s hin
    · rw [List.mem_singleton.mp hin]
      exact fun h => absurd h.1 (Nat.not_le_of_lt hp)

theorem Staged.loaded {log : List (Task G.codec)} {m m' : Member} {pos : Nat} (h : Staged log m)
    (hlt : m.applied < pos) (hlen : pos ≤ log.length) (hr : m'.replica.store = m.replica.store)
    (ha : m'.applied = pos) (hk : m'.skipped = m.skipped ++ [(m.applied, pos)]) :
    Staged log m' := by
  have htook : m'.Took = m.Took := funext fun p => propext (took_of_loaded hlt ha hk p)
  refine ⟨ha ▸ hlen, fun s hs => ?_, fun hnil => ?_, ?_⟩
  · rw [hk] at hs
    rcases List.mem_append.mp hs with hs | hs
    · exact ha ▸ (h.skipped s hs).trans hlt.le
    · rw [List.mem_singleton.mp hs, ha]
  · rw [hk] at hnil
    exact absurd hnil (by simp)
  · rw [htook, hr]
    exact h.filed

/-- Whether or not the node has the closure, it takes the document of the task. -/
theorem entryDoc_seen (g : RaftGroup G) (n : Nat) {t : Task G.codec} (h : G.Carries t.entry.req) :
    entryDoc (G.env n) G.space (g.seen n t) = G.docOf t := by
  unfold entryDoc
  rw [entryData_seen (e := g.seen n t) h]
  rfl

theorem took_next {m m' : Member} (hskip : ∀ s ∈ m.skipped, s.2 ≤ m.applied)
    (ha : m'.applied = m.applied + 1) (hk : m'.skipped = m.skipped) (p : Nat) :
    m'.Took p ↔ m.Took p ∨ p = m.applied := by
  unfold Member.Took
  rw [ha, hk]
  constructor
  · rintro ⟨hp, hs⟩
    by_cases heq : p = m.applied
    · exact Or.inr heq
    · exact Or.inl ⟨by omega, hs⟩
  · rintro (⟨hp, hs⟩ | rfl)
    · exact ⟨by omega, hs⟩
    · exact ⟨Nat.lt_succ_self _, fun s hin h => absurd h.2 (Nat.not_lt_of_le (hskip s hin))⟩

/-- The engine takes the document of the next entry. -/
theorem Staged.next {log : List (Task G.codec)} {m m' : Member} {t : Task G.codec} {d : GammaDoc}
    (h : Staged log m) (ht : log[m.applied]? = some t) (hd : G.docOf t = some d)
    (hr : m'.replica.store = upsert G.keyOf m.replica.store d)
    (ha : m'.applied = m.applied + 1) (hk : m'.skipped = m.skipped) : Staged log m' := by
  refine ⟨ha ▸ (List.getElem?_eq_some_iff.mp ht).1, fun s hs => ?_, fun hnil => ?_, ?_⟩
  · rw [hk] at hs
    exact ha ▸ (h.skipped s hs).trans (Nat.le_succ _)
  · have hfile : file G m.replica.store t = upsert G.keyOf m.replica.store d := by
      rw [file, hd]
    rw [hr, ha, ← hfile]
    exact (h.reads (hk ▸ hnil)).next ht
  · rw [hr]
    exact h.filed.upsert (docAt_eq_some.mpr ⟨t, ht, hd⟩) (fun p hp => hp.1.le)
      (took_next h.skipped ha hk)

theorem Staged.applied {g : RaftGroup G} {n : Nat} {m : Member} {t : Task G.codec}
    (h : Staged g.log m) (hc : G.Carries t.entry.req) (ht : g.log[m.applied]? = some t)
    (hs : m.replica.status = .running) : Staged g.log (g.appliedMember n m t) := by
  rcases applyEntry_running (G.env n) G.space hs (g.seen n t) with
    ⟨d, hd, -, hrun, hstore⟩ | ⟨-, hstop, hstore⟩
  · rw [entryDoc_seen g n hc] at hd
    exact h.next ht hd hstore (if_pos hrun) rfl
  · exact h.congr hstore (if_neg hstop) rfl

/-- Every task carries its request, and every node is at a stage of the log. -/
structure Historic (g : RaftGroup G) : Prop where
  carries : ∀ t ∈ g.proposed ++ g.log, G.Carries t.entry.req
  staged : ∀ n m, g.members n = some m → Staged g.log m

theorem Historic.setMember {g : RaftGroup G} (h : Historic g) {n : Nat} {m : Member}
    (hm : Staged g.log m) : Historic (g.setMember n m) := by
  refine ⟨h.carries, fun k m' hk => ?_⟩
  by_cases hkn : k = n
  · rw [hkn, setMember_self, Option.some.injEq] at hk
    rw [← hk]
    exact hm
  · rw [setMember_of_ne hkn] at hk
    exact h.staged k m' hk

theorem commit_perm {g : RaftGroup G} {i : Nat} {t : Task G.codec} (h : g.proposed[i]? = some t) :
    (g.proposed.eraseIdx i ++ (g.log ++ [t])).Perm (g.proposed ++ g.log) := by
  rw [← List.append_assoc]
  refine (List.perm_append_singleton _ _).trans ?_
  exact (eraseIdx_perm h).symm.append_right _

theorem historic_moves {g g' : RaftGroup G} (h : Historic g) (hm : Moves G.Carries g g') :
    Historic g' := by
  cases hm with
  | stays => exact h
  | starts hn => exact h.setMember (staged_start g.log)
  | turns hm hr ha hk => exact h.setMember ((h.staged _ _ hm).congr hr ha hk)
  | loads hm hlt hlen hr ha hk =>
    exact h.setMember ((h.staged _ _ hm).loaded hlt hlen hr ha hk)
  | refuses hresp => exact ⟨h.carries, h.staged⟩
  | @takes n c hc =>
    refine ⟨fun t ht => ?_, h.staged⟩
    rw [List.append_assoc, List.mem_append, List.mem_append, List.mem_singleton] at ht
    rcases ht with ht | rfl | ht
    · exact h.carries t (List.mem_append_left _ ht)
    · exact hc
    · exact h.carries t (List.mem_append_right _ ht)
  | @commits i t ht =>
    exact ⟨fun t' ht' => h.carries t' ((commit_perm ht).mem_iff.mp ht'),
      fun n m hn => (h.staged n m hn).append _⟩
  | fails hw hresp => exact ⟨h.carries, h.staged⟩
  | @applies n m t _ hmem ht hs hset =>
    have hin : t ∈ g.proposed ++ g.log := List.mem_append_right _ (List.mem_of_getElem? ht)
    have hstaged : Staged g.log (g.appliedMember n m t) :=
      (h.staged n m hmem).applied (h.carries t hin) ht hs
    have hnext : Historic (g.setMember n (g.appliedMember n m t)) := h.setMember hstaged
    cases hset with
    | silent => exact hnext
    | answers hw hresp => exact ⟨hnext.carries, hnext.staged⟩

theorem historic_init : Historic ({} : RaftGroup G) where
  carries _ ht := (nomatch ht)
  staged _ _ hn := (nomatch hn)

/-- The groups that are reached while every request carries. -/
abbrev Reached (g : RaftGroup G) : Prop :=
  Reach step (fun _ e => e.Brings G.Carries) ({} : RaftGroup G) g

theorem historic_reached {g : RaftGroup G} (h : Reached g) : Historic g :=
  h.invariant Historic historic_init fun g _ hg he => historic_moves hg (step_moves g he)

/-- Without a snapshot every entry up to the place of the node has a document. -/
theorem Staged.docs {log : List (Task G.codec)} {m : Member} (h : Staged log m)
    (hk : m.skipped = []) : ∀ t ∈ log.take m.applied, (G.docOf t).isSome = true := by
  intro t ht
  obtain ⟨p, hp⟩ := List.mem_iff_getElem?.mp ht
  have hlt : p < m.applied := by
    have hlen := (List.getElem?_eq_some_iff.mp hp).1
    rw [List.length_take] at hlen
    omega
  have htook : m.Took p := ⟨hlt, fun s hs => by rw [hk] at hs; cases hs⟩
  obtain ⟨d, hd, -⟩ := h.filed p htook
  rw [List.getElem?_take_of_lt hlt] at hp
  rw [docAt, hp, Option.bind_some] at hd
  rw [hd]
  rfl

theorem map_docOf_eq {ts : List (Task G.codec)} (h : ∀ t ∈ ts, (G.docOf t).isSome = true) :
    ts.map G.docOf = (ts.filterMap G.docOf).map some := by
  induction ts with
  | nil => rfl
  | cons t ts ih =>
    obtain ⟨d, hd⟩ := Option.isSome_iff_exists.mp (h t List.mem_cons_self)
    rw [List.map_cons, List.filterMap_cons_some hd, List.map_cons, hd,
      ih fun t' ht' => h t' (List.mem_cons_of_mem _ ht')]

/-! ### What an acknowledgement says -/

/-- Tasks belong to different RPCs and hold what these brought, and a closure that waits belongs
to the task of its node. -/
structure Owned (g : RaftGroup G) : Prop where
  nodup : ((g.proposed ++ g.log).map Task.rpc).Nodup
  sent : ∀ t ∈ g.proposed ++ g.log, g.sent[t.rpc]? = some (t.entry.req, t.entry.data)
  closure : ∀ w ∈ g.waiting, ∃ t ∈ g.proposed ++ g.log, t.rpc = w.rpc ∧ t.node = w.node

theorem Owned.rpc_lt {g : RaftGroup G} (h : Owned g) {t : Task G.codec}
    (ht : t ∈ g.proposed ++ g.log) : t.rpc < g.sent.length :=
  (List.getElem?_eq_some_iff.mp (h.sent t ht)).1

theorem Owned.sent_append {g : RaftGroup G} (h : Owned g) (x : BlockRequest × Bytes)
    {t : Task G.codec} (ht : t ∈ g.proposed ++ g.log) :
    (g.sent ++ [x])[t.rpc]? = some (t.entry.req, t.entry.data) := by
  rw [List.getElem?_append_left (h.rpc_lt ht)]
  exact h.sent t ht

theorem Owned.fewer {g : RaftGroup G} (h : Owned g) {ws : List Waiting}
    (hw : ∀ w ∈ ws, w ∈ g.waiting) {g' : RaftGroup G} (hp : g'.proposed = g.proposed)
    (hl : g'.log = g.log) (hs : g'.sent = g.sent) (hws : g'.waiting = ws) : Owned g' := by
  refine ⟨?_, ?_, fun w hin => ?_⟩
  · rw [hp, hl]
    exact h.nodup
  · rw [hp, hl, hs]
    exact h.sent
  · rw [hws] at hin
    rw [hp, hl]
    exact h.closure w (hw w hin)

theorem owned_moves {S : BlockRequest → Prop} {g g' : RaftGroup G} (h : Owned g)
    (hm : Moves S g g') : Owned g' := by
  cases hm with
  | stays => exact h
  | starts hn => exact ⟨h.nodup, h.sent, h.closure⟩
  | turns hm hr ha hk => exact ⟨h.nodup, h.sent, h.closure⟩
  | loads hm hlt hlen hr ha hk => exact ⟨h.nodup, h.sent, h.closure⟩
  | @refuses req data resp hresp => exact ⟨h.nodup, fun t => h.sent_append (req, data), h.closure⟩
  | @takes n c hc =>
    have hperm : ((g.proposed ++ [(⟨g.sent.length, n, c⟩ : Task G.codec)]) ++ g.log).Perm
        (⟨g.sent.length, n, c⟩ :: (g.proposed ++ g.log)) := by
      rw [List.append_assoc]
      exact List.perm_middle
    refine ⟨?_, fun t ht => ?_, fun w hw => ?_⟩
    · refine ((hperm.map Task.rpc).nodup_iff).mpr (List.nodup_cons.mpr ⟨fun hin => ?_, h.nodup⟩)
      obtain ⟨t, ht, hrpc⟩ := List.mem_map.mp hin
      exact absurd hrpc (Nat.ne_of_lt (h.rpc_lt ht))
    · rcases List.mem_cons.mp (hperm.mem_iff.mp ht) with rfl | ht
      · exact List.getElem?_concat_length
      · exact h.sent_append _ ht
    · rcases List.mem_append.mp hw with hw | hw
      · obtain ⟨t, ht, heq⟩ := h.closure w hw
        exact ⟨t, hperm.mem_iff.mpr (List.mem_cons_of_mem _ ht), heq⟩
      · rw [List.mem_singleton] at hw
        subst hw
        exact ⟨_, hperm.mem_iff.mpr List.mem_cons_self, rfl, rfl⟩
  | @commits i t ht =>
    have hperm := commit_perm ht
    refine ⟨((hperm.map Task.rpc).nodup_iff).mpr h.nodup,
      fun t' ht' => h.sent t' (hperm.mem_iff.mp ht'), fun w hw => ?_⟩
    obtain ⟨t', ht', heq⟩ := h.closure w hw
    exact ⟨t', hperm.mem_iff.mpr ht', heq⟩
  | fails hw hresp => exact h.fewer (fun w => List.mem_of_mem_eraseIdx) rfl rfl rfl rfl
  | applies hmem ht hs hset =>
    cases hset with
    | silent => exact ⟨h.nodup, h.sent, h.closure⟩
    | answers hw hresp => exact h.fewer (fun w => List.mem_of_mem_erase) rfl rfl rfl rfl

/-- The group has moved on: the lists grow at their ends, and no node takes an entry back. -/
structure Later (g g' : RaftGroup G) : Prop where
  sent : ∃ more, g'.sent = g.sent ++ more
  log : ∃ more, g'.log = g.log ++ more
  members : ∀ n m, g.members n = some m →
    ∃ m', g'.members n = some m' ∧ ∀ p, m.Took p → m'.Took p

theorem Later.refl (g : RaftGroup G) : Later g g :=
  ⟨⟨[], (List.append_nil _).symm⟩, ⟨[], (List.append_nil _).symm⟩,
    fun _ m hn => ⟨m, hn, fun _ hp => hp⟩⟩

theorem Later.trans {g₁ g₂ g₃ : RaftGroup G} (h : Later g₁ g₂) (h' : Later g₂ g₃) :
    Later g₁ g₃ := by
  obtain ⟨s, hs⟩ := h.sent
  obtain ⟨s', hs'⟩ := h'.sent
  obtain ⟨l, hl⟩ := h.log
  obtain ⟨l', hl'⟩ := h'.log
  refine ⟨⟨s ++ s', ?_⟩, ⟨l ++ l', ?_⟩, fun n m hn => ?_⟩
  · rw [hs', hs, List.append_assoc]
  · rw [hl', hl, List.append_assoc]
  · obtain ⟨m', hm', htook⟩ := h.members n m hn
    obtain ⟨m'', hm'', htook'⟩ := h'.members n m' hm'
    exact ⟨m'', hm'', fun p hp => htook' p (htook p hp)⟩

theorem later_setMember {g : RaftGroup G} {n : Nat} {m' : Member}
    (h : ∀ m, g.members n = some m → ∀ p, m.Took p → m'.Took p) :
    Later g (g.setMember n m') := by
  refine ⟨(Later.refl g).sent, (Later.refl g).log, fun k m hk => ?_⟩
  by_cases hkn : k = n
  · subst hkn
    exact ⟨m', setMember_self g k m', h m hk⟩
  · exact ⟨m, (setMember_of_ne hkn).trans hk, fun _ hp => hp⟩

theorem took_appliedMember (g : RaftGroup G) (n : Nat) {m : Member} (t : Task G.codec) {p : Nat}
    (h : m.Took p) : (g.appliedMember n m t).Took p := by
  refine ⟨?_, h.2⟩
  unfold appliedMember
  simp only
  split
  · exact Nat.lt_succ_of_lt h.1
  · exact h.1

theorem later_moves {S : BlockRequest → Prop} {g g' : RaftGroup G} (hm : Moves S g g') :
    Later g g' := by
  have hrefl := Later.refl g
  cases hm with
  | stays => exact hrefl
  | starts hn =>
    refine later_setMember fun m hm => ?_
    rw [hn] at hm
    cases hm
  | turns hm hr ha hk =>
    refine later_setMember fun m' hm' p hp => ?_
    rw [hm, Option.some.injEq] at hm'
    subst hm'
    rw [Member.Took, ha, hk]
    exact hp
  | loads hm hlt hlen hr ha hk =>
    refine later_setMember fun m' hm' p hp => ?_
    rw [hm, Option.some.injEq] at hm'
    subst hm'
    exact (took_of_loaded hlt ha hk p).mpr hp
  | refuses hresp => exact ⟨⟨_, rfl⟩, hrefl.log, hrefl.members⟩
  | takes hc => exact ⟨⟨_, rfl⟩, hrefl.log, hrefl.members⟩
  | commits ht => exact ⟨hrefl.sent, ⟨_, rfl⟩, hrefl.members⟩
  | fails hw hresp => exact ⟨hrefl.sent, hrefl.log, hrefl.members⟩
  | @applies n m t _ hmem ht hs hset =>
    have hnext : Later g (g.setMember n (g.appliedMember n m t)) := by
      refine later_setMember fun m' hm' p hp => ?_
      rw [hmem, Option.some.injEq] at hm'
      exact took_appliedMember g n t (hm' ▸ hp)
    cases hset with
    | silent => exact hnext
    | answers hw hresp => exact ⟨hnext.sent, hnext.log, hnext.members⟩

/-- The task of the RPC is committed, and the node that took it has applied it. -/
def Settled (g : RaftGroup G) (rpc : Nat) : Prop :=
  ∃ p t m, g.log[p]? = some t ∧ t.rpc = rpc ∧ g.members t.node = some m ∧ m.Took p

theorem Settled.later {g g' : RaftGroup G} {rpc : Nat} (h : Settled g rpc) (hl : Later g g') :
    Settled g' rpc := by
  obtain ⟨p, t, m, hp, hrpc, hm, htook⟩ := h
  obtain ⟨more, hlog⟩ := hl.log
  obtain ⟨m', hm', hkept⟩ := hl.members t.node m hm
  refine ⟨p, t, m', ?_, hrpc, hm', hkept p htook⟩
  rw [hlog, List.getElem?_append_left (List.getElem?_eq_some_iff.mp hp).1]
  exact hp

def Truthful (g : RaftGroup G) : Prop :=
  ∀ a ∈ g.answers, a.2.success = some true → Settled g a.1

theorem Truthful.later {g g' : RaftGroup G} (h : Truthful g) (hl : Later g g')
    (hans : g'.answers = g.answers) : Truthful g' := by
  intro a ha hs
  rw [hans] at ha
  exact (h a ha hs).later hl

theorem Truthful.answer {g g' : RaftGroup G} (h : Truthful g) (hl : Later g g') {rpc : Nat}
    {resp : BlockResponse} (hans : g'.answers = g.answers ++ [(rpc, resp)])
    (hresp : resp.success = some true → Settled g' rpc) : Truthful g' := by
  intro a ha hs
  rw [hans] at ha
  rcases List.mem_append.mp ha with ha | ha
  · exact (h a ha hs).later hl
  · rw [List.mem_singleton] at ha
    subst ha
    exact hresp hs

theorem not_success {resp : BlockResponse} {p : Prop} (h : resp.success = some false)
    (hs : resp.success = some true) : p := by
  rw [h] at hs
  cases hs

/-- The entry that a node applies with a closure is the one that the node took. -/
theorem Owned.node_eq {g : RaftGroup G} (h : Owned g) {w : Waiting} (hw : w ∈ g.waiting)
    {t : Task G.codec} (ht : t ∈ g.proposed ++ g.log) (hrpc : t.rpc = w.rpc) :
    t.node = w.node := by
  obtain ⟨t', ht', hrpc', hnode⟩ := h.closure w hw
  rw [List.inj_on_of_nodup_map h.nodup ht ht' (hrpc.trans hrpc'.symm), hnode]

theorem truthful_moves {g g' : RaftGroup G} (ho : Owned g) (hist : Historic g)
    (h : Truthful g) (hm : Moves G.Carries g g') : Truthful g' := by
  have hl : Later g g' := later_moves hm
  cases hm with
  | stays => exact h
  | starts hn => exact h.later hl rfl
  | turns hm hr ha hk => exact h.later hl rfl
  | loads hm hlt hlen hr ha hk => exact h.later hl rfl
  | refuses hresp => exact h.answer hl rfl (not_success hresp)
  | takes hc => exact h.later hl rfl
  | commits ht => exact h.later hl rfl
  | fails hw hresp => exact h.answer hl rfl (not_success hresp)
  | @applies n m t _ hmem ht hs hset =>
    cases hset with
    | silent => exact h.later hl rfl
    | answers hw hresp =>
      refine h.answer hl rfl fun hsucc => ?_
      have hnode : t.node = n :=
        ho.node_eq hw (List.mem_append_right _ (List.mem_of_getElem? ht)) rfl
      have happlied : (g.appliedMember n m t).applied = m.applied + 1 := by
        have hrun := hresp.mp hsucc
        unfold appliedMember at hrun ⊢
        simp only at hrun
        simp only [hrun, if_true]
      refine ⟨m.applied, t, g.appliedMember n m t, ht, rfl, ?_, ?_⟩
      · rw [hnode]
        exact setMember_self g n _
      · exact (took_next (hist.staged n m hmem).skipped happlied rfl _).mpr (Or.inr rfl)

theorem owned_init : Owned ({} : RaftGroup G) where
  nodup := List.nodup_nil
  sent _ ht := (nomatch ht)
  closure _ hw := (nomatch hw)

theorem truthful_reached {g : RaftGroup G} (h : Reached g) : Owned g ∧ Truthful g := by
  have hinv := h.invariant (fun g => Historic g ∧ Owned g ∧ Truthful g)
    ⟨historic_init, owned_init, fun _ ha => (nomatch ha)⟩ fun g _ hg he => by
      obtain ⟨hist, hown, htrue⟩ := hg
      have hmoves := step_moves g he
      exact ⟨historic_moves hist hmoves, owned_moves hown hmoves,
        truthful_moves hown hist htrue hmoves⟩
  exact hinv.2

theorem Owned.place_unique {g : RaftGroup G} (h : Owned g) {p q : Nat} {t t' : Task G.codec}
    (hq : g.log[q]? = some t') (hp : g.log[p]? = some t) (hrpc : t'.rpc = t.rpc) : q = p := by
  have hnodup : (g.log.map Task.rpc).Nodup := by
    have h := h.nodup
    rw [List.map_append] at h
    exact h.of_append_right
  have hlen : q < (g.log.map Task.rpc).length := by
    rw [List.length_map]
    exact (List.getElem?_eq_some_iff.mp hq).1
  refine (List.getElem?_inj hlen hnodup).mp ?_
  rw [List.getElem?_map, List.getElem?_map, hq, hp, Option.map_some, Option.map_some, hrpc]

/-- An entry that some node took has a document, and every node that took it holds this one, or one
that it took later with the same key. -/
theorem Historic.holds {g : RaftGroup G} (h : Historic g) {p k : Nat} {t : Task G.codec}
    {m : Member} (hp : g.log[p]? = some t) (hm : g.members k = some m) (htook : m.Took p) :
    ∃ d, G.docOf t = some d ∧ ∀ n m, g.members n = some m → m.Took p →
      ∃ q t' d', p ≤ q ∧ m.Took q ∧ g.log[q]? = some t' ∧ G.docOf t' = some d' ∧
        G.keyOf d' = G.keyOf d ∧ m.replica.store[G.keyOf d]? = some d' := by
  have hdoc : ∀ d, docAt g.log p = some d → G.docOf t = some d := by
    intro d hd
    rw [docAt, hp, Option.bind_some] at hd
    exact hd
  obtain ⟨d, hd, -⟩ := (h.staged k m hm).filed p htook
  refine ⟨d, hdoc d hd, fun n m' hn hp' => ?_⟩
  obtain ⟨e, he, q, d', hpq, hq, hd', hkey, hstore⟩ := (h.staged n m' hn).filed p hp'
  obtain rfl : d = e := Option.some.inj (hd.symm.trans he)
  obtain ⟨t', ht', hdt'⟩ := docAt_eq_some.mp hd'
  exact ⟨q, t', d', hpq, hq, ht', hdt', hkey, hstore⟩

end RaftGroup

/-! ### The group -/

open RaftGroup

/-- **A write is answered once or waits**, whatever braft does: the RPCs that came in are those
whose closure waits and those that were answered, each of them once. -/
theorem group_answers_once (G : Setting) (events : List RaftGroup.Event) :
    let g : RaftGroup G := events.foldl step {}
    (g.waiting.map Waiting.rpc ++ g.answers.map Prod.fst).Perm (List.range g.sent.length) := by
  have hinit : Accounted ({} : RaftGroup G) := List.Perm.refl []
  refine (reach_foldl step ({} : RaftGroup G) events).invariant Accounted hinit ?_
  intro g e hg _
  have he : e.Brings fun _ => True := by
    cases e <;> trivial
  exact accounted_moves hg (step_moves g he)

/-- **All nodes go through one history.**  What a node that has loaded no snapshot holds are the
documents of the entries it has applied, filed in the order of the log; and of two such nodes the
one that is ahead holds what the other will hold after the entries in between.  This is so whichever
node took which write, whether or not its closure was still there, and if some engine refuses what
others take. -/
theorem group_one_history (G : Setting) (g : RaftGroup G) (h : RaftGroup.Reached g) :
    (∀ n m, g.members n = some m → m.skipped = [] → m.applied ≤ g.log.length ∧
      ∃ docs : List GammaDoc, (g.log.take m.applied).map G.docOf = docs.map some ∧
        m.replica.store = upserts G.keyOf docs) ∧
    ∀ n₁ m₁ n₂ m₂, g.members n₁ = some m₁ → g.members n₂ = some m₂ → m₁.skipped = [] →
      m₂.skipped = [] → m₁.applied ≤ m₂.applied →
      ∃ docs : List GammaDoc,
        ((g.log.take m₂.applied).drop m₁.applied).map G.docOf = docs.map some ∧
        m₂.replica.store = docs.foldl (upsert G.keyOf) m₁.replica.store := by
  have hist := historic_reached h
  constructor
  · intro n m hn hk
    have hst := hist.staged n m hn
    refine ⟨hst.bound, _, map_docOf_eq (hst.docs hk), ?_⟩
    rw [(hst.reads hk).state, foldl_file]
    rfl
  · intro n₁ m₁ n₂ m₂ h₁ h₂ hk₁ hk₂ hle
    have hst₁ := hist.staged n₁ m₁ h₁
    have hst₂ := hist.staged n₂ m₂ h₂
    refine ⟨_, map_docOf_eq fun t ht => hst₂.docs hk₂ t (List.mem_of_mem_drop ht), ?_⟩
    rw [(hst₁.reads hk₁).catch_up (hst₂.reads hk₂) hle, foldl_file]

def sampleSetting : Setting where
  codec := wireCodec
  space := longSpace
  parse := sampleEnv.parse
  keyOf := sampleEnv.keyOf
  addCode _ := sampleEnv.addCode

/-- The first node leads, takes a write and applies it; the second one is behind, and the third one
loads a snapshot. -/
def sampleEvents : List RaftGroup.Event :=
  [.start 0, .start 1, .start 2, .onLeaderStart 0 1, .write 0 routedReq docOneBytes, .commit 0,
    .apply 0, .load 2 1 ∅ {}]

def sampleGroup : RaftGroup sampleSetting := sampleEvents.foldl step {}

theorem reached_sampleGroup : RaftGroup.Reached sampleGroup := by
  have hcarries : sampleSetting.Carries routedReq := ⟨⟨_, rfl, rfl, by decide⟩, by decide⟩
  refine reach_of_runOk sampleEvents _ Reach.start (runOk_of_forall _ _ fun e he s => ?_)
  simp only [sampleEvents, List.mem_cons, List.not_mem_nil, or_false] at he
  rcases he with rfl | rfl | rfl | rfl | rfl | rfl | rfl | rfl
  all_goals first | exact hcarries | trivial

theorem group_one_history_two :
    ∃ (m₀ m₁ : Member) (docs : List GammaDoc),
      sampleGroup.members 0 = some m₀ ∧ sampleGroup.members 1 = some m₁ ∧
      m₀.applied = 1 ∧ m₁.applied = 0 ∧ sampleGroup.log.map sampleSetting.docOf = docs.map some ∧
      m₀.replica.store = docs.foldl (upsert sampleSetting.keyOf) m₁.replica.store := by
  have h₀ : (sampleGroup.members 0).map (fun m => (m.applied, m.skipped)) = some (1, []) := by
    decide +kernel
  have h₁ : (sampleGroup.members 1).map (fun m => (m.applied, m.skipped)) = some (0, []) := by
    decide +kernel
  obtain ⟨m₀, hm₀, heq₀⟩ := Option.map_eq_some_iff.mp h₀
  obtain ⟨m₁, hm₁, heq₁⟩ := Option.map_eq_some_iff.mp h₁
  obtain ⟨hp₀, hk₀⟩ := Prod.mk.inj heq₀
  obtain ⟨hp₁, hk₁⟩ := Prod.mk.inj heq₁
  obtain ⟨docs, hdocs, hstore⟩ := (group_one_history sampleSetting sampleGroup
    reached_sampleGroup).2 1 m₁ 0 m₀ hm₁ hm₀ hk₁ hk₀ (by omega)
  refine ⟨m₀, m₁, docs, hm₀, hm₁, hp₀, hp₁, ?_, hstore⟩
  rw [← hdocs, hp₀, hp₁, List.drop_zero]
  rfl

/-- **An acknowledged write is in the history.**  Its RPC has one place in the log, with the
request and the attachment that came in; the node that took it has applied it; and every node that
has come past that place, and not by a snapshot, holds its document, or one that was filed later
under the same key. -/
theorem group_acknowledged (G : Setting) (g : RaftGroup G) (h : RaftGroup.Reached g) (rpc : Nat)
    (resp : BlockResponse) (ha : (rpc, resp) ∈ g.answers) (hs : resp.success = some true) :
    ∃ p t d, g.log[p]? = some t ∧ t.rpc = rpc ∧
      (∀ q t', g.log[q]? = some t' → t'.rpc = rpc → q = p) ∧
      g.sent[rpc]? = some (t.entry.req, t.entry.data) ∧ G.docOf t = some d ∧
      (∃ m, g.members t.node = some m ∧ m.Took p) ∧
      ∀ n m, g.members n = some m → m.Took p →
        ∃ q t' d', p ≤ q ∧ m.Took q ∧ g.log[q]? = some t' ∧ G.docOf t' = some d' ∧
          G.keyOf d' = G.keyOf d ∧ m.replica.store[G.keyOf d]? = some d' := by
  obtain ⟨hown, htrue⟩ := truthful_reached h
  obtain ⟨p, t, m, hp, hrpc, hm, hlt⟩ : Settled g rpc := htrue _ ha hs
  obtain ⟨d, hd, hheld⟩ := (historic_reached h).holds hp hm hlt
  refine ⟨p, t, d, hp, hrpc, fun q t' hq hrpc' => ?_, ?_, hd, ⟨m, hm, hlt⟩, hheld⟩
  · exact hown.place_unique hq hp (hrpc'.trans hrpc.symm)
  · rw [← hrpc]
    exact hown.sent t (List.mem_append_right _ (List.mem_of_getElem? hp))

theorem group_acknowledged_one :
    sampleGroup.answers = [(0, { success := some true })] ∧
      ∃ (p : Nat) (t : Task wireCodec) (m : Member) (d : GammaDoc), sampleGroup.log[p]? = some t ∧
        t.rpc = 0 ∧ t.entry.data = docOneBytes ∧ sampleGroup.members t.node = some m ∧
        m.replica.store[sampleSetting.keyOf d]? = some d := by
  have hans : sampleGroup.answers = [(0, { success := some true })] := by decide +kernel
  have hsent : (sampleGroup.sent[0]?).map Prod.snd = some docOneBytes := by decide +kernel
  obtain ⟨p, t, d, hp, hrpc, -, hdata, -, ⟨m, hm, htook⟩, hheld⟩ := group_acknowledged sampleSetting
    sampleGroup reached_sampleGroup 0 { success := some true }
    (by rw [hans]; exact List.mem_cons_self) rfl
  obtain ⟨-, -, d', -, -, -, -, hkey, hstore⟩ := hheld t.node m hm htook
  rw [hdata, Option.map_some, Option.some.injEq] at hsent
  exact ⟨hans, p, t, m, d', hp, hrpc, hsent, hm, hkey ▸ hstore⟩

-- the third node has come past the place of the write without its document
example : (sampleGroup.members 2).map (fun m => (m.applied, m.replica.store.isEmpty))
    = some (1, true) := by decide +kernel

end SimSearch.Raft
