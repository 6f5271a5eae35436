import SimSearch.Raft.Client

/-!
# A client finds the leader

`RaftClient::Write` makes three attempts.  `stable` is a group that has come to rest: the node
`leader` leads and takes every write, every other node redirects to it or does not answer,
`refresh_leader` finds it, channels can be opened, and the process is not asked to quit.  What the
client and the route table know of the leader may be outdated or missing; what the other nodes know
may not, since a redirect to a third node costs one more attempt.

`attempts` is the number of attempts that a write needs from such a state: one that is answered by
the leader, one more when the connection is to another node, and one more when there is no
connection, because an attempt that opens one sends nothing.  `post_writeFrom_stable` says that a
loop of `n` attempts ends with success exactly when `n` is no less, and `attempts_le` that this is
three at most.
-/

namespace SimSearch.Raft.Convergence

open SimSearch.Lib

/-! ### A group at rest -/

/-- What the route table has after `update_leader`: the empty peer clears the entry. -/
def updatedLeader (peer : String) : Option String := if peer = emptyPeer then none else some peer

def redirectTo (leader : String) : BlockResponse := { success := some false, redirect := leader }

/-- The calls of a client while the group is at rest; the state is the leader of the group in the
route table.  A choice is the error of a node that does not answer. -/
@[reducible] def stable (group leader : String) : Machine ClientOp ClientRes where
  State := Option String
  Choice _ := Option String
  exec _ table o c :=
    match o with
    | .isAskedToQuit => (false, table)
    | .updateConfiguration _ _ => (true, table)
    | .selectLeader g => (if g = group then table else none, table)
    | .refreshLeader g => if g = group then (true, some leader) else (false, table)
    | .updateLeader g peer => ((), if g = group then updatedLeader peer else table)
    | .build _ => (true, table)
    | .rpc peer _ _ =>
      (if peer = leader then .ok { success := some true }
        else c.elim (.ok (redirectTo leader)) .error, table)

variable {group leader : String} {t : Nat}

/-! ### Opening a connection -/

theorem post_getLeader (conf : String) (old : String) (n : Nat) (table : Option String) :
    Post (stable group leader) t (RaftClient.getLeader group conf (n + 2) old) table
      fun tr r table' => rpcs tr = [] ∧ r = ("", table.getD leader) ∧
        table' = some (table.getD leader) := by
  refine post_perform fun _ => ?_
  cases table with
  | some peer =>
    simp only [stable, if_true]
    exact post_ret ⟨rfl, rfl, rfl⟩
  | none =>
    simp only [stable, if_true]
    refine post_perform fun _ => ?_
    simp only [if_true]
    refine post_perform fun _ => ?_
    simp only [if_true]
    exact post_ret ⟨rfl, rfl, rfl⟩

/-- A new connection goes to the node in the route table, or to the leader if there is none. -/
theorem post_createRaftConnection_stable (c : RaftClient) (conf : String) (i : Fin 2)
    (table : Option String) :
    Post (stable group leader) t (c.createRaftConnection group conf i) table
      fun tr r table' => rpcs tr = [] ∧ r.2.active.ok = true ∧ r.2.active.group = group ∧
        r.2.active.leader = table.getD leader ∧ table' = some (table.getD leader) := by
  refine post_perform fun _ => ?_
  simp only [stable]
  refine post_seq ((post_getLeader conf _ 1 table).mono ?_)
  rintro tr ⟨msg, found⟩ table' ⟨htr, hr, htable⟩
  obtain ⟨rfl, rfl⟩ := Prod.mk.inj hr
  simp only [ne_eq, not_true_eq_false, if_false]
  refine post_perform fun _ => post_ret ?_
  refine ⟨?_, ?_, ?_, ?_, htable⟩
  · show rpcs (tr ++ [⟨.build _, true⟩]) = []
    rw [rpcs_append, htr]
    rfl
  all_goals exact congrArg _ (RaftClient.setOptions_self _ _ _)

/-! ### The attempts -/

def target (leader : String) (c : RaftClient) (table : Option String) : String :=
  if c.active.ok then c.active.leader else table.getD leader

def sends (leader : String) (c : RaftClient) (table : Option String) : Nat :=
  if target leader c table = leader then 1 else 2

def attempts (leader : String) (c : RaftClient) (table : Option String) : Nat :=
  sends leader c table + if c.active.ok then 0 else 1

theorem attempts_le (leader : String) (c : RaftClient) (table : Option String) :
    attempts leader c table ≤ 3 := by
  unfold attempts sends
  split <;> split <;> omega

theorem attempts_pos (leader : String) (c : RaftClient) (table : Option String) :
    0 < attempts leader c table := by
  unfold attempts sends
  split <;> omega

/-- What a loop of `n` attempts leaves: success exactly if that is enough, and then the client is
connected to the leader. -/
structure Converged (leader : String) (n : Nat) (c : RaftClient) (table : Option String)
    (tr : ClientTrace) (r : String × BlockResponse × RaftClient) : Prop where
  success : r.2.1.success.getD false = true ↔ attempts leader c table ≤ n
  connected : attempts leader c table ≤ n → r.1 = "" ∧ r.2.2.active.ok = true ∧
    r.2.2.active.leader = leader ∧ (rpcs tr).length = sends leader c table

theorem Converged.after {n : Nat} {c c' : RaftClient} {table table' : Option String}
    {pre tr : ClientTrace} {r : String × BlockResponse × RaftClient}
    (h : Converged leader n c' table' tr r)
    (hatt : attempts leader c table = attempts leader c' table' + 1)
    (hreq : sends leader c table = sends leader c' table' + (rpcs pre).length) :
    Converged leader (n + 1) c table (pre ++ tr) r := by
  have hiff : attempts leader c table ≤ n + 1 ↔ attempts leader c' table' ≤ n := by omega
  refine ⟨?_, fun hle => ?_⟩
  · rw [hiff]
    exact h.success
  · obtain ⟨htext, hok, hldr, hrpcs⟩ := h.connected (hiff.mp hle)
    refine ⟨htext, hok, hldr, ?_⟩
    rw [rpcs_append, List.length_append, hrpcs, hreq, Nat.add_comm]

theorem post_writeFrom_stable (hpeer : leader ≠ emptyPeer) (req : BlockRequest) (data : Bytes) :
    ∀ (n : Nat) (msg : String) (resp : BlockResponse) (c : RaftClient) (table : Option String),
      resp.success.getD false = false → c.active.group = group →
      Post (stable group leader) t (RaftClient.writeFrom req data n msg resp c) table
        fun tr r _ => Converged leader n c table tr r := by
  intro n
  induction n with
  | zero =>
    intro msg resp c table hresp _
    have hpos := attempts_pos leader c table
    have hnot : ¬ attempts leader c table ≤ 0 := by omega
    refine post_ret ⟨?_, fun h => absurd h hnot⟩
    rw [hresp]
    exact iff_of_false Bool.false_ne_true hnot
  | succ n ih =>
    intro msg resp c table hresp hgroup
    -- an attempt that failed with the table `table'`, after the calls `pre`
    have hagain : ∀ (msg' : String) (resp' : BlockResponse) (table' : Option String)
        (pre : ClientTrace), resp'.success.getD false = false →
        attempts leader c table = (if table'.getD leader = leader then 1 else 2) + 1 →
        sends leader c table = (if table'.getD leader = leader then 1 else 2) + (rpcs pre).length →
        Post (stable group leader) t (c.createRaftConnection group c.active.conf (c.idx + 1)
            >>= fun x => RaftClient.writeFrom req data n msg' resp' x.2) table'
          fun tr r _ => Converged leader (n + 1) c table (pre ++ tr) r := by
      intro msg' resp' table' pre hresp' hatt hreq
      refine post_seq ((post_createRaftConnection_stable c _ _ table').mono ?_)
      rintro tr x table'' ⟨htr, hok, hgrp, hldr, -⟩
      refine (ih msg' resp' x.2 table'' hresp' hgrp).mono fun tr' r _ h => ?_
      have hsends : sends leader x.2 table'' = if table'.getD leader = leader then 1 else 2 := by
        unfold sends target
        rw [hok, hldr, if_pos rfl]
      rw [← List.append_assoc]
      refine h.after ?_ ?_
      · unfold attempts at hatt ⊢
        rw [hatt, hsends, hok, if_pos rfl, Nat.add_zero]
      · rw [hreq, hsends, rpcs_append, htr, List.append_nil]
    by_cases hact : c.active.ok = true
    · have htarget : target leader c table = c.active.leader := if_pos hact
      simp only [RaftClient.writeFrom, hact, Bool.true_eq_false, if_false]
      refine post_perform fun choice => ?_
      by_cases hldr : c.active.leader = leader
      · -- the leader answers
        have hsends : sends leader c table = 1 := by rw [sends, htarget, if_pos hldr]
        have hatt : attempts leader c table = 1 := by rw [attempts, hsends, hact]; rfl
        simp only [hldr, if_true]
        refine post_ret ⟨?_, fun _ => ⟨rfl, hact, hldr, ?_⟩⟩
        · rw [hatt]
          exact iff_of_true rfl (by omega)
        · rw [hsends]
          rfl
      · have hsends : sends leader c table = 2 := by rw [sends, htarget, if_neg hldr]
        have hatt : attempts leader c table = 2 := by rw [attempts, hsends, hact]; rfl
        -- after either outcome the route table leads to the leader
        cases choice with
        | none =>
          simp only [hldr, if_false, Option.elim_none, redirectTo, Option.getD_some, if_true]
          refine post_perform fun choice' => ?_
          simp only [hgroup, if_true, updatedLeader, hpeer, if_false]
          exact hagain _ (redirectTo leader) (some leader) [⟨.rpc c.active.leader req data, _⟩,
            ⟨.updateLeader _ leader, ()⟩] rfl (by simp [hatt]) (by simp [hsends]; rfl)
        | some text =>
          simp only [hldr, if_false, Option.elim_some]
          refine post_perform fun choice' => ?_
          simp only [hgroup, if_true, updatedLeader]
          exact hagain _ {} none [⟨.rpc c.active.leader req data, _⟩,
            ⟨.updateLeader _ emptyPeer, ()⟩] rfl (by simp [hatt]) (by simp [hsends]; rfl)
    · have hoff : c.active.ok = false := (Bool.not_eq_true _).mp hact
      simp only [RaftClient.writeFrom, hoff, if_true, hgroup]
      refine hagain msg {} table [] rfl ?_ ?_
      · unfold attempts sends target
        rw [hoff]
        rfl
      · unfold sends target
        rw [hoff]
        rfl

/-- **`Write` finds the leader**: in a group at rest, whatever a client of the group and the route
table know of the leader, a loop of `n` attempts succeeds exactly when `n` is at least `attempts`,
and so the three of `Write` do.  It sends one request, or two if the first goes to another node, and
leaves the client connected to the leader. -/
theorem write_converges (group leader : String) (hpeer : leader ≠ emptyPeer) (t : Nat)
    (req : BlockRequest) (data : Bytes) (c : RaftClient) (hc : c.active.group = group)
    (table : Option String) :
    (∀ n, Post (stable group leader) t (RaftClient.writeFrom req data n "" {} c) table
      fun _ r _ => r.2.1.success.getD false = true ↔ attempts leader c table ≤ n) ∧
    Post (stable group leader) t (c.write req data) table fun tr r _ =>
      r.1 = "" ∧ r.2.1.success.getD false = true ∧ r.2.2.active.ok = true ∧
        r.2.2.active.leader = leader ∧ (rpcs tr).length = sends leader c table := by
  have hloop := fun n => @post_writeFrom_stable group leader t hpeer req data n "" {} c
    table rfl hc
  refine ⟨fun n => (hloop n).mono fun _ _ _ h => h.success, (hloop 3).mono fun _ r _ h => ?_⟩
  have hle := attempts_le leader c table
  obtain ⟨htext, hok, hldr, hrpcs⟩ := h.connected hle
  exact ⟨htext, h.success.mpr hle, hok, hldr, hrpcs⟩

def staleClient : RaftClient where
  raftOptions _ := { group := "g", leader := "10.0.0.1:8081:0", ok := true }
  idx := Fin.last 1

theorem write_converges_stale :
    attempts "10.0.0.2:8081:0" staleClient none = 2 ∧
      Post (stable "g" "10.0.0.2:8081:0") 0 (staleClient.write {} []) none fun tr r _ =>
        r.1 = "" ∧ r.2.2.active.leader = "10.0.0.2:8081:0" ∧ (rpcs tr).length = 2 := by
  refine ⟨by decide, (write_converges "g" "10.0.0.2:8081:0" (by decide) 0 {} [] staleClient rfl
    none).2.mono ?_⟩
  rintro tr r _ ⟨htext, -, -, hldr, hrpcs⟩
  exact ⟨htext, hldr, hrpcs⟩

/-- A client without a connection needs all three attempts when the route table is outdated. -/
example : attempts "b:1:0" {} (some "a:1:0") = 3 := by decide

end SimSearch.Raft.Convergence
