import SimSearch.Master.Entity
import SimSearch.Lib.Program

/-!
# What the master calls

The operations that the handlers of the master are made of: the calls of
`master/etcdcluster/etcd_client.go` and `distributed_lock.go`, the HTTP requests of
`HttpOneNode`, the clock, and the order in which Go visits a map or runs the tasks of
`ParallelExecuteWithResults`.

`master net` is the machine that runs them: a store with the DDL lock, and a network
`net` of which nothing is assumed.  A call to etcd that fails has no effect.
-/

namespace SimSearch.Master

open SimSearch.Lib

/-! ### Operations -/

structure Status where
  code : Int := 0
  msg : String := ""
  deriving DecidableEq, Repr

inductive Body
  | psCreate (space : InnerSpace) (curPartition : Partition)
  | psDelete (dbName spaceName : String)
  | routerCreate (space : InnerSpace)
  | routerDelete (dbName spaceName : String)
  deriving DecidableEq, Repr

structure Task where
  ip : String
  port : Int
  body : Body
  deriving DecidableEq, Repr

/-- What `PostRequest` leaves: the status in the response, and an error text. -/
structure Reply where
  status : Status := {}
  err : String := ""
  deriving DecidableEq, Repr

def Reply.ok (r : Reply) : Bool := r.err == "" && r.status.code == 0

/-- An order in which `n` things are visited. -/
abbrev Order (n : Nat) := { l : List Nat // l.Perm (List.range n) }

inductive Op
  | newSession
  /-- The `attempt`-th `Mutex.TryLock` of `EtcdLocker.TryLock`. -/
  | tryLock (attempt : Nat)
  | unlock
  | get (key : String)
  | put (key val : String)
  | delete (key : String)
  | scan (pre : String)
  | newId (key : String)
  | post (task : Task)
  | now
  | order (n : Nat)

/-- A call to etcd answers with an error text or a value. -/
abbrev Res : Op → Type
  | .newSession => Except String Unit
  | .tryLock _ => Bool
  | .unlock => Bool
  | .get _ => Except String (Option String)
  | .put _ _ => Except String Unit
  | .delete _ => Except String Unit
  | .scan _ => Except String (List (String × String))
  | .newId _ => Except String Int
  | .post _ => Reply
  | .now => String
  | .order n => Order n

abbrev Prog := Program Op Res

abbrev perform (o : Op) : Prog (Res o) := Program.perform o

/-! ### The machine -/

/-- The network, with the nodes behind it: what a request does to them and the reply
that comes back. -/
structure Network where
  State : Type
  Choice : Type
  send : State → Task → Choice → Reply × State

/-- What the master's calls act on: the store, the holder of the DDL lock, and the
network. -/
structure World (net : Network) where
  etcd : Std.TreeMap String String := ∅
  lock : Option Nat := none
  net : net.State

/-- What the world picks for a call: the text with which an etcd call fails, if it does;
for `now` and `order` the value itself. -/
abbrev Choice (net : Network) : Op → Type
  | .newSession => Option String
  | .tryLock _ => Option String
  | .unlock => Option String
  | .get _ => Option String
  | .put _ _ => Option String
  | .delete _ => Option String
  | .scan _ => Option String
  | .newId _ => Option String
  | .post _ => net.Choice
  | .now => String
  | .order n => Order n

def startsWith (pre key : String) : Bool := pre.toList.isPrefixOf key.toList

/-- The entries of a scan, in the order of their keys. -/
def scanEtcd (etcd : Std.TreeMap String String) (pre : String) : List (String × String) :=
  etcd.toList.filter fun e => startsWith pre e.1

/-- The transaction of `NewIDGenerate`, with `IdBaseVal` zero; a value that is no `int64`
is an error, and the sum wraps. -/
def nextId (old : Option String) : Option Int :=
  match old with
  | none => some 0
  | some v =>
    if v = "" then some 0
    else (parseInt64 v).map fun n => if n = 2 ^ 63 - 1 then -2 ^ 63 else n + 1

def exec (net : Network) (t : Nat) (w : World net) : (o : Op) → Choice net o → Res o × World net
  | .newSession, c => (match c with | some e => .error e | none => .ok (), w)
  | .tryLock _, c =>
    -- the mutex is free or already this session's, and the call goes through
    if c = none ∧ (w.lock = none ∨ w.lock = some t) then (true, { w with lock := some t })
    else (false, w)
  | .unlock, c =>
    if c = none ∧ w.lock = some t then (true, { w with lock := none }) else (false, w)
  | .get key, c => (match c with | some e => .error e | none => .ok w.etcd[key]?, w)
  | .put key val, c =>
    match c with
    | some e => (.error e, w)
    | none => (.ok (), { w with etcd := w.etcd.insert key val })
  | .delete key, c =>
    match c with
    | some e =>
      (.error ("failed to delete " ++ key ++ " from etcd store, the error is :" ++ e), w)
    | none =>
      (if w.etcd.contains key then .ok () else .error ("key not exist error, key:" ++ key),
        { w with etcd := w.etcd.erase key })
  | .scan pre, c => (match c with | some e => .error e | none => .ok (scanEtcd w.etcd pre), w)
  | .newId key, c =>
    match c, nextId w.etcd[key]? with
    | some e, _ => (.error e, w)
    | none, none => (.error ("increment id error in storage :" ++ w.etcd[key]?.getD ""), w)
    | none, some n => (.ok n, { w with etcd := w.etcd.insert key (toString n) })
  | .post task, c =>
    let (reply, s) := net.send w.net task c
    (reply, { w with net := s })
  | .now, c => (c, w)
  | .order _, c => (c, w)

def master (net : Network) : Machine Op Res where
  State := World net
  Choice := Choice net
  exec := exec net

end SimSearch.Master
