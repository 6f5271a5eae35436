import SimSearch.Master.Answers
import SimSearch.Master.Requests

/-!
# The DDL lock

`createSpace` and `register` give up when `TryLock` fails; `deleteSpace` does not look at
its result.  If no delete loses its last attempt, then every write and every call to a
node happens under the lock (`safe_serve`), and a thread that has written keeps the lock
until it unlocks (`held_of_wrote`).
-/

namespace SimSearch.Master

open SimSearch.Lib Program

variable {net : Network} {t : Nat}

/-! ### The proof of a request -/

/-- The operation writes to etcd or calls a node. -/
def Touches : Op → Prop
  | .put _ _ | .delete _ | .newId _ | .post _ => True
  | _ => False

def Request.isDelete : Request → Bool
  | .delete _ => true
  | _ => false

/-- A delete does not lose its last attempt at the lock. -/
def LastTryTaken (net : Network) (t : Nat) (i : Request) (w : World net) :
    (o : Op) → Choice net o → Prop
  | .tryLock n, c => n = 19 → i.isDelete = true → (exec net t w (.tryLock n) c).1 = true
  | _, _ => True

def NoUnlock (tr : Trace Op Res) : Prop := ∀ e ∈ tr, e.1 ≠ .unlock

theorem NoUnlock.snoc {tr : Trace Op Res} (h : NoUnlock tr) {e : Σ o, Res o}
    (he : e.1 ≠ .unlock) : NoUnlock (tr ++ [e]) := by
  intro x hx
  rcases List.mem_append.mp hx with hx | hx
  · exact h x hx
  · rw [List.mem_singleton.mp hx]
    exact he

theorem lock_rely_refl (net : Network) (t : Nat) (w : World net) (_ : True) :
    w.lock = some t ↔ w.lock = some t := Iff.rfl

theorem lock_rely_trans (net : Network) (t : Nat) (w w' w'' : World net)
    (h : w'.lock = some t ↔ w.lock = some t) (h' : w''.lock = some t ↔ w'.lock = some t) :
    w''.lock = some t ↔ w.lock = some t := h'.trans h

/-- Others leave the lock to its holder, and a thread touches the cluster only under the
lock, before it unlocks. -/
def lockProtocol (net : Network) : Protocol (master net) Request where
  inv _ := True
  rely t w w' := w'.lock = some t ↔ w.lock = some t
  allow t i _ w o c := LastTryTaken net t i w o c
  pre t _ tr w o := Touches o → w.lock = some t ∧ NoUnlock tr
  rely_refl := lock_rely_refl net
  rely_trans := lock_rely_trans net

theorem lock_fair (w : World net) (o : Op) (c : Choice net o) :
    (lockProtocol net).Fair t w (exec net t w o c).2 :=
  ⟨trivial, fun _ hu => exec_lock_other w o c hu⟩

/-- **A program without operations on the lock is safe under the lock.** -/
theorem safe_locked {i : Request} {α : Type} {p : Prog α} (hp : p.Uses fun o => ¬ LockOp o)
    {tr : Trace Op Res} {w : World net} (hw : w.lock = some t) (htr : NoUnlock tr) :
    Safe (lockProtocol net) t i (fun _ _ _ => True) p tr w := by
  have hsafe := safe_of_uses (M := master net) (P := lockProtocol net) (t := t) (i := i)
    (K := fun tr (w : World net) => w.lock = some t ∧ NoUnlock tr) ?_ ?_ hp ⟨hw, htr⟩
  · exact hsafe.mono fun _ _ _ _ _ => trivial
  · rintro tr w w' ⟨hw, htr⟩ hrely -
    exact ⟨hrely.mpr hw, htr⟩
  · rintro tr w o ho ⟨hw, htr⟩ -
    refine ⟨fun _ => ⟨hw, htr⟩, fun c _ => ⟨lock_fair w o c, ?_, htr.snoc ?_⟩⟩
    · exact (exec_lock w c ho).trans hw
    · rintro rfl
      exact ho trivial

theorem frameRule_lock (i : Request) :
    FrameRule (lockProtocol net) t i (fun tr _ => NoUnlock tr) fun _ _ => True where
  lock _ _ h := h
  stable _ _ _ h _ _ := h
  enter tr w o ho htr _ := by
    refine ⟨fun hto => ?_, fun c _ => ⟨lock_fair w o c, htr.snoc ?_⟩⟩
    · cases o <;> first | exact ho.elim | exact hto.elim
    · rintro rfl
      exact ho
  giveUp _ _ _ := trivial
  stableU _ _ _ _ _ _ := trivial
  leave _ w _ _ := ⟨fun h => h.elim, fun c _ => lock_fair w .unlock c⟩

/-- **Every request touches the cluster only under the lock.** -/
theorem safe_serve (json : SpaceJson) (t : Nat) (i : Request) (w : World net) :
    Safe (lockProtocol net) t i (fun _ _ _ => True) (serve json i) [] w := by
  refine (frameRule_lock i).safe (S := i.isDelete = true)
    (fun _ _ e he => (nomatch he)) (fun hdel _ _ _ hc => hc rfl hdel) ?_ ?_ ?_ w
  · intro api _ _ tr w htr hlock
    exact safe_locked ((uses_createLocked json _).mono PublishOp.not_lockOp) hlock htr
  · rintro req rfl b tr w ⟨htr, hlock, hdel⟩
    exact safe_locked ((uses_deleteBody json req).mono DeleteOp.not_lockOp) (hlock (hdel rfl)) htr
  · intro req _ tr w htr hlock
    exact safe_locked ((uses_registerLocked json req).mono ReadOp.not_lockOp) hlock htr

/-! ### Runs -/

def lastTryLost (c : Cluster net) (t : Nat) (pick : (o : Op) → Choice net o) : Bool :=
  match c.threads t with
  | some ⟨.delete _, _, .call (.tryLock 19) _⟩ =>
    !(exec net t c.state (.tryLock 19) (pick (.tryLock 19))).1
  | _ => false

/-- From outside only the store changes, and no delete loses its last attempt. -/
def LocksTaken (c : Cluster net) : Event (master net) Request → Prop
  | .spawn _ _ => True
  | .act t pick => lastTryLost c t pick = false
  | .env w => World.lock w = World.lock c.state

instance (c : Cluster net) : ∀ e, Decidable (LocksTaken c e)
  | .spawn _ _ => instDecidableTrue
  | .act t pick => inferInstanceAs (Decidable (lastTryLost c t pick = false))
  | .env w => inferInstanceAs (Decidable (World.lock w = World.lock c.state))

theorem lastTryTaken_of_not_lost {c : Cluster net} {pick : (o : Op) → Choice net o}
    (h : lastTryLost c t pick = false) {i : Request} {tr : Trace Op Res} {o : Op}
    {k : Res o → Prog Outcome} (ht : c.threads t = some ⟨i, tr, .call o k⟩) :
    LastTryTaken net t i c.state o (pick o) := by
  cases o with
  | tryLock n =>
    intro hn hdel
    subst hn
    cases i with
    | delete req =>
      simp only [lastTryLost, ht, Bool.not_eq_false'] at h
      exact h
    | create req => cases hdel
    | register req => cases hdel
  | _ => trivial

theorem locksTaken_ok (c : Cluster net) (e : Event (master net) Request) (h : LocksTaken c e) :
    (lockProtocol net).Ok c e := by
  cases e with
  | spawn t i => trivial
  | env w =>
    refine ⟨trivial, fun t => ?_⟩
    show World.lock w = some t ↔ World.lock c.state = some t
    rw [show World.lock w = World.lock c.state from h]
  | act t pick => exact fun i tr o k ht => lastTryTaken_of_not_lost h ht

def nextTouches (c : Cluster net) (t : Nat) : Bool :=
  match c.threads t with
  | some ⟨_, _, .call o _⟩ =>
    match o with
    | .put _ _ | .delete _ | .newId _ | .post _ => true
    | _ => false
  | _ => false

theorem nextTouches_iff {c : Cluster net} {t : Nat} : nextTouches c t = true ↔
    ∃ i tr o k, c.threads t = some ⟨i, tr, .call o k⟩ ∧ Touches o := by
  unfold nextTouches
  constructor
  · intro h
    rcases ht : c.threads t with _ | ⟨i, tr, a | ⟨o, k⟩⟩
    · rw [ht] at h; cases h
    · rw [ht] at h; cases h
    · rw [ht] at h
      refine ⟨i, tr, o, k, rfl, ?_⟩
      cases o <;> trivial
  · rintro ⟨i, tr, o, k, ht, ho⟩
    rw [ht]
    cases o <;> first | rfl | exact ho.elim

def Wrote (c : Cluster net) (t : Nat) : Prop :=
  ∃ th, c.threads t = some th ∧ ∃ e ∈ th.trace, Touches e.1

/-- There is a run from here in which it does so once more. -/
def WillTouch (json : SpaceJson) (c : Cluster net) (t : Nat) : Prop :=
  ∃ c', Reach (step (serve json)) LocksTaken c c' ∧ nextTouches c' t = true

def WritersHold (c : Cluster net) : Prop :=
  c.All fun t th w => (∃ e ∈ th.trace, Touches e.1) → NoUnlock th.trace → World.lock w = some t

theorem writersHold_step {json : SpaceJson} (c : Cluster net) (e : Event (master net) Request)
    (hsafe : AllSafe (lockProtocol net) (fun _ _ _ _ _ => True) c) (hc : WritersHold c)
    (hok : LocksTaken c e) : WritersHold (step (serve json) c e) := by
  refine all_step hc ?_ ?_ ?_
  · rintro t i - - ⟨e, he, -⟩
    cases he
  · intro t pick i tr o k _ ht
    refine ⟨fun hwrote hno => ?_, fun u th hut hu hwrote hno => ?_⟩
    · have hne : o ≠ .unlock := fun h =>
        hno _ (List.mem_append_right _ (List.mem_singleton_self _)) h
      have hold : World.lock c.state = some t := by
        obtain ⟨e, he, hte⟩ := hwrote
        rcases List.mem_append.mp he with he | he
        · exact hc t _ ht ⟨e, he, hte⟩ fun x hx => hno x (List.mem_append_left _ hx)
        · rw [List.mem_singleton.mp he] at hte
          exact (hsafe.pre ht hte).1
      exact exec_lock_self c.state o (pick o) hne hold
    · exact (exec_lock_other c.state o (pick o) hut).mpr (hc u th hu hwrote hno)
  · rintro w rfl t th ht hwrote hno
    exact (show World.lock w = World.lock c.state from hok).trans (hc t th ht hwrote hno)

theorem locked_reach {json : SpaceJson} {w : World net} {c : Cluster net}
    (h : Reach (step (serve json)) LocksTaken (Config.init w) c) :
    AllSafe (lockProtocol net) (fun _ _ _ _ _ => True) c ∧ WritersHold c := by
  have hinit : AllSafe (lockProtocol net) (fun _ _ _ _ _ => True)
      (Config.init w : Cluster net) := allSafe_init trivial
  refine h.invariant (fun c => AllSafe (lockProtocol net) (fun _ _ _ _ _ => True) c ∧ WritersHold c)
    ⟨hinit, all_init (M := master net) w⟩ ?_
  rintro c e ⟨hsafe, hhold⟩ hok
  exact ⟨allSafe_step (fun t i w _ => safe_serve json t i w) c e hsafe (locksTaken_ok c e hok),
    writersHold_step c e hsafe hhold hok⟩

/-- A thread that has written and will write again holds the lock in between. -/
theorem held_of_wrote {json : SpaceJson} {w : World net} {c : Cluster net}
    (h : Reach (step (serve json)) LocksTaken (Config.init w) c) {t : Nat} (hwrote : Wrote c t)
    (hwill : WillTouch json c t) : World.lock c.state = some t := by
  obtain ⟨th, ht, hwrote⟩ := hwrote
  obtain ⟨c', hreach, hnext⟩ := hwill
  obtain ⟨i, tr, o, k, ht', ho⟩ := nextTouches_iff.mp hnext
  obtain ⟨th', hth', -, hpre⟩ := reach_threads hreach ht
  rw [ht'] at hth'
  cases hth'
  have hno : NoUnlock tr := ((locked_reach (h.trans hreach)).1.pre ht' ho).2
  exact (locked_reach h).2 t th ht hwrote fun e he => hno e (hpre.subset he)

/-- **DDL requests exclude each other**, in every run in which no delete loses its last
attempt at the lock: a request writes to etcd or calls a node only while it holds the
lock, and no two requests are both between their first and their last write. -/
theorem ddl_mutual_exclusion (json : SpaceJson) (w : World net) (c : Cluster net)
    (h : Reach (step (serve json)) LocksTaken (Config.init w) c) :
    (∀ t, nextTouches c t = true → World.lock c.state = some t) ∧
      ∀ t u, Wrote c t → WillTouch json c t → Wrote c u → WillTouch json c u → t = u := by
  refine ⟨fun t ht => ?_, fun t u ht ht' hu hu' => ?_⟩
  · obtain ⟨i, tr, o, k, hth, ho⟩ := nextTouches_iff.mp ht
    exact ((locked_reach h).1.pre hth ho).1
  · have hboth := (held_of_wrote h ht ht').symm.trans (held_of_wrote h hu hu')
    exact Option.some.inj hboth

/-! ### Requests that run alone -/

def Outcome.ddlCode : Outcome → Option Int
  | .ddl ans => some ans.code
  | .reg _ => none

section

variable {pick : (o : Op) → Choice net o} {c : Cluster net} {t : Nat} {i : Request}

def soloRun (pick : (o : Op) → Choice net o) (w : World net) (t : Nat) (i : Request) :
    Trace Op Res × Outcome × World net :=
  runWith (master net) t (fun _ => pick) (serve goJson i) 0 w

def soloEvents (pick : (o : Op) → Choice net o) (w : World net) (t : Nat) (i : Request) :
    List (Event (master net) Request) :=
  .spawn t i :: List.replicate (soloRun pick w t i).1.length (.act t pick)

def alone (pick : (o : Op) → Choice net o) (c : Cluster net) (t : Nat) (i : Request) :
    Cluster net :=
  (soloEvents pick c.state t i).foldl (step (serve goJson)) c

theorem alone_eq (h : c.threads t = none) :
    alone pick c t i = c.set t (soloRun pick c.state t i).2.2
      ⟨i, (soloRun pick c.state t i).1, .ret (soloRun pick c.state t i).2.1⟩ :=
  foldl_alone h _

theorem state_alone (h : c.threads t = none) :
    (alone pick c t i).state = (soloRun pick c.state t i).2.2 := by
  rw [alone_eq h]
  rfl

theorem thread_alone (h : c.threads t = none) :
    (alone pick c t i).threads t
      = some ⟨i, (soloRun pick c.state t i).1, .ret (soloRun pick c.state t i).2.1⟩ := by
  rw [alone_eq h]
  exact Function.update_self ..

theorem threads_alone (h : c.threads t = none) {u : Nat} (hu : u ≠ t) :
    (alone pick c t i).threads u = c.threads u := by
  rw [alone_eq h]
  exact Function.update_of_ne hu ..

end

theorem runWith_delete {json : SpaceJson} {req : DeleteSpaceRequest} {time : String} {d : net.Choice}
    {t : Nat} {w : World net} {detail : String} (hlock : w.lock = none)
    (hval : w.etcd[getSpaceEtcdKey req.dbName req.spaceName]? = some detail)
    (hgate : w.etcd[ddlDisabledKey]? = none) :
    runWith (master net) t (fun _ => smooth net time d) (serve json (.delete (.ok req))) 0 w
      = (⟨.newSession, .ok ()⟩ :: ⟨.tryLock 0, true⟩ ::
          ⟨.get (getSpaceEtcdKey req.dbName req.spaceName), .ok (some detail)⟩ ::
          ⟨.get ddlDisabledKey, .ok none⟩ ::
          (runWith (master net) t (fun _ => smooth net time d)
            ((deleteFound json req detail >>= fun ans => perform .unlock >>= fun _ => pure ans) >>=
              fun ans => pure (Outcome.ddl ans)) 4 { w with lock := some t }).1,
        (runWith (master net) t (fun _ => smooth net time d)
            ((deleteFound json req detail >>= fun ans => perform .unlock >>= fun _ => pure ans) >>=
              fun ans => pure (Outcome.ddl ans)) 4 { w with lock := some t }).2) := by
  have hsession : (master net).exec t w .newSession (smooth net time d .newSession) = (.ok (), w) :=
    rfl
  have htry : (master net).exec t w (.tryLock 0) (smooth net time d (.tryLock 0))
      = (true, { w with lock := some t }) := if_pos ⟨rfl, Or.inl hlock⟩
  have hget : ∀ key, (master net).exec t { w with lock := some t } (.get key)
      (smooth net time d (.get key)) = (.ok w.etcd[key]?, { w with lock := some t }) := fun _ => rfl
  simp only [serve, deleteSpace, deleteBody, tryLock, tryLockFrom, bind_eq, pure_eq, perform,
    Program.perform, Program.bind, runWith, hsession, htry, hget, hval, hgate, if_true]

/-- The stored text matters only for the space that it stands for. -/
theorem deleteFound_congr {json json' : SpaceJson} {req : DeleteSpaceRequest} {detail : String}
    (h : json.unmarshal detail = json'.unmarshal detail) :
    deleteFound json req detail = deleteFound json' req detail := by
  unfold deleteFound
  rw [h]

def imagesRequest : DeleteSpaceRequest := ⟨"database", "images"⟩

def createdSpace (id : Int) : InnerSpace :=
  filledSpace (apiSpaceToInnerSpace goJson sampleApi)
    [{ psId := 1, psIp := "10.0.0.1", psPort := 8081 }] sampleTime id

/-- The delete of the created space that runs alone, from the space that it has found on.
The stored text is not parsed here: what it reads back as is `unmarshal_marshal`. -/
def deleteRest (d : net.Choice) (w : World net) (t : Nat) (id : Int) :
    Trace Op Res × Outcome × World net :=
  runWith (master net) t (fun _ => smooth net sampleTime d)
    ((deleteFound { goJson with unmarshal := fun _ => createdSpace id } imagesRequest
        (goJson.marshal (createdSpace id)) >>= fun ans => perform .unlock >>= fun _ => pure ans) >>=
      fun ans => pure (Outcome.ddl ans)) 4 { w with lock := some t }

def deleteTrace (d : net.Choice) (w : World net) (t : Nat) (id : Int) : Trace Op Res :=
  ⟨.newSession, .ok ()⟩ :: ⟨.tryLock 0, true⟩ ::
    ⟨.get (getSpaceEtcdKey imagesRequest.dbName imagesRequest.spaceName),
      .ok (some (goJson.marshal (createdSpace id)))⟩ ::
    ⟨.get ddlDisabledKey, .ok none⟩ :: (deleteRest d w t id).1

theorem soloRun_delete {d : net.Choice} {w : World net} {t : Nat} {id : Int}
    (hlock : w.lock = none)
    (hval : w.etcd[getSpaceEtcdKey imagesRequest.dbName imagesRequest.spaceName]?
      = some (goJson.marshal (createdSpace id)))
    (hgate : w.etcd[ddlDisabledKey]? = none) :
    soloRun (smooth net sampleTime d) w t (.delete (.ok imagesRequest))
      = (deleteTrace d w t id, (deleteRest d w t id).2) := by
  have hcongr : deleteFound goJson imagesRequest (goJson.marshal (createdSpace id))
      = deleteFound { goJson with unmarshal := fun _ => createdSpace id } imagesRequest
        (goJson.marshal (createdSpace id)) := deleteFound_congr (unmarshal_marshal (createdSpace id))
  refine (runWith_delete hlock hval hgate).trans ?_
  rw [hcongr]
  rfl

theorem state_soloRun_delete {d : net.Choice} {w : World net} {t : Nat} {id : Int}
    (hlock : w.lock = none)
    (hval : w.etcd[getSpaceEtcdKey imagesRequest.dbName imagesRequest.spaceName]?
      = some (goJson.marshal (createdSpace id)))
    (hgate : w.etcd[ddlDisabledKey]? = none) :
    (soloRun (smooth net sampleTime d) w t (.delete (.ok imagesRequest))).2.2
      = (deleteRest d w t id).2.2 := by
  rw [soloRun_delete hlock hval hgate]

/-! ### A delete that loses its last attempt -/

def sampleSpace : InnerSpace :=
  { dbName := "database", spaceName := "images", id := 1, partitionNum := 1, replicaNum := 1,
    fields := [{ name := "embedding", type := "vector", dimension := 4 }],
    partitions := [{ groupName := "database:images:0",
                     replicas := [{ psId := 1, psIp := "10.0.0.1", psPort := 8081 }],
                     ctime := sampleTime, mtime := sampleTime }],
    ctime := sampleTime, mtime := sampleTime }

def storedWorld : World ackNet where
  etcd := ((startedEtcd.insert (getPsRegisterKey "10.0.0.1" 8081 1) "").insert
    (getPsRegisterKey "10.0.0.2" 8081 2) "").insert (getSpaceEtcdKey "database" "images")
      (goJson.marshal sampleSpace)
  net := ()

def go (t : Nat) : Event (master ackNet) Request := .act t (smooth ackNet sampleTime ())

theorem nextUp_smooth (c : Cluster net) (t : Nat) (time : String) (d : net.Choice) :
    nextUp c t (smooth net time d) = true := by
  rcases ht : c.threads t with _ | ⟨i, tr, a | ⟨o, k⟩⟩
  · simp only [nextUp, ht]
  · simp only [nextUp, ht]
  · simp only [nextUp, ht]
    cases o <;> rfl

def createRun : List (Event (master ackNet) Request) :=
  .spawn 0 (.create (.ok moviesApi)) :: List.replicate 9 (go 0)

/-- A create takes the lock; a delete tries twenty times and goes on to read the space and
the gate. -/
def contentionRun : List (Event (master ackNet) Request) :=
  [.spawn 0 (.create (.ok moviesApi)), go 0, go 0,
    .spawn 1 (.delete (.ok ⟨"database", "images"⟩))] ++ List.replicate 23 (go 1)

theorem ddl_mutual_exclusion_create :
    nextTouches (createRun.foldl (step (serve goJson)) (Config.init (sampleWorld "/r"))) 0 = true ∧
      World.lock (createRun.foldl (step (serve goJson)) (Config.init (sampleWorld "/r"))).state
        = some 0 := by
  have hok : RunOk (step (serve goJson)) LocksTaken (Config.init (sampleWorld "/r")) createRun := by
    decide +kernel
  have hnext : nextTouches (createRun.foldl (step (serve goJson))
      (Config.init (sampleWorld "/r"))) 0 = true := by decide +kernel
  exact ⟨hnext, (ddl_mutual_exclusion goJson _ _ (reach_of_runOk _ _ Reach.start hok)).1 0 hnext⟩

/-- From outside only the store changes. -/
def LockExclusive (c : Cluster net) : Event (master net) Request → Prop
  | .env w => World.lock w = World.lock c.state
  | _ => True

theorem reach_contentionRun : Reach (step (serve goJson)) LockExclusive (Config.init storedWorld)
    (contentionRun.foldl (step (serve goJson)) (Config.init storedWorld)) := by
  refine reach_of_runOk _ _ Reach.start (runOk_of_forall _ _ fun e he c => ?_)
  simp only [contentionRun, go, List.mem_append, List.mem_cons, List.not_mem_nil, or_false,
    List.mem_replicate] at he
  rcases he with (rfl | rfl | rfl | rfl) | ⟨-, rfl⟩ <;> trivial

/-- **A delete writes although a create holds the lock.** -/
theorem deleteSpace_writes_without_lock :
    nextTouches (contentionRun.foldl (step (serve goJson)) (Config.init storedWorld)) 1 = true ∧
      World.lock (contentionRun.foldl (step (serve goJson)) (Config.init storedWorld)).state
        = some 0 ∧
      ¬ ∀ c : Cluster ackNet,
        Reach (step (serve goJson)) LockExclusive (Config.init storedWorld) c →
          ∀ t, nextTouches c t = true → World.lock c.state = some t := by
  have hnext : nextTouches (contentionRun.foldl (step (serve goJson)) (Config.init storedWorld)) 1
      = true := by decide +kernel
  have hlock : World.lock (contentionRun.foldl (step (serve goJson))
      (Config.init storedWorld)).state = some 0 := by decide +kernel
  refine ⟨hnext, hlock, fun hall => ?_⟩
  have hheld := hall _ reach_contentionRun 1 hnext
  rw [hlock] at hheld
  cases hheld

end SimSearch.Master
