import SimSearch.Master.Footprint
import SimSearch.Lib.Concurrent

/-!
# Requests side by side

Any number of masters serve any number of requests at once: a request is a thread, and
its session is its number.

All three handlers have one frame: a session, the attempts at the lock, the work, the
deferred unlock.  `FrameRule` lists what a protocol must grant to this frame, and
`FrameRule.safe` is the frame's proof: what is left for a protocol is the work of each
handler, `createLocked`, `deleteBody` and `registerLocked`.
-/

namespace SimSearch.Master

open SimSearch.Lib Program

/-! ### Requests -/

inductive Request
  | create (req : Except String ApiSpace)
  | delete (req : Except String DeleteSpaceRequest)
  | register (req : Except String RegisterRequest)

inductive Outcome
  | ddl (ans : Answer)
  | reg (ans : RegisterAnswer)
  deriving DecidableEq, Repr

def serve (json : SpaceJson) : Request → Prog Outcome
  | .create req => createSpace json req >>= fun ans => pure (.ddl ans)
  | .delete req => deleteSpace json req >>= fun ans => pure (.ddl ans)
  | .register req => register json req >>= fun ans => pure (.reg ans)

abbrev Cluster (net : Network) := Config (master net) Request Outcome

variable {net : Network} {t : Nat}

/-- The call goes through, if it is one to etcd. -/
def etcdUp (net : Network) : (o : Op) → Choice net o → Bool
  | .newSession, c | .tryLock _, c | .unlock, c | .get _, c | .put _ _, c | .delete _, c
  | .scan _, c | .newId _, c => Option.isNone c
  | .post _, _ | .now, _ | .order _, _ => true

def nextUp (c : Cluster net) (t : Nat) (pick : (o : Op) → Choice net o) : Bool :=
  match c.threads t with
  | some ⟨_, _, .call o _⟩ => etcdUp net o (pick o)
  | _ => true

theorem etcdUp_of_nextUp {c : Cluster net} {pick : (o : Op) → Choice net o}
    (h : nextUp c t pick = true) {i : Request} {tr : Trace Op Res} {o : Op}
    {k : Res o → Prog Outcome} (ht : c.threads t = some ⟨i, tr, .call o k⟩) :
    etcdUp net o (pick o) = true := by
  simp only [nextUp, ht] at h
  exact h

/-! ### The lock -/

theorem exec_lock (w : World net) {o : Op} (c : Choice net o) (ho : ¬ LockOp o) :
    (exec net t w o c).2.lock = w.lock := by
  cases o with
  | newSession => exact absurd trivial ho
  | tryLock i => exact absurd trivial ho
  | unlock => exact absurd trivial ho
  | put k v => cases c <;> rfl
  | delete k => cases c <;> rfl
  | newId k =>
    simp only [exec]
    cases c with
    | some e => rfl
    | none => cases nextId w.etcd[k]? <;> rfl
  | _ => rfl

/-- **No thread takes the lock from another or gives it to it.** -/
theorem exec_lock_other (w : World net) (o : Op) (c : Choice net o) {u : Nat} (hu : u ≠ t) :
    (exec net t w o c).2.lock = some u ↔ w.lock = some u := by
  by_cases ho : LockOp o
  · cases o with
    | newSession => exact Iff.rfl
    | tryLock i =>
      simp only [exec]
      split_ifs with h
      · have hne : w.lock ≠ some u := by
          intro hw
          rcases h.2 with h | h <;> rw [h] at hw
          · cases hw
          · exact hu (Option.some.inj hw).symm
        exact iff_of_false (fun heq => hu (Option.some.inj heq).symm) hne
      · exact Iff.rfl
    | unlock =>
      simp only [exec]
      split_ifs with h
      · have hne : w.lock ≠ some u := by
          rw [h.2]
          exact fun heq => hu (Option.some.inj heq).symm
        exact iff_of_false not_false hne
      · exact Iff.rfl
    | _ => exact ho.elim
  · rw [exec_lock w c ho]

/-- The holder keeps the lock until it unlocks. -/
theorem exec_lock_self (w : World net) (o : Op) (c : Choice net o) (ho : o ≠ .unlock)
    (hw : w.lock = some t) : (exec net t w o c).2.lock = some t := by
  by_cases hlock : LockOp o
  · cases o with
    | newSession => exact hw
    | tryLock i =>
      simp only [exec]
      split_ifs
      · rfl
      · exact hw
    | unlock => exact absurd rfl ho
    | _ => exact hlock.elim
  · rw [exec_lock w c hlock]
    exact hw

theorem lock_of_exec {w : World net} {o : Op} {c : Choice net o}
    (h : (exec net t w o c).2.lock = some t) : w.lock = some t ∨ ∃ n, o = .tryLock n := by
  by_cases ho : LockOp o
  · cases o with
    | newSession => exact Or.inl h
    | tryLock n => exact Or.inr ⟨n, rfl⟩
    | unlock =>
      simp only [exec] at h
      split_ifs at h
      exact Or.inl h
    | _ => exact ho.elim
  · rw [exec_lock w c ho] at h
    exact Or.inl h

theorem lock_of_tryLock {w : World net} {i : Nat} {c : Choice net (.tryLock i)}
    (h : (exec net t w (.tryLock i) c).1 = true) :
    (exec net t w (.tryLock i) c).2.lock = some t := by
  simp only [exec] at h ⊢
  split_ifs at h ⊢
  rfl

theorem CreateOp.not_lockOp {db sp : String} : ∀ o, CreateOp db sp o → ¬ LockOp o := by
  intro o h hlock
  cases o <;> first | exact h.elim | exact hlock.elim

theorem PublishOp.not_lockOp {json : SpaceJson} {db sp : String} :
    ∀ o, PublishOp json db sp o → ¬ LockOp o := by
  rintro o (h | rfl | ⟨space, -, -, rfl⟩)
  · exact CreateOp.not_lockOp o h
  · exact fun hlock => hlock
  · exact fun hlock => hlock

theorem PurgeOp.not_lockOp (o : Op) (h : PurgeOp o) : ¬ LockOp o := by
  intro hlock
  cases o <;> first | exact h.elim | exact hlock.elim

theorem DeleteOp.not_lockOp {db sp : String} : ∀ o, DeleteOp db sp o → ¬ LockOp o := by
  rintro o (h | rfl | rfl)
  · exact PurgeOp.not_lockOp o h
  · exact fun hlock => hlock
  · exact fun hlock => hlock

theorem ReadOp.not_lockOp (o : Op) (h : ReadOp o) : ¬ LockOp o :=
  CreateOp.not_lockOp o (@ReadOp.createOp "" "" o h)

/-! ### What the handlers write -/

/-- The operations of the handlers: they write notes and spaces, and draw space ids. -/
def HandlerOp : Op → Prop
  | .put key _ | .delete key => NoteKey key ∨ ∃ db sp, key = getSpaceEtcdKey db sp
  | .newId key => key = genSpaceIdKey
  | _ => True

theorem LockOp.handlerOp (o : Op) (h : LockOp o) : HandlerOp o := by
  cases o <;> first | exact h.elim | trivial

theorem CreateOp.handlerOp {db sp : String} (o : Op) (h : CreateOp db sp o) : HandlerOp o := by
  cases o with
  | put key val => exact Or.inl h
  | delete key => exact h.elim
  | newId key => exact h
  | _ => trivial

theorem PublishOp.handlerOp {json : SpaceJson} {db sp : String} (o : Op)
    (h : PublishOp json db sp o) : HandlerOp o := by
  rcases h with h | rfl | ⟨space, -, -, rfl⟩
  · exact CreateOp.handlerOp o h
  · exact Or.inl NoteKey.disabled
  · exact Or.inr ⟨db, sp, rfl⟩

theorem DeleteOp.handlerOp {db sp : String} (o : Op) (h : DeleteOp db sp o) : HandlerOp o := by
  rcases h with h | rfl | rfl
  · cases o with
    | put key val => exact Or.inl h
    | delete key => exact h.elim
    | newId key => exact h.elim
    | _ => trivial
  · exact Or.inl NoteKey.disabled
  · exact Or.inr ⟨db, sp, rfl⟩

theorem uses_serve (json : SpaceJson) (i : Request) : (serve json i).Uses HandlerOp := by
  have hlock := (uses_tryLock 20).mono LockOp.handlerOp
  rcases i with (_ | api) | (_ | req) | (_ | req)
  · trivial
  · refine uses_seq ((uses_createSpace json api).mono ?_) fun _ => trivial
    rintro o (h | h)
    · exact LockOp.handlerOp o h
    · exact PublishOp.handlerOp o h
  · trivial
  · refine uses_seq (uses_call trivial fun r => ?_) fun _ => trivial
    cases r with
    | error e => trivial
    | ok u =>
      refine uses_seq hlock fun _ => uses_seq ((uses_deleteBody json req).mono ?_) fun ans => ?_
      · exact DeleteOp.handlerOp
      · exact uses_call trivial fun _ => trivial
  · trivial
  · refine uses_seq (uses_call trivial fun r => ?_) fun _ => trivial
    cases r with
    | error e => trivial
    | ok u =>
      refine uses_seq (uses_seq hlock fun b => ?_) fun ans => uses_call trivial fun _ => trivial
      cases b with
      | false => trivial
      | true =>
        exact (uses_registerLocked json req).mono fun o h => CreateOp.handlerOp o
          (@ReadOp.createOp "" "" o h)

/-! ### The frame of a handler -/

/-- The operations by which a handler gets to its work. -/
def EntryOp : Op → Prop
  | .newSession | .tryLock _ => True
  | _ => False

/-- What the frame of the handlers needs under a protocol.  `K` holds until the lock is
taken, `U` from the end of the work to the unlock. -/
structure FrameRule (P : Protocol (master net) Request) (t : Nat) (i : Request)
    (K U : Trace Op Res → World net → Prop) : Prop where
  lock : ∀ w w' : World net, P.rely t w w' → (w'.lock = some t ↔ w.lock = some t)
  stable : ∀ tr w w', K tr w → P.rely t w w' → P.inv w' → K tr w'
  enter : ∀ tr w o, EntryOp o → K tr w → P.inv w → P.pre t i tr w o ∧
    ∀ c : Choice net o, P.allow t i tr w o c → P.Fair t w (exec net t w o c).2 ∧
      K (tr ++ [⟨o, (exec net t w o c).1⟩]) (exec net t w o c).2
  giveUp : ∀ tr w, K tr w → U tr w
  stableU : ∀ tr w w', U tr w → P.rely t w w' → P.inv w' → U tr w'
  leave : ∀ tr w, U tr w → P.inv w → P.pre t i tr w .unlock ∧
    ∀ c : Choice net .unlock, P.allow t i tr w .unlock c → P.Fair t w (exec net t w .unlock c).2

/-- `K` holds, and the value says whether the lock is held; if `S`, it is. -/
def Tried (t : Nat) (K : Trace Op Res → World net → Prop) (S : Prop) (b : Bool)
    (tr : Trace Op Res) (w : World net) : Prop :=
  K tr w ∧ (b = true → w.lock = some t) ∧ (S → b = true)

section

variable {P : Protocol (master net) Request} {i : Request}
  {K U : Trace Op Res → World net → Prop} {S : Prop}

theorem FrameRule.attempt (h : FrameRule P t i K U) {n : Nat} {p : Prog Bool} {tr : Trace Op Res}
    {w : World net} (hK : K tr w)
    (hp : ∀ tr' w' (w₁ : World net) (c : Choice net (.tryLock n)), K tr' w' →
      P.allow t i tr w₁ (.tryLock n) c → (exec net t w₁ (.tryLock n) c).1 = false →
        Safe P t i (Tried t K S) p tr' w') :
    Safe P t i (Tried t K S) (perform (.tryLock n) >>= fun b => if b then pure true else p)
      tr w := by
  refine safe_perform fun w₁ hw₁ hinv => ?_
  obtain ⟨hpre, hstep⟩ := h.enter tr w₁ (.tryLock n) trivial (h.stable tr w w₁ hK hw₁ hinv) hinv
  refine ⟨hpre, fun c hc => ?_⟩
  obtain ⟨hfair, hK₁⟩ := hstep c hc
  refine ⟨hfair, ?_⟩
  have hexec : (master net).exec t w₁ (.tryLock n) c = exec net t w₁ (.tryLock n) c := rfl
  cases hres : (exec net t w₁ (.tryLock n) c).1 with
  | true =>
    rw [hres] at hK₁
    simp only [hexec, hres, if_true]
    refine safe_ret fun w₂ hw₂ hinv₂ => ⟨h.stable _ _ _ hK₁ hw₂ hinv₂, fun _ => ?_, fun _ => rfl⟩
    exact (h.lock _ _ hw₂).mpr (lock_of_tryLock hres)
  | false =>
    rw [hres] at hK₁
    simp only [hexec, hres]
    exact hp _ _ w₁ c hK₁ hc hres

/-- **After `TryLock` the lock is held or all attempts have failed**, which `S` rules
out. -/
theorem FrameRule.tried (h : FrameRule P t i K U)
    (hsure : S → ∀ tr (w : World net) (c : Choice net (.tryLock 19)),
      P.allow t i tr w (.tryLock 19) c → (exec net t w (.tryLock 19) c).1 = true)
    {tr : Trace Op Res} {w : World net} (hK : K tr w) :
    Safe P t i (Tried t K S) (tryLock 20) tr w := by
  -- by induction on the attempts that are left after the next one
  have hfrom : ∀ (fuel : Nat) {tr : Trace Op Res} {w : World net}, K tr w → fuel < 20 →
      Safe P t i (Tried t K S) (tryLockFrom (fuel + 1) (19 - fuel)) tr w := by
    intro fuel
    induction fuel with
    | zero =>
      intro tr w hK _
      refine h.attempt hK fun tr' w' w₁ c hK' hc hres => ?_
      refine safe_ret fun w₂ hw₂ hinv₂ => ⟨h.stable _ _ _ hK' hw₂ hinv₂, fun hb => (nomatch hb),
        fun hs => ?_⟩
      exact hres.symm.trans (hsure hs tr w₁ c hc)
    | succ fuel ih =>
      intro tr w hK hlt
      refine h.attempt hK fun tr' w' w₁ c hK' _ _ => ?_
      have hidx : 19 - (fuel + 1) + 1 = 19 - fuel := by omega
      rw [hidx]
      exact ih hK' (by omega)
  exact hfrom 19 hK (by decide)

theorem FrameRule.unlock (h : FrameRule P t i K U) {α : Type} (a : α) {tr : Trace Op Res}
    {w : World net} (hU : U tr w) :
    Safe P t i (fun _ _ _ => True) (perform .unlock >>= fun _ => pure a) tr w := by
  refine safe_perform fun w₁ hw₁ hinv => ?_
  obtain ⟨hpre, hstep⟩ := h.leave tr w₁ (h.stableU tr w w₁ hU hw₁ hinv) hinv
  exact ⟨hpre, fun c hc => ⟨hstep c hc, safe_ret fun _ _ _ => trivial⟩⟩

theorem FrameRule.session (h : FrameRule P t i K U) {α : Type}
    {f : Except String Unit → Prog α} {w : World net}
    (hK : ∀ w', P.rely t w w' → P.inv w' → K [] w') (herr : ∀ e, ∃ a, f (.error e) = pure a)
    (hok : ∀ tr w, K tr w → Safe P t i (fun _ _ _ => True) (f (.ok ())) tr w) :
    Safe P t i (fun _ _ _ => True) (perform .newSession >>= f) [] w := by
  refine safe_perform fun w₁ hr hinv => ?_
  obtain ⟨hpre, hstep⟩ := h.enter [] w₁ .newSession trivial (hK w₁ hr hinv) hinv
  refine ⟨hpre, fun c hc => ⟨(hstep c hc).1, ?_⟩⟩
  have hK₁ := (hstep c hc).2
  rcases c with _ | e
  · exact hok _ _ hK₁
  · obtain ⟨a, ha⟩ := herr e
    show Safe P t i _ (f (.error e)) _ _
    rw [ha]
    exact safe_ret fun _ _ _ => trivial

/-- The work of `createSpace` and `register`, which give up without the lock. -/
theorem FrameRule.work (h : FrameRule P t i K U) {α : Type} {p : Prog α} {a : α}
    (hp : ∀ tr w, K tr w → w.lock = some t → Safe P t i (fun _ => U) p tr w)
    {tr : Trace Op Res} {w : World net} (hK : K tr w) :
    Safe P t i (fun _ _ _ => True)
      ((tryLock 20 >>= fun b => if b then p else pure a) >>= fun x =>
        perform .unlock >>= fun _ => pure x) tr w := by
  refine safe_seq (safe_seq ((h.tried (S := False) (fun hf => hf.elim) hK).mono ?_))
  rintro b tr₁ w₁ - ⟨hK₁, hlock, -⟩
  cases b with
  | false => exact safe_ret fun w₂ hw₂ hinv₂ =>
      h.unlock a (h.giveUp _ _ (h.stable _ _ _ hK₁ hw₂ hinv₂))
  | true => exact (hp tr₁ w₁ hK₁ (hlock rfl)).mono fun x tr₂ w₂ _ hU => h.unlock x hU

/-- **A request is safe if its work is**, from a state in which `K` is sure to hold at the
start. -/
theorem FrameRule.safe_from {json : SpaceJson} (h : FrameRule P t i K U) {w : World net}
    (hK : ∀ w', P.rely t w w' → P.inv w' → K [] w')
    (hsure : S → ∀ tr (w : World net) (c : Choice net (.tryLock 19)),
      P.allow t i tr w (.tryLock 19) c → (exec net t w (.tryLock 19) c).1 = true)
    (hcreate : ∀ api, i = .create (.ok api) → checkApiSpace api = some "" → ∀ tr w, K tr w →
      w.lock = some t →
        Safe P t i (fun _ => U) (createLocked json (apiSpaceToInnerSpace json api)) tr w)
    (hdelete : ∀ req, i = .delete (.ok req) → ∀ b tr w, Tried t K S b tr w →
      Safe P t i (fun _ => U) (deleteBody json req) tr w)
    (hregister : ∀ req, i = .register (.ok req) → ∀ tr w, K tr w → w.lock = some t →
      Safe P t i (fun _ => U) (registerLocked json req) tr w) :
    Safe P t i (fun _ _ _ => True) (serve json i) [] w := by
  have hanswer : ∀ {α : Type} (f : α → Outcome) {p : Prog α},
      Safe P t i (fun _ _ _ => True) p [] w →
        Safe P t i (fun _ _ _ => True) (p >>= fun a => pure (f a)) [] w :=
    fun f _ hp => safe_seq (hp.mono fun _ _ _ _ _ => safe_ret fun _ _ _ => trivial)
  rcases i with (_ | api) | (_ | req) | (_ | req)
  · exact hanswer .ddl (safe_ret fun _ _ _ => trivial)
  · refine hanswer .ddl ?_
    unfold createSpace
    simp only
    cases hcheck : checkApiSpace api with
    | none => exact safe_ret fun _ _ _ => trivial
    | some msg =>
      by_cases hmsg : msg ≠ ""
      · simp only [if_pos hmsg]
        exact safe_ret fun _ _ _ => trivial
      · simp only [if_neg hmsg]
        refine h.session hK (fun e => ⟨_, rfl⟩) fun tr w hK => ?_
        rw [not_not.mp hmsg] at hcheck
        exact h.work (hcreate api rfl hcheck) hK
  · exact hanswer .ddl (safe_ret fun _ _ _ => trivial)
  · refine hanswer .ddl (h.session hK (fun e => ⟨_, rfl⟩) fun tr w hK => ?_)
    -- here nobody looks at the result of `TryLock`
    refine safe_seq ((h.tried hsure hK).mono fun b tr₁ w₁ _ hb => ?_)
    exact safe_seq ((hdelete req rfl b tr₁ w₁ hb).mono fun ans tr₂ w₂ _ hU => h.unlock ans hU)
  · exact hanswer .reg (safe_ret fun _ _ _ => trivial)
  · refine hanswer .reg (h.session hK (fun e => ⟨_, rfl⟩) fun tr w hK => ?_)
    exact h.work (hregister req rfl) hK

theorem FrameRule.safe {json : SpaceJson} (h : FrameRule P t i K U)
    (hK : ∀ w, P.inv w → K [] w)
    (hsure : S → ∀ tr (w : World net) (c : Choice net (.tryLock 19)),
      P.allow t i tr w (.tryLock 19) c → (exec net t w (.tryLock 19) c).1 = true)
    (hcreate : ∀ api, i = .create (.ok api) → checkApiSpace api = some "" → ∀ tr w, K tr w →
      w.lock = some t →
        Safe P t i (fun _ => U) (createLocked json (apiSpaceToInnerSpace json api)) tr w)
    (hdelete : ∀ req, i = .delete (.ok req) → ∀ b tr w, Tried t K S b tr w →
      Safe P t i (fun _ => U) (deleteBody json req) tr w)
    (hregister : ∀ req, i = .register (.ok req) → ∀ tr w, K tr w → w.lock = some t →
      Safe P t i (fun _ => U) (registerLocked json req) tr w) (w : World net) :
    Safe P t i (fun _ _ _ => True) (serve json i) [] w :=
  h.safe_from (fun w' _ => hK w') hsure hcreate hdelete hregister

end

end SimSearch.Master
