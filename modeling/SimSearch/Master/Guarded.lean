import SimSearch.Master.Mutex

/-!
# What the DDL lock guards

A `Guard` is a part of the cluster that only the holder of the lock changes, with a property
`good` that the holder may break as long as it has repaired it when it unlocks.  `always` is what
it must not break, and `extra` what is assumed of the outcome of its calls.

* `Guard.fair_holder` is what the holder may do at a step, as far as the others are concerned.
* `Guard.safe_serve`: a request is safe if its work, begun and ended under the lock, repairs what
  it breaks.
* `Guard.reach`: so whenever the lock is free, all is good.
-/

namespace SimSearch.Master

open SimSearch.Lib Program

variable {net : Network} {t : Nat} {i : Request} {α : Type}

structure Guard (net : Network) where
  always : World net → Prop
  good : World net → Prop
  /-- The others have left the guarded part alone. -/
  same : World net → World net → Prop
  extra : World net → (o : Op) → Choice net o → Prop
  same_trans : ∀ w w' w'', same w w' → same w' w'' → same w w''
  same_of_eq : ∀ w w', w'.etcd = w.etcd → w'.net = w.net → same w w'
  always_of_eq : ∀ w w', w'.etcd = w.etcd → w'.net = w.net → always w → always w'
  good_of_same : ∀ w w', good w → same w w' → good w'

namespace Guard

variable {G : Guard net}

structure Inv (G : Guard net) (w : World net) : Prop where
  always : G.always w
  good : w.lock = none → G.good w

/-- The others leave the lock to its holder, and what it guards as it is. -/
def LeftTo (G : Guard net) (t : Nat) (w w' : World net) : Prop :=
  (w'.lock = some t ↔ w.lock = some t) ∧ (w.lock = some t → G.same w w')

theorem leftTo_refl (t : Nat) (w : World net) : G.LeftTo t w w :=
  ⟨Iff.rfl, fun _ => G.same_of_eq w w rfl rfl⟩

theorem LeftTo.trans {w w' w'' : World net} (h : G.LeftTo t w w') (h' : G.LeftTo t w' w'') :
    G.LeftTo t w w'' :=
  ⟨h'.1.trans h.1, fun hlock => G.same_trans w w' w'' (h.2 hlock) (h'.2 (h.1.mpr hlock))⟩

def protocol (G : Guard net) : Protocol (master net) Request where
  inv := G.Inv
  rely := G.LeftTo
  allow t i _ w o c := etcdUp net o c = true ∧ LastTryTaken net t i w o c ∧ G.extra w o c
  pre _ _ _ _ _ := True
  rely_refl t w _ := leftTo_refl t w
  rely_trans _ _ _ _ h h' := h.trans h'

/-! ### Steps -/

/-- **What the holder of the lock may do**: anything that keeps `always`. -/
theorem fair_holder {w w' : World net} (hlock : w.lock = some t) (hlock' : w'.lock = some t)
    (halways : G.always w') : G.protocol.Fair t w w' := by
  refine ⟨⟨halways, fun hnone => ?_⟩, fun u hu => ?_⟩
  · rw [hlock'] at hnone
    cases hnone
  · have hne : some t ≠ some u := fun heq => hu (Option.some.inj heq).symm
    refine ⟨?_, fun hheld => absurd (hlock.symm.trans hheld) hne⟩
    rw [hlock, hlock']

/-- An operation on the lock leaves the rest, so all that matters is who may have let go of the
lock. -/
theorem fair_lockOp {w : World net} {o : Op} (ho : LockOp o) (hinv : G.Inv w) (c : Choice net o)
    (hfree : (exec net t w o c).2.lock = none → G.good w) :
    G.protocol.Fair t w (exec net t w o c).2 := by
  obtain ⟨hetcd, hnet⟩ := exec_lockOp (t := t) w o c ho
  have hsame := G.same_of_eq w _ hetcd hnet
  refine ⟨⟨G.always_of_eq w _ hetcd hnet hinv.always, fun hnone => ?_⟩,
    fun u hu => ⟨exec_lock_other w o c hu, fun _ => hsame⟩⟩
  exact G.good_of_same w _ (hfree hnone) hsame

/-- Entering changes the lock from free to held by the thread, or not at all. -/
theorem lock_enter {w : World net} {o : Op} (ho : EntryOp o) (c : Choice net o) :
    (exec net t w o c).2.lock = w.lock ∨
      (w.lock = none ∧ (exec net t w o c).2.lock = some t) := by
  cases o with
  | newSession => exact Or.inl rfl
  | tryLock k =>
    simp only [exec]
    split_ifs with h
    · rcases h.2 with hnone | hself
      · exact Or.inr ⟨hnone, rfl⟩
      · exact Or.inl hself.symm
    · exact Or.inl rfl
  | _ => exact ho.elim

theorem lockOp_of_entryOp {o : Op} (h : EntryOp o) : LockOp o := by
  cases o <;> first | exact h.elim | trivial

/-! ### Under the lock -/

def Held (t : Nat) (J : World net → Prop) (w : World net) : Prop := w.lock = some t ∧ J w

theorem Held.rely {J : World net → Prop} (hJ : ∀ w w', J w → G.same w w' → J w')
    {w w' : World net} (h : Held t J w) (hr : G.LeftTo t w w') : Held t J w' :=
  ⟨hr.1.mpr h.1, hJ w w' h.2 (hr.2 h.1)⟩

/-- **Operations that keep `J`** under the lock. -/
theorem safe_keeping {allowed : Op → Prop} {J : World net → Prop}
    (hJ : ∀ w w', J w → G.same w w' → J w')
    (hop : ∀ o, allowed o → ¬ LockOp o ∧ ∀ (w : World net) (c : Choice net o), G.always w → J w →
      etcdUp net o c = true → G.extra w o c →
        G.always (exec net t w o c).2 ∧ J (exec net t w o c).2)
    {p : Prog α} (hp : p.Uses allowed) {tr : Trace Op Res} {w : World net} (hw : Held t J w) :
    Safe G.protocol t i (fun _ _ w => Held t J w) p tr w := by
  refine safe_of_uses (M := master net) (P := G.protocol) (K := fun _ w => Held t J w)
    (fun _ _ _ h hr _ => h.rely hJ hr) ?_ hp hw
  rintro tr w o ho ⟨hlock, hw⟩ hinv
  obtain ⟨hnot, hstep⟩ := hop o ho
  refine ⟨trivial, fun c hc => ?_⟩
  obtain ⟨halways, hJ'⟩ := hstep w c hinv.always hw hc.1 hc.2.2
  have hlock' := (exec_lock (t := t) w c hnot).trans hlock
  exact ⟨fair_holder hlock hlock' halways, hlock', hJ'⟩

/-! ### Rounds of requests -/

section

variable {tasks : List Task} {J : List Nat → List (Nat × Reply) → World net → Prop}

/-- **Requests one after the other.**  `J` says how the cluster is when `left` is still to be sent
and `got` was received. -/
theorem safe_sendTasks (hJ : ∀ left got w w', J left got w → G.same w w' → J left got w')
    (hskip : ∀ k left got w, tasks[k]? = none → J (k :: left) got w → J left got w)
    (hpost : ∀ k left got (w : World net) task d, tasks[k]? = some task → G.always w →
      J (k :: left) got w → G.extra w (.post task) d →
        G.always (exec net t w (.post task) d).2 ∧
          J left (got ++ [(k, (exec net t w (.post task) d).1)]) (exec net t w (.post task) d).2) :
    ∀ (left : List Nat) (got : List (Nat × Reply)) (tr : Trace Op Res) (w : World net),
      Held t (J left got) w →
        Safe G.protocol t i (fun rs _ w => Held t (J [] (got ++ rs)) w) (sendTasks tasks left)
          tr w := by
  intro left
  induction left with
  | nil =>
    intro got tr w hw
    refine safe_ret fun w' hr _ => ?_
    rw [List.append_nil]
    exact hw.rely (hJ [] got) hr
  | cons k left ih =>
    intro got tr w hw
    unfold sendTasks
    cases htask : tasks[k]? with
    | none => exact ih got tr w ⟨hw.1, hskip k left got w htask hw.2⟩
    | some task =>
      refine safe_perform fun w₁ hr hinv => ⟨trivial, fun d hd => ?_⟩
      obtain ⟨hlock, hJ₁⟩ := hw.rely (hJ (k :: left) got) hr
      obtain ⟨halways, hJ₂⟩ := hpost k left got w₁ task d htask hinv.always hJ₁ hd.2.2
      have hlock₂ : (exec net t w₁ (.post task) d).2.lock = some t := hlock
      refine ⟨fair_holder hlock hlock₂ halways, ?_⟩
      refine safe_seq ((ih _ _ _ ⟨hlock₂, hJ₂⟩).mono fun rs tr₂ w₂ _ hrs => ?_)
      refine safe_ret fun w₃ hr₃ _ => ?_
      rw [← List.singleton_append, ← List.append_assoc]
      exact hrs.rely (hJ _ _) hr₃

end

/-- The replies of a round, in the order in which they came. -/
def Received (tasks : List Task) (replies : List Reply) (got : List (Nat × Reply)) : Prop :=
  (got.map Prod.fst).Perm (List.range tasks.length) ∧
    replies = (List.range tasks.length).map fun k => (got.lookup k).getD {}

theorem Received.mem_iff {tasks : List Task} {replies : List Reply} {got : List (Nat × Reply)}
    (h : Received tasks replies got) {r : Reply} : r ∈ replies ↔ ∃ k, (k, r) ∈ got := by
  have hgot := eq_map_lookup (h.1.nodup_iff.mpr List.nodup_range) ({} : Reply)
  rw [h.2]
  constructor
  · intro hr
    obtain ⟨k, hk, rfl⟩ := List.mem_map.mp hr
    refine ⟨k, ?_⟩
    rw [hgot]
    refine List.mem_map.mpr ⟨k, h.1.mem_iff.mpr hk, ?_⟩
    rw [← hgot]
  · rintro ⟨k, hk⟩
    have hk' := hk
    rw [hgot] at hk'
    obtain ⟨k', hmem, heq⟩ := List.mem_map.mp hk'
    cases heq
    exact List.mem_map.mpr ⟨k, h.1.mem_iff.mp hmem, rfl⟩

theorem Received.length_eq {tasks : List Task} {replies : List Reply} {got : List (Nat × Reply)}
    (h : Received tasks replies got) {k : Nat} (hk : k < tasks.length) : ∃ r, (k, r) ∈ got := by
  obtain ⟨p, hp, rfl⟩ := List.mem_map.mp (h.1.mem_iff.mpr (List.mem_range.mpr hk))
  exact ⟨p.2, hp⟩

/-- **A round of requests**, in whatever order they are sent. -/
theorem safe_round {tasks : List Task} {J : List Nat → List (Nat × Reply) → World net → Prop}
    (hJ : ∀ left got w w', J left got w → G.same w w' → J left got w')
    (hskip : ∀ k left got w, tasks[k]? = none → J (k :: left) got w → J left got w)
    (hpost : ∀ k left got (w : World net) task d, tasks[k]? = some task → G.always w →
      J (k :: left) got w → G.extra w (.post task) d →
        G.always (exec net t w (.post task) d).2 ∧
          J left (got ++ [(k, (exec net t w (.post task) d).1)]) (exec net t w (.post task) d).2)
    {tr : Trace Op Res} {w : World net}
    (hw : Held t (fun w => ∀ left : List Nat, left.Perm (List.range tasks.length) →
      J left [] w) w) :
    Safe G.protocol t i (fun replies _ w => ∃ got, Received tasks replies got ∧ Held t (J [] got) w)
      (parallelExecute tasks) tr w := by
  refine safe_perform fun w₁ hr hinv => ⟨trivial, fun order _ => ?_⟩
  have hlock := hr.1.mpr hw.1
  refine ⟨fair_holder hlock hlock hinv.always, ?_⟩
  have hJ₁ : Held t (J order.1 []) w₁ :=
    ⟨hlock, hJ _ _ _ _ (hw.2 order.1 order.2) (hr.2 hw.1)⟩
  refine safe_seq ((safe_yields (safe_sendTasks hJ hskip hpost order.1 [] _ w₁ hJ₁)
    (sendTasks_spec tasks order.1)).mono ?_)
  rintro got tr₂ w₂ - ⟨hw₂, -, -, hfst, -⟩
  refine safe_ret fun w₃ hr₃ _ => ⟨got, ⟨?_, rfl⟩, hw₂.rely (hJ _ _) hr₃⟩
  have hself : order.1.filter (fun k => decide (k < tasks.length)) = order.1 :=
    List.filter_eq_self.mpr fun k hk => by simpa using order.2.mem_iff.mp hk
  rw [hfst, hself]
  exact order.2

/-! ### Handlers -/

/-- What a thread knows when it has the lock and has not worked yet, or is done. -/
def GoodIfHeld (G : Guard net) (t : Nat) (w : World net) : Prop := w.lock = some t → G.good w

theorem GoodIfHeld.rely {w w' : World net} (h : G.GoodIfHeld t w) (hr : G.LeftTo t w w') :
    G.GoodIfHeld t w' := by
  intro hlock'
  have hlock := hr.1.mp hlock'
  exact G.good_of_same w w' (h hlock) (hr.2 hlock)

theorem frameRule (G : Guard net) (i : Request) :
    FrameRule G.protocol t i (fun _ w => G.GoodIfHeld t w) fun _ w => G.GoodIfHeld t w where
  lock _ _ h := h.1
  stable _ _ _ h hr _ := h.rely hr
  enter _ w o ho hK hinv := by
    have hlockOp := lockOp_of_entryOp ho
    refine ⟨trivial, fun c _ => ⟨fair_lockOp hlockOp hinv c fun hnone => ?_, fun hheld => ?_⟩⟩
    · rcases lock_enter (t := t) (w := w) ho c with hsame | ⟨-, hheld⟩
      · exact hinv.good (hsame.symm.trans hnone)
      · rw [hheld] at hnone
        cases hnone
    · obtain ⟨hetcd, hnet⟩ := exec_lockOp (t := t) w o c hlockOp
      refine G.good_of_same w _ ?_ (G.same_of_eq w _ hetcd hnet)
      rcases lock_enter (t := t) (w := w) ho c with hsame | ⟨hnone, -⟩
      · exact hK (hsame.symm.trans hheld)
      · exact hinv.good hnone
  giveUp _ _ h := h
  stableU _ _ _ h hr _ := h.rely hr
  leave _ w hU hinv := by
    refine ⟨trivial, fun c _ => fair_lockOp (o := .unlock) trivial hinv c fun hnone => ?_⟩
    by_cases hlock : w.lock = some t
    · exact hU hlock
    · refine hinv.good ?_
      simp only [exec] at hnone
      rwa [if_neg fun h => hlock h.2] at hnone

/-- The work `p` of a request ends in a good state if it begins in one. -/
def Repairs (G : Guard net) (p : Prog α) : Prop :=
  ∀ (t : Nat) (i : Request) (tr : Trace Op Res) (w : World net), Held t G.good w →
    Safe G.protocol t i (fun _ _ w => Held t G.good w) p tr w

structure Works (G : Guard net) (json : SpaceJson) : Prop where
  create : ∀ api, checkApiSpace api = some "" →
    G.Repairs (createLocked json (apiSpaceToInnerSpace json api))
  delete : ∀ req, G.Repairs (deleteBody json req)
  register : ∀ req, G.Repairs (registerLocked json req)

/-- **A request is safe if its work is**, and it does not start with the lock. -/
theorem safe_serve {json : SpaceJson} (h : G.Works json) (t : Nat) (i : Request) {w : World net}
    (hlock : w.lock ≠ some t) :
    Safe G.protocol t i (fun _ _ _ => True) (serve json i) [] w := by
  refine (G.frameRule i).safe_from (S := i.isDelete = true)
    (fun w' hr _ hlock' => absurd (hr.1.mp hlock') hlock) (fun hdel _ _ _ hc => hc.2.1 rfl hdel)
    ?_ ?_ ?_
  · intro api _ hcheck tr w hK hlock
    exact (h.create api hcheck t i tr w ⟨hlock, hK hlock⟩).mono fun _ _ _ _ hend _ => hend.2
  · rintro req rfl b tr w ⟨hK, hheld, hdel⟩
    have hlock := hheld (hdel rfl)
    exact (h.delete req t _ tr w ⟨hlock, hK hlock⟩).mono fun _ _ _ _ hend _ => hend.2
  · intro req _ tr w hK hlock
    exact (h.register req t i tr w ⟨hlock, hK hlock⟩).mono fun _ _ _ _ hend _ => hend.2

/-! ### Runs -/

def nextPost (c : Cluster net) (t : Nat) : Option Task :=
  match c.threads t with
  | some ⟨_, _, .call (.post task) _⟩ => some task
  | _ => none

theorem nextPost_eq {c : Cluster net} {tr : Trace Op Res} {task : Task}
    {k : Res (.post task) → Prog Outcome} (ht : c.threads t = some ⟨i, tr, .call (.post task) k⟩) :
    nextPost c t = some task := by
  simp only [nextPost, ht]

/-- All calls to etcd succeed, no delete loses its last attempt at the lock, and the calls have
the outcomes that are assumed.  From outside the lock is left alone, and what it guards as long as
somebody holds it; a free one may be found in another good state. -/
def Ok (G : Guard net) (c : Cluster net) : Event (master net) Request → Prop
  | .spawn _ _ => True
  | .act t pick => nextUp c t pick = true ∧ lastTryLost c t pick = false ∧
      ∀ i tr o k, c.threads t = some ⟨i, tr, .call o k⟩ → G.extra c.state o (pick o)
  | .env w => World.lock w = World.lock c.state ∧ (G.Inv c.state → G.always w ∧
      (World.lock c.state = none → G.good w) ∧ (World.lock c.state ≠ none → G.same c.state w))

def StartersFree (c : Cluster net) : Prop :=
  ∀ t, c.threads t = none → World.lock c.state ≠ some t

theorem startersFree_step {json : SpaceJson} {c : Cluster net} {e : Event (master net) Request}
    (h : StartersFree c) (hok : G.Ok c e) : StartersFree (step (serve json) c e) := by
  have htakes := step_takes (serve json) c e
  generalize step (serve json) c e = c' at htakes ⊢
  cases htakes with
  | stays => exact h
  | @starts u i hu =>
    intro t ht
    refine h t ?_
    by_cases htu : t = u
    · rw [htu]
      exact hu
    · simpa only [Config.set, Function.update_of_ne htu] using ht
  | @calls u pick i tr o k hu =>
    intro t ht
    have htu : t ≠ u := by
      rintro rfl
      simp only [Config.set, Function.update_self] at ht
      cases ht
    simp only [Config.set, Function.update_of_ne htu] at ht
    exact fun hlock => h t ht ((@exec_lock_other net u c.state o (pick o) t htu).mp hlock)
  | @moves w =>
    intro t ht hlock
    exact h t ht (hok.1.symm.trans hlock)

theorem ok_protocol {c : Cluster net} {e : Event (master net) Request} (hinv : G.Inv c.state)
    (h : G.Ok c e) : G.protocol.Ok c e := by
  cases e with
  | spawn t i => trivial
  | act t pick =>
    exact fun i tr o k ht => ⟨etcdUp_of_nextUp h.1 ht, lastTryTaken_of_not_lost h.2.1 ht,
      h.2.2 i tr o k ht⟩
  | env w =>
    obtain ⟨hlock, henv⟩ := h
    obtain ⟨halways, hfree, hsame⟩ := henv hinv
    refine ⟨⟨halways, fun hnone => hfree (hlock.symm.trans hnone)⟩, fun t => ⟨?_, fun hheld => ?_⟩⟩
    · rw [hlock]
    · refine hsame fun hnone => ?_
      rw [hnone] at hheld
      cases hheld

/-- **In every state reached `always` holds, and whenever the lock is free, `good`.** -/
theorem reach {json : SpaceJson} (hworks : G.Works json) {w : World net} (hw : G.Inv w)
    (hlock : w.lock = none) {c : Cluster net}
    (h : Reach (step (serve json)) G.Ok (Config.init w) c) : G.Inv c.state := by
  have hstart : StartersFree (Config.init w : Cluster net) := by
    intro t _ hheld
    rw [show World.lock w = some t from hheld] at hlock
    cases hlock
  have hboth : AllSafe G.protocol (fun _ _ _ _ _ => True) c ∧ StartersFree c := by
    refine h.invariant (fun c => AllSafe G.protocol (fun _ _ _ _ _ => True) c ∧ StartersFree c)
      ⟨allSafe_init hw, hstart⟩ fun c e hc he => ⟨?_, startersFree_step hc.2 he⟩
    refine allSafe_step_of c e (fun t i _ ht => ?_) hc.1 (ok_protocol hc.1.1 he)
    exact safe_serve hworks t i (hc.2 t ht)
  exact hboth.1.1

end Guard

end SimSearch.Master
