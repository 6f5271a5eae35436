import SimSearch.Lib.Indices
import SimSearch.Lib.Runs
import SimSearch.Master.SpaceApi

/-!
# Workers on a channel

`ParallelExecuteWithResults` of `master/utils/concurrent/concurrent.go`: the caller starts the
workers, sends the indices of the arguments into a channel, closes it and waits; each worker
takes indices until the channel is empty and closed.  Every interleaving of their steps is a
run.  A call of `fn` may depend on what it finds outside and change it, so it has a state, and
a choice of the world in its step.

* `step_moves`: what a step can do.
* `Placed`: every index is at one place: not sent yet, in the channel, in the hands of a worker,
  or in the list of the calls that have returned.
* `Kept`: what a call has returned is in the results, or a worker is about to write it.
* `Grouped`: the wait group counts the workers that run.
* `left_moves` and `Good.goes_on`: a step lowers the number of steps that are left, and until
  the function returns some step is possible, so `returns_of_goesOn`.
* `Replay`: the calls could have been made one after the other, with the same results.

`parallelExecute_of_returned` is the link to the handlers, which call the tasks in some order: the
workers do nothing else.
-/

namespace SimSearch.Master.Parallel

open SimSearch.Lib

/-! ### The function -/

/-- The arguments of `ParallelExecuteWithResults`, and the zero values of its results.  `fn x c w`
is a call in the world `w` with the choice `c`: its two results, and the world afterwards. -/
structure Job (T γ σ R E : Type) where
  fn : T → γ → σ → (R × E) × σ
  args : List T
  maxConcurrency : Int
  zeroResult : R
  zeroError : E

/-- Where the caller is: before the `i`-th worker is started, before the `i`-th index is sent,
before `close`, at `wg.Wait`, or back. -/
inductive Caller
  | starting (i : Nat)
  | sending (i : Nat)
  | closing
  | waiting
  | returned
  deriving DecidableEq, Repr

/-- Where a worker is: at the channel, in `fn`, before each of the two writes, or done. -/
inductive Worker (R E : Type)
  | ready
  | calling (idx : Nat)
  | storing (idx : Nat) (res : R) (err : E)
  | storingErr (idx : Nat) (err : E)
  | exited
  deriving DecidableEq, Repr

/-- The variables of the function, the world, and the calls that have returned, in their
order. -/
structure Pool (σ R E : Type) where
  caller : Caller
  taskChan : List Nat := []
  closed : Bool := false
  workers : List (Worker R E) := []
  wg : Nat := 0
  results : List R
  errors : List E
  world : σ
  log : List (Nat × R × E) := []

/-- A step of the caller, or of the `w`-th worker; the choice is for the call of `fn`. -/
inductive PoolEvent (γ : Type)
  | caller
  | worker (w : Nat) (c : γ)

section

variable {T γ σ R E : Type} (job : Job T γ σ R E)

/-- `min(maxConcurrency, len(argsList))`. -/
def Job.workerNum : Nat := (min job.maxConcurrency job.args.length).toNat

/-- Without arguments the function returns at once. -/
def Job.start (w : σ) : Pool σ R E where
  caller := if job.args.length = 0 then .returned else .starting 0
  results := List.replicate job.args.length job.zeroResult
  errors := List.replicate job.args.length job.zeroError
  world := w

def Pool.setWorker (s : Pool σ R E) (w : Nat) (a : Worker R E) : Pool σ R E :=
  { s with workers := s.workers.set w a }

def Job.work (s : Pool σ R E) (w : Nat) (c : γ) : Worker R E → Pool σ R E
  | .ready =>
    match s.taskChan with
    | idx :: rest => { s with taskChan := rest }.setWorker w (.calling idx)
    | [] =>
      -- a closed and empty channel ends the loop, and `wg.Done` is called
      if s.closed then { s with wg := s.wg - 1 }.setWorker w .exited else s
  | .calling idx =>
    match job.args[idx]? with
    | some x =>
      let r := job.fn x c s.world
      { s with world := r.2, log := s.log ++ [(idx, r.1)] }.setWorker w (.storing idx r.1.1 r.1.2)
    | none => s
  | .storing idx res err =>
    { s with results := s.results.set idx res }.setWorker w (.storingErr idx err)
  | .storingErr idx err => { s with errors := s.errors.set idx err }.setWorker w .ready
  | .exited => s

/-- One step; a step that has to wait does nothing. -/
def Job.step (s : Pool σ R E) : PoolEvent γ → Pool σ R E
  | .caller =>
    match s.caller with
    | .starting i =>
      if i < job.workerNum then
        { s with caller := .starting (i + 1), wg := s.wg + 1, workers := s.workers ++ [.ready] }
      else { s with caller := .sending 0 }
    | .sending i =>
      if i < job.args.length then
        -- the channel has room for all indices
        if s.taskChan.length < job.args.length then
          { s with caller := .sending (i + 1), taskChan := s.taskChan ++ [i] }
        else s
      else { s with caller := .closing }
    | .closing => { s with caller := .waiting, closed := true }
    | .waiting => if s.wg = 0 then { s with caller := .returned } else s
    | .returned => s
  | .worker w c =>
    match s.workers[w]? with
    | some a => job.work s w c a
    | none => s

/-! ### What a step does -/

/-- What a step does if it does anything.  The workers are split at the one that moves. -/
inductive Moves (s : Pool σ R E) : Pool σ R E → Prop
  | starts {i : Nat} (hc : s.caller = .starting i) (hi : i < job.workerNum) :
      Moves s { s with caller := .starting (i + 1), wg := s.wg + 1,
                       workers := s.workers ++ [.ready] }
  | started {i : Nat} (hc : s.caller = .starting i) (hi : job.workerNum ≤ i) :
      Moves s { s with caller := .sending 0 }
  | sends {i : Nat} (hc : s.caller = .sending i) (hi : i < job.args.length) :
      Moves s { s with caller := .sending (i + 1), taskChan := s.taskChan ++ [i] }
  | sent {i : Nat} (hc : s.caller = .sending i) (hi : job.args.length ≤ i) :
      Moves s { s with caller := .closing }
  | closes (hc : s.caller = .closing) : Moves s { s with caller := .waiting, closed := true }
  | returns (hc : s.caller = .waiting) (hwg : s.wg = 0) : Moves s { s with caller := .returned }
  | takes {l₁ l₂ : List (Worker R E)} {idx : Nat} {rest : List Nat}
      (hw : s.workers = l₁ ++ .ready :: l₂) (hq : s.taskChan = idx :: rest) :
      Moves s { s with taskChan := rest, workers := l₁ ++ .calling idx :: l₂ }
  | exits {l₁ l₂ : List (Worker R E)} (hw : s.workers = l₁ ++ .ready :: l₂) (hq : s.taskChan = [])
      (hclosed : s.closed = true) :
      Moves s { s with wg := s.wg - 1, workers := l₁ ++ .exited :: l₂ }
  | answers {l₁ l₂ : List (Worker R E)} {idx : Nat} {x : T} {c : γ}
      (hw : s.workers = l₁ ++ .calling idx :: l₂) (hx : job.args[idx]? = some x) :
      Moves s { s with
        world := (job.fn x c s.world).2
        log := s.log ++ [(idx, (job.fn x c s.world).1)]
        workers := l₁ ++ .storing idx (job.fn x c s.world).1.1 (job.fn x c s.world).1.2 :: l₂ }
  | stores {l₁ l₂ : List (Worker R E)} {idx : Nat} {res : R} {err : E}
      (hw : s.workers = l₁ ++ .storing idx res err :: l₂) :
      Moves s { s with results := s.results.set idx res
                       workers := l₁ ++ .storingErr idx err :: l₂ }
  | storesErr {l₁ l₂ : List (Worker R E)} {idx : Nat} {err : E}
      (hw : s.workers = l₁ ++ .storingErr idx err :: l₂) :
      Moves s { s with errors := s.errors.set idx err, workers := l₁ ++ .ready :: l₂ }

theorem exists_split {l : List (Worker R E)} {w : Nat} {a : Worker R E} (h : l[w]? = some a) :
    ∃ l₁ l₂, l = l₁ ++ a :: l₂ ∧ ∀ b, l.set w b = l₁ ++ b :: l₂ := by
  obtain ⟨hw, ha⟩ := List.getElem?_eq_some_iff.mp h
  refine ⟨l.take w, l.drop (w + 1), ?_, fun b => List.set_eq_take_append_cons_drop .. ▸ if_pos hw⟩
  rw [← ha, ← List.drop_eq_getElem_cons hw, List.take_append_drop]

theorem step_moves (s : Pool σ R E) (e : PoolEvent γ) :
    job.step s e = s ∨ Moves job s (job.step s e) := by
  cases e with
  | caller =>
    unfold Job.step
    cases hc : s.caller with
    | starting i =>
      simp only
      by_cases hi : i < job.workerNum
      · rw [if_pos hi]
        exact Or.inr (.starts hc hi)
      · rw [if_neg hi]
        exact Or.inr (.started hc (Nat.le_of_not_lt hi))
    | sending i =>
      simp only
      by_cases hi : i < job.args.length
      · rw [if_pos hi]
        by_cases hroom : s.taskChan.length < job.args.length
        · rw [if_pos hroom]
          exact Or.inr (.sends hc hi)
        · rw [if_neg hroom]
          exact Or.inl rfl
      · rw [if_neg hi]
        exact Or.inr (.sent hc (Nat.le_of_not_lt hi))
    | closing => exact Or.inr (.closes hc)
    | waiting =>
      simp only
      by_cases hwg : s.wg = 0
      · rw [if_pos hwg]
        exact Or.inr (.returns hc hwg)
      · rw [if_neg hwg]
        exact Or.inl rfl
    | returned => exact Or.inl rfl
  | worker w c =>
    cases hw : s.workers[w]? with
    | none => exact Or.inl (by simp only [Job.step, hw])
    | some a =>
      obtain ⟨l₁, l₂, hsplit, hset⟩ := exists_split hw
      simp only [Job.step, hw]
      cases a with
      | ready =>
        cases hq : s.taskChan with
        | nil =>
          simp only [Job.work, hq]
          by_cases hclosed : s.closed = true
          · rw [if_pos hclosed, Pool.setWorker, hset, ← hq]
            exact Or.inr (.exits hsplit hq hclosed)
          · rw [if_neg hclosed]
            exact Or.inl rfl
        | cons idx rest =>
          simp only [Job.work, hq, Pool.setWorker, hset]
          exact Or.inr (.takes hsplit hq)
      | calling idx =>
        cases hx : job.args[idx]? with
        | none => exact Or.inl (by simp only [Job.work, hx])
        | some x =>
          simp only [Job.work, hx, Pool.setWorker, hset]
          exact Or.inr (.answers hsplit hx)
      | storing idx res err =>
        simp only [Job.work, Pool.setWorker, hset]
        exact Or.inr (.stores hsplit)
      | storingErr idx err =>
        simp only [Job.work, Pool.setWorker, hset]
        exact Or.inr (.storesErr hsplit)
      | exited => exact Or.inl rfl

/-! ### Steps that are left -/

def Worker.left : Worker R E → Nat
  | .ready => 1
  | .calling _ => 4
  | .storing _ _ _ => 3
  | .storingErr _ _ => 2
  | .exited => 0

/-- The steps of the caller and, for workers and indices that it has not let go yet, of those. -/
def Job.callerLeft : Caller → Nat
  | .starting i => 2 * (job.workerNum - i) + 5 * job.args.length + 4
  | .sending i => 5 * (job.args.length - i) + 3
  | .closing => 2
  | .waiting => 1
  | .returned => 0

def Job.left (s : Pool σ R E) : Nat :=
  job.callerLeft s.caller + 4 * s.taskChan.length + (s.workers.map Worker.left).sum

theorem sum_left_split (l₁ l₂ : List (Worker R E)) (a : Worker R E) :
    ((l₁ ++ a :: l₂).map Worker.left).sum
      = a.left + ((l₁ ++ l₂).map Worker.left).sum := by
  simp only [List.map_append, List.map_cons, List.sum_append, List.sum_cons]
  omega

/-- **Every step is one less to do.** -/
theorem left_moves {s s' : Pool σ R E} (h : Moves job s s') : job.left s' + 1 = job.left s := by
  unfold Job.left
  cases h with
  | starts hc hi =>
    simp only [hc, Job.callerLeft, List.map_append, List.sum_append, List.map_singleton,
      List.sum_singleton, Worker.left]
    omega
  | started hc hi =>
    simp only [hc, Job.callerLeft]
    omega
  | sends hc hi =>
    simp only [hc, Job.callerLeft, List.length_append, List.length_singleton]
    omega
  | sent hc hi =>
    simp only [hc, Job.callerLeft]
    omega
  | closes hc =>
    simp only [hc, Job.callerLeft]
    omega
  | returns hc hwg =>
    simp only [hc, Job.callerLeft]
    omega
  | takes hw hq =>
    simp only [hw, hq, sum_left_split, Worker.left, List.length_cons]
    omega
  | exits hw hq hclosed =>
    simp only [hw, sum_left_split, Worker.left]
    omega
  | answers hw hx =>
    simp only [hw, sum_left_split, Worker.left]
    omega
  | stores hw =>
    simp only [hw, sum_left_split, Worker.left]
    omega
  | storesErr hw =>
    simp only [hw, sum_left_split, Worker.left]
    omega

/-! ### Where the indices are -/

def Job.unsent : Caller → List Nat
  | .starting _ => List.range job.args.length
  | .sending i => (List.range job.args.length).drop i
  | _ => []

def Worker.held : Worker R E → List Nat
  | .calling idx => [idx]
  | _ => []

/-- Every index is at one place. -/
def Placed (s : Pool σ R E) : Prop :=
  (job.unsent s.caller ++ s.taskChan ++ s.workers.flatMap Worker.held ++ s.log.map Prod.fst).Perm
    (List.range job.args.length)

theorem placed_moves {s s' : Pool σ R E} (h : Placed job s) (hm : Moves job s s') :
    Placed job s' := by
  unfold Placed at h ⊢
  rw [List.perm_iff_count] at h ⊢
  intro a
  have ha := h a
  cases hm with
  | starts hc hi =>
    simpa [hc, Job.unsent, Worker.held] using ha
  | started hc hi =>
    simpa [hc, Job.unsent] using ha
  | @sends i hc hi =>
    have hdrop : (List.range job.args.length).drop i
        = i :: (List.range job.args.length).drop (i + 1) := by
      rw [List.drop_eq_getElem_cons (by simpa using hi), List.getElem_range]
    simp only [hc, Job.unsent, hdrop, List.count_append, List.count_cons] at ha ⊢
    simp only [List.count_nil]
    omega
  | @sent i hc hi =>
    have hdrop : (List.range job.args.length).drop i = [] := by
      rw [List.drop_eq_nil_iff, List.length_range]
      exact hi
    simpa [hc, Job.unsent, hdrop] using ha
  | closes hc => simpa [hc, Job.unsent] using ha
  | returns hc hwg => simpa [hc, Job.unsent] using ha
  | takes hw hq =>
    simp only [hw, hq, List.flatMap_append, List.flatMap_cons, Worker.held, List.count_append,
      List.count_cons, List.count_nil] at ha ⊢
    omega
  | exits hw hq hclosed =>
    simpa [hw, Worker.held] using ha
  | answers hw hx =>
    simp only [hw, List.flatMap_append, List.flatMap_cons, Worker.held, List.count_append,
      List.count_cons, List.count_nil, List.map_append, List.map_cons, List.map_nil] at ha ⊢
    omega
  | stores hw => simpa [hw, Worker.held] using ha
  | storesErr hw => simpa [hw, Worker.held] using ha

theorem Placed.log_inj {s : Pool σ R E} (h : Placed job s) {i : Nat} {v v' : R × E}
    (hv : (i, v) ∈ s.log) (hv' : (i, v') ∈ s.log) : v = v' := by
  have hnodup : (s.log.map Prod.fst).Nodup :=
    (List.nodup_append.mp (h.symm.nodup List.nodup_range)).2.1
  exact congrArg Prod.snd (List.inj_on_of_nodup_map hnodup hv hv' rfl)

theorem Placed.log_lt {s : Pool σ R E} (h : Placed job s) {i : Nat} {v : R × E}
    (hv : (i, v) ∈ s.log) : i < job.args.length := by
  have hmem : i ∈ s.log.map Prod.fst := List.mem_map.mpr ⟨_, hv, rfl⟩
  exact List.mem_range.mp (h.mem_iff.mp (List.mem_append_right _ hmem))

/-! ### Where the results are -/

/-- What a call has returned is written, or a worker is about to write it; and a worker writes
only that. -/
structure Kept (s : Pool σ R E) : Prop where
  resultsLen : s.results.length = job.args.length
  errorsLen : s.errors.length = job.args.length
  result : ∀ i r e, (i, r, e) ∈ s.log → .storing i r e ∈ s.workers ∨ s.results[i]? = some r
  error : ∀ i r e, (i, r, e) ∈ s.log →
    .storing i r e ∈ s.workers ∨ .storingErr i e ∈ s.workers ∨ s.errors[i]? = some e
  storing : ∀ i r e, .storing i r e ∈ s.workers → (i, r, e) ∈ s.log
  storingErr : ∀ i e, .storingErr i e ∈ s.workers → ∃ r, (i, r, e) ∈ s.log

theorem mem_split_iff {l₁ l₂ : List (Worker R E)} {a b : Worker R E} :
    a ∈ l₁ ++ b :: l₂ ↔ a = b ∨ a ∈ l₁ ++ l₂ := by
  simp only [List.mem_append, List.mem_cons]
  tauto

theorem Kept.congr {s s' : Pool σ R E} (h : Kept job s) (hlog : s'.log = s.log)
    (hres : s'.results = s.results) (herr : s'.errors = s.errors)
    (hst : ∀ i r e, .storing i r e ∈ s'.workers ↔ .storing i r e ∈ s.workers)
    (hse : ∀ i e, .storingErr i e ∈ s'.workers ↔ .storingErr i e ∈ s.workers) : Kept job s' := by
  constructor
  · rw [hres]
    exact h.resultsLen
  · rw [herr]
    exact h.errorsLen
  · intro i r e he
    rw [hst, hres]
    exact h.result i r e (hlog ▸ he)
  · intro i r e he
    rw [hst, hse, herr]
    exact h.error i r e (hlog ▸ he)
  · intro i r e he
    rw [hlog]
    exact h.storing i r e ((hst i r e).mp he)
  · intro i e he
    rw [hlog]
    exact h.storingErr i e ((hse i e).mp he)

theorem Kept.answers {s : Pool σ R E} (h : Kept job s) {l₁ l₂ : List (Worker R E)} {idx : Nat}
    (hw : s.workers = l₁ ++ .calling idx :: l₂) (world : σ) (res : R) (err : E) :
    Kept job { s with
      world := world
      log := s.log ++ [(idx, res, err)]
      workers := l₁ ++ .storing idx res err :: l₂ } := by
  have hold : ∀ a : Worker R E, a ≠ .calling idx → a ∈ s.workers →
      a ∈ l₁ ++ .storing idx res err :: l₂ := by
    intro a ha hmem
    rw [hw, mem_split_iff] at hmem
    exact mem_split_iff.mpr (Or.inr (hmem.resolve_left ha))
  have hrest : ∀ a : Worker R E, a ∈ l₁ ++ l₂ → a ∈ s.workers := by
    intro a ha
    rw [hw]
    exact mem_split_iff.mpr (Or.inr ha)
  have hnew : ∀ i r e, (i, r, e) ∈ s.log ++ [(idx, res, err)] → (i, r, e) ∈ s.log ∨
      (.storing i r e : Worker R E) ∈ l₁ ++ .storing idx res err :: l₂ := by
    intro i r e he
    refine (List.mem_append.mp he).imp_right fun he => ?_
    cases List.mem_singleton.mp he
    exact mem_split_iff.mpr (Or.inl rfl)
  refine ⟨h.resultsLen, h.errorsLen, fun i r e he => ?_, fun i r e he => ?_, fun i r e he => ?_,
    fun i e he => ?_⟩
  · rcases hnew i r e he with he | he
    · exact (h.result i r e he).imp_left (hold _ fun heq => (nomatch heq))
    · exact Or.inl he
  · rcases hnew i r e he with he | he
    · exact (h.error i r e he).imp (hold _ fun heq => (nomatch heq))
        (Or.imp_left (hold _ fun heq => (nomatch heq)))
    · exact Or.inl he
  · rcases mem_split_iff.mp he with heq | he
    · cases heq
      exact List.mem_append_right _ (List.mem_singleton.mpr rfl)
    · exact List.mem_append_left _ (h.storing i r e (hrest _ he))
  · rcases mem_split_iff.mp he with heq | he
    · cases heq
    · obtain ⟨r, hr⟩ := h.storingErr i e (hrest _ he)
      exact ⟨r, List.mem_append_left _ hr⟩

theorem Kept.stores {s : Pool σ R E} (hp : Placed job s) (h : Kept job s)
    {l₁ l₂ : List (Worker R E)} {idx : Nat} {res : R} {err : E}
    (hw : s.workers = l₁ ++ .storing idx res err :: l₂) :
    Kept job { s with
      results := s.results.set idx res
      workers := l₁ ++ .storingErr idx err :: l₂ } := by
  have hmem_iff : ∀ {a}, a ∈ s.workers ↔ a = .storing idx res err ∨ a ∈ l₁ ++ l₂ := by
    intro a
    rw [hw]
    exact mem_split_iff
  have hmem : (idx, res, err) ∈ s.log := h.storing idx res err (hmem_iff.mpr (Or.inl rfl))
  have hlt : idx < s.results.length := by
    rw [h.resultsLen]
    exact hp.log_lt job hmem
  refine ⟨by rw [List.length_set]; exact h.resultsLen, h.errorsLen, fun i r e he => ?_,
    fun i r e he => ?_, fun i r e he => ?_, fun i e he => ?_⟩
  · by_cases hi : i = idx
    · subst hi
      cases hp.log_inj job he hmem
      exact Or.inr (List.getElem?_set_self hlt)
    · rw [List.getElem?_set_ne fun heq => hi heq.symm]
      refine (h.result i r e he).imp_left fun hin => ?_
      rcases hmem_iff.mp hin with heq | hin
      · cases heq
        exact absurd rfl hi
      · exact mem_split_iff.mpr (Or.inr hin)
  · rcases h.error i r e he with hin | hin | herr
    · rcases hmem_iff.mp hin with heq | hin
      · cases heq
        exact Or.inr (Or.inl (mem_split_iff.mpr (Or.inl rfl)))
      · exact Or.inl (mem_split_iff.mpr (Or.inr hin))
    · exact Or.inr (Or.inl (mem_split_iff.mpr
        ((hmem_iff.mp hin).imp_left fun heq => (nomatch heq))))
    · exact Or.inr (Or.inr herr)
  · rcases mem_split_iff.mp he with heq | he
    · cases heq
    · exact h.storing i r e (hmem_iff.mpr (Or.inr he))
  · rcases mem_split_iff.mp he with heq | he
    · cases heq
      exact ⟨res, hmem⟩
    · exact h.storingErr i e (hmem_iff.mpr (Or.inr he))

theorem Kept.storesErr {s : Pool σ R E} (hp : Placed job s) (h : Kept job s)
    {l₁ l₂ : List (Worker R E)} {idx : Nat} {err : E}
    (hw : s.workers = l₁ ++ .storingErr idx err :: l₂) :
    Kept job { s with errors := s.errors.set idx err, workers := l₁ ++ .ready :: l₂ } := by
  have hmem_iff : ∀ {a}, a ∈ s.workers ↔ a = .storingErr idx err ∨ a ∈ l₁ ++ l₂ := by
    intro a
    rw [hw]
    exact mem_split_iff
  obtain ⟨res, hmem⟩ := h.storingErr idx err (hmem_iff.mpr (Or.inl rfl))
  have hlt : idx < s.errors.length := by
    rw [h.errorsLen]
    exact hp.log_lt job hmem
  refine ⟨h.resultsLen, by rw [List.length_set]; exact h.errorsLen, fun i r e he => ?_,
    fun i r e he => ?_, fun i r e he => ?_, fun i e he => ?_⟩
  · refine (h.result i r e he).imp_left fun hin => ?_
    exact mem_split_iff.mpr ((hmem_iff.mp hin).imp_left fun heq => (nomatch heq))
  · by_cases hi : i = idx
    · subst hi
      cases hp.log_inj job he hmem
      exact Or.inr (Or.inr (List.getElem?_set_self hlt))
    · rw [List.getElem?_set_ne fun heq => hi heq.symm]
      rcases h.error i r e he with hin | hin | herr
      · exact Or.inl (mem_split_iff.mpr ((hmem_iff.mp hin).imp_left fun heq => (nomatch heq)))
      · rcases hmem_iff.mp hin with heq | hin
        · cases heq
          exact absurd rfl hi
        · exact Or.inr (Or.inl (mem_split_iff.mpr (Or.inr hin)))
      · exact Or.inr (Or.inr herr)
  · rcases mem_split_iff.mp he with heq | he
    · cases heq
    · exact h.storing i r e (hmem_iff.mpr (Or.inr he))
  · rcases mem_split_iff.mp he with heq | he
    · cases heq
    · exact h.storingErr i e (hmem_iff.mpr (Or.inr he))

theorem kept_moves {s s' : Pool σ R E} (hp : Placed job s) (h : Kept job s)
    (hm : Moves job s s') : Kept job s' := by
  cases hm with
  | starts hc hi => exact h.congr job rfl rfl rfl (fun _ _ _ => by simp) (fun _ _ => by simp)
  | started hc hi => exact h.congr job rfl rfl rfl (fun _ _ _ => Iff.rfl) (fun _ _ => Iff.rfl)
  | sends hc hi => exact h.congr job rfl rfl rfl (fun _ _ _ => Iff.rfl) (fun _ _ => Iff.rfl)
  | sent hc hi => exact h.congr job rfl rfl rfl (fun _ _ _ => Iff.rfl) (fun _ _ => Iff.rfl)
  | closes hc => exact h.congr job rfl rfl rfl (fun _ _ _ => Iff.rfl) (fun _ _ => Iff.rfl)
  | returns hc hwg => exact h.congr job rfl rfl rfl (fun _ _ _ => Iff.rfl) (fun _ _ => Iff.rfl)
  | takes hw hq =>
    exact h.congr job rfl rfl rfl (fun _ _ _ => by simp [hw]) (fun _ _ => by simp [hw])
  | exits hw hq hclosed =>
    exact h.congr job rfl rfl rfl (fun _ _ _ => by simp [hw]) (fun _ _ => by simp [hw])
  | answers hw hx => exact h.answers job hw _ _ _
  | stores hw => exact h.stores job hp hw
  | storesErr hw => exact h.storesErr job hp hw

/-! ### The wait group -/

def Worker.running : Worker R E → Bool
  | .exited => false
  | _ => true

/-- The wait group counts the workers that run; a worker is done only when the channel is closed
and empty, and the caller returns only when all are. -/
structure Grouped (s : Pool σ R E) : Prop where
  wg : s.wg = s.workers.countP Worker.running
  closed : s.closed = true → s.caller = .waiting ∨ s.caller = .returned
  waiting : s.caller = .waiting → s.closed = true
  exited : .exited ∈ s.workers → s.closed = true ∧ s.taskChan = []
  starting : ∀ i, s.caller = .starting i → s.workers.length = i ∧ i ≤ job.workerNum
  started : (∀ i, s.caller ≠ .starting i) → s.workers.length = job.workerNum
  returned : s.caller = .returned → s.wg = 0

theorem grouped_start (w : σ) : Grouped job (job.start w) := by
  have hcaller : (job.start w).caller
      = if job.args.length = 0 then .returned else .starting 0 := rfl
  by_cases hn : job.args.length = 0
  · rw [if_pos hn] at hcaller
    refine ⟨rfl, fun h => (nomatch h), fun _ => ?_, fun h => (nomatch h), fun i hi => ?_,
      fun _ => ?_, fun _ => rfl⟩
    · simp_all
    · simp_all
    · unfold Job.workerNum
      rw [hn]
      show 0 = _
      omega
  · rw [if_neg hn] at hcaller
    refine ⟨rfl, fun h => (nomatch h), fun h => ?_, fun h => (nomatch h), fun i hi => ?_,
      fun h => absurd hcaller (h 0), fun _ => rfl⟩
    · simp_all
    · rw [hcaller] at hi
      cases hi
      exact ⟨rfl, Nat.zero_le _⟩

theorem Grouped.congr {s s' : Pool σ R E} (h : Grouped job s) {l₁ l₂ : List (Worker R E)}
    {a b : Worker R E} (hw : s.workers = l₁ ++ a :: l₂) (hw' : s'.workers = l₁ ++ b :: l₂)
    (ha : a.running = true) (hb : b.running = true) (hwg : s'.wg = s.wg)
    (hcaller : s'.caller = s.caller) (hclosed : s'.closed = s.closed)
    (hq : s.taskChan = [] → s'.taskChan = []) : Grouped job s' := by
  have hlen : s'.workers.length = s.workers.length := by
    rw [hw, hw', List.length_append, List.length_append, List.length_cons, List.length_cons]
  constructor
  · rw [hwg, h.wg, hw, hw', List.countP_append, List.countP_append, List.countP_cons_of_pos ha,
      List.countP_cons_of_pos hb]
  · rw [hclosed, hcaller]
    exact h.closed
  · rw [hclosed, hcaller]
    exact h.waiting
  · intro hex
    rw [hclosed]
    rw [hw', mem_split_iff] at hex
    rcases hex with rfl | hex
    · cases hb
    · obtain ⟨hc, hch⟩ := h.exited (by rw [hw]; exact mem_split_iff.mpr (Or.inr hex))
      exact ⟨hc, hq hch⟩
  · rw [hcaller, hlen]
    exact h.starting
  · rw [hcaller, hlen]
    exact h.started
  · rw [hcaller, hwg]
    exact h.returned

theorem grouped_moves {s s' : Pool σ R E} (h : Grouped job s) (hm : Moves job s s') :
    Grouped job s' := by
  -- the caller has not closed the channel yet, so no worker is done
  have hnotClosed : ∀ {c}, s.caller = c → c ≠ .waiting → c ≠ .returned → s.closed ≠ true := by
    intro c hc h1 h2 hcl
    rcases h.closed hcl with hw | hr
    · exact h1 (hc.symm.trans hw)
    · exact h2 (hc.symm.trans hr)
  have hopen : s.closed ≠ true → .exited ∉ s.workers := fun hcl hex => hcl (h.exited hex).1
  cases hm with
  | @starts i hc hi =>
    have hcl := hnotClosed hc (fun h => (nomatch h)) (fun h => (nomatch h))
    refine ⟨?_, fun h => absurd h hcl, fun h => (nomatch h), fun hex => ?_, fun j hj => ?_,
      fun hno => absurd rfl (hno _), fun h => (nomatch h)⟩
    · simp [h.wg, Worker.running]
    · rcases List.mem_append.mp hex with hex | hex
      · exact absurd hex (hopen hcl)
      · cases List.mem_singleton.mp hex
    · cases hj
      rw [List.length_append, (h.starting i hc).1]
      exact ⟨rfl, hi⟩
  | @started i hc hi =>
    have hcl := hnotClosed hc (fun h => (nomatch h)) (fun h => (nomatch h))
    refine ⟨h.wg, fun h => absurd h hcl, fun h => (nomatch h), h.exited, fun j hj => (nomatch hj),
      fun _ => ?_, fun h => (nomatch h)⟩
    obtain ⟨hlen, hle⟩ := h.starting i hc
    show s.workers.length = _
    omega
  | @sends i hc hi =>
    have hcl := hnotClosed hc (fun h => (nomatch h)) (fun h => (nomatch h))
    exact ⟨h.wg, fun h => absurd h hcl, fun h => (nomatch h), fun hex => absurd hex (hopen hcl),
      fun j hj => (nomatch hj), fun _ => h.started (by rw [hc]; exact fun j hj => (nomatch hj)),
      fun h => (nomatch h)⟩
  | @sent i hc hi =>
    have hcl := hnotClosed hc (fun h => (nomatch h)) (fun h => (nomatch h))
    exact ⟨h.wg, fun h => absurd h hcl, fun h => (nomatch h), h.exited,
      fun j hj => (nomatch hj), fun _ => h.started (by rw [hc]; exact fun j hj => (nomatch hj)),
      fun h => (nomatch h)⟩
  | closes hc =>
    have hcl := hnotClosed hc (fun h => (nomatch h)) (fun h => (nomatch h))
    exact ⟨h.wg, fun _ => Or.inl rfl, fun _ => rfl, fun hex => absurd hex (hopen hcl),
      fun j hj => (nomatch hj), fun _ => h.started (by rw [hc]; exact fun j hj => (nomatch hj)),
      fun h => (nomatch h)⟩
  | returns hc hwg =>
    exact ⟨h.wg, fun _ => Or.inr rfl, fun h => (nomatch h), h.exited,
      fun j hj => (nomatch hj), fun _ => h.started (by rw [hc]; exact fun j hj => (nomatch hj)),
      fun _ => hwg⟩
  | takes hw hq =>
    exact h.congr job hw rfl rfl rfl rfl rfl rfl fun hnil => absurd (hnil.symm.trans hq) (by simp)
  | @exits l₁ l₂ hw hq hclosed =>
    refine ⟨?_, h.closed, h.waiting, fun _ => ⟨hclosed, hq⟩, ?_, ?_, ?_⟩
    · show s.wg - 1 = _
      rw [h.wg, hw, List.countP_append, List.countP_append, List.countP_cons_of_pos rfl,
        List.countP_cons_of_neg Bool.false_ne_true]
      omega
    · simpa [hw] using h.starting
    · simpa [hw] using h.started
    · intro hr
      have hwg := h.returned hr
      show s.wg - 1 = 0
      omega
  | answers hw hx => exact h.congr job hw rfl rfl rfl rfl rfl rfl id
  | stores hw => exact h.congr job hw rfl rfl rfl rfl rfl rfl id
  | storesErr hw => exact h.congr job hw rfl rfl rfl rfl rfl rfl id

/-! ### The calls one after the other -/

/-- The calls of `fn` in the list, one after the other, take the world from `w` to `w'`. -/
inductive Replay : σ → List (Nat × R × E) → σ → Prop
  | nil (w : σ) : Replay w [] w
  | cons {w w' : σ} {idx : Nat} {x : T} (c : γ) {log : List (Nat × R × E)}
      (hx : job.args[idx]? = some x) (h : Replay (job.fn x c w).2 log w') :
      Replay w ((idx, (job.fn x c w).1) :: log) w'

theorem Replay.snoc {w w' : σ} {log : List (Nat × R × E)} (h : Replay job w log w') {idx : Nat}
    {x : T} (c : γ) (hx : job.args[idx]? = some x) :
    Replay job w (log ++ [(idx, (job.fn x c w').1)]) (job.fn x c w').2 := by
  induction h with
  | nil w => exact .cons c hx (.nil _)
  | cons c' hx' _ ih => exact .cons c' hx' ih

theorem Replay.mem {w w' : σ} {log : List (Nat × R × E)} (h : Replay job w log w') {i : Nat}
    {v : R × E} (hv : (i, v) ∈ log) :
    ∃ x c u, job.args[i]? = some x ∧ v = (job.fn x c u).1 := by
  induction h with
  | nil w => cases hv
  | @cons w _ idx x c _ hx _ ih =>
    rcases List.mem_cons.mp hv with heq | hv
    · obtain ⟨rfl, rfl⟩ := Prod.mk.inj heq
      exact ⟨x, c, w, hx, rfl⟩
    · exact ih hv

theorem replay_moves {w : σ} {s s' : Pool σ R E} (h : Replay job w s.log s.world)
    (hm : Moves job s s') : Replay job w s'.log s'.world := by
  cases hm with
  | @answers _ _ _ _ c _ hx => exact h.snoc job c hx
  | _ => exact h

/-! ### Every schedule -/

/-- What holds in every state of a run that starts in the world `w`. -/
structure Good (w : σ) (s : Pool σ R E) : Prop where
  placed : Placed job s
  kept : Kept job s
  grouped : Grouped job s
  replay : Replay job w s.log s.world

theorem good_start (w : σ) : Good job w (job.start w) := by
  refine ⟨?_, ⟨List.length_replicate, List.length_replicate, fun _ _ _ h => (nomatch h),
    fun _ _ _ h => (nomatch h), fun _ _ _ h => (nomatch h), fun _ _ h => (nomatch h)⟩,
    grouped_start job w, .nil w⟩
  unfold Placed Job.start
  by_cases hn : job.args.length = 0
  · simp [hn, Job.unsent]
  · simp [hn, Job.unsent]

theorem good_reach {w : σ} {s : Pool σ R E} (h : Reach job.step anyEvent (job.start w) s) :
    Good job w s := by
  refine Reach.invariant (Good job w) (good_start job w) (fun s e hg _ => ?_) h
  rcases step_moves job s e with heq | hm
  · rw [heq]
    exact hg
  · exact ⟨placed_moves job hg.placed hm, kept_moves job hg.placed hg.kept hm,
      grouped_moves job hg.grouped hm, replay_moves job hg.replay hm⟩

theorem Good.all_exited {w : σ} {s : Pool σ R E} (h : Good job w s) (hr : s.caller = .returned) :
    ∀ a ∈ s.workers, a = .exited := by
  intro a ha
  have hcount : s.workers.countP Worker.running = 0 :=
    h.grouped.wg.symm.trans (h.grouped.returned hr)
  have hnot := List.countP_eq_zero.mp hcount a ha
  cases a with
  | exited => rfl
  | _ => exact absurd rfl hnot

theorem Good.log_perm {w : σ} {s : Pool σ R E} (hmax : 1 ≤ job.maxConcurrency)
    (h : Good job w s) (hr : s.caller = .returned) :
    (s.log.map Prod.fst).Perm (List.range job.args.length) := by
  have hp := h.placed
  unfold Placed at hp
  have hheld : s.workers.flatMap Worker.held = [] := by
    rw [List.flatMap_eq_nil_iff]
    intro a ha
    rw [h.all_exited job hr a ha]
    rfl
  have hchan : s.taskChan = [] := by
    by_cases hn : job.args.length = 0
    · rw [hn, List.range_zero, List.perm_nil] at hp
      simp only [List.append_eq_nil_iff] at hp
      exact hp.1.1.2
    · -- there is a worker, and it is done
      have hlen := h.grouped.started (by rw [hr]; exact fun i hi => (nomatch hi))
      have hpos : 0 < s.workers.length := by
        rw [hlen]
        unfold Job.workerNum
        omega
      have hmem := List.getElem_mem hpos
      rw [h.all_exited job hr _ hmem] at hmem
      exact (h.grouped.exited hmem).2
  rw [hheld, hchan, hr] at hp
  exact hp

theorem Good.results {w : σ} {s : Pool σ R E} (h : Good job w s) (hr : s.caller = .returned)
    {i : Nat} {r : R} {e : E} (he : (i, r, e) ∈ s.log) :
    s.results[i]? = some r ∧ s.errors[i]? = some e := by
  have hnone : ∀ a, a ∈ s.workers → a ≠ .exited → False :=
    fun a ha hne => hne (h.all_exited job hr a ha)
  refine ⟨?_, ?_⟩
  · rcases h.kept.result i r e he with hin | hres
    · exact (hnone _ hin fun heq => (nomatch heq)).elim
    · exact hres
  · rcases h.kept.error i r e he with hin | hin | herr
    · exact (hnone _ hin fun heq => (nomatch heq)).elim
    · exact (hnone _ hin fun heq => (nomatch heq)).elim
    · exact herr

/-- A function whose results do not depend on the world: they are there in the order of the
arguments. -/
theorem Good.results_eq_map {w : σ} {s : Pool σ R E} (hmax : 1 ≤ job.maxConcurrency)
    (h : Good job w s) (hr : s.caller = .returned) {f : T → R × E}
    (hf : ∀ x c u, (job.fn x c u).1 = f x) :
    s.results = job.args.map (fun x => (f x).1) ∧ s.errors = job.args.map (fun x => (f x).2) := by
  have hcall : ∀ i (hi : i < job.args.length), (i, f job.args[i]) ∈ s.log := by
    intro i hi
    have hmem := (h.log_perm job hmax hr).mem_iff.mpr (List.mem_range.mpr hi)
    obtain ⟨⟨j, v⟩, hv, rfl⟩ := List.mem_map.mp hmem
    obtain ⟨x, c, u, hx, rfl⟩ := h.replay.mem job hv
    rw [List.getElem?_eq_getElem hi] at hx
    rw [hf, ← Option.some.inj hx] at hv
    exact hv
  refine ⟨List.ext_getElem? fun i => ?_, List.ext_getElem? fun i => ?_⟩
  · by_cases hi : i < job.args.length
    · rw [(h.results job hr (hcall i hi)).1, List.getElem?_map, List.getElem?_eq_getElem hi]
      rfl
    · rw [List.getElem?_eq_none (by rw [h.kept.resultsLen]; omega),
        List.getElem?_eq_none (by rw [List.length_map]; omega)]
  · by_cases hi : i < job.args.length
    · rw [(h.results job hr (hcall i hi)).2, List.getElem?_map, List.getElem?_eq_getElem hi]
      rfl
    · rw [List.getElem?_eq_none (by rw [h.kept.errorsLen]; omega),
        List.getElem?_eq_none (by rw [List.length_map]; omega)]

/-! ### The function returns -/

theorem ne_of_set {s s' : Pool σ R E} {w : Nat} {a b : Worker R E} (hw : s.workers[w]? = some a)
    (hs : s'.workers = s.workers.set w b) (hne : b ≠ a) : s' ≠ s := by
  intro heq
  have hlt := (List.getElem?_eq_some_iff.mp hw).1
  have hself : (s.workers.set w b)[w]? = some a := by rw [← hs, heq, hw]
  rw [List.getElem?_set_self hlt] at hself
  exact hne (Option.some.inj hself)

theorem work_ne {s : Pool σ R E} {w : Nat} {a : Worker R E} (c : γ) (hp : Placed job s)
    (hw : s.workers[w]? = some a) (ha : a.running = true) (hclosed : s.closed = true) :
    job.work s w c a ≠ s := by
  cases a with
  | ready =>
    cases hq : s.taskChan with
    | nil =>
      simp only [Job.work, hq, if_pos hclosed]
      exact ne_of_set hw rfl fun h => (nomatch h)
    | cons idx rest =>
      simp only [Job.work, hq]
      exact ne_of_set hw rfl fun h => (nomatch h)
  | calling idx =>
    have hmem : idx ∈ s.workers.flatMap Worker.held :=
      List.mem_flatMap.mpr ⟨_, List.mem_of_getElem? hw, List.mem_singleton.mpr rfl⟩
    have hidx : idx < job.args.length := List.mem_range.mp
      (hp.mem_iff.mp (List.mem_append_left _ (List.mem_append_right _ hmem)))
    simp only [Job.work, List.getElem?_eq_getElem hidx]
    exact ne_of_set hw rfl fun h => (nomatch h)
  | storing idx res err => exact ne_of_set hw rfl fun h => (nomatch h)
  | storingErr idx err => exact ne_of_set hw rfl fun h => (nomatch h)
  | exited => cases ha

/-- While there is an index to send, the channel has room for it. -/
theorem Placed.room {s : Pool σ R E} (h : Placed job s) {i : Nat} (hc : s.caller = .sending i)
    (hi : i < job.args.length) : s.taskChan.length < job.args.length := by
  have hlen := h.length_eq
  rw [hc] at hlen
  simp only [Job.unsent, List.length_append, List.length_drop, List.length_range] at hlen
  omega

/-- **Nobody waits forever**: until the function returns some step is possible. -/
theorem Good.goes_on [Nonempty γ] {w : σ} {s : Pool σ R E} (h : Good job w s)
    (hr : s.caller ≠ .returned) : ∃ e : PoolEvent γ, job.step s e ≠ s := by
  have hcaller : ∀ {s' : Pool σ R E}, s'.caller ≠ s.caller → s' ≠ s :=
    fun hne heq => hne (congrArg Pool.caller heq)
  cases hc : s.caller with
  | starting i =>
    refine ⟨.caller, hcaller ?_⟩
    by_cases hi : i < job.workerNum
    · simp [Job.step, hc, hi]
    · simp [Job.step, hc, hi]
  | sending i =>
    refine ⟨.caller, hcaller ?_⟩
    by_cases hi : i < job.args.length
    · simp [Job.step, hc, hi, h.placed.room job hc hi]
    · simp [Job.step, hc, hi]
  | closing => exact ⟨.caller, hcaller (by simp [Job.step, hc])⟩
  | waiting =>
    by_cases hwg : s.wg = 0
    · exact ⟨.caller, hcaller (by simp [Job.step, hc, hwg])⟩
    · -- a worker still runs
      have hpos : 0 < s.workers.countP Worker.running := by
        rw [← h.grouped.wg]
        omega
      obtain ⟨a, ha, hrun⟩ := List.countP_pos_iff.mp hpos
      obtain ⟨n, hn⟩ := List.getElem?_of_mem ha
      obtain ⟨c⟩ := ‹Nonempty γ›
      refine ⟨.worker n c, ?_⟩
      simp only [Job.step, hn]
      exact work_ne job c h.placed hn hrun (h.grouped.waiting hc)
  | returned => exact absurd hc hr

def Job.run (w : σ) (events : Nat → PoolEvent γ) : Nat → Pool σ R E
  | 0 => job.start w
  | k + 1 => job.step (Job.run w events k) (events k)

theorem reach_run (w : σ) (events : Nat → PoolEvent γ) (k : Nat) :
    Reach job.step anyEvent (job.start w) (job.run w events k) := by
  induction k with
  | zero => exact Reach.start
  | succ k ih => exact Reach.next (events k) ih trivial

/-- As long as some step is possible, one is made later. -/
def GoesOn (w : σ) (events : Nat → PoolEvent γ) : Prop :=
  ∀ k, (∃ e, job.step (job.run w events k) e ≠ job.run w events k) →
    ∃ j, k ≤ j ∧ job.run w events (j + 1) ≠ job.run w events j

theorem returns_of_goesOn [Nonempty γ] {w : σ} {events : Nat → PoolEvent γ}
    (h : GoesOn job w events) : ∃ k, (job.run w events k).caller = .returned := by
  have hleft : ∀ s e, job.step s e = s ∨ job.left (job.step s e) < job.left s := by
    intro s e
    refine (step_moves job s e).imp_right fun hm => ?_
    have hone := left_moves job hm
    omega
  exact @ends_of_measure _ _ job.step job.left (fun s => s.caller = .returned) hleft events
    (job.run w events) (fun _ => rfl) fun k hk =>
      h k ((good_reach job (reach_run job w events k)).goes_on job hk)

structure Complete (s : Pool σ R E) : Prop where
  /-- `fn` was called once for every index. -/
  once : (s.log.map Prod.fst).Perm (List.range job.args.length)
  finished : ∀ a ∈ s.workers, a = .exited
  resultsLen : s.results.length = job.args.length
  errorsLen : s.errors.length = job.args.length
  /-- What a call returned is in the place of its index. -/
  aligned : ∀ i r e, (i, r, e) ∈ s.log → s.results[i]? = some r ∧ s.errors[i]? = some e
  /-- A function that does not depend on the world has the same results in every schedule. -/
  functional : ∀ f : T → R × E, (∀ x c u, (job.fn x c u).1 = f x) →
    s.results = job.args.map (fun x => (f x).1) ∧ s.errors = job.args.map (fun x => (f x).2)

theorem Good.complete {w : σ} {s : Pool σ R E} (hmax : 1 ≤ job.maxConcurrency)
    (h : Good job w s) (hr : s.caller = .returned) : Complete job s where
  once := h.log_perm job hmax hr
  finished := h.all_exited job hr
  resultsLen := h.kept.resultsLen
  errorsLen := h.kept.errorsLen
  aligned _ _ _ he := h.results job hr he
  functional _ hf := h.results_eq_map job hmax hr hf

/-- **Every index is called once and its results stand in its place**, in every interleaving: at
no time has an index been called, or is being called, twice; the calls that have returned can be
made one after the other with the same results; the function is back only when all calls are; and
it comes back in every schedule that goes on as long as it can. -/
theorem parallel_exactly_once [Nonempty γ] (hmax : 1 ≤ job.maxConcurrency) (w : σ) :
    (∀ s, Reach job.step anyEvent (job.start w) s →
      (s.workers.flatMap Worker.held ++ s.log.map Prod.fst).Nodup ∧
      Replay job w s.log s.world ∧ (s.caller = .returned → Complete job s)) ∧
    ∀ events, GoesOn job w events → ∃ k, (job.run w events k).caller = .returned := by
  refine ⟨fun s hs => ?_, fun events hgo => returns_of_goesOn job hgo⟩
  have hgood := good_reach job hs
  refine ⟨?_, hgood.replay, hgood.complete job hmax⟩
  have hnodup := hgood.placed.symm.nodup List.nodup_range
  rw [List.append_assoc] at hnodup
  exact (List.nodup_append.mp hnodup).2.1

end

/-- Two workers for three numbers: `fn` squares, and zero is an error; the world counts the
calls. -/
def squareJob : Job Nat Unit Nat Nat Bool where
  fn x _ calls := ((x * x, x == 0), calls + 1)
  args := [3, 0, 5]
  maxConcurrency := 2
  zeroResult := 0
  zeroError := false

/-- The caller closes the channel before the workers start to take turns. -/
def squareEvents : List (PoolEvent Unit) :=
  List.replicate 8 PoolEvent.caller
    ++ (List.replicate 9 [PoolEvent.worker 1 (), PoolEvent.worker 0 ()]).flatten
    ++ [PoolEvent.caller]

theorem parallel_exactly_once_squares : 1 ≤ squareJob.maxConcurrency ∧
    (squareEvents.foldl squareJob.step (squareJob.start 0)).caller = .returned ∧
    (squareEvents.foldl squareJob.step (squareJob.start 0)).results = [9, 0, 25] ∧
    (squareEvents.foldl squareJob.step (squareJob.start 0)).errors = [false, true, false] := by
  have hdone : (squareEvents.foldl squareJob.step (squareJob.start 0)).caller = .returned := rfl
  have hcomplete := ((parallel_exactly_once squareJob (by decide) 0).1 _
    (reach_foldl _ _ squareEvents)).2.2 hdone
  exact ⟨by decide, hdone,
    hcomplete.functional (fun x => (x * x, x == 0)) fun _ _ _ => rfl⟩

/-! ### The requests of the master -/

/-- `ParallelExecuteWithResults(HttpOneNode, tasks, 10)` in a handler that is thread `t`. -/
def postJob (net : Network) (t : Nat) (tasks : List Task) :
    Job Task net.Choice (World net) Status String where
  fn task c w :=
    let x := (master net).exec t w (.post task) c
    ((x.1.status, x.1.err), x.2)
  args := tasks
  maxConcurrency := 10
  zeroResult := {}
  zeroError := ""

def toReply (e : Nat × Status × String) : Nat × Reply := (e.1, ⟨e.2.1, e.2.2⟩)

theorem runs_sendTasks {net : Network} {t : Nat} {tasks : List Task} {w w' : World net}
    {log : List (Nat × Status × String)} (h : Replay (postJob net t tasks) w log w') :
    ∃ tr, Runs (master net) t (sendTasks tasks (log.map Prod.fst)) w tr (log.map toReply) w' := by
  induction h with
  | nil w => exact ⟨[], @Runs.ret _ _ _ (master net) t [] w⟩
  | @cons w w' idx x c log hx _ ih =>
    obtain ⟨tr, hrun⟩ := ih
    have htask : tasks[idx]? = some x := hx
    rw [List.map_cons, List.map_cons]
    unfold sendTasks
    simp only [htask]
    refine ⟨_ :: (tr ++ []), Runs.perform (M := master net) (o := .post x) c ?_⟩
    exact Runs.seq hrun (Runs.ret _ _)

/-- **The workers do what `parallelExecute` says**: when they are done, their requests were sent
one after the other in some order, and the results are the replies by index. -/
theorem parallelExecute_of_returned {net : Network} {t : Nat} {tasks : List Task} {w : World net}
    {s : Pool (World net) Status String}
    (hs : Reach (postJob net t tasks).step anyEvent ((postJob net t tasks).start w) s)
    (hr : s.caller = .returned) :
    ∃ tr, Runs (master net) t (parallelExecute tasks) w tr
      (List.zipWith Reply.mk s.results s.errors) s.world := by
  have hgood := good_reach _ hs
  have hmax : 1 ≤ (postJob net t tasks).maxConcurrency := by
    show (1 : Int) ≤ 10
    decide
  have hdone := hgood.complete _ hmax hr
  obtain ⟨tr, hrun⟩ := runs_sendTasks hgood.replay
  have hkeys : ((s.log.map toReply).map Prod.fst).Perm (List.range tasks.length) := by
    rw [List.map_map]
    exact hdone.once
  have hvalue : (List.range tasks.length).map (fun i => ((s.log.map toReply).lookup i).getD {})
      = List.zipWith Reply.mk s.results s.errors := by
    refine List.ext_getElem? fun i => ?_
    by_cases hi : i < tasks.length
    · -- the call with this index, and the only one
      obtain ⟨⟨j, r, e⟩, hmem, rfl⟩ :=
        List.mem_map.mp (hdone.once.mem_iff.mpr (List.mem_range.mpr hi))
      have hall := eq_map_lookup (hkeys.nodup_iff.mpr List.nodup_range) ({} : Reply)
      have hin : toReply (j, r, e) ∈ s.log.map toReply := List.mem_map.mpr ⟨_, hmem, rfl⟩
      rw [hall] at hin
      obtain ⟨k, _, hk⟩ := List.mem_map.mp hin
      obtain ⟨rfl, hval⟩ := Prod.mk.inj hk
      obtain ⟨hres, herr⟩ := hdone.aligned _ _ _ hmem
      rw [List.getElem?_map, List.getElem?_range hi, List.getElem?_zipWith, hres, herr]
      exact congrArg some hval
    · rw [List.getElem?_eq_none (by rw [List.length_map, List.length_range]; omega),
        List.getElem?_eq_none (by
          rw [List.length_zipWith, hdone.resultsLen, hdone.errorsLen, Nat.min_self]
          exact Nat.le_of_not_lt hi)]
  rw [← hvalue]
  let order : Order tasks.length := ⟨s.log.map Prod.fst, hdone.once⟩
  refine ⟨_ :: (tr ++ []), Runs.perform (M := master net) (o := .order tasks.length) order ?_⟩
  exact Runs.seq hrun (Runs.ret _ _)

end SimSearch.Master.Parallel
