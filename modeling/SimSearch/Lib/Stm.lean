import SimSearch.Lib.Runs

/-!
# Optimistic transactions on one cell

Any number of callers run transactions on a cell with a version.  A transaction reads the
cell and runs its function on the value, which also writes variables of the caller; later it
asks the store to put a new value, and the store does so only if the version is still the one
that was read.  If it is not, the function is run again.  A call may fail at any point, and
also after the store has put its value.

* `step_moves`: what an event can do.
* `Inv`: what holds between the cell, the calls and the list of commits.  **The commits are a
  run of the function, one after the other** (`Serial`), each on the value that the one before
  it left; a call that returned without an error has one commit, and returned what the
  function left in its variables then.
* `inv_reach`: the invariant holds in every state that is reached.
-/

namespace SimSearch.Lib.Stm

variable {L V E R : Type}

/-- The function of a transaction, with the variables of its caller and the value that it
reads: it gives the value to put, or an error.  `result` is what a call that went through
returns. -/
structure Txn (L V E R : Type) where
  body : L → V → L × Except E V
  result : L → R

inductive Phase (V E R : Type)
  | ready
  /-- The function ran on the value of that version, and the new value was not put yet. -/
  | ran (version : Nat) (put : V)
  | done (ans : Except E R)

structure Call (L V E R : Type) where
  vars : L
  phase : Phase V E R

structure Commit (L V : Type) where
  call : Nat
  vars : L
  old : V
  new : V
  deriving DecidableEq

structure State (L V E R : Type) where
  val : V
  version : Nat := 0
  calls : Nat → Option (Call L V E R) := fun _ => none
  commits : List (Commit L V) := []

/-- What comes back for a commit: the answer, an error before the store has seen the request,
or an error although it has. -/
inductive Reply (E : Type)
  | answered
  | notSent (e : E)
  | lost (e : E)

inductive Event (L E : Type)
  | start (t : Nat) (vars : L)
  /-- The cell is read, unless that fails, and the function runs. -/
  | run (t : Nat) (failure : Option E)
  | commit (t : Nat) (reply : Reply E)

def State.set (s : State L V E R) (t : Nat) (call : Call L V E R) : State L V E R :=
  { s with calls := Function.update s.calls t (some call) }

def State.put (s : State L V E R) (t : Nat) (vars : L) (new : V) : State L V E R :=
  { s with val := new, version := s.version + 1,
           commits := s.commits ++ [⟨t, vars, s.val, new⟩] }

/-- What the store does with a request to put `new` if the version is `version`. -/
def State.tryPut (s : State L V E R) (t : Nat) (vars : L) (version : Nat) (new : V) :
    State L V E R :=
  if version = s.version then s.put t vars new else s

def step (txn : Txn L V E R) (s : State L V E R) : Event L E → State L V E R
  | .start t vars =>
    match s.calls t with
    | none => s.set t ⟨vars, .ready⟩
    | some _ => s
  | .run t failure =>
    match s.calls t with
    | some ⟨vars, .ready⟩ =>
      match failure with
      | some e => s.set t ⟨vars, .done (.error e)⟩
      | none =>
        match txn.body vars s.val with
        | (vars, .error e) => s.set t ⟨vars, .done (.error e)⟩
        | (vars, .ok new) => s.set t ⟨vars, .ran s.version new⟩
    | _ => s
  | .commit t reply =>
    match s.calls t with
    | some ⟨vars, .ran version new⟩ =>
      match reply with
      | .notSent e => s.set t ⟨vars, .done (.error e)⟩
      | .lost e => (s.tryPut t vars version new).set t ⟨vars, .done (.error e)⟩
      | .answered =>
        if version = s.version then (s.put t vars new).set t ⟨vars, .done (.ok (txn.result vars))⟩
        else s.set t ⟨vars, .ready⟩
    | _ => s

/-! ### What an event does -/

def Phase.isDone : Phase V E R → Bool
  | .done _ => true
  | _ => false

/-- A phase that a call may be in without having put a value. -/
def Waiting (txn : Txn L V E R) (s : State L V E R) (call : Call L V E R) : Prop :=
  call.phase = .ready ∨
    (∃ vars new, call.phase = .ran s.version new ∧ txn.body vars s.val = (call.vars, .ok new)) ∨
    ∃ e, call.phase = .done (.error e)

/-- **What an event does**: nothing, or one call that has not returned goes on without a
commit, or it commits the value that it computed from the present one and returns. -/
inductive Moves (txn : Txn L V E R) (s : State L V E R) : State L V E R → Prop
  | stays : Moves txn s s
  | goesOn {t : Nat} {call : Call L V E R} (hcall : Waiting txn s call)
      (hopen : ∀ old, s.calls t = some old → old.phase.isDone = false) :
      Moves txn s (s.set t call)
  | commits {t : Nat} {vars : L} {new : V} {ans : Except E R}
      (ht : s.calls t = some ⟨vars, .ran s.version new⟩)
      (hans : ∀ r, ans = .ok r → r = txn.result vars) :
      Moves txn s ((s.put t vars new).set t ⟨vars, .done ans⟩)

section

variable {txn : Txn L V E R} {s : State L V E R} {t : Nat}

theorem open_of_calls {call : Call L V E R} (ht : s.calls t = some call)
    (hphase : call.phase.isDone = false) :
    ∀ old, s.calls t = some old → old.phase.isDone = false := by
  intro old hold
  rw [ht, Option.some.injEq] at hold
  rw [← hold]
  exact hphase

theorem moves_fails {vars vars' : L} {phase : Phase V E R} (ht : s.calls t = some ⟨vars, phase⟩)
    (hphase : phase.isDone = false) (e : E) : Moves txn s (s.set t ⟨vars', .done (.error e)⟩) :=
  .goesOn (Or.inr (Or.inr ⟨e, rfl⟩)) (open_of_calls ht hphase)

theorem moves_run {vars : L} (ht : s.calls t = some ⟨vars, .ready⟩) (failure : Option E) :
    Moves txn s (step txn s (.run t failure)) := by
  cases failure with
  | some e =>
    simp only [step, ht]
    exact moves_fails ht rfl e
  | none =>
    cases hbody : txn.body vars s.val with
    | mk vars' out =>
      cases out with
      | error e =>
        simp only [step, ht, hbody]
        exact moves_fails ht rfl e
      | ok new =>
        simp only [step, ht, hbody]
        exact .goesOn (Or.inr (Or.inl ⟨vars, new, rfl, hbody⟩)) (open_of_calls ht rfl)

theorem moves_commit {vars : L} {version : Nat} {new : V}
    (ht : s.calls t = some ⟨vars, .ran version new⟩) (reply : Reply E) :
    Moves txn s (step txn s (.commit t reply)) := by
  by_cases hv : version = s.version
  · subst hv
    cases reply with
    | notSent e =>
      simp only [step, ht]
      exact moves_fails ht rfl e
    | lost e =>
      simp only [step, ht, State.tryPut, if_true]
      exact .commits ht fun r hr => (nomatch hr)
    | answered =>
      simp only [step, ht, if_true]
      exact .commits ht fun r hr => (Except.ok.inj hr).symm
  · -- the version has moved on, so nothing is put
    cases reply with
    | notSent e =>
      simp only [step, ht]
      exact moves_fails ht rfl e
    | lost e =>
      simp only [step, ht, State.tryPut, if_neg hv]
      exact moves_fails ht rfl e
    | answered =>
      simp only [step, ht, if_neg hv]
      exact .goesOn (Or.inl rfl) (open_of_calls ht rfl)

end

theorem step_moves (txn : Txn L V E R) (s : State L V E R) (ev : Event L E) :
    Moves txn s (step txn s ev) := by
  cases ev with
  | start t vars =>
    cases ht : s.calls t with
    | some call =>
      simp only [step, ht]
      exact .stays
    | none =>
      simp only [step, ht]
      refine .goesOn (Or.inl rfl) fun old hold => ?_
      rw [ht] at hold
      cases hold
  | run t failure =>
    cases ht : s.calls t with
    | none =>
      simp only [step, ht]
      exact .stays
    | some call =>
      obtain ⟨vars, phase⟩ := call
      cases phase with
      | ready => exact moves_run ht failure
      | ran version new =>
        simp only [step, ht]
        exact .stays
      | done ans =>
        simp only [step, ht]
        exact .stays
  | commit t reply =>
    cases ht : s.calls t with
    | none =>
      simp only [step, ht]
      exact .stays
    | some call =>
      obtain ⟨vars, phase⟩ := call
      cases phase with
      | ran version new => exact moves_commit ht reply
      | ready =>
        simp only [step, ht]
        exact .stays
      | done ans =>
        simp only [step, ht]
        exact .stays

/-! ### The invariant -/

/-- A run of the function alone: each commit is the function on the value that the one before
it left. -/
inductive Serial (txn : Txn L V E R) (start : V) : List (Commit L V) → V → Prop
  | nil : Serial txn start [] start
  | snoc {cs : List (Commit L V)} {v new : V} {t : Nat} {vars vars' : L} :
      Serial txn start cs v → txn.body vars v = (vars', .ok new) →
      Serial txn start (cs ++ [⟨t, vars', v, new⟩]) new

structure Inv (txn : Txn L V E R) (start : V) (P : V → Prop) (s : State L V E R) : Prop where
  serial : Serial txn start s.commits s.val
  olds : ∀ c ∈ s.commits, P c.old
  versions : ∀ t vars version new, s.calls t = some ⟨vars, .ran version new⟩ → version ≤ s.version
  ran : ∀ t vars new, s.calls t = some ⟨vars, .ran s.version new⟩ →
    ∃ vars₀, txn.body vars₀ s.val = (vars, .ok new)
  returned : ∀ c ∈ s.commits, ∃ call, s.calls c.call = some call ∧ call.phase.isDone = true
  once : (s.commits.map Commit.call).Nodup
  ok : ∀ t vars r, s.calls t = some ⟨vars, .done (.ok r)⟩ →
    ∃ c ∈ s.commits, c.call = t ∧ txn.result c.vars = r

variable {txn : Txn L V E R} {start : V} {P : V → Prop}

theorem inv_init : Inv txn start P ({ val := start } : State L V E R) :=
  ⟨Serial.nil, fun _ hc => (nomatch hc), fun _ _ _ _ h => (nomatch h), fun _ _ _ h => (nomatch h),
    fun _ hc => (nomatch hc), List.nodup_nil, fun _ _ _ h => (nomatch h)⟩

theorem calls_set_self (s : State L V E R) (t : Nat) (call : Call L V E R) :
    (s.set t call).calls t = some call := Function.update_self _ _ _

theorem calls_set_of_ne {t u : Nat} (h : u ≠ t) (s : State L V E R) (call : Call L V E R) :
    (s.set t call).calls u = s.calls u := Function.update_of_ne h _ _

theorem inv_set {s : State L V E R} (hs : Inv txn start P s) {t : Nat} {call : Call L V E R}
    (hcall : Waiting txn s call) (hopen : ∀ old, s.calls t = some old → old.phase.isDone = false) :
    Inv txn start P (s.set t call) := by
  have hother : ∀ {u : Nat} {phase : Phase V E R} {vars : L}, u ≠ t →
      (s.set t call).calls u = some ⟨vars, phase⟩ → s.calls u = some ⟨vars, phase⟩ := by
    intro u phase vars hu h
    rwa [calls_set_of_ne hu] at h
  have hself : ∀ {vars : L} {phase : Phase V E R}, (s.set t call).calls t = some ⟨vars, phase⟩ →
      call = ⟨vars, phase⟩ := by
    intro vars phase h
    rw [calls_set_self, Option.some.injEq] at h
    exact h
  refine ⟨hs.serial, hs.olds, ?_, ?_, ?_, hs.once, ?_⟩
  · intro u vars version new h
    by_cases hu : u = t
    · subst hu
      rw [hself h] at hcall
      rcases hcall with hp | ⟨_, _, hp, -⟩ | ⟨e, hp⟩
      · cases hp
      · cases hp
        exact Nat.le_refl _
      · cases hp
    · exact hs.versions u vars version new (hother hu h)
  · intro u vars new h
    by_cases hu : u = t
    · subst hu
      rw [hself h] at hcall
      rcases hcall with hp | ⟨vars₀, _, hp, hbody⟩ | ⟨e, hp⟩
      · cases hp
      · cases hp
        exact ⟨vars₀, hbody⟩
      · cases hp
    · exact hs.ran u vars new (hother hu h)
  · intro c hc
    obtain ⟨old, hold, hdone⟩ := hs.returned c hc
    have hne : c.call ≠ t := by
      intro heq
      rw [heq] at hold
      rw [hopen old hold] at hdone
      cases hdone
    exact ⟨old, by rw [calls_set_of_ne hne]; exact hold, hdone⟩
  · intro u vars r h
    by_cases hu : u = t
    · subst hu
      rw [hself h] at hcall
      rcases hcall with hp | ⟨_, _, hp, -⟩ | ⟨e, hp⟩ <;> cases hp
    · exact hs.ok u vars r (hother hu h)

theorem inv_put {s : State L V E R} (hs : Inv txn start P s) (hP : P s.val) {t : Nat} {vars : L}
    {new : V} {ans : Except E R} (ht : s.calls t = some ⟨vars, .ran s.version new⟩)
    (hans : ∀ r, ans = .ok r → r = txn.result vars) :
    Inv txn start P ((s.put t vars new).set t ⟨vars, .done ans⟩) := by
  obtain ⟨vars₀, hbody⟩ := hs.ran t vars new ht
  have hother : ∀ {u : Nat} {call : Call L V E R}, u ≠ t →
      ((s.put t vars new).set t ⟨vars, .done ans⟩).calls u = some call → s.calls u = some call := by
    intro u call hu h
    rwa [calls_set_of_ne hu] at h
  have hself : ∀ {call : Call L V E R},
      ((s.put t vars new).set t ⟨vars, .done ans⟩).calls t = some call →
      call = ⟨vars, .done ans⟩ := by
    intro call h
    rw [calls_set_self, Option.some.injEq] at h
    exact h.symm
  -- this call has no commit yet, for it has not returned
  have hfirst : t ∉ s.commits.map Commit.call := by
    intro hmem
    obtain ⟨c, hc, rfl⟩ := List.mem_map.mp hmem
    obtain ⟨call, hcall, hdone⟩ := hs.returned c hc
    rw [ht, Option.some.injEq] at hcall
    rw [← hcall] at hdone
    cases hdone
  refine ⟨Serial.snoc hs.serial hbody, ?_, ?_, ?_, ?_, ?_, ?_⟩
  · intro c hc
    rcases List.mem_append.mp hc with hc | hc
    · exact hs.olds c hc
    · rw [List.mem_singleton.mp hc]
      exact hP
  · intro u vars' version new' h
    by_cases hu : u = t
    · subst hu
      cases hself h
    · exact Nat.le_succ_of_le (hs.versions u vars' version new' (hother hu h))
  · intro u vars' new' h
    by_cases hu : u = t
    · subst hu
      cases hself h
    · -- an older version was read
      exact absurd (hs.versions u vars' _ new' (hother hu h)) (Nat.not_succ_le_self _)
  · intro c hc
    by_cases hct : c.call = t
    · exact ⟨⟨vars, .done ans⟩, by rw [hct, calls_set_self], rfl⟩
    · rcases List.mem_append.mp hc with hc | hc
      · obtain ⟨call, hcall, hdone⟩ := hs.returned c hc
        exact ⟨call, by rw [calls_set_of_ne hct]; exact hcall, hdone⟩
      · rw [List.mem_singleton.mp hc] at hct
        exact absurd rfl hct
  · show ((s.commits ++ [(⟨t, vars, s.val, new⟩ : Commit L V)]).map Commit.call).Nodup
    rw [List.map_append, List.nodup_append]
    refine ⟨hs.once, List.nodup_singleton _, fun a ha b hb hab => ?_⟩
    rw [List.map_singleton, List.mem_singleton] at hb
    rw [hab, hb] at ha
    exact hfirst ha
  · intro u vars' r h
    by_cases hu : u = t
    · subst hu
      cases hself h
      refine ⟨⟨u, vars, s.val, new⟩, List.mem_append_right _ (List.mem_singleton.mpr rfl), rfl, ?_⟩
      exact (hans r rfl).symm
    · obtain ⟨c, hc, hcall⟩ := hs.ok u vars' r (hother hu h)
      exact ⟨c, List.mem_append_left _ hc, hcall⟩

theorem inv_moves {s s' : State L V E R} (hs : Inv txn start P s) (hP : P s.val)
    (h : Moves txn s s') : Inv txn start P s' := by
  cases h with
  | stays => exact hs
  | goesOn hcall hopen => exact inv_set hs hcall hopen
  | commits ht hans => exact inv_put hs hP ht hans

/-! ### Runs -/

variable {ok : State L V E R → Event L E → Prop} {s : State L V E R}

theorem inv_reach (hok : ∀ s ev, ok s ev → P s.val)
    (h : Reach (step txn) ok { val := start } s) : Inv txn start P s :=
  h.invariant (Inv txn start P) inv_init fun _ ev hs hev =>
    inv_moves hs (hok _ ev hev) (step_moves txn _ ev)

end SimSearch.Lib.Stm
