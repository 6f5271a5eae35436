import SimSearch.Lib.Program
import SimSearch.Lib.Runs

/-!
# Programs that run side by side

A `Config` is the shared state and, for each thread that was started, what it was
started for, the calls it has made and the program that is left.  An event starts a
thread, lets one thread make its next call, or changes the state from outside.

`Safe` is the proof of one thread: by recursion over its program it says, for every
state that the others can make of the present one, that the next call meets its
precondition, keeps the invariant and does to the others only what they rely on.
`safe_reach` puts the threads together: if every thread is safe when it is started, then
in every state reached all of them still are.  `step_takes` says what an event can do, and
`all_step` is the rule for any other property of all threads.  The rules `safe_ret`,
`safe_perform`, `safe_seq`, `safe_of_uses` and `safe_yields` take a program apart.

In a run without end (`runFrom`) a thread whose turn it is again and again comes to its end
(`ends_of_oftenActs`).
-/

namespace SimSearch.Lib

variable {Op : Type} {Res : Op → Type} {α β ι : Type}

/-! ### Configurations -/

structure Thread (Op : Type) (Res : Op → Type) (ι α : Type) where
  label : ι
  trace : Trace Op Res
  rest : Program Op Res α

structure Config (M : Machine Op Res) (ι α : Type) where
  state : M.State
  threads : Nat → Option (Thread Op Res ι α)

inductive Event (M : Machine Op Res) (ι : Type)
  | spawn (t : Nat) (i : ι)
  | act (t : Nat) (pick : (o : Op) → M.Choice o)
  | env (s : M.State)

section

variable {M : Machine Op Res}

def Config.set (c : Config M ι α) (t : Nat) (s : M.State) (th : Thread Op Res ι α) :
    Config M ι α :=
  { state := s, threads := Function.update c.threads t (some th) }

/-- A thread is started once; one that has returned stays as it is. -/
def step (body : ι → Program Op Res α) (c : Config M ι α) : Event M ι → Config M ι α
  | .spawn t i =>
    match c.threads t with
    | none => c.set t c.state ⟨i, [], body i⟩
    | some _ => c
  | .act t pick =>
    match c.threads t with
    | some ⟨i, tr, .call o k⟩ =>
      let x := M.exec t c.state o (pick o)
      c.set t x.2 ⟨i, tr ++ [⟨o, x.1⟩], k x.1⟩
    | _ => c
  | .env s => { c with state := s }

def Config.init (s : M.State) : Config M ι α := { state := s, threads := fun _ => none }

theorem Config.threads_set {c : Config M ι α} {t u : Nat} {s : M.State} {th th' : Thread Op Res ι α}
    (h : (c.set t s th).threads u = some th') :
    (u = t ∧ th' = th) ∨ (u ≠ t ∧ c.threads u = some th') := by
  simp only [Config.set] at h
  by_cases hut : u = t
  · subst hut
    rw [Function.update_self, Option.some.injEq] at h
    exact Or.inl ⟨rfl, h.symm⟩
  · rw [Function.update_of_ne hut] at h
    exact Or.inr ⟨hut, h⟩

/-- What an event does: nothing, a thread is started, one makes its next call, or the state
changes from outside. -/
inductive Takes (body : ι → Program Op Res α) (c : Config M ι α) :
    Event M ι → Config M ι α → Prop
  | stays {e : Event M ι} : Takes body c e c
  | starts {t : Nat} {i : ι} (ht : c.threads t = none) :
      Takes body c (.spawn t i) (c.set t c.state ⟨i, [], body i⟩)
  | calls {t : Nat} {pick : (o : Op) → M.Choice o} {i : ι} {tr : Trace Op Res} {o : Op}
      {k : Res o → Program Op Res α} (ht : c.threads t = some ⟨i, tr, .call o k⟩) :
      Takes body c (.act t pick) (c.set t (M.exec t c.state o (pick o)).2
        ⟨i, tr ++ [⟨o, (M.exec t c.state o (pick o)).1⟩], k (M.exec t c.state o (pick o)).1⟩)
  | moves {s : M.State} : Takes body c (.env s) { c with state := s }

theorem step_takes (body : ι → Program Op Res α) (c : Config M ι α) (e : Event M ι) :
    Takes body c e (step body c e) := by
  cases e with
  | spawn t i =>
    cases ht : c.threads t with
    | some th =>
      simp only [step, ht]
      exact .stays
    | none =>
      simp only [step, ht]
      exact .starts ht
  | act t pick =>
    rcases ht : c.threads t with _ | ⟨i, tr, a | ⟨o, k⟩⟩
    · simp only [step, ht]
      exact .stays
    · simp only [step, ht]
      exact .stays
    · simp only [step, ht]
      exact .calls ht
  | env s => exact .moves

def Config.All (J : Nat → Thread Op Res ι α → M.State → Prop) (c : Config M ι α) : Prop :=
  ∀ t th, c.threads t = some th → J t th c.state

theorem all_init {J : Nat → Thread Op Res ι α → M.State → Prop} (s : M.State) :
    (Config.init s).All J := by
  intro t th ht
  cases ht

/-- **What one event does to a property of all threads**: a thread is started, one makes a
call under the eyes of the others, or the state changes from outside. -/
theorem all_step {body : ι → Program Op Res α} {J : Nat → Thread Op Res ι α → M.State → Prop}
    {c : Config M ι α} {e : Event M ι} (hc : c.All J)
    (hspawn : ∀ t i, e = .spawn t i → c.threads t = none → J t ⟨i, [], body i⟩ c.state)
    (hact : ∀ t pick i tr o k, e = .act t pick → c.threads t = some ⟨i, tr, .call o k⟩ →
      J t ⟨i, tr ++ [⟨o, (M.exec t c.state o (pick o)).1⟩], k (M.exec t c.state o (pick o)).1⟩
          (M.exec t c.state o (pick o)).2 ∧
        ∀ u th, u ≠ t → c.threads u = some th → J u th (M.exec t c.state o (pick o)).2)
    (henv : ∀ s, e = .env s → ∀ t th, c.threads t = some th → J t th s) :
    (step body c e).All J := by
  have htakes := step_takes body c e
  generalize step body c e = c' at htakes ⊢
  cases htakes with
  | stays => exact hc
  | @starts t i ht =>
    intro u th hu
    rcases Config.threads_set hu with ⟨rfl, rfl⟩ | ⟨-, hu⟩
    · exact hspawn u i rfl ht
    · exact hc u th hu
  | calls ht =>
    obtain ⟨hself, hothers⟩ := hact _ _ _ _ _ _ rfl ht
    intro u th hu
    rcases Config.threads_set hu with ⟨rfl, rfl⟩ | ⟨hut, hu⟩
    · exact hself
    · exact hothers u th hut hu
  | @moves s => exact henv s rfl

/-- **A thread after one event**: as it was, just started, or one call further. -/
theorem threads_step {body : ι → Program Op Res α} {c : Config M ι α} {e : Event M ι} {u : Nat}
    {th : Thread Op Res ι α} (h : (step body c e).threads u = some th) :
    c.threads u = some th ∨ (∃ i, c.threads u = none ∧ th = ⟨i, [], body i⟩) ∨
      ∃ pick i tr o k, e = .act u pick ∧ c.threads u = some ⟨i, tr, .call o k⟩ ∧
        th = ⟨i, tr ++ [⟨o, (M.exec u c.state o (pick o)).1⟩],
          k (M.exec u c.state o (pick o)).1⟩ := by
  have htakes := step_takes body c e
  generalize step body c e = c' at htakes h
  cases htakes with
  | stays => exact Or.inl h
  | @starts t i ht =>
    rcases Config.threads_set h with ⟨rfl, rfl⟩ | ⟨-, h⟩
    · exact Or.inr (Or.inl ⟨i, ht, rfl⟩)
    · exact Or.inl h
  | calls ht =>
    rcases Config.threads_set h with ⟨rfl, rfl⟩ | ⟨-, h⟩
    · exact Or.inr (Or.inr ⟨_, _, _, _, _, rfl, ht, rfl⟩)
    · exact Or.inl h
  | moves => exact Or.inl h

theorem threads_foldl_none {body : ι → Program Op Res α} {t : Nat} :
    ∀ (es : List (Event M ι)) (c : Config M ι α), c.threads t = none →
      (∀ e ∈ es, ∀ i, e ≠ .spawn t i) → (es.foldl (step body) c).threads t = none := by
  intro es
  induction es with
  | nil => intro c h _; exact h
  | cons e es ih =>
    intro c h hes
    obtain ⟨he, hes⟩ := List.forall_mem_cons.mp hes
    refine ih _ ?_ hes
    cases ht : (step body c e).threads t with
    | none => rfl
    | some th =>
      have htakes := step_takes body c e
      generalize step body c e = c' at htakes ht
      cases htakes with
      | stays => exact ht.symm.trans h
      | @starts u i hu =>
        rcases Config.threads_set ht with ⟨rfl, -⟩ | ⟨-, ht⟩
        · exact absurd rfl (he i)
        · exact ht.symm.trans h
      | @calls u pick i tr o k hu =>
        rcases Config.threads_set ht with ⟨rfl, -⟩ | ⟨-, ht⟩
        · rw [h] at hu
          cases hu
        · exact ht.symm.trans h
      | moves => exact ht.symm.trans h

theorem state_step {body : ι → Program Op Res α} {I : M.State → Prop} {c : Config M ι α}
    {e : Event M ι} (hc : I c.state)
    (hact : ∀ t pick i tr o k, e = .act t pick → c.threads t = some ⟨i, tr, .call o k⟩ →
      I (M.exec t c.state o (pick o)).2)
    (henv : ∀ s, e = .env s → I s) : I (step body c e).state := by
  have htakes := step_takes body c e
  generalize step body c e = c' at htakes ⊢
  cases htakes with
  | stays => exact hc
  | starts ht => exact hc
  | calls ht => exact hact _ _ _ _ _ _ rfl ht
  | @moves s => exact henv s rfl

/-- Threads go on from where they are: what they are started for stays, and the calls they
have made stay first. -/
theorem reach_threads {body : ι → Program Op Res α} {ok : Config M ι α → Event M ι → Prop}
    {c₀ c : Config M ι α} (h : Reach (step body) ok c₀ c) {t : Nat} {th : Thread Op Res ι α}
    (ht : c₀.threads t = some th) :
    ∃ th', c.threads t = some th' ∧ th'.label = th.label ∧ th.trace <+: th'.trace := by
  induction h with
  | start => exact ⟨th, ht, rfl, List.prefix_rfl⟩
  | @next c e _ _ ih =>
    obtain ⟨th', ht', hlabel, hpre⟩ := ih
    have htakes := step_takes body c e
    generalize step body c e = c' at htakes ⊢
    cases htakes with
    | stays => exact ⟨th', ht', hlabel, hpre⟩
    | @starts u i hu =>
      have hne : t ≠ u := by
        rintro rfl
        rw [ht'] at hu
        cases hu
      exact ⟨th', by simp only [Config.set, Function.update_of_ne hne, ht'], hlabel, hpre⟩
    | @calls u pick i tr o k hu =>
      by_cases htu : t = u
      · subst htu
        rw [hu] at ht'
        cases ht'
        refine ⟨_, Function.update_self .., hlabel, hpre.trans ?_⟩
        exact List.prefix_append _ _
      · exact ⟨th', by simp only [Config.set, Function.update_of_ne htu, ht'], hlabel, hpre⟩
    | moves => exact ⟨th', ht', hlabel, hpre⟩

/-- A thread that runs alone to its end does what `runWith` says. -/
theorem foldl_acts {body : ι → Program Op Res α} {t : Nat} {i : ι} (pick : (o : Op) → M.Choice o) :
    ∀ (p : Program Op Res α) (n : Nat) (tr : Trace Op Res) (c : Config M ι α),
      c.threads t = some ⟨i, tr, p⟩ →
      (List.replicate (runWith M t (fun _ => pick) p n c.state).1.length (.act t pick)).foldl
          (step body) c
        = c.set t (runWith M t (fun _ => pick) p n c.state).2.2
            ⟨i, tr ++ (runWith M t (fun _ => pick) p n c.state).1,
              .ret (runWith M t (fun _ => pick) p n c.state).2.1⟩ := by
  intro p
  induction p with
  | ret a =>
    intro n tr c hc
    simp only [runWith, List.length_nil, List.replicate_zero, List.foldl_nil, List.append_nil,
      Config.set, ← hc, Function.update_eq_self]
  | call o k ih =>
    intro n tr c hc
    simp only [runWith, List.length_cons, List.replicate_succ, List.foldl_cons]
    have hstep : step body c (.act t pick) = c.set t (M.exec t c.state o (pick o)).2
        ⟨i, tr ++ [⟨o, (M.exec t c.state o (pick o)).1⟩], k (M.exec t c.state o (pick o)).1⟩ := by
      simp only [step, hc]
    rw [hstep]
    refine (ih _ (n + 1) (tr ++ [⟨o, (M.exec t c.state o (pick o)).1⟩]) _ ?_).trans ?_
    · exact Function.update_self ..
    · simp only [Config.set, Function.update_idem, List.append_assoc, List.singleton_append]

/-- A thread that is started and runs alone to its end. -/
theorem foldl_alone {body : ι → Program Op Res α} {t : Nat} {i : ι} {c : Config M ι α}
    (h : c.threads t = none) (pick : (o : Op) → M.Choice o) :
    (.spawn t i :: List.replicate (runWith M t (fun _ => pick) (body i) 0 c.state).1.length
          (.act t pick)).foldl (step body) c
      = c.set t (runWith M t (fun _ => pick) (body i) 0 c.state).2.2
          ⟨i, (runWith M t (fun _ => pick) (body i) 0 c.state).1,
            .ret (runWith M t (fun _ => pick) (body i) 0 c.state).2.1⟩ := by
  have hspawn : step body c (.spawn t i) = c.set t c.state ⟨i, [], body i⟩ := by
    simp only [step, h]
  rw [List.foldl_cons, hspawn]
  refine (foldl_acts pick (body i) 0 [] _ (Function.update_self ..)).trans ?_
  simp only [Config.set, Function.update_idem, List.nil_append]

/-- What a program yields whatever the results of its calls, its thread has yielded. -/
theorem reach_yields {body : ι → Program Op Res α} {ok : Config M ι α → Event M ι → Prop}
    {Y : ι → Trace Op Res → α → Prop} (hbody : ∀ i, (body i).Yields (Y i)) {s : M.State}
    {c : Config M ι α} (h : Reach (step body) ok (Config.init s) c) :
    c.All fun _ th _ => th.rest.Yields fun tr a => Y th.label (th.trace ++ tr) a := by
  refine h.invariant (Config.All fun _ th _ => th.rest.Yields fun tr a =>
    Y th.label (th.trace ++ tr) a) (all_init s) fun c e hc _ => all_step hc ?_ ?_ ?_
  · exact fun t i _ _ => hbody i
  · intro t pick i tr o k _ ht
    refine ⟨?_, fun u th _ hu => hc u th hu⟩
    have hrest := hc t _ ht (M.exec t c.state o (pick o)).1
    exact hrest.mono fun tr' a hY => by rw [List.append_assoc]; exact hY
  · exact fun s _ t th ht => hc t th ht

theorem reach_uses {body : ι → Program Op Res α} {ok : Config M ι α → Event M ι → Prop}
    {allowed : Op → Prop} (hbody : ∀ i, (body i).Uses allowed) {s : M.State} {c : Config M ι α}
    (h : Reach (step body) ok (Config.init s) c) : c.All fun _ th _ => th.rest.Uses allowed := by
  refine h.invariant (Config.All fun _ th _ => th.rest.Uses allowed) (all_init s)
    fun c e hc _ => all_step hc ?_ ?_ ?_
  · exact fun t i _ _ => hbody i
  · intro t pick i tr o k _ ht
    exact ⟨(hc t _ ht).2 _, fun u th _ hu => hc u th hu⟩
  · exact fun s _ t th ht => hc t th ht

/-! ### The proof of a thread -/

/-- What the threads agree on.  `allow` are the outcomes that the world may pick, `pre` is
what must hold when a thread makes a call. -/
structure Protocol (M : Machine Op Res) (ι : Type) where
  inv : M.State → Prop
  rely : Nat → M.State → M.State → Prop
  allow : Nat → ι → Trace Op Res → M.State → (o : Op) → M.Choice o → Prop
  pre : Nat → ι → Trace Op Res → M.State → Op → Prop
  rely_refl : ∀ t s, inv s → rely t s s
  rely_trans : ∀ t s s' s'', rely t s s' → rely t s' s'' → rely t s s''

variable {P : Protocol M ι} {t : Nat} {i : ι}

/-- What a call of `t` may do: keep the invariant, and what the others rely on. -/
def Protocol.Fair (P : Protocol M ι) (t : Nat) (s s' : M.State) : Prop :=
  P.inv s' ∧ ∀ u, u ≠ t → P.rely u s s'

def Safe (P : Protocol M ι) (t : Nat) (i : ι) (Q : α → Trace Op Res → M.State → Prop) :
    Program Op Res α → Trace Op Res → M.State → Prop
  | .ret a, tr, s => ∀ s', P.rely t s s' → P.inv s' → Q a tr s'
  | .call o k, tr, s => ∀ s', P.rely t s s' → P.inv s' → P.pre t i tr s' o ∧
      ∀ c, P.allow t i tr s' o c → P.Fair t s' (M.exec t s' o c).2 ∧
        Safe P t i Q (k (M.exec t s' o c).1) (tr ++ [⟨o, (M.exec t s' o c).1⟩]) (M.exec t s' o c).2

theorem Safe.rely {Q : α → Trace Op Res → M.State → Prop} {p : Program Op Res α}
    {tr : Trace Op Res} {s s' : M.State} (h : Safe P t i Q p tr s) (hs : P.rely t s s') :
    Safe P t i Q p tr s' := by
  cases p with
  | ret a => exact fun s'' hs'' => h s'' (P.rely_trans t s s' s'' hs hs'')
  | call o k => exact fun s'' hs'' => h s'' (P.rely_trans t s s' s'' hs hs'')

theorem safe_of_rely {Q : α → Trace Op Res → M.State → Prop} {p : Program Op Res α}
    {tr : Trace Op Res} {s : M.State}
    (h : ∀ s', P.rely t s s' → P.inv s' → Safe P t i Q p tr s') : Safe P t i Q p tr s := by
  cases p with
  | ret a => exact fun s' hs' hinv => h s' hs' hinv s' (P.rely_refl t s' hinv) hinv
  | call o k => exact fun s' hs' hinv => h s' hs' hinv s' (P.rely_refl t s' hinv) hinv

theorem Safe.mono {Q Q' : α → Trace Op Res → M.State → Prop} {p : Program Op Res α} :
    ∀ {tr : Trace Op Res} {s : M.State}, Safe P t i Q p tr s →
      (∀ a tr s, P.inv s → Q a tr s → Q' a tr s) → Safe P t i Q' p tr s := by
  induction p with
  | ret a =>
    intro tr s h hQ s' hs' hinv
    exact hQ a tr s' hinv (h s' hs' hinv)
  | call o k ih =>
    intro tr s h hQ s' hs' hinv
    obtain ⟨hpre, hstep⟩ := h s' hs' hinv
    refine ⟨hpre, fun c hc => ?_⟩
    obtain ⟨hfair, hrest⟩ := hstep c hc
    exact ⟨hfair, ih _ hrest hQ⟩

theorem safe_ret {Q : α → Trace Op Res → M.State → Prop} {a : α} {tr : Trace Op Res}
    {s : M.State} (h : ∀ s', P.rely t s s' → P.inv s' → Q a tr s') :
    Safe P t i Q (.ret a) tr s := h

theorem safe_perform {Q : α → Trace Op Res → M.State → Prop} {o : Op}
    {f : Res o → Program Op Res α} {tr : Trace Op Res} {s : M.State}
    (h : ∀ s', P.rely t s s' → P.inv s' → P.pre t i tr s' o ∧ ∀ c, P.allow t i tr s' o c →
      P.Fair t s' (M.exec t s' o c).2 ∧ Safe P t i Q (f (M.exec t s' o c).1)
        (tr ++ [⟨o, (M.exec t s' o c).1⟩]) (M.exec t s' o c).2) :
    Safe P t i Q (Program.perform o >>= f) tr s := h

theorem safe_seq {Q : β → Trace Op Res → M.State → Prop} {p : Program Op Res α}
    {f : α → Program Op Res β} :
    ∀ {tr : Trace Op Res} {s : M.State},
      Safe P t i (fun a tr s => Safe P t i Q (f a) tr s) p tr s → Safe P t i Q (p >>= f) tr s := by
  induction p with
  | ret a =>
    intro tr s h
    -- the state may change between the two, which `f a` allows for by itself
    exact safe_of_rely h
  | call o k ih =>
    intro tr s h s' hs' hinv
    obtain ⟨hpre, hstep⟩ := h s' hs' hinv
    refine ⟨hpre, fun c hc => ?_⟩
    obtain ⟨hfair, hrest⟩ := hstep c hc
    exact ⟨hfair, ih _ hrest⟩

/-- A condition `K` that the others keep, that gives every allowed call its precondition,
and that such a call keeps, holds to the end. -/
theorem safe_of_uses {allowed : Op → Prop} {K : Trace Op Res → M.State → Prop}
    (hrely : ∀ tr s s', K tr s → P.rely t s s' → P.inv s' → K tr s')
    (hcall : ∀ tr s o, allowed o → K tr s → P.inv s → P.pre t i tr s o ∧
      ∀ c, P.allow t i tr s o c → P.Fair t s (M.exec t s o c).2 ∧
        K (tr ++ [⟨o, (M.exec t s o c).1⟩]) (M.exec t s o c).2)
    {p : Program Op Res α} (hp : p.Uses allowed) :
    ∀ {tr : Trace Op Res} {s : M.State}, K tr s → Safe P t i (fun _ tr s => K tr s) p tr s := by
  induction p with
  | ret a =>
    intro tr s hK s' hs' hinv
    exact hrely tr s s' hK hs' hinv
  | call o k ih =>
    intro tr s hK s' hs' hinv
    obtain ⟨hpre, hstep⟩ := hcall tr s' o hp.1 (hrely tr s s' hK hs' hinv) hinv
    refine ⟨hpre, fun c hc => ?_⟩
    obtain ⟨hfair, hK'⟩ := hstep c hc
    exact ⟨hfair, ih _ (hp.2 _) hK'⟩

theorem safe_yields {Q : α → Trace Op Res → M.State → Prop} {p : Program Op Res α} :
    ∀ {Y : Trace Op Res → α → Prop} {tr : Trace Op Res} {s : M.State}, Safe P t i Q p tr s →
      p.Yields Y → Safe P t i (fun a tr' s => Q a tr' s ∧ ∃ tr₁, tr' = tr ++ tr₁ ∧ Y tr₁ a) p tr s := by
  induction p with
  | ret a =>
    intro Y tr s h hY s' hs' hinv
    exact ⟨h s' hs' hinv, [], (List.append_nil tr).symm, hY⟩
  | call o k ih =>
    intro Y tr s h hY s' hs' hinv
    obtain ⟨hpre, hstep⟩ := h s' hs' hinv
    refine ⟨hpre, fun c hc => ?_⟩
    obtain ⟨hfair, hrest⟩ := hstep c hc
    refine ⟨hfair, (ih _ hrest (hY _)).mono ?_⟩
    rintro a tr' s'' - ⟨hQ, tr₁, rfl, hY₁⟩
    exact ⟨hQ, _ :: tr₁, by simp, hY₁⟩

/-! ### All threads together -/

/-- An event that the world may choose: a thread's call has an allowed outcome, and a
change from outside keeps the invariant and what every thread relies on. -/
def Protocol.Ok (P : Protocol M ι) (c : Config M ι α) : Event M ι → Prop
  | .spawn _ _ => True
  | .act t pick => ∀ i tr o k, c.threads t = some ⟨i, tr, .call o k⟩ →
      P.allow t i tr c.state o (pick o)
  | .env s => P.inv s ∧ ∀ t, P.rely t c.state s

def AllSafe (P : Protocol M ι) (Q : Nat → ι → α → Trace Op Res → M.State → Prop)
    (c : Config M ι α) : Prop :=
  P.inv c.state ∧ c.All fun t th s => Safe P t th.label (Q t th.label) th.rest th.trace s

theorem allSafe_step_of {body : ι → Program Op Res α}
    {Q : Nat → ι → α → Trace Op Res → M.State → Prop} (c : Config M ι α) (e : Event M ι)
    (hspawn : ∀ t i, e = .spawn t i → c.threads t = none →
      Safe P t i (Q t i) (body i) [] c.state)
    (hc : AllSafe P Q c) (hok : P.Ok c e) : AllSafe P Q (step body c e) := by
  obtain ⟨hinv, hsafe⟩ := hc
  -- the thread that moves goes on by its own proof, the others by what they rely on
  have hmove : ∀ t pick i tr o k, e = .act t pick → c.threads t = some ⟨i, tr, .call o k⟩ →
      P.Fair t c.state (M.exec t c.state o (pick o)).2 ∧ Safe P t i (Q t i)
        (k (M.exec t c.state o (pick o)).1) (tr ++ [⟨o, (M.exec t c.state o (pick o)).1⟩])
        (M.exec t c.state o (pick o)).2 := by
    rintro t pick i tr o k rfl ht
    exact (hsafe t _ ht c.state (P.rely_refl t _ hinv) hinv).2 (pick o) (hok i tr o k ht)
  refine ⟨state_step hinv ?_ ?_, all_step hsafe ?_ ?_ ?_⟩
  · exact fun t pick i tr o k he ht => (hmove t pick i tr o k he ht).1.1
  · rintro s rfl
    exact hok.1
  · exact hspawn
  · intro t pick i tr o k he ht
    obtain ⟨hfair, hrest⟩ := hmove t pick i tr o k he ht
    exact ⟨hrest, fun u th hut hu => (hsafe u th hu).rely (hfair.2 u hut)⟩
  · rintro s rfl t th ht
    exact (hsafe t th ht).rely (hok.2 t)

theorem allSafe_step {body : ι → Program Op Res α}
    {Q : Nat → ι → α → Trace Op Res → M.State → Prop}
    (hbody : ∀ t i s, P.inv s → Safe P t i (Q t i) (body i) [] s) (c : Config M ι α)
    (e : Event M ι) (hc : AllSafe P Q c) (hok : P.Ok c e) : AllSafe P Q (step body c e) :=
  allSafe_step_of c e (fun t i _ _ => hbody t i c.state hc.1) hc hok

/-- **If every thread is safe when it is started, all of them are in every state
reached.** -/
theorem safe_reach {body : ι → Program Op Res α}
    {Q : Nat → ι → α → Trace Op Res → M.State → Prop}
    (hbody : ∀ t i s, P.inv s → Safe P t i (Q t i) (body i) [] s) {c₀ c : Config M ι α}
    (h₀ : AllSafe P Q c₀) (h : Reach (step body) P.Ok c₀ c) : AllSafe P Q c :=
  h.invariant (AllSafe P Q) h₀ (allSafe_step hbody)

theorem allSafe_init {Q : Nat → ι → α → Trace Op Res → M.State → Prop} {s : M.State}
    (hs : P.inv s) : AllSafe P Q (Config.init s : Config M ι α) :=
  ⟨hs, all_init s⟩

theorem AllSafe.pre {Q : Nat → ι → α → Trace Op Res → M.State → Prop} {c : Config M ι α}
    (h : AllSafe P Q c) {tr : Trace Op Res} {o : Op} {k : Res o → Program Op Res α}
    (ht : c.threads t = some ⟨i, tr, .call o k⟩) : P.pre t i tr c.state o :=
  (h.2 t _ ht c.state (P.rely_refl t _ h.1) h.1).1

/-! ### Runs without end -/

def runFrom (body : ι → Program Op Res α) (c : Config M ι α) (es : Nat → Event M ι) :
    Nat → Config M ι α
  | 0 => c
  | n + 1 => step body (runFrom body c es n) (es n)

theorem reach_runFrom {body : ι → Program Op Res α} {ok : Config M ι α → Event M ι → Prop}
    {c : Config M ι α} {es : Nat → Event M ι} (hok : ∀ n, ok (runFrom body c es n) (es n)) :
    ∀ n, Reach (step body) ok c (runFrom body c es n) := by
  intro n
  induction n with
  | zero => exact Reach.start
  | succ n ih => exact Reach.next _ ih (hok n)

theorem spawned_of_threads {body : ι → Program Op Res α} {s : M.State} {es : Nat → Event M ι} :
    ∀ (n : Nat) {th : Thread Op Res ι α},
      (runFrom body (Config.init s) es n).threads t = some th → ∃ m i, es m = .spawn t i := by
  intro n
  induction n with
  | zero =>
    intro th h
    cases h
  | succ n ih =>
    intro th h
    have htakes := step_takes body (runFrom body (Config.init s) es n) (es n)
    rw [runFrom] at h
    generalize step body (runFrom body (Config.init s) es n) (es n) = c at htakes h
    generalize he : es n = e at htakes
    cases htakes with
    | stays => exact ih h
    | @starts u i hu =>
      rcases Config.threads_set h with ⟨rfl, -⟩ | ⟨-, h⟩
      · exact ⟨n, i, he⟩
      · exact ih h
    | @calls u pick i tr o k hu =>
      rcases Config.threads_set h with ⟨rfl, -⟩ | ⟨-, h⟩
      · exact ih hu
      · exact ih h
    | moves => exact ih h

/-- It is the turn of the thread again and again. -/
def OftenActs (es : Nat → Event M ι) (t : Nat) : Prop :=
  ∀ n, ∃ d pick, es (n + d) = .act t pick

theorem threads_until_turn {body : ι → Program Op Res α} {c : Config M ι α}
    {es : Nat → Event M ι} {th : Thread Op Res ι α} :
    ∀ (d n : Nat), (runFrom body c es n).threads t = some th →
      (∃ pick, es (n + d) = .act t pick) →
        ∃ m, n ≤ m ∧ (∃ pick, es m = .act t pick) ∧ (runFrom body c es m).threads t = some th := by
  intro d
  induction d with
  | zero => exact fun n ht hturn => ⟨n, le_refl n, hturn, ht⟩
  | succ d ih =>
    intro n ht hturn
    by_cases hnow : ∃ pick, es n = .act t pick
    · exact ⟨n, le_refl n, hnow, ht⟩
    · have hnext : (runFrom body c es (n + 1)).threads t = some th := by
        have htakes := step_takes body (runFrom body c es n) (es n)
        rw [runFrom]
        generalize step body (runFrom body c es n) (es n) = c' at htakes ⊢
        generalize es n = e at htakes hnow
        cases htakes with
        | stays => exact ht
        | @starts u i hu =>
          have hne : t ≠ u := by
            rintro rfl
            rw [ht] at hu
            cases hu
          simp only [Config.set, Function.update_of_ne hne, ht]
        | @calls u pick i tr o k hu =>
          have hne : t ≠ u := by
            rintro rfl
            exact hnow ⟨pick, rfl⟩
          simp only [Config.set, Function.update_of_ne hne, ht]
        | moves => exact ht
      have hidx : n + 1 + d = n + (d + 1) := by omega
      obtain ⟨m, hm, hturn', ht'⟩ := ih (n + 1) hnext (by rw [hidx]; exact hturn)
      exact ⟨m, by omega, hturn', ht'⟩

/-- **A thread whose turn it is again and again comes to its end**, whatever the others do. -/
theorem ends_of_oftenActs {body : ι → Program Op Res α} {c : Config M ι α}
    {es : Nat → Event M ι} (hoften : OftenActs es t) :
    ∀ (p : Program Op Res α) (n : Nat) (tr : Trace Op Res),
      (runFrom body c es n).threads t = some ⟨i, tr, p⟩ →
        ∃ m tr' a, n ≤ m ∧ (runFrom body c es m).threads t = some ⟨i, tr', .ret a⟩ := by
  intro p
  induction p with
  | ret a => exact fun n tr ht => ⟨n, tr, a, le_refl n, ht⟩
  | call o k ih =>
    intro n tr ht
    obtain ⟨d, hd⟩ := hoften n
    obtain ⟨m, hm, ⟨pick, hturn⟩, ht⟩ := threads_until_turn d n ht hd
    have hnext : (runFrom body c es (m + 1)).threads t
        = some ⟨i, tr ++ [⟨o, (M.exec t (runFrom body c es m).state o (pick o)).1⟩],
            k (M.exec t (runFrom body c es m).state o (pick o)).1⟩ := by
      simp only [runFrom, hturn, step, ht, Config.set, Function.update_self]
    obtain ⟨m', tr', a, hm', hend⟩ := ih _ (m + 1) _ hnext
    exact ⟨m', tr', a, by omega, hend⟩

end

end SimSearch.Lib
