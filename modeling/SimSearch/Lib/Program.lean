import Mathlib

/-!
# Programs that call operations

A `Program` returns a value or calls an operation and goes on with its result.  A
`Machine` says what an operation does to a state: `Choice o` are the outcomes that the
world can pick for `o`, such as that the call fails, and `exec` is total, so a program
runs to its end whatever is picked (`runs_runWith`).

`Runs` are the runs of one program alone, with the list of the calls and their
results.  `Post M t p s Q` says that every run of `p` from `s` ends in `Q`, and the
rules `post_ret`, `post_call`, `post_bind` and `Post.mono` take a program apart.
`Uses` says which operations a program may call at all, and `post_of_uses` is the
induction over such a program when one property is kept by each of them.  `Yields` says
what holds of the calls and the value whatever the calls answer, without any machine, and
`Traces` are these calls and values one by one.
-/

namespace SimSearch.Lib

inductive Program (Op : Type) (Res : Op → Type) (α : Type)
  | ret (a : α)
  | call (o : Op) (k : Res o → Program Op Res α)

abbrev Trace (Op : Type) (Res : Op → Type) := List (Σ o : Op, Res o)

namespace Program

variable {Op : Type} {Res : Op → Type} {α β γ : Type}

def bind (p : Program Op Res α) (f : α → Program Op Res β) : Program Op Res β :=
  match p with
  | ret a => f a
  | call o k => call o fun r => (k r).bind f

def perform (o : Op) : Program Op Res (Res o) := call o ret

instance : Monad (Program Op Res) where
  pure := ret
  bind := bind

theorem bind_eq (p : Program Op Res α) (f : α → Program Op Res β) : p >>= f = p.bind f := rfl

theorem pure_eq (a : α) : (pure a : Program Op Res α) = ret a := rfl

/-! ### Which operations a program calls -/

def Uses (allowed : Op → Prop) : Program Op Res α → Prop
  | ret _ => True
  | call o k => allowed o ∧ ∀ r, (k r).Uses allowed

theorem uses_perform {allowed : Op → Prop} {o : Op} (h : allowed o) :
    (perform o : Program Op Res (Res o)).Uses allowed := ⟨h, fun _ => trivial⟩

theorem uses_bind {allowed : Op → Prop} {p : Program Op Res α} {f : α → Program Op Res β}
    (hp : p.Uses allowed) (hf : ∀ a, (f a).Uses allowed) : (p.bind f).Uses allowed := by
  induction p with
  | ret a => exact hf a
  | call o k ih => exact ⟨hp.1, fun r => ih r (hp.2 r)⟩

theorem uses_call {allowed : Op → Prop} {o : Op} {f : Res o → Program Op Res α} (ho : allowed o)
    (hf : ∀ r, (f r).Uses allowed) : (perform o >>= f).Uses allowed := ⟨ho, hf⟩

theorem uses_seq {allowed : Op → Prop} {p : Program Op Res α} {f : α → Program Op Res β}
    (hp : p.Uses allowed) (hf : ∀ a, (f a).Uses allowed) : (p >>= f).Uses allowed :=
  uses_bind hp hf

theorem Uses.mono {allowed allowed' : Op → Prop} (h : ∀ o, allowed o → allowed' o)
    {p : Program Op Res α} (hp : p.Uses allowed) : p.Uses allowed' := by
  induction p with
  | ret a => trivial
  | call o k ih => exact ⟨h o hp.1, fun r => ih r (hp.2 r)⟩

/-! ### What a program returns -/

/-- Whatever the results of its calls, the calls and the value have `Y`. -/
def Yields (Y : Trace Op Res → α → Prop) : Program Op Res α → Prop
  | ret a => Y [] a
  | call o k => ∀ r, (k r).Yields fun tr a => Y (⟨o, r⟩ :: tr) a

theorem Yields.mono {Y Y' : Trace Op Res → α → Prop} {p : Program Op Res α} (hp : p.Yields Y)
    (h : ∀ tr a, Y tr a → Y' tr a) : p.Yields Y' := by
  induction p generalizing Y Y' with
  | ret a => exact h _ _ hp
  | call o k ih => exact fun r => ih r (hp r) fun tr a hY => h _ a hY

theorem yields_seq {Y : Trace Op Res → β → Prop} {p : Program Op Res α}
    {f : α → Program Op Res β}
    (h : p.Yields fun tr a => (f a).Yields fun tr' b => Y (tr ++ tr') b) :
    (p >>= f).Yields Y := by
  induction p generalizing Y with
  | ret a => exact h
  | call o k ih => exact fun r => ih r (h r)

theorem Yields.and {Y Y' : Trace Op Res → α → Prop} {p : Program Op Res α} (h : p.Yields Y)
    (h' : p.Yields Y') : p.Yields fun tr a => Y tr a ∧ Y' tr a := by
  induction p generalizing Y Y' with
  | ret a => exact ⟨h, h'⟩
  | call o k ih => exact fun r => ih r (h r) (h' r)

theorem yields_perform {o : Op} {f : Res o → Program Op Res α} {Y : Trace Op Res → α → Prop}
    (h : ∀ r, (f r).Yields fun tr a => Y (⟨o, r⟩ :: tr) a) : (perform o >>= f).Yields Y := h

theorem yields_true (p : Program Op Res α) : p.Yields fun _ _ => True := by
  induction p with
  | ret a => trivial
  | call o k ih => exact ih

theorem yields_uses {allowed : Op → Prop} {p : Program Op Res α} (hp : p.Uses allowed) :
    p.Yields fun tr _ => ∀ e ∈ tr, allowed e.1 := by
  induction p with
  | ret a => exact fun e he => (nomatch he)
  | call o k ih =>
    intro r
    refine (ih r (hp.2 r)).mono fun tr a h e he => ?_
    rcases List.mem_cons.mp he with rfl | he
    · exact hp.1
    · exact h e he

def Returns (Q : α → Prop) (p : Program Op Res α) : Prop := p.Yields fun _ a => Q a

theorem uses_bind_returns {allowed : Op → Prop} {Q : α → Prop} {p : Program Op Res α}
    {f : α → Program Op Res β} (hp : p.Uses allowed) (hq : p.Returns Q)
    (hf : ∀ a, Q a → (f a).Uses allowed) : (p >>= f).Uses allowed := by
  induction p with
  | ret a => exact hf a hq
  | call o k ih => exact ⟨hp.1, fun r => ih r (hp.2 r) (hq r)⟩

theorem returns_after {R : β → Prop} {p : Program Op Res α} {f : α → Program Op Res β}
    (hf : ∀ a, (f a).Returns R) : (p >>= f).Returns R :=
  yields_seq ((yields_true p).mono fun _ a _ => hf a)

/-! ### Traces -/

/-- With the results in `tr` the program makes the calls of `tr` and returns `a`. -/
inductive Traces : Program Op Res α → Trace Op Res → α → Prop
  | ret (a : α) : Traces (ret a) [] a
  | call {o : Op} {k : Res o → Program Op Res α} {tr : Trace Op Res} {a : α} (r : Res o)
      (h : Traces (k r) tr a) : Traces (call o k) (⟨o, r⟩ :: tr) a

theorem yields_traces (p : Program Op Res α) : p.Yields fun tr a => p.Traces tr a := by
  induction p with
  | ret a => exact Traces.ret a
  | call o k ih => exact fun r => (ih r).mono fun tr a h => Traces.call r h

theorem Traces.yields {p : Program Op Res α} {tr : Trace Op Res} {a : α} (h : p.Traces tr a) :
    ∀ {Y : Trace Op Res → α → Prop}, p.Yields Y → Y tr a := by
  induction h with
  | ret a => intro Y hY; exact hY
  | call r _ ih => intro Y hY; exact ih (hY r)

/-- The trace in which each call has the result that `ans` gives to the operation. -/
def answered (ans : (o : Op) → Res o) : Program Op Res α → Trace Op Res × α
  | ret a => ([], a)
  | call o k =>
    let x := answered ans (k (ans o))
    (⟨o, ans o⟩ :: x.1, x.2)

theorem traces_answered (ans : (o : Op) → Res o) (p : Program Op Res α) :
    p.Traces (answered ans p).1 (answered ans p).2 := by
  induction p with
  | ret a => exact Traces.ret a
  | call o k ih => exact Traces.call (ans o) (ih (ans o))

end Program

/-! ### Runs -/

/-- What the operations do: `exec t s o c` is the result and the state after thread `t`
calls `o` in `s` and the world picks `c`. -/
structure Machine (Op : Type) (Res : Op → Type) where
  State : Type
  Choice : Op → Type
  exec : Nat → State → (o : Op) → Choice o → Res o × State

section

variable {Op : Type} {Res : Op → Type} {α β : Type} {M : Machine Op Res} {t : Nat}

inductive Runs (M : Machine Op Res) (t : Nat) :
    Program Op Res α → M.State → Trace Op Res → α → M.State → Prop
  | ret (a : α) (s : M.State) : Runs M t (.ret a) s [] a s
  | call {o : Op} {k : Res o → Program Op Res α} {s s' : M.State} {tr : Trace Op Res} {a : α}
      (c : M.Choice o) (h : Runs M t (k (M.exec t s o c).1) (M.exec t s o c).2 tr a s') :
      Runs M t (.call o k) s (⟨o, (M.exec t s o c).1⟩ :: tr) a s'

/-- The run in which the world picks `pick n o` for the `n`-th call. -/
def runWith (M : Machine Op Res) (t : Nat) (pick : Nat → (o : Op) → M.Choice o) :
    Program Op Res α → Nat → M.State → Trace Op Res × α × M.State
  | .ret a, _, s => ([], a, s)
  | .call o k, n, s =>
    let x := M.exec t s o (pick n o)
    let y := runWith M t pick (k x.1) (n + 1) x.2
    (⟨o, x.1⟩ :: y.1, y.2)

/-- **Every program runs to its end**, whatever the world picks. -/
theorem runs_runWith (pick : Nat → (o : Op) → M.Choice o) (p : Program Op Res α) :
    ∀ (n : Nat) (s : M.State), Runs M t p s (runWith M t pick p n s).1
      (runWith M t pick p n s).2.1 (runWith M t pick p n s).2.2 := by
  induction p with
  | ret a => intro n s; exact Runs.ret a s
  | call o k ih =>
    intro n s
    exact Runs.call (pick n o) (ih _ (n + 1) _)

/-- A run of two programs in sequence is a run of the first and then one of the second. -/
theorem runs_bind {p : Program Op Res α} {f : α → Program Op Res β} :
    ∀ {s s' : M.State} {tr : Trace Op Res} {b : β}, Runs M t (p.bind f) s tr b s' →
      ∃ tr₁ tr₂ a s₁, tr = tr₁ ++ tr₂ ∧ Runs M t p s tr₁ a s₁ ∧ Runs M t (f a) s₁ tr₂ b s' := by
  induction p with
  | ret a =>
    intro s s' tr b h
    exact ⟨[], tr, a, s, rfl, Runs.ret a s, h⟩
  | call o k ih =>
    intro s s' tr b h
    cases h with
    | call c h =>
      obtain ⟨tr₁, tr₂, a, s₁, rfl, h₁, h₂⟩ := ih _ h
      exact ⟨_ :: tr₁, tr₂, a, s₁, rfl, Runs.call c h₁, h₂⟩

theorem Runs.perform {o : Op} {f : Res o → Program Op Res α} {s s' : M.State}
    {tr : Trace Op Res} {a : α} (c : M.Choice o)
    (h : Runs M t (f (M.exec t s o c).1) (M.exec t s o c).2 tr a s') :
    Runs M t (Program.perform o >>= f) s (⟨o, (M.exec t s o c).1⟩ :: tr) a s' := Runs.call c h

theorem Runs.seq {p : Program Op Res α} {f : α → Program Op Res β} {s s₁ s' : M.State}
    {tr₁ tr₂ : Trace Op Res} {a : α} {b : β} (h₁ : Runs M t p s tr₁ a s₁)
    (h₂ : Runs M t (f a) s₁ tr₂ b s') : Runs M t (p >>= f) s (tr₁ ++ tr₂) b s' := by
  induction h₁ with
  | ret a s => exact h₂
  | call c _ ih => exact Runs.call c (ih h₂)

/-! ### Postconditions -/

def Post (M : Machine Op Res) (t : Nat) (p : Program Op Res α) (s : M.State)
    (Q : Trace Op Res → α → M.State → Prop) : Prop :=
  ∀ tr a s', Runs M t p s tr a s' → Q tr a s'

theorem Post.mono {p : Program Op Res α} {s : M.State} {Q Q' : Trace Op Res → α → M.State → Prop}
    (h : Post M t p s Q) (hQ : ∀ tr a s', Q tr a s' → Q' tr a s') : Post M t p s Q' :=
  fun tr a s' hr => hQ tr a s' (h tr a s' hr)

theorem post_ret {a : α} {s : M.State} {Q : Trace Op Res → α → M.State → Prop} (h : Q [] a s) :
    Post M t (.ret a) s Q := by
  intro tr b s' hr
  cases hr
  exact h

theorem post_call {o : Op} {k : Res o → Program Op Res α} {s : M.State}
    {Q : Trace Op Res → α → M.State → Prop}
    (h : ∀ c, Post M t (k (M.exec t s o c).1) (M.exec t s o c).2
      (fun tr a s' => Q (⟨o, (M.exec t s o c).1⟩ :: tr) a s')) :
    Post M t (.call o k) s Q := by
  intro tr a s' hr
  cases hr with
  | call c hr => exact h c _ a s' hr

theorem post_bind {p : Program Op Res α} {f : α → Program Op Res β} {s : M.State}
    {Q : Trace Op Res → β → M.State → Prop}
    (h : Post M t p s (fun tr a s' => Post M t (f a) s' (fun tr' b s'' => Q (tr ++ tr') b s''))) :
    Post M t (p.bind f) s Q := by
  intro tr b s' hr
  obtain ⟨tr₁, tr₂, a, s₁, rfl, h₁, h₂⟩ := runs_bind hr
  exact h tr₁ a s₁ h₁ tr₂ b s' h₂

theorem post_perform {o : Op} {f : Res o → Program Op Res α} {s : M.State}
    {Q : Trace Op Res → α → M.State → Prop}
    (h : ∀ c, Post M t (f (M.exec t s o c).1) (M.exec t s o c).2
      (fun tr a s' => Q (⟨o, (M.exec t s o c).1⟩ :: tr) a s')) :
    Post M t (Program.perform o >>= f) s Q := post_call h

theorem post_seq {p : Program Op Res α} {f : α → Program Op Res β} {s : M.State}
    {Q : Trace Op Res → β → M.State → Prop}
    (h : Post M t p s (fun tr a s' => Post M t (f a) s' (fun tr' b s'' => Q (tr ++ tr') b s''))) :
    Post M t (p >>= f) s Q := post_bind h

theorem Post.and {p : Program Op Res α} {s : M.State} {Q Q' : Trace Op Res → α → M.State → Prop}
    (h : Post M t p s Q) (h' : Post M t p s Q') :
    Post M t p s (fun tr a s' => Q tr a s' ∧ Q' tr a s') :=
  fun tr a s' hr => ⟨h tr a s' hr, h' tr a s' hr⟩

theorem post_yields {p : Program Op Res α} {Y : Trace Op Res → α → Prop} (h : p.Yields Y) :
    ∀ s : M.State, Post M t p s (fun tr a _ => Y tr a) := by
  induction p generalizing Y with
  | ret a => intro s; exact post_ret h
  | call o k ih => intro s; exact post_call fun c => ih _ (h _) _

theorem post_returns {p : Program Op Res α} {Q : α → Prop} (h : p.Returns Q) (s : M.State) :
    Post M t p s (fun _ a _ => Q a) := post_yields h s

/-- A property that every allowed operation keeps is kept by a program that uses only
these. -/
theorem post_of_uses {allowed : Op → Prop} (I : M.State → Prop)
    (hexec : ∀ s o c, allowed o → I s → I (M.exec t s o c).2) {p : Program Op Res α}
    (hp : p.Uses allowed) : ∀ s, I s → Post M t p s (fun _ _ s' => I s') := by
  induction p with
  | ret a => intro s hs; exact post_ret hs
  | call o k ih =>
    intro s hs
    exact post_call fun c => ih _ (hp.2 _) _ (hexec s o c hp.1 hs)

end

end SimSearch.Lib
