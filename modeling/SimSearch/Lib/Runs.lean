import Mathlib

/-!
# Runs of a labelled system

`step s e` is the state after the event `e` in the state `s`.  `Reach step ok init`
are the states that runs from `init` reach when every event of the run meets the
condition `ok` in the state it happens in; with the condition that always holds
these are the reachable states.  `Reach.invariant` is the induction over runs.

`ends_of_measure` is how a run comes to its end.

`RunOk` is the same for a given list of events.  When the condition is a conjunction over
components of the state that move independently, `runOk_and_iff` and `runOk_comp_iff` take it
apart, and `runOk_fresh_iff` and `runOk_count_iff` are two such components: a set of names and
a counter.  `foldlM_quiet_iff` and `foldlM_eq_none_iff` are about a loop whose body may report
something or break off: the loop is quiet when every turn is, and it breaks off in the first turn
that does.
-/

namespace SimSearch.Lib

variable {σ ε : Type}

inductive Reach (step : σ → ε → σ) (ok : σ → ε → Prop) (init : σ) : σ → Prop
  | start : Reach step ok init init
  | next {s : σ} (e : ε) : Reach step ok init s → ok s e → Reach step ok init (step s e)

def anyEvent (_ : σ) (_ : ε) : Prop := True

/-- **An invariant that holds at the start and is kept by every allowed event holds in
every state reached.** -/
theorem Reach.invariant {step : σ → ε → σ} {ok : σ → ε → Prop} {init : σ} (I : σ → Prop)
    (hinit : I init) (hstep : ∀ s e, I s → ok s e → I (step s e)) {s : σ}
    (h : Reach step ok init s) : I s := by
  induction h with
  | start => exact hinit
  | next e _ hok ih => exact hstep _ e ih hok

theorem Reach.invariant_reached {step : σ → ε → σ} {ok : σ → ε → Prop} {init : σ} (I : σ → Prop)
    (hinit : I init) (hstep : ∀ s e, Reach step ok init s → I s → ok s e → I (step s e)) {s : σ}
    (h : Reach step ok init s) : I s := by
  induction h with
  | start => exact hinit
  | next e hs hok ih => exact hstep _ e hs ih hok

theorem Reach.mono {step : σ → ε → σ} {ok ok' : σ → ε → Prop} {init s : σ}
    (h : Reach step ok init s) (hok : ∀ s e, ok s e → ok' s e) : Reach step ok' init s := by
  induction h with
  | start => exact Reach.start
  | next e _ he ih => exact Reach.next e ih (hok _ e he)

theorem Reach.trans {step : σ → ε → σ} {ok : σ → ε → Prop} {init s s' : σ}
    (h : Reach step ok init s) (h' : Reach step ok s s') : Reach step ok init s' := by
  induction h' with
  | start => exact h
  | next e _ he ih => exact Reach.next e ih he

/-- Every event of the list meets the condition in the state it happens in. -/
def RunOk (step : σ → ε → σ) (ok : σ → ε → Prop) : σ → List ε → Prop
  | _, [] => True
  | s, e :: es => ok s e ∧ RunOk step ok (step s e) es

instance RunOk.decidable {step : σ → ε → σ} {ok : σ → ε → Prop} [∀ s e, Decidable (ok s e)] :
    ∀ (s : σ) (es : List ε), Decidable (RunOk step ok s es)
  | _, [] => instDecidableTrue
  | s, e :: es => @instDecidableAnd _ _ _ (RunOk.decidable (step s e) es)

/-- An event of the list meets the condition in the state that the events before it lead
to. -/
theorem RunOk.at_split {step : σ → ε → σ} {ok : σ → ε → Prop} {e : ε} {post : List ε} :
    ∀ {pre : List ε} {s : σ}, RunOk step ok s (pre ++ e :: post) → ok (pre.foldl step s) e := by
  intro pre
  induction pre with
  | nil => intro s h; exact h.1
  | cons x r ih => intro s h; exact ih h.2

theorem reach_of_runOk {step : σ → ε → σ} {ok : σ → ε → Prop} {init : σ} :
    ∀ (es : List ε) (s : σ), Reach step ok init s → RunOk step ok s es →
      Reach step ok init (es.foldl step s) := by
  intro es
  induction es with
  | nil => intro s hs _; exact hs
  | cons e r ih =>
    intro s hs hok
    exact ih _ (Reach.next e hs hok.1) hok.2

theorem runOk_of_forall {step : σ → ε → σ} {ok : σ → ε → Prop} :
    ∀ (es : List ε) (s : σ), (∀ e ∈ es, ∀ s, ok s e) → RunOk step ok s es := by
  intro es
  induction es with
  | nil => intro s _; trivial
  | cons e r ih =>
    intro s h
    exact ⟨h e List.mem_cons_self s, ih _ fun x hx => h x (List.mem_cons_of_mem _ hx)⟩

theorem RunOk.mono {step : σ → ε → σ} {ok ok' : σ → ε → Prop} :
    ∀ {es : List ε} {s : σ}, RunOk step ok s es → (∀ e ∈ es, ∀ s, ok s e → ok' s e) →
      RunOk step ok' s es := by
  intro es
  induction es with
  | nil => intro s _ _; trivial
  | cons e r ih =>
    intro s h hok
    exact ⟨hok e List.mem_cons_self s h.1, ih h.2 fun x hx => hok x (List.mem_cons_of_mem _ hx)⟩

theorem reach_foldl (step : σ → ε → σ) (init : σ) (es : List ε) :
    Reach step anyEvent init (es.foldl step init) :=
  reach_of_runOk es init Reach.start (runOk_of_forall es init fun _ _ _ => trivial)

/-! ### Runs that come to an end -/

/-- **A schedule that goes on comes to the end**: every event does nothing or lowers `left`,
and as long as the end is not reached something happens later. -/
theorem ends_of_measure {step : σ → ε → σ} {left : σ → Nat} {ended : σ → Prop}
    (hleft : ∀ s e, step s e = s ∨ left (step s e) < left s) {events : Nat → ε} {run : Nat → σ}
    (hrun : ∀ k, run (k + 1) = step (run k) (events k))
    (hgo : ∀ k, ¬ ended (run k) → ∃ j, k ≤ j ∧ run (j + 1) ≠ run j) : ∃ k, ended (run k) := by
  by_contra hnever
  rw [not_exists] at hnever
  have hmono : ∀ k j, k ≤ j → left (run j) ≤ left (run k) := by
    intro k j hkj
    induction j, hkj using Nat.le_induction with
    | base => exact Nat.le_refl _
    | succ j _ ih =>
      rw [hrun]
      rcases hleft (run j) (events j) with heq | hlt
      · rw [heq]
        exact ih
      · omega
  -- the measure would go down forever
  have hdown : ∀ n, ∃ k, left (run k) + n ≤ left (run 0) := by
    intro n
    induction n with
    | zero => exact ⟨0, Nat.le_refl _⟩
    | succ n ih =>
      obtain ⟨k, hk⟩ := ih
      obtain ⟨j, hkj, hne⟩ := hgo k (hnever k)
      have hle := hmono k j hkj
      rw [hrun] at hne
      have hlt := (hleft (run j) (events j)).resolve_left hne
      refine ⟨j + 1, ?_⟩
      rw [hrun]
      omega
  obtain ⟨k, hk⟩ := hdown (left (run 0) + 1)
  omega

/-! ### Conditions on a run, part by part -/

theorem runOk_and_iff {step : σ → ε → σ} {ok ok' : σ → ε → Prop} : ∀ (es : List ε) (s : σ),
    RunOk step (fun s e => ok s e ∧ ok' s e) s es ↔ RunOk step ok s es ∧ RunOk step ok' s es := by
  intro es
  induction es with
  | nil => intro s; exact ⟨fun _ => ⟨trivial, trivial⟩, fun _ => trivial⟩
  | cons e es ih =>
    intro s
    simp only [RunOk, ih]
    tauto

theorem runOk_const_iff {step : σ → ε → σ} {p : ε → Prop} : ∀ (es : List ε) (s : σ),
    RunOk step (fun _ e => p e) s es ↔ ∀ e ∈ es, p e := by
  intro es
  induction es with
  | nil => intro s; exact ⟨fun _ _ h => (nomatch h), fun _ => trivial⟩
  | cons e es ih =>
    intro s
    rw [RunOk, ih, List.forall_mem_cons]

/-- A condition that looks at one component of the state, which moves by itself. -/
theorem runOk_comp_iff {τ : Type} {step : σ → ε → σ} {step' : τ → ε → τ} {ok : τ → ε → Prop}
    (π : σ → τ) (hπ : ∀ s e, π (step s e) = step' (π s) e) : ∀ (es : List ε) (s : σ),
    RunOk step (fun s e => ok (π s) e) s es ↔ RunOk step' ok (π s) es := by
  intro es
  induction es with
  | nil => intro s; exact Iff.rfl
  | cons e es ih =>
    intro s
    rw [RunOk, RunOk, ih, hπ]

/-- **Names that are looked up and then recorded**: no name occurs twice, and none was
recorded before. -/
theorem runOk_fresh_iff {κ : Type} (keys : ε → List κ) (hkeys : ∀ e, (keys e).Nodup) :
    ∀ (es : List ε) (seen : List κ),
    RunOk (fun seen e => keys e ++ seen) (fun seen e => ∀ k ∈ keys e, k ∉ seen) seen es ↔
      (es.flatMap keys).Nodup ∧ ∀ k ∈ es.flatMap keys, k ∉ seen := by
  intro es
  induction es with
  | nil =>
    intro seen
    exact ⟨fun _ => ⟨List.nodup_nil, fun _ h => (nomatch h)⟩, fun _ => trivial⟩
  | cons e es ih =>
    intro seen
    rw [RunOk, ih, List.flatMap_cons, List.nodup_append]
    constructor
    · rintro ⟨hnew, hnodup, hrest⟩
      refine ⟨⟨hkeys e, hnodup, ?_⟩, ?_⟩
      · rintro k hk l hl rfl
        exact hrest k hl (List.mem_append_left _ hk)
      · intro k hk
        rcases List.mem_append.mp hk with hk | hk
        · exact hnew k hk
        · exact fun hin => hrest k hk (List.mem_append_right _ hin)
    · rintro ⟨⟨-, hnodup, hdisj⟩, hseen⟩
      refine ⟨fun k hk => hseen k (List.mem_append_left _ hk), hnodup, ?_⟩
      intro k hk hin
      rcases List.mem_append.mp hin with hin | hin
      · exact hdisj k hin k hk rfl
      · exact hseen k (List.mem_append_right _ hk) hin

/-- **A counter that is tested before it is raised** goes up to the number that it is tested
against. -/
theorem runOk_count_iff (p : ε → Prop) [DecidablePred p] (k : Nat) : ∀ (es : List ε) (n : Nat),
    n ≤ k →
    (RunOk (fun n e => n + if p e then 1 else 0) (fun n e => p e → n < k) n es ↔
      n + (es.filter (p ·)).length ≤ k) := by
  intro es
  induction es with
  | nil => intro n hn; exact ⟨fun _ => hn, fun _ => trivial⟩
  | cons e es ih =>
    intro n hn
    by_cases hp : p e
    · simp only [RunOk, hp, forall_const, if_true, decide_true, List.filter_cons_of_pos,
        List.length_cons]
      constructor
      · rintro ⟨hlt, hrun⟩
        have hle := (ih (n + 1) hlt).mp hrun
        omega
      · intro hle
        exact ⟨by omega, (ih (n + 1) (by omega)).mpr (by omega)⟩
    · simp only [RunOk, hp, false_implies, true_and, if_false, Nat.add_zero, decide_false,
        Bool.false_eq_true, not_false_eq_true, List.filter_cons_of_neg]
      exact ih n hn

/-! ### Loops that report or break off -/

section

variable {body : σ → ε → Option σ}

/-- **The loop reports nothing if and only if no turn does.**  `quiet` says of a state that
nothing was reported, and a quiet turn goes from `s` to `next s e`. -/
theorem foldlM_quiet_iff {quiet : σ → Prop} {next : σ → ε → σ} {ok : σ → ε → Prop}
    (hbody : ∀ s e s', body s e = some s' ∧ quiet s' ↔ quiet s ∧ ok s e ∧ s' = next s e) :
    ∀ (es : List ε) (s s' : σ), es.foldlM body s = some s' ∧ quiet s' ↔
      quiet s ∧ RunOk next ok s es ∧ s' = es.foldl next s := by
  intro es
  induction es with
  | nil =>
    intro s s'
    rw [List.foldlM_nil, List.foldl_nil]
    constructor
    · rintro ⟨h, hq⟩
      cases h
      exact ⟨hq, trivial, rfl⟩
    · rintro ⟨hq, -, rfl⟩
      exact ⟨rfl, hq⟩
  | cons e es ih =>
    intro s s'
    rw [List.foldlM_cons, List.foldl_cons]
    constructor
    · rintro ⟨h, hq⟩
      obtain ⟨s₁, h₁, h₂⟩ := Option.bind_eq_some_iff.mp h
      obtain ⟨hq₁, hrun, hend⟩ := (ih s₁ s').mp ⟨h₂, hq⟩
      obtain ⟨hq₀, hok, rfl⟩ := (hbody s e s₁).mp ⟨h₁, hq₁⟩
      exact ⟨hq₀, ⟨hok, hrun⟩, hend⟩
    · rintro ⟨hq, hrun, hend⟩
      obtain ⟨h₁, hq₁⟩ := (hbody s e (next s e)).mpr ⟨hq, hrun.1, rfl⟩
      obtain ⟨h₂, hq₂⟩ := (ih (next s e) s').mpr ⟨hq₁, hrun.2, hend⟩
      exact ⟨Option.bind_eq_some_iff.mpr ⟨next s e, h₁, h₂⟩, hq₂⟩

/-- A loop breaks off in a turn that it arrives at. -/
theorem foldlM_eq_none_iff : ∀ (es : List ε) (s : σ), es.foldlM body s = none ↔
    ∃ pre e post s', es = pre ++ e :: post ∧ pre.foldlM body s = some s' ∧ body s' e = none := by
  intro es
  induction es with
  | nil =>
    intro s
    rw [List.foldlM_nil]
    constructor
    · intro h
      cases h
    · rintro ⟨pre, e, post, s', hes, -, -⟩
      cases pre <;> cases hes
  | cons e es ih =>
    intro s
    rw [List.foldlM_cons]
    constructor
    · intro h
      cases hbody : body s e with
      | none => exact ⟨[], e, es, s, rfl, rfl, hbody⟩
      | some s₁ =>
        rw [hbody] at h
        obtain ⟨pre, x, post, s', rfl, hpre, hx⟩ := (ih s₁).mp h
        refine ⟨e :: pre, x, post, s', rfl, ?_, hx⟩
        rw [List.foldlM_cons, hbody]
        exact hpre
    · rintro ⟨pre, x, post, s', hes, hpre, hx⟩
      cases pre with
      | nil =>
        cases hes
        cases hpre
        rw [hx]
        rfl
      | cons y pre =>
        cases hes
        rw [List.foldlM_cons] at hpre
        obtain ⟨s₁, h₁, h₂⟩ := Option.bind_eq_some_iff.mp hpre
        rw [h₁]
        exact (ih s₁).mpr ⟨pre, x, post, s', rfl, h₂, hx⟩

end

end SimSearch.Lib
