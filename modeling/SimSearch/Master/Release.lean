import SimSearch.Master.Mutex

/-!
# The DDL lock comes free

`createSpace`, `deleteSpace` and `register` unlock in a deferred function, on every path on which
there is a session, even if `TryLock` has failed or the work has panicked.  `UnlockAndClose` does
not close the session if the unlock fails, so all that is assumed of etcd here is that unlocks
succeed; every other call may fail.

A trace is `Unpaid` if there was an attempt at the lock and the last call is not the unlock.
Whoever holds the lock has an unpaid trace (`HoldersOwe`), and the trace of a request that has
come to its end is never unpaid (`serve_pays`).
-/

namespace SimSearch.Master

open SimSearch.Lib Program

variable {net : Network} {t : Nat}

/-! ### What a request owes -/

def Unpaid (tr : Trace Op Res) : Prop :=
  (∃ e ∈ tr, ∃ n, e.1 = .tryLock n) ∧ ∀ r, tr.getLast? ≠ some ⟨.unlock, r⟩

theorem not_unpaid_of_untried {tr : Trace Op Res} (h : ∀ e ∈ tr, ∀ n, e.1 ≠ .tryLock n) :
    ¬ Unpaid tr := by
  rintro ⟨⟨e, he, n, hn⟩, -⟩
  exact h e he n hn

theorem frame_pays {α : Type} (p : Prog α) (tr₀ : Trace Op Res) :
    (p >>= fun a => perform .unlock >>= fun _ => pure a).Yields
      fun tr _ => ¬ Unpaid (tr₀ ++ tr) := by
  refine yields_seq ((yields_true p).mono fun tr a _ => yields_perform fun r => ?_)
  rintro ⟨-, hlast⟩
  refine hlast r ?_
  rw [← List.append_assoc, List.getLast?_concat]

theorem createSpace_pays (json : SpaceJson) (req : Except String ApiSpace) :
    (createSpace json req).Yields fun tr _ => ¬ Unpaid tr := by
  have hnil : ¬ Unpaid [] := not_unpaid_of_untried fun e he => absurd he List.not_mem_nil
  cases req with
  | error e => exact hnil
  | ok api =>
    unfold createSpace
    simp only
    cases checkApiSpace api with
    | none => exact hnil
    | some msg =>
      by_cases hmsg : msg ≠ ""
      · simp only [if_pos hmsg]
        exact hnil
      · simp only [if_neg hmsg]
        refine yields_perform fun r => ?_
        cases r with
        | error e => exact not_unpaid_of_untried (by simp)
        | ok u => exact frame_pays (createTry json _) [⟨.newSession, .ok ()⟩]

theorem deleteSpace_pays (json : SpaceJson) (req : Except String DeleteSpaceRequest) :
    (deleteSpace json req).Yields fun tr _ => ¬ Unpaid tr := by
  cases req with
  | error e => exact not_unpaid_of_untried fun e he => absurd he List.not_mem_nil
  | ok req =>
    refine yields_perform fun r => ?_
    cases r with
    | error e => exact not_unpaid_of_untried (by simp)
    | ok u =>
      refine yields_seq ((yields_true _).mono fun tr b _ => ?_)
      exact frame_pays (deleteBody json req) (⟨.newSession, .ok ()⟩ :: tr)

theorem register_pays (json : SpaceJson) (req : Except String RegisterRequest) :
    (register json req).Yields fun tr _ => ¬ Unpaid tr := by
  cases req with
  | error e => exact not_unpaid_of_untried fun e he => absurd he List.not_mem_nil
  | ok req =>
    refine yields_perform fun r => ?_
    cases r with
    | error e => exact not_unpaid_of_untried (by simp)
    | ok u => exact frame_pays (registerTry json req) [⟨.newSession, .ok ()⟩]

/-- **A request that comes to its end owes no unlock.** -/
theorem serve_pays (json : SpaceJson) (i : Request) :
    (serve json i).Yields fun tr _ => ¬ Unpaid tr := by
  have hanswer : ∀ {α : Type} {f : α → Outcome} {p : Prog α},
      p.Yields (fun tr _ => ¬ Unpaid tr) →
        (p >>= fun a => pure (f a)).Yields fun tr _ => ¬ Unpaid tr := by
    intro α f p hp
    refine yields_seq (hp.mono fun tr a hpaid => ?_)
    show ¬ Unpaid (tr ++ [])
    rwa [List.append_nil]
  cases i with
  | create req => exact hanswer (createSpace_pays json req)
  | delete req => exact hanswer (deleteSpace_pays json req)
  | register req => exact hanswer (register_pays json req)

/-! ### Runs -/

/-- Unlocks succeed, and from outside the lock is left alone. -/
def UnlocksOk (c : Cluster net) : Event (master net) Request → Prop
  | .spawn _ _ => True
  | .act _ pick => pick .unlock = none
  | .env w => World.lock w = World.lock c.state

theorem unlock_frees {w : World net} {c : Choice net .unlock} (hc : c = none)
    (hw : w.lock = some t) : (exec net t w .unlock c).2.lock = none := by
  simp only [exec, if_pos (And.intro hc hw)]

/-- Whoever holds the lock still owes the unlock. -/
def HoldersOwe (c : Cluster net) : Prop :=
  ∀ t, World.lock c.state = some t → ∃ th, c.threads t = some th ∧ Unpaid th.trace

theorem Unpaid.snoc {w : World net} {o : Op} {pick : (o : Op) → Choice net o}
    {tr : Trace Op Res} (hpick : pick .unlock = none)
    (hheld : (exec net t w o (pick o)).2.lock = some t) (htr : w.lock = some t → Unpaid tr) :
    Unpaid (tr ++ [⟨o, (exec net t w o (pick o)).1⟩]) := by
  have hne : o ≠ .unlock := by
    rintro rfl
    rcases lock_of_exec hheld with hw | ⟨n, hn⟩
    · rw [unlock_frees hpick hw] at hheld
      cases hheld
    · cases hn
  refine ⟨?_, fun r => ?_⟩
  · rcases lock_of_exec hheld with hw | ⟨n, rfl⟩
    · obtain ⟨e, he, htry⟩ := (htr hw).1
      exact ⟨e, List.mem_append_left _ he, htry⟩
    · exact ⟨_, List.mem_append_right _ (List.mem_singleton_self _), n, rfl⟩
  · rw [List.getLast?_concat]
    intro heq
    exact hne (congrArg Sigma.fst (Option.some.inj heq))

theorem holdersOwe_step {json : SpaceJson} {c : Cluster net} {e : Event (master net) Request}
    (hc : HoldersOwe c) (hok : UnlocksOk c e) : HoldersOwe (step (serve json) c e) := by
  have htakes := step_takes (serve json) c e
  generalize step (serve json) c e = c' at htakes ⊢
  cases htakes with
  | stays => exact hc
  | @starts u i hu =>
    intro t ht
    obtain ⟨th, hth, howes⟩ := hc t ht
    have htu : t ≠ u := by
      rintro rfl
      rw [hth] at hu
      cases hu
    exact ⟨th, by simp only [Config.set, Function.update_of_ne htu, hth], howes⟩
  | @calls u pick i tr o k hu =>
    intro t ht
    by_cases htu : t = u
    · subst htu
      refine ⟨_, Function.update_self .., Unpaid.snoc (w := c.state) hok ht fun hw => ?_⟩
      obtain ⟨th, hth, howes⟩ := hc t hw
      rw [hu] at hth
      cases hth
      exact howes
    · obtain ⟨th, hth, howes⟩ := hc t ((exec_lock_other c.state o (pick o) htu).mp ht)
      exact ⟨th, by simp only [Config.set, Function.update_of_ne htu, hth], howes⟩
  | @moves w =>
    intro t ht
    exact hc t ((show World.lock w = World.lock c.state from hok).symm.trans ht)

/-- The holder keeps the lock or lets go of it; nobody else gets it at that moment. -/
theorem lock_step (json : SpaceJson) {c : Cluster net} {e : Event (master net) Request}
    (hok : UnlocksOk c e) (hheld : World.lock c.state = some t) :
    World.lock (step (serve json) c e).state = some t ∨
      World.lock (step (serve json) c e).state = none := by
  have htakes := step_takes (serve json) c e
  generalize step (serve json) c e = c' at htakes ⊢
  cases htakes with
  | stays => exact Or.inl hheld
  | starts => exact Or.inl hheld
  | @calls u pick i tr o k hu =>
    by_cases htu : t = u
    · subst htu
      by_cases ho : o = .unlock
      · subst ho
        exact Or.inr (unlock_frees hok hheld)
      · exact Or.inl (exec_lock_self c.state o (pick o) ho hheld)
    · exact Or.inl ((exec_lock_other c.state o (pick o) htu).mpr hheld)
  | @moves w => exact Or.inl ((show World.lock w = World.lock c.state from hok).trans hheld)

section

variable {json : SpaceJson} {w : World net}

theorem holdersOwe_reach (hlock : w.lock = none) {c : Cluster net}
    (h : Reach (step (serve json)) UnlocksOk (Config.init w) c) : HoldersOwe c := by
  refine h.invariant HoldersOwe ?_ fun c e hc he => holdersOwe_step hc he
  intro t ht
  rw [show World.lock w = some t from ht] at hlock
  cases hlock

theorem lock_ne_of_ended (hlock : w.lock = none) {c : Cluster net}
    (h : Reach (step (serve json)) UnlocksOk (Config.init w) c) {i : Request} {tr : Trace Op Res}
    {out : Outcome} (ht : c.threads t = some ⟨i, tr, .ret out⟩) : World.lock c.state ≠ some t := by
  intro hheld
  obtain ⟨th, hth, howes⟩ := holdersOwe_reach hlock h t hheld
  rw [ht] at hth
  cases hth
  have hpaid : ¬ Unpaid (tr ++ []) := reach_yields (serve_pays json) h t _ ht
  rw [List.append_nil] at hpaid
  exact hpaid howes

end

/-- **The DDL lock is free again and again**, in every run in which each request that was
started gets its turn again and again: no outcome of the calls to etcd, to the nodes and to the
routers lets a request keep the lock for ever, as long as unlocks succeed. -/
theorem ddl_lock_comes_free (json : SpaceJson) (w : World net) (hlock : w.lock = none)
    (es : Nat → Event (master net) Request)
    (hok : ∀ n, UnlocksOk (runFrom (serve json) (Config.init w) es n) (es n))
    (hturns : ∀ t n, (runFrom (serve json) (Config.init w) es n).threads t ≠ none →
      OftenActs es t) (n : Nat) :
    ∃ m, n ≤ m ∧ World.lock (runFrom (serve json) (Config.init w) es m).state = none := by
  cases hheld : World.lock (runFrom (serve json) (Config.init w) es n).state with
  | none => exact ⟨n, le_refl n, hheld⟩
  | some t =>
    obtain ⟨⟨i, tr, p⟩, ht, -⟩ := holdersOwe_reach hlock (reach_runFrom hok n) t hheld
    have hoften : OftenActs es t := hturns t n (by rw [ht]; exact Option.some_ne_none _)
    obtain ⟨m, tr', out, hnm, hend⟩ := ends_of_oftenActs hoften p n tr ht
    -- until it lets go of the lock, nobody else has it
    have hsofar : ∀ d, World.lock (runFrom (serve json) (Config.init w) es (n + d)).state = some t ∨
        ∃ k, n ≤ k ∧ World.lock (runFrom (serve json) (Config.init w) es k).state = none := by
      intro d
      induction d with
      | zero => exact Or.inl hheld
      | succ d ih =>
        rcases ih with hd | hfree
        · rcases lock_step json (hok (n + d)) hd with hstill | hnone
          · exact Or.inl hstill
          · exact Or.inr ⟨n + d + 1, by omega, hnone⟩
        · exact Or.inr hfree
    obtain ⟨d, rfl⟩ := Nat.exists_eq_add_of_le hnm
    rcases hsofar d with hstill | hfree
    · exact absurd hstill (lock_ne_of_ended hlock (reach_runFrom hok (n + d)) hend)
    · exact hfree

/-- A create that is started first and whose turn it then always is. -/
def aloneRun : Nat → Event (master ackNet) Request
  | 0 => .spawn 0 (.create (.ok moviesApi))
  | _ + 1 => go 0

/-- After its first attempt the create has the lock, and later it is free. -/
theorem ddl_lock_comes_free_alone :
    World.lock (runFrom (serve goJson) (Config.init (sampleWorld "/r")) aloneRun 3).state
        = some 0 ∧
      ∃ m, 3 ≤ m ∧ World.lock (runFrom (serve goJson) (Config.init (sampleWorld "/r"))
        aloneRun m).state = none := by
  refine ⟨by decide +kernel, ddl_lock_comes_free goJson (sampleWorld "/r") rfl aloneRun ?_ ?_ 3⟩
  · intro n
    cases n with
    | zero => trivial
    | succ n => rfl
  · intro t n ht
    obtain ⟨th, hth⟩ := Option.ne_none_iff_exists'.mp ht
    obtain ⟨m, i, hspawn⟩ := spawned_of_threads n hth
    cases m with
    | zero =>
      cases hspawn
      exact fun m => ⟨1, smooth ackNet sampleTime (), rfl⟩
    | succ m => cases hspawn

end SimSearch.Master
