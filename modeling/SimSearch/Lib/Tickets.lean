import SimSearch.Lib.Concurrent

/-!
# Tickets that are given out once

Threads draw tickets by some of their calls: `ticket` reads a ticket off a call and its
result.  If the state knows which tickets are used up, a ticket that is drawn was not and
then is, and no ticket comes back, then no two threads have drawn the same one
(`tickets_distinct`).
-/

namespace SimSearch.Lib

variable {Op : Type} {Res : Op → Type} {α ι τ : Type} {M : Machine Op Res}

def tickets (ticket : (Σ o, Res o) → Option τ) (tr : Trace Op Res) : List τ := tr.filterMap ticket

/-- What the events of a run do to the tickets, when the threads call only what `allowed`
says. -/
structure TicketRule (ticket : (Σ o, Res o) → Option τ) (used : M.State → τ → Prop)
    (allowed : Op → Prop) (ok : Config M ι α → Event M ι → Prop) : Prop where
  keep : ∀ (c : Config M ι α) t pick i tr o k, ok c (.act t pick) → allowed o →
    c.threads t = some ⟨i, tr, .call o k⟩ → ∀ x, used c.state x →
      used (M.exec t c.state o (pick o)).2 x
  draw : ∀ (c : Config M ι α) t pick i tr o k, ok c (.act t pick) → allowed o →
    c.threads t = some ⟨i, tr, .call o k⟩ → ∀ x,
      ticket ⟨o, (M.exec t c.state o (pick o)).1⟩ = some x →
        ¬ used c.state x ∧ used (M.exec t c.state o (pick o)).2 x
  env : ∀ (c : Config M ι α) s, ok c (.env s) → ∀ x, used c.state x → used s x

variable {ticket : (Σ o, Res o) → Option τ} {used : M.State → τ → Prop} {allowed : Op → Prop}
  {ok : Config M ι α → Event M ι → Prop} {body : ι → Program Op Res α}

theorem mem_tickets_snoc {tr : Trace Op Res} {e : Σ o, Res o} {x : τ}
    (h : x ∈ tickets ticket (tr ++ [e])) : x ∈ tickets ticket tr ∨ ticket e = some x := by
  unfold tickets at h
  rw [List.filterMap_append] at h
  rcases List.mem_append.mp h with h | h
  · exact Or.inl h
  · obtain ⟨e', he', hx⟩ := List.mem_filterMap.mp h
    rw [List.mem_singleton.mp he'] at hx
    exact Or.inr hx

/-- The tickets of every thread are used up, and it calls only what is allowed. -/
def Drawn (ticket : (Σ o, Res o) → Option τ) (used : M.State → τ → Prop) (allowed : Op → Prop)
    (c : Config M ι α) : Prop :=
  c.All fun _ th s => th.rest.Uses allowed ∧ ∀ x ∈ tickets ticket th.trace, used s x

theorem drawn_step (hrule : TicketRule ticket used allowed ok) (hbody : ∀ i, (body i).Uses allowed)
    {c : Config M ι α} {e : Event M ι} (hc : Drawn ticket used allowed c) (he : ok c e) :
    Drawn ticket used allowed (step body c e) := by
  refine all_step hc ?_ ?_ ?_
  · exact fun t i _ _ => ⟨hbody i, fun x hx => nomatch hx⟩
  · rintro t pick i tr o k rfl ht
    obtain ⟨huses, hold⟩ := hc t _ ht
    refine ⟨⟨huses.2 _, fun x hx => ?_⟩, fun u th _ hu => ?_⟩
    · rcases mem_tickets_snoc hx with hx | hx
      · exact hrule.keep c t pick i tr o k he huses.1 ht x (hold x hx)
      · exact (hrule.draw c t pick i tr o k he huses.1 ht x hx).2
    · obtain ⟨huses', hold'⟩ := hc u th hu
      exact ⟨huses', fun x hx => hrule.keep c t pick i tr o k he huses.1 ht x (hold' x hx)⟩
  · rintro s rfl t th ht
    exact ⟨(hc t th ht).1, fun x hx => hrule.env c s he x ((hc t th ht).2 x hx)⟩

def Apart (ticket : (Σ o, Res o) → Option τ) (c : Config M ι α) : Prop :=
  ∀ t u th th', t ≠ u → c.threads t = some th → c.threads u = some th' →
    ∀ x ∈ tickets ticket th.trace, x ∉ tickets ticket th'.trace

/-- After one event the tickets of a thread are those it had, and the one that it has just
drawn. -/
theorem tickets_step {c : Config M ι α} {e : Event M ι} {t : Nat} {th : Thread Op Res ι α}
    (h : (step body c e).threads t = some th) {x : τ} (hx : x ∈ tickets ticket th.trace) :
    (∃ th₀, c.threads t = some th₀ ∧ x ∈ tickets ticket th₀.trace) ∨
      ∃ pick i tr o k, e = .act t pick ∧ c.threads t = some ⟨i, tr, .call o k⟩ ∧
        ticket ⟨o, (M.exec t c.state o (pick o)).1⟩ = some x := by
  rcases threads_step h with hold | ⟨i, -, rfl⟩ | ⟨pick, i, tr, o, k, he, ht, rfl⟩
  · exact Or.inl ⟨th, hold, hx⟩
  · cases hx
  · rcases mem_tickets_snoc hx with hx | hx
    · exact Or.inl ⟨_, ht, hx⟩
    · exact Or.inr ⟨pick, i, tr, o, k, he, ht, hx⟩

theorem apart_step (hrule : TicketRule ticket used allowed ok) {c : Config M ι α} {e : Event M ι}
    (hc : Drawn ticket used allowed c) (hapart : Apart ticket c) (he : ok c e) :
    Apart ticket (step body c e) := by
  -- a ticket that was just drawn is not used up, so no thread has it
  have hnew : ∀ {t u th pick i tr o k x}, e = .act t pick →
      c.threads t = some ⟨i, tr, .call o k⟩ →
      ticket ⟨o, (M.exec t c.state o (pick o)).1⟩ = some x → c.threads u = some th →
      x ∉ tickets ticket th.trace := by
    rintro t u th pick i tr o k x rfl ht hx hu hmem
    exact (hrule.draw c t pick i tr o k he (hc t _ ht).1.1 ht x hx).1 ((hc u th hu).2 x hmem)
  intro t u th th' htu ht hu x hx hx'
  rcases tickets_step ht hx with ⟨th₀, ht₀, hx₀⟩ | ⟨pick, i, tr, o, k, heq, ht₀, hx₀⟩
  · rcases tickets_step hu hx' with ⟨th₁, hu₁, hx₁⟩ | ⟨pick, i, tr, o, k, heq, hu₁, hx₁⟩
    · exact hapart t u th₀ th₁ htu ht₀ hu₁ x hx₀ hx₁
    · exact hnew heq hu₁ hx₁ ht₀ hx₀
  · rcases tickets_step hu hx' with ⟨th₁, hu₁, hx₁⟩ | ⟨pick', i', tr', o', k', heq', -, -⟩
    · exact hnew heq ht₀ hx₀ hu₁ hx₁
    · rw [heq] at heq'
      cases heq'
      exact htu rfl

/-- **No two threads draw the same ticket.** -/
theorem tickets_distinct (hrule : TicketRule ticket used allowed ok)
    (hbody : ∀ i, (body i).Uses allowed) {s : M.State} {c : Config M ι α}
    (h : Reach (step body) ok (Config.init s) c) : Apart ticket c := by
  have hinit : Apart ticket (Config.init s : Config M ι α) := by
    intro t u th th' _ ht
    cases ht
  exact (h.invariant (fun c => Drawn ticket used allowed c ∧ Apart ticket c)
    ⟨all_init s, hinit⟩ fun c e hc he =>
      ⟨drawn_step hrule hbody hc.1 he, apart_step hrule hc.1 hc.2 he⟩).2

end SimSearch.Lib
