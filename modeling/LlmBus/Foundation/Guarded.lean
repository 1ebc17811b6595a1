import LlmBus.Foundation.Concurrency

/-! # Requests under a guard

A safe program keeps the invariant with each request. A guarded one also makes a request
only where a given predicate holds of it, and a run of guarded threads consists of nothing
but such requests.
-/

namespace Foundation.Concurrency.Discipline

open Interaction

variable {I : Interface} {ε α β γ : Type} {M : Machine I ε α} {allowed : M.State → I.Op → Prop}
  (D : Discipline M allowed) (G : M.State → I.Op → Prop)

def Guarded (t : Nat) : Program I ε β → M.State → Prop
  | .ret _, _ => True
  | .fail _, _ => True
  | .ask op k, s => ∀ s', D.Rely t s s' → D.inv s' → G s' op ∧ (allowed s' op → ∀ proposal,
      D.Keeps t s' (M.perform t s' op proposal).2 ∧
        Guarded t (k (M.perform t s' op proposal).1) (M.perform t s' op proposal).2)

/-- What a new thread needs: it starts guarded wherever the invariant holds. -/
def EntriesGuarded : Prop :=
  ∀ s entry p t, D.inv s → D.own t s = D.blank → M.start s entry = some p → D.Guarded G t p s

variable {D G}

theorem Guarded.safe {t : Nat} {p : Program I ε β} {s : M.State} (h : D.Guarded G t p s) :
    D.Safe t p s := by
  induction p generalizing s with
  | ret b => trivial
  | fail e => trivial
  | ask op k ih =>
    intro s' hRely hInv hAllowed proposal
    obtain ⟨hKeeps, hNext⟩ := (h s' hRely hInv).2 hAllowed proposal
    exact ⟨hKeeps, ih _ hNext⟩

theorem Guarded.stable {t : Nat} {p : Program I ε β} {s s' : M.State} (h : D.Guarded G t p s)
    (hRely : D.Rely t s s') : D.Guarded G t p s' := by
  cases p with
  | ret b => trivial
  | fail e => trivial
  | ask op k => exact fun s'' h'' => h s'' (hRely.trans h'')

theorem EntriesGuarded.entriesSafe (h : D.EntriesGuarded G) : D.EntriesSafe :=
  fun s entry p t hInv hOwn hStart => (h s entry p t hInv hOwn hStart).safe

theorem guarded_ask {t : Nat} {op : I.Op} {k : I.Reply op → Program I ε β} {s : M.State}
    (hGuard : ∀ s', D.Rely t s s' → D.inv s' → G s' op)
    (h : ∀ s', D.Rely t s s' → D.inv s' → allowed s' op → ∀ proposal r s'',
      M.perform t s' op proposal = (r, s'') → D.Keeps t s' s'' ∧ D.Guarded G t (k r) s'') :
    D.Guarded G t (.ask op k) s :=
  fun s' hRely hInv => ⟨hGuard s' hRely hInv,
    fun hAllowed proposal => h s' hRely hInv hAllowed proposal _ _ rfl⟩

/-- A stretch of requests that leave the state alone and are made anywhere. -/
theorem guarded_bind_of_every {t : Nat} {P : β → Prop} {p : Program I ε β}
    {f : β → Program I ε γ} {s : M.State} (h : Every (fun op => Quiet M op ∧ ∀ s, G s op) P p)
    (hf : ∀ b, P b → D.Guarded G t (f b) s) : D.Guarded G t (p.bind f) s := by
  induction p generalizing s with
  | ret b => exact hf b h
  | fail e => trivial
  | ask op k ih =>
    apply guarded_ask (fun s' _ _ => h.1.2 s')
    intro s' hRely hInv _ proposal r s'' hPerform
    have hSame : s'' = s' := (congrArg Prod.snd hPerform).symm.trans (h.1.1 t s' proposal)
    subst hSame
    exact ⟨Keeps.of_eq hInv rfl, ih r (h.2 r) fun b hb => (hf b hb).stable hRely⟩

theorem guarded_ofExcept_bind {t : Nat} {r : Except ε β} {f : β → Program I ε γ} {s : M.State}
    (hf : ∀ b, r = .ok b → D.Guarded G t (f b) s) :
    D.Guarded G t ((Program.ofExcept r).bind f) s := by
  cases r with
  | ok b => exact hf b rfl
  | error e => trivial

/-- The rule: where every entry is guarded, every thread of every configuration reached is. -/
theorem guarded_of_reaches (hEntries : D.EntriesGuarded G) {c d : Config M} (hc : D.Sound c)
    (hThreads : ∀ t p, c.threads t = some p → D.Guarded G t p c.state) (h : Reaches allowed c d) :
    ∀ t p, d.threads t = some p → D.Guarded G t p d.state := by
  induction h with
  | refl => exact hThreads
  | @tail d e a hReaches hAdmits hStep ih =>
    have hd : D.Sound d := (hc.reaches hEntries.entriesSafe hReaches).1
    intro u p hThread
    rcases Config.step_cases hStep with
      ⟨entry, q, rfl, hStart, rfl⟩ | ⟨t, proposal, op, k, rfl, hAsk, rfl⟩ | ⟨t, q, rfl, hThere, rfl⟩
    · by_cases hu : u = d.fresh
      · subst hu
        rw [Config.add_threads_self] at hThread
        cases hThread
        exact hEntries _ entry p _ hd.inv (hd.blank _ (Nat.le_refl _)) hStart
      · rw [Config.add_threads_of_ne d q hu] at hThread
        exact ih u p hThread
    · obtain ⟨hKeeps, hNext⟩ :=
        (ih t _ hAsk d.state (Rely.refl t _) hd.inv).2 (hAdmits op k hAsk) (proposal op)
      by_cases hu : u = t
      · subst hu
        rw [Config.put_threads_self] at hThread
        cases hThread
        exact hNext
      · rw [Config.put_threads_of_ne d hu] at hThread
        exact (ih u p hThread).stable (hKeeps.rely hu)
    · by_cases hu : u = t
      · subst hu
        rw [Config.put_threads_self] at hThread
        cases hThread
      · rw [Config.put_threads_of_ne d hu] at hThread
        exact ih u p hThread

theorem guard_of_reaches (hEntries : D.EntriesGuarded G) {s : M.State} (hInv : D.inv s)
    (hBlank : ∀ t, D.own t s = D.blank) {c : Config M} (h : Reaches allowed (.initial s) c)
    {t : Nat} {op : I.Op} {k : I.Reply op → Program I ε α} (hThread : c.threads t = some (.ask op k)) :
    G c.state op := by
  have hStart : D.Sound (Config.initial s) := sound_initial hInv hBlank
  have hSound := (hStart.reaches hEntries.entriesSafe h).1
  have hGuarded := guarded_of_reaches hEntries hStart (fun _ _ hNone => by cases hNone) h t _ hThread
  exact (hGuarded c.state (Rely.refl t _) hSound.inv).1

end Foundation.Concurrency.Discipline
