import Mathlib.Logic.Relation

/-!
# Computations that fail with their state

A computation changes a state and can fail; what it did before it failed stays done.
-/
namespace Effectful

open Relation (ReflTransGen)

abbrev Eff (ε σ α : Type) := ExceptT ε (StateM σ) α

variable {ε σ α β : Type}

def run (x : Eff ε σ α) (s : σ) : Except ε α × σ := (ExceptT.run x).run s

/-- The computation succeeds. -/
def Returns (x : Eff ε σ α) (s : σ) (a : α) (s' : σ) : Prop := run x s = (.ok a, s')

/-- Whatever the outcome, from a state where the invariant holds only these steps are taken. -/
def Keeps (I : σ → Prop) (step : σ → σ → Prop) (x : Eff ε σ α) : Prop :=
  ∀ s, I s → ReflTransGen step s (run x s).2

/-- From a state where the invariant holds the computation does not end with this error. -/
def Avoids (I : σ → Prop) (e : ε) (x : Eff ε σ α) : Prop := ∀ s, I s → (run x s).1 ≠ .error e

section Rules

variable {x : Eff ε σ α} {f : α → Eff ε σ β} {s s' : σ} {a a' : α} {b : β}
  {step : σ → σ → Prop} {I : σ → Prop}

@[simp] theorem run_pure (a : α) (s : σ) : run (pure a : Eff ε σ α) s = (.ok a, s) := rfl

@[simp] theorem run_throw (e : ε) (s : σ) : run (throw e : Eff ε σ α) s = (.error e, s) := rfl

@[simp] theorem run_get (s : σ) : run (get : Eff ε σ σ) s = (.ok s, s) := rfl

@[simp] theorem run_set (s s' : σ) : run (set s' : Eff ε σ PUnit) s = (.ok ⟨⟩, s') := rfl

@[simp] theorem run_modify (f : σ → σ) (s : σ) :
    run (modify f : Eff ε σ PUnit) s = (.ok ⟨⟩, f s) := rfl

/-- A result that was computed without the state. -/
def ofExcept (result : Except ε α) : Eff ε σ α := ExceptT.mk (pure result)

@[simp] theorem run_ofExcept (result : Except ε α) (s : σ) :
    run (ofExcept result : Eff ε σ α) s = (result, s) := rfl

theorem run_bind : run (x >>= f) s = match run x s with
    | (.ok a, s') => run (f a) s'
    | (.error e, s') => (.error e, s') := by
  unfold run ExceptT.run StateT.run
  simp only [bind, ExceptT.bind, ExceptT.mk, StateT.bind, ExceptT.bindCont]
  cases x s with
  | mk outcome s' => cases outcome <;> rfl

theorem run_discard : run (discard x) s = ((run x s).1.map fun _ => ⟨⟩, (run x s).2) := by
  have h : discard x = x >>= fun _ => pure ⟨⟩ := by
    simp only [discard, Functor.discard, map_const, bind_pure_comp]
    rfl
  rw [h, run_bind]
  rcases run x s with ⟨_ | _, _⟩ <;> rfl

theorem run_get_bind {f : σ → Eff ε σ α} : run (get >>= f) s = run (f s) s := by
  rw [run_bind, run_get]

/-- An early exit. -/
theorem run_guard {p : Prop} [Decidable p] {e : ε} {rest : PUnit → Eff ε σ α} :
    run (if p then throw e >>= rest else rest ⟨⟩) s =
      if p then (.error e, s) else run (rest ⟨⟩) s := by
  by_cases h : p
  · rw [if_pos h, if_pos h]
    rfl
  · rw [if_neg h, if_neg h]

theorem not_returns_throw (e : ε) : ¬Returns (throw e : Eff ε σ α) s a s' := by
  simp [Returns]

theorem returns_bind {s'' : σ} : Returns (x >>= f) s b s'' ↔
    ∃ a s', Returns x s a s' ∧ Returns (f a) s' b s'' := by
  simp only [Returns, run_bind]
  cases run x s with
  | mk outcome s' =>
    cases outcome with
    | error e => simp
    | ok a =>
      constructor
      · exact fun h => ⟨a, s', rfl, h⟩
      · rintro ⟨_, _, ⟨⟩, h⟩
        exact h

/-- What a step keeps, steps keep. -/
theorem stable_steps {P : σ → Prop} (h : ∀ s s', P s → step s s' → P s')
    (hsteps : ReflTransGen step s s') (hs : P s) : P s' := by
  induction hsteps with
  | refl => exact hs
  | tail _ hstep hkept => exact h _ _ hkept hstep

theorem keeps_pure (a : α) : Keeps I step (pure a : Eff ε σ α) := fun _ _ => .refl

theorem keeps_throw (e : ε) : Keeps I step (throw e : Eff ε σ α) := fun _ _ => .refl

theorem Keeps.bind (hI : ∀ s s', I s → step s s' → I s') (h : Keeps I step x)
    (hf : ∀ a, Keeps I step (f a)) : Keeps I step (x >>= f) := by
  intro s hs
  rw [run_bind]
  have hfirst := h s hs
  rcases hrun : run x s with ⟨outcome, s'⟩
  rw [hrun] at hfirst
  cases outcome with
  | ok a => exact hfirst.trans (hf a s' (stable_steps hI hfirst hs))
  | error e => exact hfirst

theorem Avoids.bind {e : ε} (hI : ∀ s s', I s → step s s' → I s') (hkeeps : Keeps I step x)
    (h : Avoids I e x) (hf : ∀ a, Avoids I e (f a)) : Avoids I e (x >>= f) := by
  intro s hs
  rw [run_bind]
  have hfirst := h s hs
  have hsteps := hkeeps s hs
  rcases hrun : run x s with ⟨outcome, s'⟩
  rw [hrun] at hfirst hsteps
  cases outcome with
  | ok a => exact hf a s' (stable_steps hI hsteps hs)
  | error e' => exact fun herror => hfirst (congrArg Except.error (Except.error.inj herror))

theorem Keeps.returns (h : Keeps I step x) (hs : I s) (hreturns : Returns x s a s') :
    ReflTransGen step s s' := by
  have hsteps := h s hs
  rwa [show run x s = (.ok a, s') from hreturns] at hsteps

end Rules

section Loops

variable {f : β → α → Eff ε σ β} {xs : List α} {start result : β} {s s' : σ}
  {step : σ → σ → Prop} {I : σ → Prop}

theorem keeps_foldlM (hI : ∀ s s', I s → step s s' → I s')
    (h : ∀ b, ∀ x ∈ xs, Keeps I step (f b x)) : Keeps I step (xs.foldlM f start) := by
  induction xs generalizing start with
  | nil => exact keeps_pure start
  | cons x xs ih =>
    rw [List.foldlM_cons]
    exact (h start x List.mem_cons_self).bind hI fun _ =>
      ih fun b y hy => h b y (List.mem_cons_of_mem x hy)

theorem avoids_foldlM {e : ε} (hI : ∀ s s', I s → step s s' → I s')
    (hkeeps : ∀ b, ∀ x ∈ xs, Keeps I step (f b x)) (h : ∀ b, ∀ x ∈ xs, Avoids I e (f b x)) :
    Avoids I e (xs.foldlM f start) := by
  induction xs generalizing start with
  | nil => exact fun s _ => nofun
  | cons x xs ih =>
    rw [List.foldlM_cons]
    exact Avoids.bind hI (hkeeps start x List.mem_cons_self) (h start x List.mem_cons_self)
      fun _ => ih (fun b y hy => hkeeps b y (List.mem_cons_of_mem x hy))
        fun b y hy => h b y (List.mem_cons_of_mem x hy)

/-- What a loop does for an element stays done. -/
theorem foldlM_each (hI : ∀ s s', I s → step s s' → I s')
    (h : ∀ b, ∀ x ∈ xs, Keeps I step (f b x)) {P : α → σ → Prop}
    (hstable : ∀ x s s', P x s → step s s' → P x s')
    (hdone : ∀ b b' s s', ∀ x ∈ xs, I s → Returns (f b x) s b' s' → P x s') (hs : I s)
    (hreturns : Returns (xs.foldlM f start) s result s') : ∀ x ∈ xs, P x s' := by
  induction xs generalizing start s with
  | nil => exact List.forall_mem_nil _
  | cons x xs ih =>
    rw [List.foldlM_cons] at hreturns
    obtain ⟨next, middle, hfirst, hrest⟩ := returns_bind.mp hreturns
    have htail : ∀ b, ∀ y ∈ xs, Keeps I step (f b y) :=
      fun b y hy => h b y (List.mem_cons_of_mem x hy)
    have hx := hdone start next s middle x List.mem_cons_self hs hfirst
    have hmiddle := stable_steps hI ((h start x List.mem_cons_self).returns hs hfirst) hs
    have hsteps := (keeps_foldlM hI htail).returns hmiddle hrest
    exact List.forall_mem_cons.mpr ⟨stable_steps (hstable x) hsteps hx,
      ih htail (fun b b' s s' y hy => hdone b b' s s' y (List.mem_cons_of_mem x hy)) hmiddle hrest⟩

end Loops

end Effectful
