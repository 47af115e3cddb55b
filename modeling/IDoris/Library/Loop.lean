import Mathlib.Data.List.Forall2
import Mathlib.Data.List.Induction
import Mathlib.Tactic.Common

/-!
# Loops

A loop that keeps the best candidate so far, and invariants of loops that can fail.
-/
namespace Loop

variable {α β : Type}

/-- A candidate replaces the best so far when there is none or when it beats it. -/
def consider (beats : α → α → Bool) (best : Option α) (candidate : α) : Option α :=
  match best with
  | none => some candidate
  | some current => if beats candidate current then some candidate else some current

section Consider

variable {beats : α → α → Bool} {best : Option α} {candidate found : α}

theorem consider_eq_some (h : consider beats best candidate = some found) :
    found = candidate ∨ best = some found := by
  cases best with
  | none => exact .inl (Option.some.inj h).symm
  | some current =>
    rw [consider] at h
    split at h
    · exact .inl (Option.some.inj h).symm
    · exact .inr h

/-- The best so far is kept, or beaten. -/
theorem consider_beats (h : consider beats best candidate = some found) :
    found = candidate ∧ (∀ current, best = some current → beats candidate current = true) ∨
      best = some found ∧ beats candidate found = false := by
  cases best with
  | none => exact .inl ⟨(Option.some.inj h).symm, nofun⟩
  | some current =>
    rw [consider] at h
    split at h
    · rename_i hbeats
      exact .inl ⟨(Option.some.inj h).symm, fun _ hcurrent => Option.some.inj hcurrent ▸ hbeats⟩
    · rename_i hkept
      obtain rfl := Option.some.inj h
      exact .inr ⟨rfl, by simpa using hkept⟩

theorem exists_consider (beats : α → α → Bool) (best : Option α) (candidate : α) :
    ∃ found, consider beats best candidate = some found := by
  cases best with
  | none => exact ⟨candidate, rfl⟩
  | some current =>
    by_cases hbeats : beats candidate current = true
    · exact ⟨candidate, if_pos hbeats⟩
    · exact ⟨current, if_neg hbeats⟩

end Consider

section Best

/-- What is left when every candidate has been considered in turn. -/
def best (beats : α → α → Bool) (xs : List α) : Option α := xs.foldl (consider beats) none

/-- A candidate beats nothing of its own rank, and whatever is behind one it beats. -/
structure Ranks (beats : α → α → Bool) : Prop where
  irrefl : ∀ a, beats a a = false
  trans : ∀ a b c, beats a b = true → beats b c = true → beats a c = true

variable {beats : α → α → Bool} {xs : List α} {found : α}

theorem best_append_singleton (xs : List α) (x : α) :
    best beats (xs ++ [x]) = consider beats (best beats xs) x := by
  simp only [best, List.foldl_append, List.foldl_cons, List.foldl_nil]

theorem best_isSome_iff : (best beats xs).isSome = true ↔ xs ≠ [] := by
  induction xs using List.reverseRecOn with
  | nil => simp [best]
  | append_singleton xs x ih =>
    obtain ⟨found, hfound⟩ := exists_consider beats (best beats xs) x
    simp [best_append_singleton, hfound]

/-- The best is one of the candidates, and none of them beats it. -/
theorem best_spec (hranks : Ranks beats) (h : best beats xs = some found) :
    found ∈ xs ∧ ∀ x ∈ xs, beats x found = false := by
  induction xs using List.reverseRecOn generalizing found with
  | nil => cases h
  | append_singleton xs x ih =>
    rw [best_append_singleton] at h
    obtain ⟨rfl, hbeats⟩ | ⟨hkept, hbeats⟩ := consider_beats h
    · refine ⟨List.mem_append_right _ List.mem_cons_self, fun y hy => ?_⟩
      obtain hy | hy := List.mem_append.mp hy
      · cases hbest : best beats xs with
        | none =>
          have hempty := mt best_isSome_iff.mpr (by rw [hbest]; exact nofun)
          rw [not_not] at hempty
          rw [hempty] at hy
          cases hy
        | some current =>
          -- what beats the new one beats what the new one beats
          cases hbeaten : beats y found with
          | false => rfl
          | true =>
            have hcurrent := (ih hbest).2 y hy
            rw [hranks.trans y found current hbeaten (hbeats current hbest)] at hcurrent
            cases hcurrent
      · rw [List.mem_singleton.mp hy]
        exact hranks.irrefl found
    · obtain ⟨hmem, hleast⟩ := ih hkept
      refine ⟨List.mem_append_left _ hmem, fun y hy => ?_⟩
      obtain hy | hy := List.mem_append.mp hy
      · exact hleast y hy
      · rw [List.mem_singleton.mp hy]
        exact hbeats

end Best

section Pass

variable {start result : β} {xs : List α}

/-- What every step keeps holds at the end. -/
theorem foldl_keeps {f : β → α → β} (I : β → Prop) (hstart : I start)
    (hstep : ∀ x ∈ xs, ∀ b, I b → I (f b x)) : I (xs.foldl f start) :=
  List.foldlRecOn xs f hstart fun b hb x hx => hstep x hx b hb

/-- A loop that never fails is a plain one. -/
theorem foldlM_eq_some {f : β → α → Option β} {g : β → α → β}
    (h : ∀ x ∈ xs, ∀ b, f b x = some (g b x)) : xs.foldlM f start = some (xs.foldl g start) := by
  induction xs generalizing start with
  | nil => rfl
  | cons x xs ih =>
    rw [List.foldlM_cons, h x List.mem_cons_self]
    exact ih fun y hy => h y (List.mem_cons_of_mem _ hy)

/-- One element that always fails makes the whole loop fail. -/
theorem foldlM_eq_none {f : β → α → Option β} {x : α} (hx : x ∈ xs) (h : ∀ b, f b x = none) :
    xs.foldlM f start = none := by
  induction xs generalizing start with
  | nil => cases hx
  | cons y xs ih =>
    rw [List.foldlM_cons]
    obtain rfl | hx := List.mem_cons.mp hx
    · rw [h]
      rfl
    · cases hstep : f start y with
      | none => rfl
      | some b => exact ih hx

/-- A loop whose steps never fail does not fail. -/
theorem foldlM_ok {ε : Type} {f : β → α → Except ε β} (h : ∀ x ∈ xs, ∀ b, ∃ b', f b x = .ok b') :
    ∃ result, xs.foldlM f start = .ok result := by
  induction xs generalizing start with
  | nil => exact ⟨start, rfl⟩
  | cons x xs ih =>
    obtain ⟨b', hb'⟩ := h x List.mem_cons_self start
    rw [List.foldlM_cons, hb']
    exact ih fun y hy => h y (List.mem_cons_of_mem _ hy)

/-- When a run of a monad ends with a result. -/
structure Outcome (m : Type → Type) [Monad m] where
  of : {γ : Type} → m γ → γ → Prop
  of_pure : ∀ {γ : Type} {a b : γ}, of (pure a) b → a = b
  of_bind : ∀ {γ δ : Type} {x : m γ} {f : γ → m δ} {b : δ}, of (x >>= f) b →
    ∃ a, of x a ∧ of (f a) b

def Outcome.option : Outcome Option where
  of x a := x = some a
  of_pure := Option.some.inj
  of_bind := Option.bind_eq_some_iff.mp

def Outcome.except (ε : Type) : Outcome (Except ε) where
  of x a := x = .ok a
  of_pure := Except.ok.inj
  of_bind {_ _ x _ _} h := by
    cases x with
    | error e => cases h
    | ok a => exact ⟨a, rfl, h⟩

/-- What holds of the elements seen so far holds of all of them when a loop succeeds. -/
theorem foldlM_seen {m : Type → Type} [Monad m] (outcome : Outcome m) {f : β → α → m β}
    (I : List α → β → Prop) (hstart : I [] start)
    (hstep : ∀ seen x b b', I seen b → outcome.of (f b x) b' → I (seen ++ [x]) b')
    (h : outcome.of (xs.foldlM f start) result) : I xs result := by
  have hrun : ∀ (rest seen : List α) (b : β), I seen b → outcome.of (rest.foldlM f b) result →
      I (seen ++ rest) result := by
    intro rest
    induction rest with
    | nil =>
      intro seen b hb hresult
      obtain rfl := outcome.of_pure hresult
      rw [List.append_nil]
      exact hb
    | cons x rest ih =>
      intro seen b hb hresult
      rw [List.foldlM_cons] at hresult
      obtain ⟨next, hnext, hrest⟩ := outcome.of_bind hresult
      have hseen := ih (seen ++ [x]) next (hstep seen x b next hb hnext) hrest
      rwa [List.append_assoc] at hseen
  exact hrun xs [] start hstart h

/-- Mapping ends with the results of the elements, in order. -/
theorem mapM_outcome {m : Type → Type} [Monad m] [LawfulMonad m] (outcome : Outcome m)
    {f : α → m β} {ys : List β} (h : outcome.of (xs.mapM f) ys) :
    List.Forall₂ (fun x y => outcome.of (f x) y) xs ys := by
  rw [← List.mapM'_eq_mapM] at h
  induction xs generalizing ys with
  | nil =>
    obtain rfl := outcome.of_pure h
    exact .nil
  | cons x xs ih =>
    obtain ⟨y, hy, hrest⟩ := outcome.of_bind h
    obtain ⟨rest, hxs, hmade⟩ := outcome.of_bind hrest
    obtain rfl := outcome.of_pure hmade
    exact .cons hy (ih hxs)

theorem forall₂_left {R : α → β → Prop} {ys : List β} {x : α} (h : List.Forall₂ R xs ys)
    (hx : x ∈ xs) : ∃ y ∈ ys, R x y := by
  induction h with
  | nil => cases hx
  | @cons x' y' xs ys hfirst hrest ih =>
    obtain rfl | hx := List.mem_cons.mp hx
    · exact ⟨y', List.mem_cons_self, hfirst⟩
    · obtain ⟨y, hy, hR⟩ := ih hx
      exact ⟨y, List.mem_cons_of_mem y' hy, hR⟩

theorem forall₂_right {R : α → β → Prop} {ys : List β} {y : β} (h : List.Forall₂ R xs ys)
    (hy : y ∈ ys) : ∃ x ∈ xs, R x y := forall₂_left h.flip hy

end Pass

end Loop
