import Mathlib.Tactic.Common

/-!
# Transactions over a database value

A transaction body runs against one database value. An error of the body drops
the transaction and leaves the database as it was; a body that ends normally has
committed a new value, and still chooses whether its caller gets an answer or an
error.
-/
namespace Transaction

variable {ε Db α β : Type} {db db' : Db} {body : Except ε (Except ε α × Db)}
  {answer : Except ε α}

theorem bind_eq_ok {first : Except ε α} {next : α → Except ε β} {b : β} :
    (first >>= next) = .ok b ↔ ∃ a, first = .ok a ∧ next a = .ok b := by
  constructor
  · intro h
    cases first with
    | error e => cases h
    | ok a => exact ⟨a, rfl, h⟩
  · rintro ⟨a, rfl, h⟩
    exact h

theorem bind_eq_error {first : Except ε α} {next : α → Except ε β} {e : ε} :
    (first >>= next) = .error e ↔
      first = .error e ∨ ∃ a, first = .ok a ∧ next a = .error e := by
  cases first with
  | error e => simp [bind, Except.bind]
  | ok a => simp [bind, Except.bind]

theorem pure_eq_ok {a b : α} : (pure a : Except ε α) = .ok b ↔ a = b := by
  simp [pure, Except.pure]

theorem throw_eq_ok {e : ε} {a : α} : ¬(throw e : Except ε α) = .ok a := nofun

/-- A `throw` behind a test, inside a `do` block. -/
theorem guard_eq_ok {p : Prop} [Decidable p] {e : ε} {rest : PUnit → Except ε α} {a : α} :
    (if p then throw e >>= rest else rest ⟨⟩) = .ok a ↔ ¬p ∧ rest ⟨⟩ = .ok a := by
  by_cases h : p <;> simp [h, throw, throwThe, MonadExceptOf.throw, bind, Except.bind]

theorem elim_eq_ok {value : Option α} {e : ε} {a : α} :
    value.elim (throw e : Except ε α) pure = .ok a ↔ value = some a := by
  cases value <;> simp [throw, throwThe, MonadExceptOf.throw, pure, Except.pure]

theorem guard_eq_error {p : Prop} [Decidable p] {e e' : ε} {rest : PUnit → Except ε α} :
    (if p then throw e >>= rest else rest ⟨⟩) = .error e' ↔
      p ∧ e = e' ∨ ¬p ∧ rest ⟨⟩ = .error e' := by
  by_cases h : p <;> simp [h, throw, throwThe, MonadExceptOf.throw, bind, Except.bind]

theorem elim_eq_error {value : Option α} {e e' : ε} :
    value.elim (throw e : Except ε α) pure = .error e' ↔ value = none ∧ e = e' := by
  cases value <;> simp [throw, throwThe, MonadExceptOf.throw, pure, Except.pure]

theorem pure_eq_error {a : α} {e : ε} : ¬(pure a : Except ε α) = .error e := nofun

/-- The error of a fold is the error of one of its steps. -/
theorem foldlM_eq_error {f : β → α → Except ε β} {P : ε → Prop} {xs : List α} {acc : β} {e : ε}
    (hstep : ∀ acc x e, f acc x = .error e → P e) (h : xs.foldlM f acc = .error e) : P e := by
  induction xs generalizing acc with
  | nil => exact absurd h pure_eq_error
  | cons x rest ih =>
    rw [List.foldlM_cons, bind_eq_error] at h
    obtain hhead | ⟨next, -, hrest⟩ := h
    · exact hstep _ _ _ hhead
    · exact ih hrest

/-- The early return with an error. -/
def refuseIf (p : Prop) [Decidable p] (e : ε) : Except ε Unit :=
  if p then .error e else .ok ()

/-- A value that must be there, or the error. -/
def orRefuse (value : Option α) (e : ε) : Except ε α :=
  match value with
  | some a => .ok a
  | none => .error e

@[simp] theorem refuseIf_eq_ok {p : Prop} [Decidable p] {e : ε} {u : Unit} :
    refuseIf p e = .ok u ↔ ¬ p := by
  unfold refuseIf
  by_cases h : p <;> simp [h]

@[simp] theorem refuseIf_eq_error {p : Prop} [Decidable p] {e e' : ε} :
    refuseIf p e = .error e' ↔ p ∧ e = e' := by
  unfold refuseIf
  by_cases h : p <;> simp [h]

@[simp] theorem orRefuse_eq_ok {value : Option α} {e : ε} {a : α} :
    orRefuse value e = .ok a ↔ value = some a := by
  cases value <;> simp [orRefuse]

/-- What the caller sees and what the database holds after the transaction. -/
def close (db : Db) : Except ε (Except ε α × Db) → Except ε α × Db
  | .error e => (.error e, db)
  | .ok done => done

@[simp] theorem close_error (e : ε) :
    close db (.error e : Except ε (Except ε α × Db)) = (.error e, db) := rfl

@[simp] theorem close_ok (done : Except ε α × Db) : close db (.ok done) = done := rfl

/-- A closed transaction either committed what its body says or changed nothing. -/
theorem close_cases (h : close db body = (answer, db')) :
    body = .ok (answer, db') ∨ (∃ e, body = .error e ∧ answer = .error e ∧ db' = db) := by
  cases body with
  | error e =>
    simp only [close_error, Prod.mk.injEq] at h
    exact .inr ⟨e, rfl, h.1.symm, h.2.symm⟩
  | ok done =>
    simp only [close_ok] at h
    exact .inl (by rw [h])

/-- A transaction whose commits all answer changes nothing when it fails. -/
theorem close_refused {e : ε} (hcommit : ∀ answer db', body = .ok (answer, db') →
    ∃ a, answer = .ok a) (h : (close db body).1 = .error e) : (close db body).2 = db := by
  cases body with
  | error e => rfl
  | ok done =>
    obtain ⟨a, ha⟩ := hcommit done.1 done.2 rfl
    simp only [close_ok, ha, reduceCtorEq] at h

/-- A property of databases that every commit keeps holds after any transaction. -/
theorem close_invariant (I : Db → Prop) (hdb : I db)
    (hcommit : ∀ answer db', body = .ok (answer, db') → I db') : I (close db body).2 := by
  cases body with
  | error e => exact hdb
  | ok done => exact hcommit done.1 done.2 rfl

section Agreement

variable {γ δ : Type} {E : ε → ε → Prop} {S : β → γ → Prop} {T : α → δ → Prop}

/-- Two computations fail with related errors or answer with related values. -/
inductive Agree (E : ε → ε → Prop) (S : β → γ → Prop) : Except ε β → Except ε γ → Prop where
  | error {e e' : ε} (h : E e e') : Agree E S (.error e) (.error e')
  | ok {b : β} {c : γ} (h : S b c) : Agree E S (.ok b) (.ok c)

theorem Agree.weaken {E' : ε → ε → Prop} {x : Except ε β} {y : Except ε γ} (h : Agree E S x y)
    (hE : ∀ e e', E e e' → E' e e') : Agree E' S x y := by
  cases h with
  | error h => exact .error (hE _ _ h)
  | ok h => exact .ok h

theorem Agree.bind {x : Except ε β} {y : Except ε γ} {f : β → Except ε α} {g : γ → Except ε δ}
    (hfirst : Agree E S x y) (hrest : ∀ b c, S b c → Agree E T (f b) (g c)) :
    Agree E T (x >>= f) (y >>= g) := by
  cases hfirst with
  | error h => exact .error h
  | ok h => exact hrest _ _ h

/-- The same computation first, then computations that agree. -/
theorem Agree.bind_same (hE : ∀ e, E e e) {x : Except ε β} {f : β → Except ε α}
    {g : β → Except ε δ} (hrest : ∀ b, x = .ok b → Agree E T (f b) (g b)) :
    Agree E T (x >>= f) (x >>= g) := by
  cases x with
  | error e => exact .error (hE e)
  | ok b => exact hrest b rfl

/-- Two early returns behind tests that agree. -/
theorem Agree.guard {p q : Prop} [Decidable p] [Decidable q] {e : ε} {rest : PUnit → Except ε β}
    {rest' : PUnit → Except ε γ} (hE : E e e) (htest : p ↔ q)
    (hrest : ¬p → Agree E S (rest ⟨⟩) (rest' ⟨⟩)) :
    Agree E S (if p then throw e >>= rest else rest ⟨⟩)
      (if q then throw e >>= rest' else rest' ⟨⟩) := by
  by_cases h : p
  · rw [if_pos h, if_pos (htest.mp h)]
    exact .error hE
  · rw [if_neg h, if_neg fun hq => h (htest.mpr hq)]
    exact hrest h

theorem Agree.eq {x y : Except ε β} (h : Agree Eq Eq x y) : x = y := by
  cases h with
  | error h => rw [h]
  | ok h => rw [h]

/-- Two transactions whose bodies agree answer alike and leave related databases. -/
theorem Agree.close {R : Db → Db → Prop} {A : Except ε α → Except ε α → Prop}
    {body' : Except ε (Except ε α × Db)}
    (hbody : Agree E (fun done done' => A done.1 done'.1 ∧ R done.2 done'.2) body body')
    (hsame : R db db') (herror : ∀ e e', E e e' → A (.error e) (.error e')) :
    A (close db body).1 (close db' body').1 ∧ R (close db body).2 (close db' body').2 := by
  cases hbody with
  | error h => exact ⟨herror _ _ h, hsame⟩
  | ok h => exact h

end Agreement

end Transaction
