import Mathlib.Tactic.Common

/-!
# Programs that ask their surroundings

A program asks one question at a time and goes on with the answer, whatever it
is. `Safe` is the rule of pre- and postconditions: a monitor follows the answers
and says which questions may be asked in which of its states.
-/
namespace Interaction

/-- A program that ends with a value, or asks and waits. -/
inductive Program (Op : Type) (Ans : Op → Type) (α : Type) where
  | ret (value : α)
  | ask (op : Op) (next : Ans op → Program Op Ans α)

namespace Program

variable {Op : Type} {Ans : Op → Type} {α β : Type}

def bind : Program Op Ans α → (α → Program Op Ans β) → Program Op Ans β
  | .ret value, f => f value
  | .ask op next, f => .ask op fun answer => (next answer).bind f

instance : Monad (Program Op Ans) where
  pure := .ret
  bind := bind

/-- Perform an action for each item, in order, and keep what each gives. -/
def each (f : α → Program Op Ans β) : List α → Program Op Ans (List β)
  | [] => .ret []
  | x :: xs => (f x).bind fun y => (each f xs).bind fun ys => .ret (y :: ys)

/-- Try at most `n` times, until an attempt gives a value. -/
def attempts : Nat → Program Op Ans (Option α) → Program Op Ans (Option α)
  | 0, _ => .ret none
  | n + 1, body => body.bind fun
    | some value => .ret (some value)
    | none => attempts n body

/-- Each question is answered by a program of another kind, which keeps a state of its own. -/
def interpret {Op' : Type} {Ans' : Op' → Type} {σ : Type}
    (handle : (op : Op) → σ → Program Op' Ans' (Ans op × σ)) :
    Program Op Ans α → σ → Program Op' Ans' (α × σ)
  | .ret value, state => .ret (value, state)
  | .ask op next, state => (handle op state).bind fun answered =>
      (next answered.1).interpret handle answered.2

end Program

/-- What an observer of the questions and answers remembers, and what it allows. -/
structure Monitor (Op : Type) (Ans : Op → Type) (σ : Type) where
  allowed : σ → Op → Prop
  next : σ → (op : Op) → Ans op → σ

open Program

variable {Op : Type} {Ans : Op → Type} {α β σ : Type} {M : Monitor Op Ans σ} {s : σ}
  {Q R : α → σ → Prop}

/-- Whatever the answers, every question is allowed and `Q` holds at the end. -/
def Safe (M : Monitor Op Ans σ) (Q : α → σ → Prop) : Program Op Ans α → σ → Prop
  | .ret value, s => Q value s
  | .ask op next, s => M.allowed s op ∧ ∀ answer, Safe M Q (next answer) (M.next s op answer)

@[simp] theorem safe_ret {value : α} : Safe M Q (.ret value) s ↔ Q value s := Iff.rfl

theorem Safe.mono {p : Program Op Ans α} (h : Safe M Q p s) (hQ : ∀ a t, Q a t → R a t) :
    Safe M R p s := by
  induction p generalizing s with
  | ret value => exact hQ value s h
  | ask op next ih => exact ⟨h.1, fun answer => ih answer (h.2 answer)⟩

/-- Sequencing: the second part is safe from wherever the first can end. -/
theorem Safe.bind {p : Program Op Ans α} {f : α → Program Op Ans β} {R : β → σ → Prop}
    (h : Safe M Q p s) (hf : ∀ a t, Q a t → Safe M R (f a) t) : Safe M R (p.bind f) s := by
  induction p generalizing s with
  | ret value => exact hf value s h
  | ask op next ih => exact ⟨h.1, fun answer => ih answer (h.2 answer)⟩

/-- A loop over a list, with an invariant and a fact about each result. -/
theorem Safe.each {f : α → Program Op Ans β} {P : α → β → Prop} {I : σ → Prop} {xs : List α}
    (hf : ∀ x ∈ xs, ∀ t, I t → Safe M (fun y u => P x y ∧ I u) (f x) t) (hs : I s) :
    Safe M (fun ys t => List.Forall₂ P xs ys ∧ I t) (each f xs) s := by
  induction xs generalizing s with
  | nil => exact ⟨.nil, hs⟩
  | cons x xs ih =>
    apply (hf x List.mem_cons_self s hs).bind
    intro y t ⟨hy, ht⟩
    have hrest := ih (fun x hx => hf x (List.mem_cons_of_mem _ hx)) ht
    apply hrest.bind
    intro ys u ⟨hys, hu⟩
    exact ⟨.cons hy hys, hu⟩

/-- A bounded loop of attempts: each failed one keeps the invariant. -/
theorem Safe.attempts {body : Program Op Ans (Option α)} {I : σ → Prop}
    {Q : Option α → σ → Prop} (n : Nat)
    (hbody : ∀ t, I t → Safe M (fun r u => (r = none → I u) ∧ (r ≠ none → Q r u)) body t)
    (hnone : ∀ t, I t → Q none t) (hs : I s) : Safe M Q (attempts n body) s := by
  induction n generalizing s with
  | zero => exact hnone s hs
  | succ n ih =>
    apply (hbody s hs).bind
    intro r t ht
    cases r with
    | some a => exact ht.2 (Option.some_ne_none a)
    | none => exact ih (ht.1 rfl)

section Interpret

variable {Op' : Type} {Ans' : Op' → Type} {τ ρ : Type}
  {handle : (op : Op) → τ → Program Op' Ans' (Ans op × τ)} {M' : Monitor Op' Ans' ρ}
  {I : σ → τ → ρ → Prop}

/-- When each answer keeps the two monitors in step, what is safe above is safe below. -/
theorem Safe.interpret {p : Program Op Ans α} {state : τ} {r : ρ} (h : Safe M Q p s)
    (hhandle : ∀ op s state r, M.allowed s op → I s state r →
      Safe M' (fun answered r' => I (M.next s op answered.1) answered.2 r') (handle op state) r)
    (hstart : I s state r) : Safe M' (fun result r' => ∃ s', Q result.1 s' ∧ I s' result.2 r')
      (p.interpret handle state) r := by
  induction p generalizing s state r with
  | ret value => exact ⟨s, h, hstart⟩
  | ask op next ih =>
    apply (hhandle op s state r h.1 hstart).bind
    intro answered r' hr'
    exact ih answered.1 (h.2 answered.1) hr'

end Interpret

/-- One question and its answer. -/
abbrev Exchange (Op : Type) (Ans : Op → Type) := (op : Op) × Ans op

/-- The program asks what the list says, hears its answers and goes on as the other one. -/
inductive Leads : Program Op Ans α → List (Exchange Op Ans) → Program Op Ans α → Prop where
  | refl (p : Program Op Ans α) : Leads p [] p
  | ask {op : Op} {next : Ans op → Program Op Ans α} {answer : Ans op}
      {trace : List (Exchange Op Ans)} {p : Program Op Ans α} (h : Leads (next answer) trace p) :
      Leads (.ask op next) (⟨op, answer⟩ :: trace) p

/-- What an observer remembers after the exchanges. -/
def Monitor.follow (M : Monitor Op Ans σ) (s : σ) (trace : List (Exchange Op Ans)) : σ :=
  trace.foldl (fun s e => M.next s e.1 e.2) s

/-- What is safe stays safe while questions are answered. -/
theorem Safe.leads {p q : Program Op Ans α} {trace : List (Exchange Op Ans)} (h : Safe M Q p s)
    (hleads : Leads p trace q) : Safe M Q q (M.follow s trace) := by
  induction hleads generalizing s with
  | refl p => exact h
  | ask _ ih => exact ih (h.2 _)

/-- The first `n` questions as they are answered by an oracle, and what is left. -/
def replay (oracle : (op : Op) → Ans op) :
    Nat → Program Op Ans α → List (Exchange Op Ans) × Program Op Ans α
  | 0, p => ([], p)
  | _ + 1, .ret value => ([], .ret value)
  | n + 1, .ask op next =>
    (⟨op, oracle op⟩ :: (replay oracle n (next (oracle op))).1,
      (replay oracle n (next (oracle op))).2)

theorem leads_replay (oracle : (op : Op) → Ans op) (n : Nat) (p : Program Op Ans α) :
    Leads p (replay oracle n p).1 (replay oracle n p).2 := by
  induction n generalizing p with
  | zero => exact .refl p
  | succ n ih =>
    cases p with
    | ret value => exact .refl _
    | ask op next => exact .ask (ih (next (oracle op)))

theorem answer_of_mem_replay {oracle : (op : Op) → Ans op} {n : Nat} {p : Program Op Ans α}
    {e : Exchange Op Ans} (h : e ∈ (replay oracle n p).1) : e.2 = oracle e.1 := by
  induction n generalizing p with
  | zero => cases h
  | succ n ih =>
    cases p with
    | ret value => cases h
    | ask op next =>
      cases h with
      | head => rfl
      | tail _ h => exact ih h

namespace Leads

variable {p q : Program Op Ans α} {trace : List (Exchange Op Ans)} {a : α} {b : β}

/-- One more question is answered. -/
theorem snoc {op : Op} {next : Ans op → Program Op Ans α} (h : Leads p trace (.ask op next))
    (answer : Ans op) : Leads p (trace ++ [⟨op, answer⟩]) (next answer) := by
  generalize hend : Program.ask op next = q at h
  induction h with
  | refl p =>
    subst hend
    exact .ask (.refl _)
  | ask _ ih => exact .ask (ih hend)

theorem of_ret (h : Leads (.ret a) trace q) : trace = [] ∧ q = .ret a := by
  cases h
  exact ⟨rfl, rfl⟩

theorem of_ask {op : Op} {next : Ans op → Program Op Ans α}
    (h : Leads (.ask op next) trace (.ret a)) :
    ∃ answer rest, trace = ⟨op, answer⟩ :: rest ∧ Leads (next answer) rest (.ret a) := by
  cases h with
  | ask h => exact ⟨_, _, rfl, h⟩

/-- A sequence asks what its first part asks, then what its second part asks. -/
theorem of_bind {f : α → Program Op Ans β} (h : Leads (p.bind f) trace (.ret b)) :
    ∃ first rest a, trace = first ++ rest ∧ Leads p first (.ret a) ∧ Leads (f a) rest (.ret b) := by
  induction p generalizing trace with
  | ret value => exact ⟨[], trace, value, rfl, .refl _, h⟩
  | ask op next ih =>
    obtain ⟨answer, rest, rfl, hrest⟩ := of_ask h
    obtain ⟨first, last, a, rfl, hfirst, hlast⟩ := ih answer hrest
    exact ⟨⟨op, answer⟩ :: first, last, a, rfl, .ask hfirst, hlast⟩

/-- A fact about the exchanges of every item holds of all, and each result fits its item. -/
theorem of_each {f : α → Program Op Ans β} {R : α → β → Prop} {P : Exchange Op Ans → Prop}
    {xs : List α} {ys : List β}
    (hbody : ∀ {x trace y}, Leads (f x) trace (.ret y) → R x y ∧ ∀ e ∈ trace, P e)
    (h : Leads (each f xs) trace (.ret ys)) : List.Forall₂ R xs ys ∧ ∀ e ∈ trace, P e := by
  induction xs generalizing trace ys with
  | nil =>
    obtain ⟨rfl, hret⟩ := of_ret h
    cases hret
    exact ⟨.nil, nofun⟩
  | cons x xs ih =>
    obtain ⟨first, rest, y, rfl, hfirst, hrest⟩ := of_bind h
    obtain ⟨middle, last, zs, rfl, hmiddle, hlast⟩ := of_bind hrest
    obtain ⟨rfl, hret⟩ := of_ret hlast
    cases hret
    obtain ⟨hy, hP⟩ := hbody hfirst
    obtain ⟨hzs, hPs⟩ := ih hmiddle
    constructor
    · exact .cons hy hzs
    · intro e he
      rw [List.append_nil] at he
      obtain he | he := List.mem_append.mp he
      · exact hP e he
      · exact hPs e he

/-- A fact about the exchanges of one attempt holds of all; a value comes from the last. -/
theorem of_attempts {body : Program Op Ans (Option α)} {n : Nat} {result : Option α}
    {P : Exchange Op Ans → Prop}
    (hbody : ∀ {trace result}, Leads body trace (.ret result) → ∀ x ∈ trace, P x)
    (h : Leads (attempts n body) trace (.ret result)) :
    (∀ x ∈ trace, P x) ∧ ∀ a, result = some a →
      ∃ front last, trace = front ++ last ∧ Leads body last (.ret (some a)) := by
  induction n generalizing trace with
  | zero =>
    obtain ⟨rfl, hret⟩ := of_ret h
    cases hret
    exact ⟨nofun, nofun⟩
  | succ n ih =>
    obtain ⟨first, rest, attempt, rfl, hfirst, hrest⟩ := of_bind h
    have hP := hbody hfirst
    cases attempt with
    | some value =>
      obtain ⟨rfl, hret⟩ := of_ret hrest
      cases hret
      rw [List.append_nil]
      refine ⟨hP, fun a ha => ?_⟩
      cases ha
      exact ⟨[], first, rfl, hfirst⟩
    | none =>
      obtain ⟨hPrest, hvalue⟩ := ih hrest
      constructor
      · intro x hx
        obtain hx | hx := List.mem_append.mp hx
        · exact hP x hx
        · exact hPrest x hx
      · intro a ha
        obtain ⟨front, last, rfl, hlast⟩ := hvalue a ha
        exact ⟨first ++ front, last, (List.append_assoc _ _ _).symm, hlast⟩

end Leads

end Interaction
