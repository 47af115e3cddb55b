import Mathlib.Tactic.Common

/-!
# Wall clocks

A wall clock is ahead of a universal one by an offset that may change. Around a
reading that it shows only once, and with one change at most in the days around,
it keeps the order of instants.
-/
namespace WallClock

/-- Four days of seconds around an instant, two on each side. -/
def Near (instant u : Int) : Prop := instant - 172800 ≤ u ∧ u ≤ instant + 172800

variable (offset : Int → Int)

/-- What the clock shows. -/
def reading (u : Int) : Int := u + offset u

/-- No clock is a day ahead or behind. -/
def WithinDay : Prop := ∀ u, -86400 < offset u ∧ offset u < 86400

/-- One change of the offset at most, near an instant. -/
def OneTransition (instant : Int) : Prop :=
  ∃ transition before after, ∀ u, Near instant u →
    offset u = if u < transition then before else after

/-- The clock shows at no other instant what it shows at this one. -/
def ShownOnce (instant : Int) : Prop :=
  ∀ other, reading offset other = reading offset instant → other = instant

variable {offset} {instant : Int}

/-- Far away the offsets do not matter. -/
theorem reading_far (hbounded : WithinDay offset) {u : Int} (hfar : ¬Near instant u) :
    instant ≤ u ↔ reading offset instant ≤ reading offset u := by
  have hinstant := hbounded instant
  have hu := hbounded u
  unfold Near at hfar
  unfold reading
  omega

theorem reading_near (hbounded : WithinDay offset) (hone : OneTransition offset instant)
    (honce : ShownOnce offset instant) {u : Int} (hnear : Near instant u) :
    instant ≤ u ↔ reading offset instant ≤ reading offset u := by
  obtain ⟨transition, before, after, hpiece⟩ := hone
  have hself := hpiece instant (by unfold Near; omega)
  have hu := hpiece u hnear
  have hboundInstant := hbounded instant
  have hboundU := hbounded u
  unfold Near at hnear
  -- an instant in the other piece that shows the same would be a second one
  have hsecond : ∀ other, Near instant other →
      other + (if other < transition then before else after) = reading offset instant →
      other = instant := by
    intro other hother hsame
    refine honce other ?_
    rw [← hsame, reading, hpiece other hother]
  unfold reading at hsecond ⊢
  by_cases hlt : instant < transition
  · rw [if_pos hlt] at hself
    by_cases hult : u < transition
    · rw [if_pos hult] at hu
      omega
    · rw [if_neg hult] at hu
      have hother := hsecond (instant + before - after) (by unfold Near; omega)
      by_cases hearly : u + after < instant + before
      · rw [if_neg (by omega)] at hother
        have := hother (by omega)
        omega
      · omega
  · rw [if_neg hlt] at hself
    by_cases hult : u < transition
    · rw [if_pos hult] at hu
      have hother := hsecond (instant + after - before) (by unfold Near; omega)
      by_cases hlate : instant + after ≤ u + before
      · rw [if_pos (by omega)] at hother
        have := hother (by omega)
        omega
      · omega
    · rw [if_neg hult] at hu
      omega

/-- The clock reaches the reading at the instant and never falls behind it again. -/
theorem le_iff (hbounded : WithinDay offset) (hone : OneTransition offset instant)
    (honce : ShownOnce offset instant) (u : Int) :
    instant ≤ u ↔ reading offset instant ≤ reading offset u := by
  by_cases hnear : Near instant u
  · exact reading_near hbounded hone honce hnear
  · exact reading_far hbounded hnear

end WallClock
