import IDoris.Ledger.Replay
import IDoris.Ledger.Reads

/-!
# Reservations that no later call tells apart

From an instant on, a reservation that is due holds nothing, whether a sweep has
marked it or not and whatever its deadline was. A row nobody knows the id of is
not found at all.
-/
namespace Ledger

open Bounded Transaction

variable {c nowMs : I64} {row row' : ReservationRow} {rows rows' : List ReservationRow}
  {hidden : List String} {id : String}

/-- A reservation that holds its amount beyond the instant. -/
def ReservationRow.live (c : I64) (row : ReservationRow) : Prop :=
  row.status = .active ∧ c.val < row.expiresAtMs.val

instance : Decidable (row.live c) := inferInstanceAs (Decidable (_ ∧ _))

/-- A reservation as calls after the instant see it. -/
def ReservationRow.seen (c : I64) (row : ReservationRow) : ReservationRow :=
  if row.live c then row
  else { row with
    status := if row.status = .active then .expired else row.status
    expiresAtMs := I64.lit 0 }

theorem ReservationRow.seen_of_live (h : row.live c) : row.seen c = row := if_pos h

theorem ReservationRow.live_seen : (row.seen c).live c ↔ row.live c := by
  by_cases h : row.live c
  · rw [seen_of_live h]
  · simp only [h, iff_false, seen, if_false]
    rintro ⟨hactive, -⟩
    by_cases hstatus : row.status = .active <;> simp [hstatus] at hactive

theorem ReservationRow.seen_of_not_live (h : ¬row.live c) :
    row.seen c = { row with
      status := if row.status = .active then .expired else row.status
      expiresAtMs := I64.lit 0 } := if_neg h

/-- The view of a row changes its status and its deadline only. -/
theorem ReservationRow.seen_eq (c : I64) (row : ReservationRow) :
    row.seen c = { row with
      status := (row.seen c).status, expiresAtMs := (row.seen c).expiresAtMs } := by
  unfold seen
  split <;> rfl

@[simp] theorem ReservationRow.seen_id : (row.seen c).id = row.id := by rw [seen_eq]

/-- Two rows that look alike differ at most in the status and the deadline. -/
theorem ReservationRow.eq_of_seen (h : row.seen c = row'.seen c) :
    row' = { row with status := row'.status, expiresAtMs := row'.expiresAtMs } := by
  rw [seen_eq c row, seen_eq c row', ReservationRow.mk.injEq] at h
  obtain ⟨hid, hscope, hperiod, htenantPeriod, hreserved, -, hcreated, -, hcost⟩ := h
  cases row'
  simp only at hid hscope hperiod htenantPeriod hreserved hcreated hcost
  simp [hid, hscope, hperiod, htenantPeriod, hreserved, hcreated, hcost]

theorem ReservationRow.status_seen (c : I64) (row : ReservationRow) {status : ReservationStatus}
    (h : status = .released ∨ status = .settled) :
    (row.seen c).status = status ↔ row.status = status := by
  by_cases hlive : row.live c
  · rw [seen_of_live hlive]
  · rw [seen_of_not_live hlive]
    obtain rfl | rfl := h <;> by_cases hactive : row.status = .active <;> simp [hactive]

theorem ReservationRow.eq_of_live (hlive : row.live c) (h : row.seen c = row'.seen c) :
    row' = row := by
  have hlive' : row'.live c := by
    rw [← live_seen, ← h, live_seen]
    exact hlive
  rw [seen_of_live hlive, seen_of_live hlive'] at h
  exact h.symm

/-- A row that is over by the instant without a charge and without a release. -/
def ReservationRow.gone (c : I64) (row : ReservationRow) : Prop :=
  row.status = .expired ∨ row.status = .active ∧ row.expiresAtMs.val ≤ c.val

theorem ReservationRow.gone.not_live (h : row.gone c) : ¬row.live c := by
  rintro ⟨hactive, hahead⟩
  obtain hexpired | ⟨-, hdue⟩ := h
  · rw [hexpired] at hactive
    cases hactive
  · omega

/-- The reservations as calls after the instant see them that know none of the hidden ids. -/
def view (c : I64) (hidden : List String) (rows : List ReservationRow) : List ReservationRow :=
  (rows.filter fun row => decide (row.id ∉ hidden)).map (ReservationRow.seen c)

/-- Every hidden row is over. -/
def Gone (c : I64) (hidden : List String) (rows : List ReservationRow) : Prop :=
  ∀ row ∈ rows, row.id ∈ hidden → row.gone c

/-- A selection of live rows is one of the view. -/
theorem Gone.filter (h : Gone c hidden rows) {q : ReservationRow → Bool}
    (hq : ∀ row, q row = true → row.live c) : rows.filter q = (view c hidden rows).filter q := by
  induction rows with
  | nil => rfl
  | cons row rest ih =>
    have hrest := ih fun other hother => h other (List.mem_cons_of_mem _ hother)
    by_cases hlive : row.live c
    · have hvisible : row.id ∉ hidden := fun hid =>
        (h row List.mem_cons_self hid).not_live hlive
      have hview : view c hidden (row :: rest) = row :: view c hidden rest := by
        simp [view, hvisible, ReservationRow.seen_of_live hlive]
      rw [hview, List.filter_cons, List.filter_cons, hrest]
    · have hnot : ¬q row = true := fun htrue => hlive (hq row htrue)
      have hseen : ¬q (row.seen c) = true := fun htrue =>
        hlive (ReservationRow.live_seen.mp (hq _ htrue))
      rw [List.filter_cons_of_neg hnot, hrest]
      by_cases hid : row.id ∈ hidden
      · simp [view, hid]
      · simp [view, hid, hseen]

theorem lookup_view (hid : id ∉ hidden) :
    Table.lookup ReservationRow.id id (view c hidden rows) =
      (Table.lookup ReservationRow.id id rows).map (ReservationRow.seen c) := by
  rw [view, Table.lookup_map fun _ => ReservationRow.seen_id]
  congr 1
  unfold Table.lookup
  rw [List.find?_filter]
  congr 1
  funext row
  by_cases h : row.id = id
  · simp [h, hid]
  · simp [h]

/-- A sweep of the rows is a change of the view. -/
theorem view_sweep (due : ReservationRow → Bool) :
    view c hidden (rows.map fun row => row.expireIf (due row)) =
      (view c hidden rows).map fun row =>
        if row.live c then (row.expireIf (due row)).seen c else row := by
  have hrow : ∀ row : ReservationRow, (row.expireIf (due row)).seen c =
      if (row.seen c).live c then ((row.seen c).expireIf (due (row.seen c))).seen c
      else row.seen c := by
    intro row
    by_cases hlive : row.live c
    · rw [ReservationRow.seen_of_live hlive, if_pos hlive]
    · rw [if_neg (fun h => hlive (ReservationRow.live_seen.mp h))]
      have hdead : ¬(row.expireIf (due row)).live c := by
        rintro ⟨hactive, hahead⟩
        exact hlive ⟨(ReservationRow.expireIf_active.mp hactive).1, hahead⟩
      rw [ReservationRow.seen_of_not_live hlive, ReservationRow.seen_of_not_live hdead]
      by_cases hactive : row.status = .active
      · cases hdue : due row <;> simp [ReservationRow.expireIf, hactive]
      · simp [ReservationRow.expireIf_of_not_active hactive]
  induction rows with
  | nil => rfl
  | cons row rest ih =>
    by_cases hid : row.id ∈ hidden
    · simpa [view, hid] using ih
    · simp only [view, List.map_cons, List.filter_cons, ReservationRow.expireIf_id, hid,
        not_false_eq_true, decide_true, if_true, List.cons.injEq] at ih ⊢
      exact ⟨hrow row, ih⟩

/-- An update of a row that is not hidden is an update of the view. -/
theorem view_update (hid : id ∉ hidden) {f g : ReservationRow → ReservationRow}
    (hf : ∀ row, (f row).id = row.id)
    (hg : ∀ row ∈ rows, row.id = id → (f row).seen c = g (row.seen c)) :
    view c hidden (Table.update ReservationRow.id id f rows) =
      Table.update ReservationRow.id id g (view c hidden rows) := by
  induction rows with
  | nil => rfl
  | cons row rest ih =>
    have hrest := ih fun other hother => hg other (List.mem_cons_of_mem _ hother)
    by_cases hkey : row.id = id
    · have hrow := hg row List.mem_cons_self hkey
      have hvisible : row.id ∉ hidden := hkey ▸ hid
      simp only [view, Table.update, List.map_cons, hkey, if_true, List.filter_cons, hf row, hid,
        not_false_eq_true, decide_true, ReservationRow.seen_id, List.cons.injEq] at hrest ⊢
      exact ⟨hrow, hrest⟩
    · by_cases hhidden : row.id ∈ hidden
      · simpa [view, Table.update, hkey, hhidden] using hrest
      · simpa [view, Table.update, hkey, hhidden] using hrest

/-- Two reservation tables that calls after the instant do not tell apart. -/
structure RowsAlike (c : I64) (hidden : List String) (rows rows' : List ReservationRow) : Prop where
  view : view c hidden rows = view c hidden rows'
  gone : Gone c hidden rows
  gone' : Gone c hidden rows'

theorem RowsAlike.filter (h : RowsAlike c hidden rows rows') {q : ReservationRow → Bool}
    (hq : ∀ row, q row = true → row.live c) : rows'.filter q = rows.filter q := by
  rw [h.gone.filter hq, h.gone'.filter hq, h.view]

theorem RowsAlike.any (h : RowsAlike c hidden rows rows') {q : ReservationRow → Bool}
    (hq : ∀ row, q row = true → row.live c) : rows'.any q = rows.any q := by
  have hany : ∀ rows : List ReservationRow, rows.any q = (rows.filter q).any fun _ => true := by
    intro rows
    rw [List.any_filter]
    simp
  rw [hany rows, hany rows', h.filter hq]

theorem RowsAlike.lookup (h : RowsAlike c hidden rows rows') (hid : id ∉ hidden) :
    (Table.lookup ReservationRow.id id rows).map (ReservationRow.seen c) =
      (Table.lookup ReservationRow.id id rows').map (ReservationRow.seen c) := by
  rw [← lookup_view hid, ← lookup_view hid, h.view]

theorem Gone.sweep (h : Gone c hidden rows) (due : ReservationRow → Bool) :
    Gone c hidden (rows.map fun row => row.expireIf (due row)) := by
  intro row hrow hid
  obtain ⟨old, hold, rfl⟩ := List.mem_map.mp hrow
  obtain hexpired | ⟨hactive, hdue⟩ := h old hold hid
  · exact .inl (ReservationRow.expireIf_expired.mpr (.inl hexpired))
  · cases hsweep : due old with
    | true => exact .inl (ReservationRow.expireIf_expired.mpr (.inr ⟨hactive, rfl⟩))
    | false => exact .inr ⟨ReservationRow.expireIf_active.mpr ⟨hactive, rfl⟩, hdue⟩

theorem RowsAlike.sweep (h : RowsAlike c hidden rows rows') (due : ReservationRow → Bool) :
    RowsAlike c hidden (rows.map fun row => row.expireIf (due row))
      (rows'.map fun row => row.expireIf (due row)) :=
  ⟨by rw [view_sweep, view_sweep, h.view], h.gone.sweep due, h.gone'.sweep due⟩

theorem Gone.append (h : Gone c hidden rows) (hid : row.id ∉ hidden) :
    Gone c hidden (rows ++ [row]) := by
  intro other hother hhidden
  obtain hold | hnew := List.mem_append.mp hother
  · exact h other hold hhidden
  · rw [List.mem_singleton.mp hnew] at hhidden
    exact absurd hhidden hid

theorem RowsAlike.append (h : RowsAlike c hidden rows rows') (hid : row.id ∉ hidden) :
    RowsAlike c hidden (rows ++ [row]) (rows' ++ [row]) := by
  have happend : ∀ rows, Ledger.view c hidden (rows ++ [row]) =
      Ledger.view c hidden rows ++ [row.seen c] := by
    intro rows
    simp [Ledger.view, hid]
  exact ⟨by rw [happend, happend, h.view], h.gone.append hid, h.gone'.append hid⟩

theorem Gone.update (h : Gone c hidden rows) (hid : id ∉ hidden)
    {f : ReservationRow → ReservationRow} (hf : ∀ row, (f row).id = row.id) :
    Gone c hidden (Table.update ReservationRow.id id f rows) := by
  intro row hrow hhidden
  obtain ⟨old, hold, rfl⟩ := Table.mem_update.mp hrow
  by_cases hkey : old.id = id
  · rw [if_pos hkey, hf, hkey] at hhidden
    exact absurd hhidden hid
  · rw [if_neg hkey] at hhidden ⊢
    exact h old hold hhidden

theorem RowsAlike.update (h : RowsAlike c hidden rows rows') (hid : id ∉ hidden)
    {f g : ReservationRow → ReservationRow} (hf : ∀ row, (f row).id = row.id)
    (hg : ∀ row, row ∈ rows ∨ row ∈ rows' → row.id = id → (f row).seen c = g (row.seen c)) :
    RowsAlike c hidden (Table.update ReservationRow.id id f rows)
      (Table.update ReservationRow.id id f rows') := by
  refine ⟨?_, h.gone.update hid hf, h.gone'.update hid hf⟩
  rw [view_update hid hf fun row hrow => hg row (.inl hrow),
    view_update hid hf fun row hrow => hg row (.inr hrow), h.view]

/-- Two ledger files that calls after the instant do not tell apart. -/
def Alike (c : I64) (hidden : List String) (db db' : Db) : Prop :=
  ∃ rows, db' = { db with reservations := rows } ∧ RowsAlike c hidden db.reservations rows

section Statements

variable {db : Db} {scope : BudgetScope} {tenantId period : String}

theorem live_of_counts (hle : c.val ≤ nowMs.val) (h : row.counts nowMs = true) : row.live c := by
  obtain ⟨hactive, hahead⟩ := ReservationRow.counts_iff.mp h
  exact ⟨hactive, by omega⟩

theorem RowsAlike.activeReservedFor (h : RowsAlike c hidden db.reservations rows)
    (hle : c.val ≤ nowMs.val) :
    activeReservedFor { db with reservations := rows } scope period nowMs =
      activeReservedFor db scope period nowMs := by
  have hfilter := h.filter (q := fun row => row.countsForScope scope period nowMs) fun row hrow =>
    live_of_counts hle (Bool.and_eq_true_iff.mp hrow).2
  simp only [Ledger.activeReservedFor, hfilter]

theorem RowsAlike.tenantActiveReservedFor (h : RowsAlike c hidden db.reservations rows)
    (hle : c.val ≤ nowMs.val) :
    tenantActiveReservedFor { db with reservations := rows } tenantId period nowMs =
      tenantActiveReservedFor db tenantId period nowMs := by
  have hfilter := h.filter (q := fun row => row.countsForTenant tenantId period nowMs)
    fun row hrow => live_of_counts hle (Bool.and_eq_true_iff.mp hrow).2
  simp only [Ledger.tenantActiveReservedFor, hfilter]

theorem RowsAlike.hasActiveForScope (h : RowsAlike c hidden db.reservations rows)
    (hle : c.val ≤ nowMs.val) :
    hasActiveReservationsForScope { db with reservations := rows } scope nowMs =
      hasActiveReservationsForScope db scope nowMs :=
  h.any fun _ hrow => live_of_counts hle (Bool.and_eq_true_iff.mp hrow).2

theorem RowsAlike.hasActiveForTenant (h : RowsAlike c hidden db.reservations rows)
    (hle : c.val ≤ nowMs.val) :
    hasActiveReservationsForTenant { db with reservations := rows } tenantId nowMs =
      hasActiveReservationsForTenant db tenantId nowMs :=
  h.any fun _ hrow => live_of_counts hle (Bool.and_eq_true_iff.mp hrow).2

/-- The select of a reservation finds rows that look alike. -/
theorem RowsAlike.findReservation (h : RowsAlike c hidden db.reservations rows)
    (hid : id ∉ hidden) :
    Agree Eq (fun row row' => Table.lookup ReservationRow.id id db.reservations = some row ∧
        Table.lookup ReservationRow.id id rows = some row' ∧ row.seen c = row'.seen c)
      (findReservation db tenantId id)
      (findReservation { db with reservations := rows } tenantId id) := by
  have hlookup := h.lookup hid
  unfold Ledger.findReservation
  cases hfound : Table.lookup ReservationRow.id id db.reservations with
  | none =>
    rw [hfound, Option.map_none, eq_comm, Option.map_eq_none_iff] at hlookup
    simp only [hlookup]
    exact .error rfl
  | some row =>
    rw [hfound, Option.map_some, eq_comm, Option.map_eq_some_iff] at hlookup
    obtain ⟨row', hfound', hseen⟩ := hlookup
    have hscope : row'.scope = row.scope := by rw [ReservationRow.eq_of_seen hseen.symm]
    simp only [hfound', hscope]
    by_cases htenant : row.scope.tenantId = tenantId
    · rw [if_pos htenant, if_pos htenant]
      exact .ok ⟨rfl, rfl, hseen.symm⟩
    · rw [if_neg htenant, if_neg htenant]
      exact .error rfl

end Statements

end Ledger
