import Aerobag.Receiver.Weather

/-!
# The month of a report

Equal days of different months are at least 28 days apart. So of the days in the month of the anchor and in
the months beside it, at most one is less than 14 days from the anchor.
-/

open List

namespace Aerobag.Receiver

theorem daysInMonth_bounds (y : Int) (m : Nat) : 28 ≤ daysInMonth y m ∧ daysInMonth y m ≤ 31 := by
  unfold daysInMonth
  split_ifs <;> omega

theorem daysBefore_succ {y : Int} {m : Nat} (h : 1 ≤ m) :
    daysBefore y (m + 1) = daysBefore y m + daysInMonth y m := by
  obtain ⟨m, rfl⟩ := Nat.exists_eq_add_of_le' h
  simp only [daysBefore, range_succ (n := m + 1)]
  simp
  omega

theorem daysBefore_newYear (y : Int) :
    daysBefore (y + 1) 1 = daysBefore y 12 + daysInMonth y 12 := by
  simp [daysBefore, daysInMonth, range_succ]
  split_ifs <;> omega

theorem exists_nextMonth (y : Int) {m : Nat} (h : 1 ≤ m ∧ m ≤ 12) :
    ∃ (y' : Int) (m' : Nat), (1 ≤ m' ∧ m' ≤ 12) ∧ 12 * y' + m' = 12 * y + m + 1 ∧
      daysBefore y' m' = daysBefore y m + daysInMonth y m := by
  rcases Nat.lt_or_ge m 12 with hlt | hge
  · exact ⟨y, m + 1, by omega, by omega, daysBefore_succ h.1⟩
  · obtain rfl : m = 12 := by omega
    exact ⟨y + 1, 1, by omega, by omega, daysBefore_newYear y⟩

theorem daysBefore_le {yr y' : Int} {mn m' : Nat} (h : 1 ≤ mn ∧ mn ≤ 12)
    (h' : 1 ≤ m' ∧ m' ≤ 12) (hlt : 12 * yr + mn < 12 * y' + m') :
    daysBefore yr mn + daysInMonth yr mn ≤ daysBefore y' m' := by
  obtain ⟨n, hn⟩ := Int.le.dest (Int.add_one_le_of_lt hlt)
  induction n generalizing yr mn with
  | zero =>
    obtain ⟨y, m, hm, hnx, hd⟩ := exists_nextMonth yr h
    obtain ⟨rfl, rfl⟩ : y = y' ∧ m = m' := by omega
    exact hd.ge
  | succ n ih =>
    obtain ⟨y, m, hm, hnx, hd⟩ := exists_nextMonth yr h
    have hle := @ih y m hm (by omega) (by omega)
    omega

namespace NaiveDate

variable {dt dt' first : NaiveDate}

theorem days_apart (h : dt.day = dt'.day) (hne : dt ≠ dt') : 28 ≤ (dt.days - dt'.days).natAbs := by
  have hb := daysInMonth_bounds dt.year dt.month
  have hb' := daysInMonth_bounds dt'.year dt'.month
  unfold days
  rcases lt_trichotomy (12 * dt.year + dt.month) (12 * dt'.year + dt'.month) with hlt | heq | hgt
  · have := daysBefore_le dt.month_mem dt'.month_mem hlt
    omega
  · have hm := dt.month_mem
    have hm' := dt'.month_mem
    obtain ⟨hy, hmm⟩ : dt.year = dt'.year ∧ dt.month = dt'.month := by omega
    cases dt
    simp_all
  · have := daysBefore_le dt'.month_mem dt.month_mem hgt
    omega

theorem months_near (h : (dt.days - dt'.days).natAbs ≤ 14) :
    12 * dt.year + dt.month ≤ 12 * dt'.year + dt'.month + 1 := by
  by_contra hlt
  obtain ⟨y, m, hm, hnx, hd⟩ := exists_nextMonth dt'.year dt'.month_mem
  have hle := @daysBefore_le y dt.year m dt.month hm dt.month_mem (by omega)
  have hb := daysInMonth_bounds y m
  have hda := dt'.day_mem
  unfold days at h
  omega

theorem fromYmdOpt_eq_some {y : Int} {m day : Nat} :
    fromYmdOpt y m day = some dt ↔ dt.year = y ∧ dt.month = m ∧ dt.day = day := by
  unfold fromYmdOpt
  constructor
  · split
    · rintro ⟨⟩
      exact ⟨rfl, rfl, rfl⟩
    · nofun
  · rintro ⟨rfl, rfl, rfl⟩
    exact dif_pos ⟨dt.year_mem, dt.month_mem, dt.day_mem⟩

theorem exists_first (d : NaiveDate) : ∃ first, fromYmdOpt d.year d.month 1 = some first := by
  have hb := daysInMonth_bounds d.year d.month
  exact ⟨_, dif_pos ⟨d.year_mem, d.month_mem, by omega⟩⟩

theorem exists_month (h : 12 * dt.year + dt.month ≤ 12 * first.year + first.month + 1)
    (h' : 12 * first.year + first.month ≤ 12 * dt.year + dt.month + 1) :
    ∃ m ∈ [first.previousMonth, some first, first.nextMonth].reduceOption,
      m.year = dt.year ∧ m.month = dt.month := by
  have hm := first.month_mem
  have hm' := dt.month_mem
  obtain ⟨m, hmo⟩ := dt.exists_first
  obtain ⟨hy, hmn, -⟩ := fromYmdOpt_eq_some.1 hmo
  simp only [reduceOption_mem_iff, mem_cons, not_mem_nil, or_false]
  rcases lt_trichotomy (12 * dt.year + dt.month) (12 * first.year + first.month) with hlt | heq | hgt
  · refine ⟨m, .inl ?_, hy, hmn⟩
    rw [← hmo, previousMonth]
    split
    · congr 1 <;> omega
    · congr 1 <;> omega
  · exact ⟨first, .inr (.inl rfl), by omega, by omega⟩
  · refine ⟨m, .inr (.inr ?_), hy, hmn⟩
    rw [← hmo, nextMonth]
    split
    · congr 1 <;> omega
    · congr 1 <;> omega

end NaiveDate

theorem PartialUtc.onDate_eq_some {s : PartialUtc} {d : NaiveDate} {t : DateTime} :
    s.onDate d = some t ↔ (s.hour < 24 ∧ s.minute < 60) ∧ t.date = d ∧
      t.millis = (s.hour * 60 + s.minute) * 60000 := by
  unfold onDate
  constructor
  · split
    · rename_i h
      rintro ⟨⟩
      exact ⟨h, rfl, rfl⟩
    · nofun
  · obtain ⟨d', ms, hlt⟩ := t
    rintro ⟨h, rfl, rfl⟩
    exact dif_pos h

theorem argmin_eq_some_of_lt {α : Type} [DecidableEq α] {xs : List α} {f : α → Nat} {x : α}
    (hx : x ∈ xs)
    (h : ∀ y ∈ xs, y ≠ x → f x < f y) : xs.argmin f = some x := by
  refine argmin_eq_some_iff.2 ⟨hx, fun y hy => ?_, fun y hy hle => ?_⟩
  · by_cases he : y = x
    · rw [he]
    · exact (h y hy he).le
  · by_cases he : y = x
    · rw [he]
    · exact absurd hle (h y hy he).not_ge

end Aerobag.Receiver
