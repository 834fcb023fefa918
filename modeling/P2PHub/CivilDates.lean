import Mathlib.Algebra.Group.Nat.Defs
import Mathlib.Data.List.Basic
import Mathlib.Order.Basic

/-!
# Civil dates

The Gregorian calendar by the number of a day, counted from 1970, and the texts
of dates as ISO 8601 has them.  Years outside of 0 to 9999 have a sign and six
digits.
-/

namespace P2PHub

/-- A day in a year that begins in March, so that a leap day is the last one. -/
structure MarchDate where
  year : ℤ
  ordinal : ℤ

/-- By cycles of 400 years, centuries, cycles of four years, and years. -/
def MarchDate.ofDay (day : ℤ) : MarchDate :=
  let cycle := (day + 719468) % 146097
  let century := min (cycle / 36524) 3
  let rest := cycle - 36524 * century
  let year := min (rest % 1461 / 365) 3
  ⟨400 * ((day + 719468) / 146097) + 100 * century + 4 * (rest / 1461) + year,
    rest % 1461 - 365 * year⟩

def MarchDate.toDay (date : MarchDate) : ℤ :=
  146097 * (date.year / 400) + 36524 * (date.year % 400 / 100) + 1461 * (date.year % 100 / 4) +
    365 * (date.year % 4) + date.ordinal - 719468

structure CivilDate where
  year : ℤ
  month : ℤ
  day : ℤ
  deriving DecidableEq, Repr

def MarchDate.civil (date : MarchDate) : CivilDate :=
  let month := (5 * date.ordinal + 2) / 153
  { year := if month < 10 then date.year else date.year + 1
    month := if month < 10 then month + 3 else month - 9
    day := date.ordinal - (153 * month + 2) / 5 + 1 }

def CivilDate.ofDay (day : ℤ) : CivilDate :=
  (MarchDate.ofDay day).civil

example : CivilDate.ofDay 19782 = ⟨2024, 2, 29⟩ := by decide

theorem MarchDate.ordinal_bounds (day : ℤ) :
    0 ≤ (MarchDate.ofDay day).ordinal ∧ (MarchDate.ofDay day).ordinal ≤ 365 := by
  simp only [ofDay]
  omega

theorem MarchDate.toDay_ofDay (day : ℤ) : (MarchDate.ofDay day).toDay = day := by
  have digits (cycles century leaps year : ℤ) (centuries : 0 ≤ century ∧ century ≤ 3)
      (leap : 0 ≤ leaps ∧ leaps ≤ 24) (years : 0 ≤ year ∧ year ≤ 3) :
      (400 * cycles + 100 * century + 4 * leaps + year) / 400 = cycles ∧
      (400 * cycles + 100 * century + 4 * leaps + year) % 400 / 100 = century ∧
      (400 * cycles + 100 * century + 4 * leaps + year) % 100 / 4 = leaps ∧
      (400 * cycles + 100 * century + 4 * leaps + year) % 4 = year := by
    omega
  simp only [ofDay, toDay]
  generalize cycleEq : (day + 719468) % 146097 = cycle
  generalize centuryEq : min (cycle / 36524) 3 = century
  generalize restEq : cycle - 36524 * century = rest
  generalize yearEq : min (rest % 1461 / 365) 3 = year
  obtain ⟨cycles, centuries, leaps, years⟩ := digits ((day + 719468) / 146097) century (rest / 1461)
    year (by omega) (by omega) (by omega)
  omega

theorem MarchDate.civil_injective {first second : MarchDate}
    (firstOrdinal : 0 ≤ first.ordinal ∧ first.ordinal ≤ 365)
    (secondOrdinal : 0 ≤ second.ordinal ∧ second.ordinal ≤ 365)
    (same : first.civil = second.civil) : first = second := by
  obtain ⟨year, ordinal⟩ := first
  obtain ⟨otherYear, otherOrdinal⟩ := second
  obtain ⟨sameYear, sameMonth, sameDay⟩ := CivilDate.mk.inj same
  dsimp only at firstOrdinal secondOrdinal sameYear sameMonth sameDay
  congr 1
  · split at sameYear <;> omega
  · omega

theorem CivilDate.ofDay_injective {first second : ℤ}
    (same : CivilDate.ofDay first = CivilDate.ofDay second) : first = second := by
  have march := MarchDate.civil_injective (MarchDate.ordinal_bounds first)
    (MarchDate.ordinal_bounds second) same
  rw [← MarchDate.toDay_ofDay first, march, MarchDate.toDay_ofDay]

theorem CivilDate.ofDay_bounds (day : ℤ) :
    (0 < (CivilDate.ofDay day).month ∧ (CivilDate.ofDay day).month ≤ 12) ∧
      0 < (CivilDate.ofDay day).day ∧ (CivilDate.ofDay day).day ≤ 31 := by
  have bounds := MarchDate.ordinal_bounds day
  simp only [ofDay, MarchDate.civil]
  constructor
  · split <;> omega
  · omega

/-- The last decimal digits of a number, as many as are asked for. -/
def paddedDigits : ℕ → ℕ → List Char
  | 0, _ => []
  | width + 1, number => paddedDigits width (number / 10) ++ [Nat.digitChar (number % 10)]

@[simp]
theorem length_paddedDigits (width number : ℕ) : (paddedDigits width number).length = width := by
  induction width generalizing number with
  | zero => rfl
  | succ width ih => simp [paddedDigits, ih]

theorem digitChar_injective :
    ∀ first < 10, ∀ second < 10, Nat.digitChar first = Nat.digitChar second → first = second := by
  decide

theorem paddedDigits_injective {width first second : ℕ} (firstFits : first < 10 ^ width)
    (secondFits : second < 10 ^ width)
    (same : paddedDigits width first = paddedDigits width second) : first = second := by
  induction width generalizing first second with
  | zero => omega
  | succ width ih =>
    obtain ⟨higher, lowest⟩ := List.append_inj' same rfl
    have quotient := ih (by rw [Nat.pow_succ] at firstFits; omega)
      (by rw [Nat.pow_succ] at secondFits; omega) higher
    have remainder := digitChar_injective _ (Nat.mod_lt _ (by decide)) _
      (Nat.mod_lt _ (by decide)) (List.singleton_inj.mp lowest)
    omega

def CivilDate.Plain (date : CivilDate) : Prop :=
  0 ≤ date.year ∧ date.year ≤ 9999

instance (date : CivilDate) : Decidable date.Plain :=
  inferInstanceAs (Decidable (_ ∧ _))

def CivilDate.yearText (date : CivilDate) : List Char :=
  if date.Plain then paddedDigits 4 date.year.toNat
  else (if date.year < 0 then '-' else '+') :: paddedDigits 6 date.year.natAbs

def CivilDate.text (date : CivilDate) : List Char :=
  date.yearText ++ '-' :: paddedDigits 2 date.month.toNat ++ '-' :: paddedDigits 2 date.day.toNat

theorem CivilDate.text_length (date : CivilDate) :
    date.text.length = if date.Plain then 10 else 13 := by
  unfold text yearText
  split <;> simp

theorem CivilDate.text_injective {first second : ℤ} (firstPlain : (ofDay first).Plain)
    (secondPlain : (ofDay second).Plain) (same : (ofDay first).text = (ofDay second).text) :
    first = second := by
  simp only [text, yearText, if_pos firstPlain, if_pos secondPlain] at same
  obtain ⟨front, days⟩ := List.append_inj same (by simp)
  obtain ⟨years, months⟩ := List.append_inj front (by simp)
  obtain ⟨firstMonth, firstDay⟩ := ofDay_bounds first
  obtain ⟨secondMonth, secondDay⟩ := ofDay_bounds second
  have year := paddedDigits_injective (by have := firstPlain.2; omega)
    (by have := secondPlain.2; omega) years
  have month := paddedDigits_injective (by omega) (by omega) (List.cons.inj months).2
  have day := paddedDigits_injective (by omega) (by omega) (List.cons.inj days).2
  apply ofDay_injective
  have sameYear : (ofDay first).year = (ofDay second).year := by
    have := firstPlain.1
    have := secondPlain.1
    omega
  have sameMonth : (ofDay first).month = (ofDay second).month := by omega
  have sameDay : (ofDay first).day = (ofDay second).day := by omega
  cases firstDate : ofDay first
  cases secondDate : ofDay second
  simp_all

end P2PHub
