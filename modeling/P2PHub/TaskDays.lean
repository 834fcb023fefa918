import Mathlib.Data.List.Nodup
import Mathlib.Tactic.Ring
import P2PHub.CivilDates

/-!
# The days of a task

`taskDaySet` of `plugins/tasks/src/computations.ts`: the days of the window of a
task, by steps of 24 hours from the time of day at which it starts.  Instants
are counted in milliseconds; `Date.parse` is a parameter, `NaN` being missing,
and what it gives is in the range of dates.
-/

namespace P2PHub.Tasks

def msPerHour : ℤ := 3600000

def msPerDay : ℤ := msPerHour * 24

def dayNumber (instant : ℤ) : ℤ :=
  instant / msPerDay

def timeText (instant : ℤ) : List Char :=
  let time := instant % msPerDay
  paddedDigits 2 (time / msPerHour).toNat ++ ':' :: paddedDigits 2 (time / 60000 % 60).toNat ++
    ':' :: paddedDigits 2 (time / 1000 % 60).toNat ++ '.' :: paddedDigits 3 (time % 1000).toNat

def dateOf (instant : ℤ) : CivilDate :=
  CivilDate.ofDay (dayNumber instant)

def toISOString (instant : ℤ) : List Char :=
  (dateOf instant).text ++ 'T' :: timeText instant ++ ['Z']

example : String.ofList (toISOString 1767308400000) = "2026-01-01T23:00:00.000Z" := by
  decide +kernel

def dayOf (value : List Char) : List Char :=
  value.take 10

structure TaskWindow where
  start : Option String
  finish : Option String

def addDay (days : List (List Char)) (day : List Char) : List (List Char) :=
  if days.contains day then days else days ++ [day]

def addDays (endMs cursor : ℤ) (days : List (List Char)) : List (List Char) :=
  if cursor ≤ endMs then
    addDays endMs (cursor + msPerHour * 24) (addDay days (dayOf (toISOString cursor)))
  else days
termination_by (endMs + 1 - cursor).toNat
decreasing_by
  rw [msPerHour]
  omega

def taskDaySet (parseDate : String → Option ℤ) (task : TaskWindow) : List (List Char) :=
  match task.start.bind parseDate, task.finish.bind parseDate with
  | some startMs, some endMs => if endMs < startMs then [] else addDays endMs startMs []
  | _, _ => []

section

variable {endMs cursor : ℤ} {days : List (List Char)} {day : List Char}

theorem mem_addDay {other : List Char} : other ∈ addDay days day ↔ other ∈ days ∨ other = day := by
  unfold addDay
  split
  · next known =>
      constructor
      · exact .inl
      · rintro (old | rfl)
        · exact old
        · exact List.contains_iff_mem.mp known
  · rw [List.mem_append, List.mem_singleton]

theorem addDay_nodup (unrepeated : days.Nodup) : (addDay days day).Nodup := by
  unfold addDay
  split
  · exact unrepeated
  · next unknown =>
      apply unrepeated.append (List.nodup_singleton day)
      simpa using unknown

/-- The loop visits the instants that are whole days after its start. -/
theorem mem_addDays : day ∈ addDays endMs cursor days ↔ day ∈ days ∨
    ∃ steps : ℕ, cursor + steps * msPerDay ≤ endMs ∧
      day = dayOf (toISOString (cursor + steps * msPerDay)) := by
  induction cursor, days using addDays.induct endMs with
  | case1 cursor days within ih =>
    rw [addDays, if_pos within, ih, mem_addDay, or_assoc]
    apply or_congr_right
    have next (steps : ℕ) : cursor + msPerHour * 24 + steps * msPerDay =
        cursor + (steps + 1 : ℕ) * msPerDay := by
      rw [msPerDay]
      push_cast
      ring
    constructor
    · rintro (rfl | ⟨steps, before, rfl⟩)
      · exact ⟨0, by simpa using within, by simp⟩
      · rw [next] at before ⊢
        exact ⟨steps + 1, before, rfl⟩
    · rintro ⟨steps, before, rfl⟩
      cases steps with
      | zero => exact .inl (by simp)
      | succ steps =>
        rw [← next] at before ⊢
        exact .inr ⟨steps, before, rfl⟩
  | case2 cursor days past =>
    rw [addDays, if_neg past]
    refine (or_iff_left ?_).symm
    rintro ⟨steps, before, -⟩
    have nonneg : 0 ≤ (steps : ℤ) * msPerDay := Int.mul_nonneg (Int.natCast_nonneg steps)
      (by decide)
    omega

end

section

variable {parseDate : String → Option ℤ} {task : TaskWindow} {startMs endMs : ℤ}

theorem mem_taskDaySet (start : task.start.bind parseDate = some startMs)
    (finish : task.finish.bind parseDate = some endMs) (ordered : startMs ≤ endMs)
    {day : List Char} :
    day ∈ taskDaySet parseDate task ↔ ∃ steps : ℕ, startMs + steps * msPerDay ≤ endMs ∧
      day = dayOf (toISOString (startMs + steps * msPerDay)) := by
  simp only [taskDaySet, start, finish, if_neg (not_lt.mpr ordered), mem_addDays, List.not_mem_nil,
    false_or]

theorem dayOf_plain {instant : ℤ} (plain : (dateOf instant).Plain) :
    dayOf (toISOString instant) = (dateOf instant).text := by
  have length := (dateOf instant).text_length
  rw [if_pos plain] at length
  rw [dayOf, toISOString, List.append_assoc, List.take_left' length]

theorem dayNumber_later (steps : ℕ) :
    dayNumber (startMs + steps * msPerDay) = dayNumber startMs + steps :=
  Int.add_mul_ediv_right _ _ (by decide)

/-- The days of a task are those that its window touches exactly when it does
not finish at an earlier time of day than it starts, and no year has more than
four digits. -/
theorem taskDaySet_exact (start : task.start.bind parseDate = some startMs)
    (finish : task.finish.bind parseDate = some endMs) (ordered : startMs ≤ endMs) :
    (∀ day, day ∈ taskDaySet parseDate task ↔
      ∃ instant, startMs ≤ instant ∧ instant ≤ endMs ∧ day = (dateOf instant).text) ↔
    startMs % msPerDay ≤ endMs % msPerDay ∧
      ∀ instant, startMs ≤ instant → instant ≤ endMs → (dateOf instant).Plain := by
  have nonneg (steps : ℕ) : startMs ≤ startMs + steps * msPerDay := by
    have := Int.mul_nonneg (Int.natCast_nonneg steps) (show 0 ≤ msPerDay by decide)
    omega
  simp only [mem_taskDaySet start finish ordered]
  constructor
  · intro exactly
    have plain : ∀ instant, startMs ≤ instant → instant ≤ endMs → (dateOf instant).Plain := by
      intro instant after before
      obtain ⟨steps, -, same⟩ := (exactly _).mpr ⟨instant, after, before, rfl⟩
      by_contra extended
      have length := congrArg List.length same
      rw [CivilDate.text_length, if_neg extended, dayOf, List.length_take] at length
      omega
    refine ⟨?_, plain⟩
    obtain ⟨steps, before, same⟩ := (exactly _).mpr ⟨endMs, ordered, le_refl _, rfl⟩
    rw [dayOf_plain (plain _ (nonneg steps) before)] at same
    have days := CivilDate.text_injective (plain endMs ordered (le_refl _))
      (plain _ (nonneg steps) before) same
    simp only [dayNumber, msPerDay, msPerHour] at days before ⊢
    omega
  · rintro ⟨times, plain⟩ day
    constructor
    · rintro ⟨steps, before, rfl⟩
      exact ⟨_, nonneg steps, before, dayOf_plain (plain _ (nonneg steps) before)⟩
    · rintro ⟨instant, after, before, rfl⟩
      -- The step that starts on the day of the instant.
      have first : dayNumber startMs ≤ dayNumber instant := Int.ediv_le_ediv (by decide) after
      obtain ⟨steps, whole⟩ := Int.eq_ofNat_of_zero_le (sub_nonneg.mpr first)
      have within : startMs + steps * msPerDay ≤ endMs := by
        simp only [dayNumber, msPerDay, msPerHour] at whole times ⊢
        omega
      refine ⟨steps, within, ?_⟩
      have sameDay : dayNumber (startMs + steps * msPerDay) = dayNumber instant := by
        rw [dayNumber_later]
        omega
      rw [dayOf_plain (plain _ (nonneg steps) within), dateOf, dateOf, sameDay]

end

def morningTask : TaskWindow where
  start := some "2026-01-01T08:00:00Z"
  finish := some "2026-01-02T09:00:00Z"

def morningDates (text : String) : Option ℤ :=
  if text = "2026-01-01T08:00:00Z" then some 1767254400000
  else if text = "2026-01-02T09:00:00Z" then some 1767344400000
  else none

theorem taskDaySet_exact_morning : (taskDaySet morningDates morningTask).length = 2 ∧
    ∀ day, day ∈ taskDaySet morningDates morningTask ↔ ∃ instant, 1767254400000 ≤ instant ∧
      instant ≤ 1767344400000 ∧ day = (dateOf instant).text := by
  refine ⟨by decide +kernel, (taskDaySet_exact rfl rfl (by decide)).mpr ⟨by decide, ?_⟩⟩
  intro instant after before
  have days : dayNumber instant = 20454 ∨ dayNumber instant = 20455 := by
    simp only [dayNumber, msPerDay, msPerHour]
    omega
  rcases days with first | second
  · rw [dateOf, first]
    decide
  · rw [dateOf, second]
    decide

/-- From eleven in the evening to one in the morning. -/
def nightTask : TaskWindow where
  start := some "2026-01-01T23:00:00Z"
  finish := some "2026-01-02T01:00:00Z"

def nightDates (text : String) : Option ℤ :=
  if text = "2026-01-01T23:00:00Z" then some 1767308400000
  else if text = "2026-01-02T01:00:00Z" then some 1767315600000
  else none

theorem night_misses_day : ¬∀ (parseDate : String → Option ℤ) (task : TaskWindow)
    (startMs endMs : ℤ), task.start.bind parseDate = some startMs →
      task.finish.bind parseDate = some endMs → startMs ≤ endMs →
      ∀ day, day ∈ taskDaySet parseDate task ↔
        ∃ instant, startMs ≤ instant ∧ instant ≤ endMs ∧ day = (dateOf instant).text := by
  intro claimed
  have start : nightTask.start.bind nightDates = some 1767308400000 := rfl
  have finish : nightTask.finish.bind nightDates = some 1767315600000 := rfl
  have touched := claimed nightDates nightTask _ _ start finish (by decide)
    (dateOf 1767315600000).text
  obtain ⟨steps, before, same⟩ := (mem_taskDaySet start finish (by decide)).mp
    (touched.mpr ⟨1767315600000, by decide, by decide, rfl⟩)
  have none : steps = 0 := by
    simp only [msPerDay, msPerHour] at before
    omega
  subst none
  revert same
  decide +kernel

end P2PHub.Tasks
