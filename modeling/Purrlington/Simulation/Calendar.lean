import Mathlib.Data.Rat.Floor
import Mathlib.Tactic.NormNum
import Mathlib.Tactic.Ring

/-!
# Simulation: the days of the game

The restaurant, the hotel and the frontend count the days that have passed since one start, at one
speed.  Instants are integers (the restaurant's in nanoseconds, the others' in milliseconds), and
the arithmetic in between is exact.

* `truncate_eq_floor_iff`   dropping the fraction is rounding down from 0 on, and on integers;
* `gameDay_eq`, `computeCurrentDay_eq`   both calendars divide the same game time by a day;
* `one_calendar_iff`        when the three agree;
* `day_before_start`        a millisecond before the start.
-/

namespace Simulation

/-! ## the restaurant -/

/-- `Config`; its start in nanoseconds -/
structure Config where
  simulationStart : ℤ
  gameSpeed : ℚ

/-- `int64(x)` of a float drops the fraction -/
def truncate (x : ℚ) : ℤ := if 0 ≤ x then ⌊x⌋ else ⌈x⌉

/-- `time.Since` counts nanoseconds -/
def Config.gameElapsedSeconds (c : Config) (now : ℤ) : ℚ :=
  ((now - c.simulationStart : ℤ) : ℚ) / 1000000000 * c.gameSpeed

def Config.gameDay (c : Config) (now : ℤ) : ℤ := truncate (c.gameElapsedSeconds now / 86400)

/-! ## the hotel -/

def SECONDS_PER_DAY : ℚ := 86400

/-- `startTime` is what `Date.parse` reads -/
def computeElapsedGameSeconds (nowMs startTime : ℤ) (gameSpeed : ℚ) : ℚ :=
  let elapsedRealSeconds : ℚ := ((nowMs - startTime : ℤ) : ℚ) / 1000
  elapsedRealSeconds * gameSpeed

def computeCurrentDay (nowMs startTime : ℤ) (gameSpeed : ℚ) : ℤ :=
  ⌊computeElapsedGameSeconds nowMs startTime gameSpeed / SECONDS_PER_DAY⌋

/-! ## the frontend -/

/-- `anchor` and `GAME_SPEED` are constants of the module -/
def getCurrentSimulationDay (anchor : ℤ) (gameSpeed : ℚ) (now : ℤ) : ℤ :=
  let elapsedRealSeconds : ℚ := ((now - anchor : ℤ) : ℚ) / 1000
  let elapsedGameSeconds := elapsedRealSeconds * gameSpeed
  ⌊elapsedGameSeconds / 86400⌋

/-! ## rounding -/

theorem truncate_of_nonneg {x : ℚ} (h : 0 ≤ x) : truncate x = ⌊x⌋ := if_pos h

theorem truncate_intCast (z : ℤ) : truncate z = z := by
  unfold truncate
  split
  · exact Int.floor_intCast z
  · exact Int.ceil_intCast z

theorem truncate_of_neg {x : ℚ} (h : x < 0) (hx : (⌊x⌋ : ℚ) ≠ x) : truncate x = ⌊x⌋ + 1 := by
  have hlt : (⌊x⌋ : ℚ) < x := lt_of_le_of_ne (Int.floor_le x) hx
  have hle : x ≤ ((⌊x⌋ + 1 : ℤ) : ℚ) := by
    rw [Int.cast_add, Int.cast_one]
    exact (Int.lt_floor_add_one x).le
  have h₁ : ⌈x⌉ ≤ ⌊x⌋ + 1 := Int.ceil_le.mpr hle
  have h₂ : ⌊x⌋ < ⌈x⌉ := Int.lt_ceil.mpr hlt
  rw [truncate, if_neg (not_le.mpr h)]
  omega

theorem truncate_eq_floor_iff (x : ℚ) : truncate x = ⌊x⌋ ↔ 0 ≤ x ∨ (⌊x⌋ : ℚ) = x := by
  constructor
  · intro h
    by_contra hne
    obtain ⟨hneg, hx⟩ := not_or.mp hne
    rw [truncate_of_neg (not_le.mp hneg) hx] at h
    omega
  · rintro (h | h)
    · exact truncate_of_nonneg h
    · rw [← h, truncate_intCast, Int.floor_intCast]

theorem floor_div_eq_iff (z : ℤ) {d : ℤ} (hd : 0 < d) :
    ((⌊(z : ℚ) / d⌋ : ℤ) : ℚ) = (z : ℚ) / d ↔ d ∣ z := by
  have hd' : (d : ℚ) ≠ 0 := Int.cast_ne_zero.mpr hd.ne'
  constructor
  · intro h
    have e : (z : ℚ) = ((d * ⌊(z : ℚ) / d⌋ : ℤ) : ℚ) := by
      rw [Int.cast_mul, h, mul_div_cancel₀ _ hd']
    exact ⟨_, Int.cast_injective e⟩
  · rintro ⟨k, rfl⟩
    rw [Int.cast_mul, mul_div_cancel_left₀ _ hd', Int.floor_intCast]

/-! ## one game time, two roundings -/

section
variable (nowMs startMs : ℤ) (speed : ℕ)

/-- the game's milliseconds that have passed, of which a day has 86400000 -/
def gameMs : ℤ := (nowMs - startMs) * speed

theorem gameDay_eq : Config.gameDay ⟨startMs * 1000000, speed⟩ (nowMs * 1000000) =
    truncate ((gameMs nowMs startMs speed : ℚ) / (86400000 : ℤ)) := by
  rw [Config.gameDay, Config.gameElapsedSeconds, gameMs]
  congr 1
  push_cast
  ring

theorem computeCurrentDay_eq : computeCurrentDay nowMs startMs speed =
    ⌊(gameMs nowMs startMs speed : ℚ) / (86400000 : ℤ)⌋ := by
  rw [computeCurrentDay, computeElapsedGameSeconds, SECONDS_PER_DAY, gameMs]
  congr 1
  push_cast
  ring

/-- the frontend's function is the hotel's -/
theorem getCurrentSimulationDay_eq :
    getCurrentSimulationDay startMs speed nowMs = computeCurrentDay nowMs startMs speed := rfl

theorem div_day_nonneg_iff :
    0 ≤ (gameMs nowMs startMs speed : ℚ) / (86400000 : ℤ) ↔ 0 ≤ gameMs nowMs startMs speed := by
  have h : (0 : ℚ) < (86400000 : ℤ) := by norm_num
  rw [le_div_iff₀ h, zero_mul, Int.cast_nonneg_iff]

/-- **When the services share a calendar.**  The three days are one exactly from the start on, and
before it whenever a whole number of game days is left. -/
theorem one_calendar_iff (hs : 0 < speed) :
    (Config.gameDay ⟨startMs * 1000000, speed⟩ (nowMs * 1000000) =
        computeCurrentDay nowMs startMs speed ∧
      computeCurrentDay nowMs startMs speed = getCurrentSimulationDay startMs speed nowMs) ↔
      startMs ≤ nowMs ∨ 86400000 ∣ (nowMs - startMs) * speed := by
  have hs' : (0 : ℤ) < speed := by exact_mod_cast hs
  have hsign : 0 ≤ gameMs nowMs startMs speed ↔ startMs ≤ nowMs := by
    rw [gameMs, mul_nonneg_iff_of_pos_right hs']
    omega
  rw [getCurrentSimulationDay_eq, and_iff_left rfl, gameDay_eq, computeCurrentDay_eq,
    truncate_eq_floor_iff, div_day_nonneg_iff, floor_div_eq_iff _ (by norm_num), hsign]
  rfl

end

theorem one_calendar_day_one :
    (Config.gameDay ⟨0 * 1000000, (300 : ℕ)⟩ (288000 * 1000000) = computeCurrentDay 288000 0 (300 : ℕ) ∧
      computeCurrentDay 288000 0 (300 : ℕ) = getCurrentSimulationDay 0 (300 : ℕ) 288000) ↔
      (0 : ℤ) ≤ 288000 ∨ 86400000 ∣ ((288000 : ℤ) - 0) * (300 : ℕ) :=
  one_calendar_iff 288000 0 300 (by decide)

/-- **Before the start the restaurant is a day ahead.**  One millisecond before it, at the speed of
the configuration. -/
theorem day_before_start :
    Config.gameDay ⟨0 * 1000000, (300 : ℕ)⟩ (-1 * 1000000) = 0 ∧
      computeCurrentDay (-1) 0 (300 : ℕ) = -1 ∧ getCurrentSimulationDay 0 (300 : ℕ) (-1) = -1 := by
  decide +kernel

end Simulation
