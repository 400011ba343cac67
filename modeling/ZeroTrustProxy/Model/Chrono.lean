import Mathlib.Algebra.Order.Ring.Int

/-!
The part of `chrono` the proxy computes with. A `DateTime<Utc>` is an integer,
the nanoseconds since the epoch, and so is a `Duration`. The conversions of a
duration to coarser units truncate toward zero, while the calendar reads the
time of day off the whole seconds below the instant.
-/

namespace ZeroTrustProxy

namespace Duration

/-- Nanoseconds in a second. -/
def second : Int := 1000000000

def seconds (n : Int) : Int := n * second

def minutes (n : Int) : Int := seconds (n * 60)

def hours (n : Int) : Int := seconds (n * 3600)

/-- `Duration::minutes` and `Duration::hours` panic on a count of seconds
whose milliseconds leave `i64`. -/
def inBounds (secs : Int) : Bool :=
  decide (-9223372036854775807 ≤ secs * 1000) && decide (secs * 1000 ≤ 9223372036854775807)

def numSeconds (d : Int) : Int := d.tdiv second

def numMinutes (d : Int) : Int := (numSeconds d).tdiv 60

def numDays (d : Int) : Int := (numSeconds d).tdiv 86400

end Duration

/-- Whole seconds since the epoch. -/
def timestamp (t : Int) : Int := t / Duration.second

/-- The hour of the day, `0` to `23`. -/
def hour (t : Int) : Int := timestamp t % 86400 / 3600

theorem Duration.second_pos : 0 < Duration.second := by decide

/-- A whole number of seconds is read back from the duration it makes. -/
@[simp] theorem Duration.numSeconds_seconds (n : Int) :
    Duration.numSeconds (Duration.seconds n) = n :=
  Int.mul_tdiv_cancel n (by decide)

/-- A second or more counts as a positive number of seconds. -/
theorem Duration.numSeconds_pos {d : Int} (h : Duration.second ≤ d) : 0 < Duration.numSeconds d := by
  have hd : 0 ≤ d := Duration.second_pos.le.trans h
  have heq : Duration.numSeconds d = d / 1000000000 := Int.tdiv_eq_ediv_of_nonneg hd
  rw [heq]
  simp only [Duration.second] at h
  omega

/-- A positive count of seconds is at most the duration it is read from, and
falls short of it by less than a second. -/
theorem Duration.numSeconds_pos_bounds {d : Int} (h : 0 < Duration.numSeconds d) :
    Duration.seconds (Duration.numSeconds d) ≤ d ∧
      d < Duration.seconds (Duration.numSeconds d) + Duration.second := by
  have hd : 0 ≤ d := by
    by_contra hneg
    have hflip : 0 ≤ (-d).tdiv Duration.second :=
      Int.tdiv_nonneg (by omega) Duration.second_pos.le
    rw [Int.neg_tdiv] at hflip
    simp only [Duration.numSeconds] at h
    omega
  have heq : Duration.numSeconds d = d / 1000000000 := Int.tdiv_eq_ediv_of_nonneg hd
  simp only [Duration.seconds, heq, Duration.second]
  omega

end ZeroTrustProxy
