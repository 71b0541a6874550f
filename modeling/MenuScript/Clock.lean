/-! A clock as data. Time passes in two ways: by pauses that are asked for, and between one reading
and the next. The second is given by a stream of lags, so a clock stands for every way in which
readings can grow. Times are in nanoseconds. -/

namespace MenuScript

/-- A clock that only moves forward. -/
structure Clock where
  now : Nat := 0
  /-- What passes before the reading of each number. -/
  lag : Nat → Nat
  readings : Nat := 0

namespace Clock

/-- Nanoseconds of a number of milliseconds. -/
def millis (n : Nat) : Nat := 1000000 * n

def steady (lag : Nat) : Clock := ⟨0, fun _ => lag, 0⟩

def read (c : Clock) : Nat × Clock :=
  let t := c.now + c.lag c.readings
  (t, { c with now := t, readings := c.readings + 1 })

def advance (c : Clock) (nanos : Nat) : Clock := { c with now := c.now + nanos }

end Clock

end MenuScript
