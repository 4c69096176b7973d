/-!
# Time

Spans and points of time are whole nanoseconds. The clock shows seconds as a signed number
of 64 bits and has been running since the machine started, so an instant too far ahead
cannot be represented; computing one stops the program.
-/

namespace Turnstile

/-- A span of time, in nanoseconds. -/
abbrev Duration := Nat

/-- A point of time, in nanoseconds since the program began. -/
abbrev Instant := Nat

/-- A fault that stops the program instead of being reported to the caller. -/
inductive Crash
  | clockOverflow
  deriving DecidableEq, Repr

/-- The wording of a crash. -/
def Crash.message : Crash → String
  | .clockOverflow => "overflow when adding duration to instant"

namespace Duration

/-- A span of milliseconds. -/
def ofMillis (ms : Nat) : Duration := 1000000 * ms

/-- A span of seconds. -/
def ofSecs (secs : Nat) : Duration := 1000000000 * secs

/-- The whole milliseconds of a span. -/
def toMillis (d : Duration) : Nat := d / 1000000

/-- The whole milliseconds of a span of milliseconds are those it was made from. -/
@[simp] theorem toMillis_ofMillis (ms : Nat) : toMillis (ofMillis ms) = ms := by
  simp [toMillis, ofMillis]

/-- A second has a thousand milliseconds. -/
theorem toMillis_ofSecs (secs : Nat) : toMillis (ofSecs secs) = 1000 * secs := by
  simp only [toMillis, ofSecs]
  omega

/-- A decimal with so many places, without zeros at its end. -/
def decimalText (units : Nat) (places : Nat) : String :=
  let scale := Nat.pow 10 places
  let digits := Nat.toDigits 10 (units % scale)
  let padded := List.replicate (places - digits.length) '0' ++ digits
  let fraction := (padded.reverse.dropWhile (· == '0')).reverse
  toString (units / scale) ++ String.ofList (if fraction.isEmpty then [] else '.' :: fraction)

/-- A span in the largest unit of which it holds at least one. -/
def describe (d : Duration) : String :=
  if 1000000000 ≤ d then decimalText d 9 ++ "s"
  else if 1000000 ≤ d then decimalText d 6 ++ "ms"
  else if 1000 ≤ d then decimalText d 3 ++ "µs"
  else toString d ++ "ns"

end Duration

namespace Instant

/-- How long the clock has been running when the program begins; a day stands for a span that
differs from machine to machine. -/
def uptime : Duration := Duration.ofSecs 86400

/-- The first instant that the clock cannot represent. -/
def limit : Instant := Duration.ofSecs 0x8000000000000000 - uptime

/-- The instant a span after another one. -/
def after (now : Instant) (span : Duration) : Except Crash Instant :=
  if now + span < limit then .ok (now + span) else .error .clockOverflow

/-- The clock can represent the end of a span from now, if there is to be one, or it cannot. -/
theorem fits_or_overflows (now : Instant) (span : Option Duration) :
    (∀ d ∈ span, now + d < limit) ∨ ∃ d ∈ span, limit ≤ now + d := by
  cases span with
  | none => exact .inl nofun
  | some d =>
    rcases Nat.lt_or_ge (now + d) limit with hlt | hge
    · exact .inl (by rintro _ ⟨⟩; exact hlt)
    · exact .inr ⟨d, rfl, hge⟩

/-- An end that the clock can represent is computed. -/
theorem mapM_after_of_fits {now : Instant} {span : Option Duration}
    (h : ∀ d ∈ span, now + d < limit) : span.mapM now.after = .ok (span.map (now + ·)) := by
  cases span with
  | none => rfl
  | some d => simp [after, h d rfl, Functor.map, Except.map]

/-- To compute an end that the clock cannot represent is a crash. -/
theorem mapM_after_of_overflow {now : Instant} {span : Option Duration}
    (h : ∃ d ∈ span, limit ≤ now + d) : span.mapM now.after = .error .clockOverflow := by
  obtain ⟨d, rfl, hle⟩ := h
  simp [after, Nat.not_lt.2 hle, Functor.map, Except.map]

end Instant
end Turnstile
