/-! Spans of time in whole milliseconds. -/

namespace Arbiter

structure Duration where
  millis : Nat
deriving DecidableEq

namespace Duration

def ofSeconds (n : Nat) : Duration := ⟨1000 * n⟩

/-- The milliseconds past the last full second, without zeros at the end. -/
def fractionDigits (ms : Nat) : List Char :=
  let ds := Nat.toDigits 10 (1000 + ms % 1000)
  (ds.tail.reverse.dropWhile (· == '0')).reverse

/-- The span in seconds from one second on, and in milliseconds below. -/
def text (d : Duration) : String :=
  if d.millis = 0 then "0ns"
  else if d.millis < 1000 then toString d.millis ++ "ms"
  else
    let fraction := fractionDigits d.millis
    let point := if fraction.isEmpty then [] else ['.']
    toString (d.millis / 1000) ++ .ofList (point ++ fraction) ++ "s"

end Duration

end Arbiter
