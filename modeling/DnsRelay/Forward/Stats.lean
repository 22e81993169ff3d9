/-!
# Counters

What became of queries and responses so far.
-/

namespace DnsRelay

/-- How often each outcome occurred. The counters are natural numbers: that counters of 64 bits start again at zero behind
2 ^ 64 steps is left out. -/
structure Stats where
  delivered : Nat
  dropped : Nat
  unmatched : Nat
  malformed : Nat
  timedOut : Nat
  unreachable : Nat
  deriving DecidableEq, Repr

namespace Stats

/-- Nothing has occurred. -/
def zero : Stats := ⟨0, 0, 0, 0, 0, 0⟩

/-- The text of the counters. -/
def toString (s : Stats) : String :=
  "delivered=" ++ Nat.repr s.delivered ++ " dropped=" ++ Nat.repr s.dropped ++ " unmatched=" ++ Nat.repr s.unmatched ++
    " malformed=" ++ Nat.repr s.malformed ++ " timed_out=" ++ Nat.repr s.timedOut ++ " upstream_errors=" ++
    Nat.repr s.unreachable

instance : ToString Stats := ⟨Stats.toString⟩

end Stats

end DnsRelay
