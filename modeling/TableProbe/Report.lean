import TableProbe.Decimal.Binary64
import TableProbe.Duration
import TableProbe.Histogram.Basic

/-!
# Reports

What a successful run reports: how many operations it did, how long they took,
how many that makes per second, and, if latencies were recorded, how long
single operations took.
-/

namespace TableProbe

/-- The result of a successful run.  Only the mixed operations count towards
the throughput. -/
structure Report where
  totalOps : UInt64
  elapsed : Duration
  prefillElems : UInt64
  prefillTime : Duration
  /-- How long single operations took, in microseconds. -/
  latency : Option Histogram

namespace Report

/-- Operations per second; zero if there were none, or if no time passed. -/
def throughput (r : Report) : Float :=
  if r.totalOps = 0 || r.elapsed.isZero then 0.0 else r.totalOps.toFloat / r.elapsed.toFloat

/-- The shares of operations whose latencies are shown, with their names. -/
def shownShares : List (String × Float) :=
  [("p50", 0.50), ("p95", 0.95), ("p99", 0.99), ("p99.9", 0.999)]

/-- The latency that a share of all operations does not exceed, or a dash if
there are no operations. -/
def percentile (h : Histogram) (share : Float) : Except Crash String :=
  if h.total = 0 then .ok "-" else (h.quantile share).map Decimal.grouped

/-- The line about latencies. -/
def latencyLine (h : Histogram) : Except Crash String := do
  let shown ← shownShares.mapM fun (name, share) => do
    return s!"{name}: {← percentile h share} µs"
  return " | ".intercalate ("latency" :: shown ++ [s!"max: {Decimal.grouped h.largest} µs"])

/-- The lines of a report. -/
def lines (r : Report) : Except Crash (List String) := do
  let latency ← r.latency.toList.mapM latencyLine
  return [s!"total ops: {r.totalOps}",
    s!"time elapsed (sec): {Decimal.ofFloat 6 r.elapsed.toFloat}",
    s!"throughput (ops/sec): {Decimal.ofFloat 6 r.throughput}"] ++ latency

end Report

end TableProbe
