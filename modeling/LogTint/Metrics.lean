import LogTint.Decimal.Ratio

/-!
# Counters

The counters of a scheduler are 64-bit words and wrap around.
-/

namespace LogTint

structure Metrics where
  registered : UInt64
  active : UInt64
  edits : UInt64
  bypassed : UInt64
  superseded : UInt64
  published : UInt64
  discarded : UInt64
  oversized : UInt64
  errors : UInt64
  hits : UInt64
  misses : UInt64
  computations : UInt64
  /-- Time spent on all computations together. -/
  nanoseconds : UInt64
deriving DecidableEq

inductive Occurrence where
  | documentRegistered
  | documentClosed
  | edit
  | bypassed
  | superseded
  | published
  | discarded
  | oversized
  | computeError
  | cacheHit
  | cacheMiss
  /-- A computation that took the given time. -/
  | computed (nanoseconds : Nat)
deriving DecidableEq

namespace Metrics

def zero : Metrics := ⟨0, 0, 0, 0, 0, 0, 0, 0, 0, 0, 0, 0, 0⟩

def record (metrics : Metrics) : Occurrence → Metrics
  | .documentRegistered =>
      { metrics with
        registered := metrics.registered + 1
        active := metrics.active + 1 }
  | .documentClosed => { metrics with active := metrics.active - 1 }
  | .edit => { metrics with edits := metrics.edits + 1 }
  | .bypassed => { metrics with bypassed := metrics.bypassed + 1 }
  | .superseded => { metrics with superseded := metrics.superseded + 1 }
  | .published => { metrics with published := metrics.published + 1 }
  | .discarded => { metrics with discarded := metrics.discarded + 1 }
  | .oversized => { metrics with oversized := metrics.oversized + 1 }
  | .computeError => { metrics with errors := metrics.errors + 1 }
  | .cacheHit => { metrics with hits := metrics.hits + 1 }
  | .cacheMiss => { metrics with misses := metrics.misses + 1 }
  | .computed nanoseconds =>
      { metrics with
        computations := metrics.computations + 1
        nanoseconds := metrics.nanoseconds + nanoseconds.toUInt64 }

/-- Average time of a computation, in whole nanoseconds. -/
def averageNanoseconds (metrics : Metrics) : UInt64 :=
  if metrics.computations = 0 then 0
  else metrics.nanoseconds / metrics.computations

/-- Fraction of the cache lookups that hit. -/
def hitRate (metrics : Metrics) : Float :=
  Decimal.ratio metrics.hits (metrics.hits + metrics.misses)

/-- Edits for every published result. -/
def coalescing (metrics : Metrics) : Float :=
  Decimal.ratio metrics.edits metrics.published

end Metrics

end LogTint
