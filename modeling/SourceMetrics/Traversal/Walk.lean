import SourceMetrics.Traversal.Builder
import SourceMetrics.Value.Field

/-!
# Walks

A walk is what a walker does with one tree: the events that it goes through, the failure that ended
it, if any, and what the functions of its syntax rules do. An event cannot answer the walker, so the
events are known before any of them is carried out.
-/

namespace SourceMetrics

/-- What a walker does with a tree. -/
structure Walk (R : Type) where
  call : Interpretation R
  trace : Trace R (Event R)

namespace Walk

variable {R : Type} [Arithmetic R]

/-- Carry out a walk. -/
def run (walk : Walk R) (b : Builder R) : Progress R (Builder R) :=
  Progress.run (Builder.step walk.call) b walk.trace

end Walk

end SourceMetrics
