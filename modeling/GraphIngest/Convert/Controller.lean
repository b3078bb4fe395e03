import GraphIngest.Number.Binary64

/-!
# Flush-size control

While adaptive flushing is on, a controller moves the flush size by hill climbing: each round it
measures the time per record at the current size and one step above and below it, and keeps the
fastest. These are its pure parts.
-/

namespace GraphIngest.Controller

def minSize : Nat := 1

def maxSize : Nat := 1000

def clampSize (n : Nat) : Nat := max minSize (min maxSize n)

/-- The exploratory step at `current`: larger for smaller sizes. -/
def stepSize (current : Nat) : Nat := clampSize (10000 / max current 1)

/-- What the controller's arithmetic on machine words can run into: a sum past the largest
word. -/
inductive ControlError where
  | overflow
  deriving DecidableEq, Repr

/-- Rounds to the nearest multiple of ten and brings the result within bounds. The size is a
machine word, and a size whose `size + 5` leaves the word is refused. -/
def normalize (size : Nat) : Except ControlError Nat :=
  if size + 5 < 18446744073709551616 then .ok (clampSize ((size + 5) / 10 * 10)) else .error .overflow

/-- The three sizes sampled in a round: current, one step above, one step below. -/
def candidates (current step : Nat) : List Nat :=
  let c := clampSize current
  [c, min (c + step) maxSize, max (c - step) minSize]

/-- The fastest sample so far against the next one: the next replaces it only when strictly
faster. -/
def keepFaster (best : Option (Nat × Float)) (sample : Nat × Float) : Option (Nat × Float) :=
  match best with
  | some b => if Binary64.le b.2 sample.2 then some b else some sample
  | none => some sample

/-- The size with the lowest finite time, normalized; earlier samples win ties. -/
def choose (samples : List (Nat × Float)) : Except ControlError (Option Nat) :=
  ((samples.filter (fun s => Binary64.isFinite s.2)).foldl keepFaster none).mapM
    (fun b => normalize b.1)

def initialFlush : Nat := 100

end GraphIngest.Controller
