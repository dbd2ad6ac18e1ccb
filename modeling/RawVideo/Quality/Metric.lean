import RawVideo.Quality.Psnr

/-!
# Metrics and scores

Metrics by name, and the scores of a sequence of frames.  The average leaves out
the frames without a finite score, such as lossless ones; the lowest score does
not, and where two scores are equal or do not compare the earlier one stays.
-/

namespace RawVideo

inductive Metric where
  /-- All components. -/
  | psnr
  /-- Luma alone. -/
  | lumaPsnr
  deriving DecidableEq, Repr

namespace Metric

def all : List Metric := [.psnr, .lumaPsnr]

def name : Metric -> String
  | .psnr => "psnr"
  | .lumaPsnr => "y_psnr"

/-- The metric with a name, or an error that shows it. -/
def ofName (name : String) : Except ComparisonError Metric :=
  match all.find? fun metric => metric.name == name with
  | some metric => .ok metric
  | none => .error (.unknownMetric name)

/-- Check whether a metric compares luma alone. -/
def isLumaOnly (metric : Metric) : Bool :=
  metric == .lumaPsnr

/-- The score of a picture against a reference, in decibels. -/
def score (metric : Metric) (image reference : Picture) : Attempt ComparisonError Float := do
  let comparison <- Comparison.compute metric.isLumaOnly image reference
  return comparison.decibels

end Metric

/-!
## Scores of a sequence
-/

/-- The scores of the frames of a sequence, in order. -/
structure ScoreSheet where
  scores : List Float

namespace ScoreSheet

/-- No frame yet. -/
def empty : ScoreSheet := ⟨[]⟩

def add (sheet : ScoreSheet) (score : Float) : ScoreSheet :=
  ⟨sheet.scores ++ [score]⟩

/-- How many frames have a score. -/
def size (sheet : ScoreSheet) : Nat :=
  sheet.scores.length

def isEmpty (sheet : ScoreSheet) : Bool :=
  sheet.scores.isEmpty

/-- The mean of the finite scores, summed from the left. -/
def average? (sheet : ScoreSheet) : Option Float :=
  match sheet.scores.filter Float.isFinite with
  | [] => none
  | first :: rest => some (rest.foldl (· + ·) first / (rest.length + 1).toFloat)

/-- The lower of two scores, the first where neither is lower. -/
def lower (a b : Float) : Float :=
  if a > b then b else a

def lowest? (sheet : ScoreSheet) : Option Float :=
  match sheet.scores with
  | [] => none
  | first :: rest => some (rest.foldl lower first)

end ScoreSheet
end RawVideo
