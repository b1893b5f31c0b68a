import LiveQuery.Query.Snapshot

/-!
# Reports

A report has a line for every settled snapshot that it was shown: the fetches that settled while
nobody looked are passed over, and a snapshot is never reported twice.
-/

namespace LiveQuery

/-- How a report is written. -/
structure ReportStyle where
  /-- One JSON value a line. -/
  compact : Bool
  coloured : Bool
  deriving DecidableEq, Repr

/-- A report. -/
structure Report where
  style : ReportStyle
  /-- How many lines it may have; it has one at least. -/
  limit : Option Nat
  /-- The number of the fetch that was reported last. -/
  seen : Nat
  lines : List String
  deriving DecidableEq, Repr

namespace Report

/-- A report without lines. -/
def blank (style : ReportStyle) (limit : Option Nat) : Report := ⟨style, limit, 0, []⟩

/-- Whether a snapshot is worth a line. -/
def wants (r : Report) (s : Snapshot) : Bool := r.seen < s.fetchCount && !s.loading

/-- The line for a snapshot. -/
def line (r : Report) (s : Snapshot) : String := s.line r.style.compact r.style.coloured

/-- The report with a line for a snapshot. -/
def add (r : Report) (s : Snapshot) : Report :=
  { r with seen := s.fetchCount, lines := r.lines ++ [r.line s] }

/-- How many lines there are. -/
def count (r : Report) : Nat := r.lines.length

/-- Whether no further line may be added. -/
def isComplete (r : Report) : Bool := r.limit.any (· ≤ r.count)

end Report
end LiveQuery
