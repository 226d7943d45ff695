import ServiceKit.Json

namespace ServiceKit

inductive Tick where
  | request (status : Nat)
  | timeout
  | panic
  | row (outcome : String)
deriving DecidableEq, Repr

abbrev Metrics := List Tick

namespace Tick

def family : Tick → String
  | .request _ => "trellis_requests_total"
  | .timeout => "trellis_request_timeouts_total"
  | .panic => "trellis_handler_panics_total"
  | .row _ => "trellis_import_rows_total"

def series : Tick → String
  | .request status => "trellis_requests_total\x7bstatus=\"" ++ toString status ++ "\"\x7d"
  | .row outcome => "trellis_import_rows_total\x7boutcome=\"" ++ outcome ++ "\"\x7d"
  | t => t.family

def description : Tick → String
  | .request _ => "Responses written by the pipeline"
  | .timeout => "Requests that hit their deadline"
  | .panic => "Handler panics recovered"
  | .row _ => "Imported rows by outcome"

def isRequest : Tick → Bool
  | .request _ => true
  | _ => false

end Tick

namespace Metrics

def durations : String := "trellis_request_duration_seconds"

def count (m : Metrics) (t : Tick) : Nat := m.countP (· == t)

def seriesLine (m : Metrics) (t : Tick) : String := t.series ++ " " ++ toString (m.count t)

def helpLine (t : Tick) : String := "# HELP " ++ t.family ++ " " ++ t.description

def timedLines (described : Bool) (m : Metrics) : List String :=
  match m.countP Tick.isRequest with
  | 0 => []
  | n =>
    (if described then ["# HELP " ++ durations ++ " Time from handler spawn to response selection"] else []) ++
      [durations ++ "_count " ++ toString n]

def lines (described : Bool) (m : Metrics) : List String :=
  let counted := m.eraseDups
  let help := if described then (counted.map helpLine).eraseDups else []
  (help ++ counted.map m.seriesLine ++ timedLines described m).mergeSort fun a b => decide (a ≤ b)

end Metrics
end ServiceKit
