import TableProbe.Bytes
import TableProbe.Checked
import TableProbe.Config
import TableProbe.Crash
import TableProbe.Decimal.Binary64
import TableProbe.Decimal.Fixed
import TableProbe.Decimal.Rounding
import TableProbe.Duration
import TableProbe.Generator
import TableProbe.Histogram.Basic
import TableProbe.Histogram.Bins
import TableProbe.Journal
import TableProbe.KeySpace
import TableProbe.LogFilter
import TableProbe.Main
import TableProbe.Mismatch
import TableProbe.OpKind
import TableProbe.Options
import TableProbe.Partition
import TableProbe.Pattern.Basic
import TableProbe.Pattern.Bracket
import TableProbe.Pattern.CharSet
import TableProbe.Pattern.Defect
import TableProbe.Pattern.Escape
import TableProbe.Pattern.Group
import TableProbe.Pattern.Meaning
import TableProbe.Pattern.OfText
import TableProbe.Pattern.Plain
import TableProbe.Pattern.Reader
import TableProbe.Pattern.Reading
import TableProbe.Pattern.Room
import TableProbe.Pattern.Search
import TableProbe.Pattern.Spelling
import TableProbe.Pattern.Tree
import TableProbe.Pattern.WordTree
import TableProbe.Percentages
import TableProbe.Power
import TableProbe.Program
import TableProbe.Proofs.Config
import TableProbe.Proofs.Histogram.Recorded
import TableProbe.Proofs.KeySpace
import TableProbe.Proofs.Partition
import TableProbe.Proofs.Run.Assigned
import TableProbe.Proofs.Run.Independent
import TableProbe.Proofs.Run.NoFalseAlarm
import TableProbe.Proofs.Run.Phase
import TableProbe.Proofs.Run.Watch
import TableProbe.Proofs.Run.Workers
import TableProbe.Proofs.Script.Alike
import TableProbe.Proofs.Script.Interleave
import TableProbe.Proofs.Script.Paired
import TableProbe.Proofs.Script.Runs
import TableProbe.Proofs.Script.Task
import TableProbe.Proofs.Table.Correct
import TableProbe.Proofs.Table.Filled
import TableProbe.Proofs.Table.Sequence
import TableProbe.Proofs.Table.Shares
import TableProbe.Proofs.Worker.Blame
import TableProbe.Proofs.Worker.Counters
import TableProbe.Proofs.Worker.Expected
import TableProbe.Proofs.Worker.Filling
import TableProbe.Proofs.Worker.Latency
import TableProbe.Proofs.Worker.Paired
import TableProbe.Proofs.Worker.Plan
import TableProbe.Proofs.Worker.Reference
import TableProbe.Proofs.Worker.Replay
import TableProbe.Proofs.Worker.Solo
import TableProbe.Proofs.Worker.Step
import TableProbe.Report
import TableProbe.Run
import TableProbe.Schedule
import TableProbe.Script.Basic
import TableProbe.Script.Play
import TableProbe.Script.Task
import TableProbe.Shuffle
import TableProbe.Table.Backend
import TableProbe.Table.Basic
import TableProbe.Table.Contents
import TableProbe.Table.Faulty
import TableProbe.Table.Hashed
import TableProbe.Table.Ordered
import TableProbe.Table.Swapping
import TableProbe.Table.Transactional
import TableProbe.Text.Blank
import TableProbe.Text.Letter
import TableProbe.Text.Line
import TableProbe.Text.Numeral
import TableProbe.ValueSource
import TableProbe.Window
import TableProbe.Worker.Basic
import TableProbe.Worker.Fill
import TableProbe.Worker.Replay
import TableProbe.Worker.Step
import TableProbe.Proofs.Run.Latency
import TableProbe.Proofs.Run.Failures
import TableProbe.Proofs.Run.InRange
import TableProbe.Proofs.Shuffle
import TableProbe.Proofs.Schedule
import TableProbe.Proofs.Worker.Reports
import TableProbe.Proofs.Worker.Misfire
import TableProbe.Proofs.Worker.Evenness
import TableProbe.Proofs.KeyOrder
import TableProbe.Proofs.Table.Lossy
import TableProbe.Proofs.Worker.Course
import TableProbe.Proofs.Worker.Collision
import TableProbe.Proofs.Worker.LostInserts
import TableProbe.Proofs.KeyShares
import TableProbe.Proofs.Histogram.Merged
import TableProbe.Proofs.Worker.Loops
