import ReplayRenderer.Lib.Outcome
import ReplayRenderer.Lib.Bytes
import ReplayRenderer.Lib.Text
import ReplayRenderer.Lib.Blake3
import ReplayRenderer.Splice.Dhilog
import ReplayRenderer.Splice.Grammar
import ReplayRenderer.Splice.Container
import ReplayRenderer.Splice.Canonical
import ReplayRenderer.Splice.Rules
import ReplayRenderer.Splice.Assembly
import ReplayRenderer.Splice.RoundTrip
import ReplayRenderer.Splice.Checked
import ReplayRenderer.Splice.Integrity
import ReplayRenderer.Verify.Hv
import ReplayRenderer.Verify.Verify
import ReplayRenderer.Verify.Report
import ReplayRenderer.Verify.Bisect
import ReplayRenderer.Lib.Search
import ReplayRenderer.Lib.Sort
import ReplayRenderer.Lib.Meter
import ReplayRenderer.MockHv.Guest
import ReplayRenderer.MockHv.Timeline
import ReplayRenderer.MockHv.Writer
import ReplayRenderer.MockHv.Schedule
import ReplayRenderer.MockHv.Written
import ReplayRenderer.MockHv.ReadBack
import ReplayRenderer.MockHv.Omit
import ReplayRenderer.Verify.Mock
import ReplayRenderer.Verify.Budget
import ReplayRenderer.Verify.Recording
import ReplayRenderer.Verify.Replay
import ReplayRenderer.Verify.MockReplay
import ReplayRenderer.Verify.Localize
import ReplayRenderer.Verify.Skew
import ReplayRenderer.Frames.Pack
import ReplayRenderer.Frames.Resume
import ReplayRenderer.Frames.Canonical
import ReplayRenderer.Verify.Agreement
import ReplayRenderer.Overlay.Counter
import ReplayRenderer.Overlay.Hud
import ReplayRenderer.Frames.Rgb24
import ReplayRenderer.Frames.Convert
import ReplayRenderer.Frames.Scale
import ReplayRenderer.Verify.Safety
import ReplayRenderer.Verify.Verdict
import ReplayRenderer.Verify.Flaky
import ReplayRenderer.Lib.JsonText
import ReplayRenderer.Lib.Schema
import ReplayRenderer.Verify.ReportJson
import ReplayRenderer.Verify.WellFormed
import ReplayRenderer.MockHv.Diverge
import ReplayRenderer.Lib.Footprint
import ReplayRenderer.Overlay.Draw
import ReplayRenderer.Overlay.Font
import ReplayRenderer.Overlay.Timeline
import ReplayRenderer.Overlay.Strip
import ReplayRenderer.Overlay.Compose
import ReplayRenderer.Encode.Stills
import ReplayRenderer.Encode.ContactSheet
import ReplayRenderer.Encode.ThumbStrip
import ReplayRenderer.Lib.Process
import ReplayRenderer.Encode.Session
import ReplayRenderer.MockHv.Corrupt
import ReplayRenderer.MockHv.Trips
import ReplayRenderer.MockHv.CorruptedPath
import ReplayRenderer.Lib.Layers
import ReplayRenderer.Overlay.Picture
import ReplayRenderer.Overlay.Composed
import ReplayRenderer.Overlay.Legible
import ReplayRenderer.Overlay.Scripted
import ReplayRenderer.Encode.Feed
import ReplayRenderer.Overlay.Rendered
import ReplayRenderer.Encode.Args
import ReplayRenderer.Encode.Probe
import ReplayRenderer.Verify.Localized
import ReplayRenderer.Verify.Unhashed
import ReplayRenderer.Lib.JsonUnique
import ReplayRenderer.Verify.ReportText
