import PGCon.Word
import PGCon.Machine
import PGCon.Effect
import PGCon.Action
import PGCon.Firmware
import PGCon.Protocol
import PGCon.Refinement
import PGCon.Agreement
import PGCon.Controller
import PGCon.Bookkeeping
import PGCon.Reconnect
import PGCon.Attached
import PGCon.AutoRelease
import PGCon.ScriptTask
import PGCon.ScriptRunner
import PGCon.Exclusion
import PGCon.Stopping
import PGCon.ExactlyOnce
import PGCon.MainPanel
import PGCon.Disconnect
import PGCon.Preprocessing
import PGCon.Pictures
import PGCon.Detection
import PGCon.SharedFrame
import PGCon.WriteFailure
import PGCon.Attachment
import PGCon.Bits
import PGCon.ConnectionCheck
import PGCon.Framing
import PGCon.MatJson
import PGCon.ScriptRegistry
import PGCon.VideoInput
import PGCon.Requests
import PGCon.DueRelease
import PGCon.Merging
import PGCon.AccurateReading
import PGCon.SubScript
import PGCon.Voting
import PGCon.Engine
import PGCon.NintendoSwitchEngine
import PGCon.PlusOneDay
import PGCon.Resampling
import PGCon.Images
import PGCon.BandOrder
import PGCon.Subimages
import PGCon.PixelPacking
import PGCon.ImageResize
import PGCon.ColorPick
import PGCon.ScriptCompiler
import PGCon.ScriptLoading
import PGCon.GuiLogView
import PGCon.Assignment
import PGCon.CharmSlots
import PGCon.CharmSkills
import PGCon.Console
import PGCon.FrameCache
import PGCon.Canvas
import PGCon.Puts
import PGCon.CharmTargets
import PGCon.OcrEngines
import PGCon.CodeGeneration
import PGCon.CallLines
import PGCon.GeneratedText
import PGCon.HidReport
import PGCon.DetectAll
import PGCon.ColorDifference
import PGCon.ScriptConfig
import PGCon.Selection
import PGCon.UrlCoding
import PGCon.Notification
import PGCon.Moves
