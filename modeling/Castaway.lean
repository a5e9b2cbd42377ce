import Castaway.AirPlay.AnnexB
import Castaway.AirPlay.AudioRuns
import Castaway.AirPlay.Refusals
import Castaway.AirPlay.Resend
import Castaway.Bluetooth.AclRuns
import Castaway.Bluetooth.AudioRuns
import Castaway.Bluetooth.BringUp
import Castaway.Bluetooth.LatmMux
import Castaway.Bluetooth.ObexRuns
import Castaway.Bluetooth.Reassembly
import Castaway.Bluetooth.SettingsRuns
import Castaway.Browser.Frames
import Castaway.Browser.LineFramer
import Castaway.Browser.Recovery
import Castaway.Cast.Compound
import Castaway.Cast.Delivery
import Castaway.Cast.Framing
import Castaway.Cast.Reference
import Castaway.Core.Reports
import Castaway.Dial.Chunks
import Castaway.Dlna.EventRuns
import Castaway.Dlna.Transport
import Castaway.FCast.AnnouncementRuns
import Castaway.FCast.Confinement
import Castaway.FCast.Ranges
import Castaway.FCast.Reads
import Castaway.FCast.Remote
import Castaway.Hci.Credits
import Castaway.Hci.Deframer
import Castaway.Input.RemoteQueue
import Castaway.Kiosk.Prompt
import Castaway.Kiosk.Routing
import Castaway.L2cap.ErtmBound
import Castaway.L2cap.ErtmWindow
import Castaway.L2cap.FrameCheck
import Castaway.L2cap.Lifecycle
import Castaway.L2cap.Requests
import Castaway.L2cap.SignalCodec
import Castaway.L2cap.Tables
import Castaway.Matter.Pairing
import Castaway.Miracast.IeFrame
import Castaway.Miracast.MiceSession
import Castaway.Miracast.Pts
import Castaway.Miracast.UibcStream
import Castaway.MirrorIn.AssembleRuns
import Castaway.Mixer.Books
import Castaway.PeerTimes
import Castaway.Pipeline.ClockRuns
import Castaway.Pipeline.MotionSettles
import Castaway.Pipeline.PickerRows
import Castaway.Pipeline.ProjectionRuns
import Castaway.Rtp.ReorderRuns
import Castaway.Sdp.PduCodec
import Castaway.Stream.NalUnits
