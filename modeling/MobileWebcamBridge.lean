import MobileWebcamBridge.Lib.EventSystem
import MobileWebcamBridge.Lib.Trace
import MobileWebcamBridge.Lib.Subsequence
import MobileWebcamBridge.Wire
import MobileWebcamBridge.Phone.FramedOutbound
import MobileWebcamBridge.Phone.FramedOutbound.Programs
import MobileWebcamBridge.Phone.FramedOutbound.Fence
import MobileWebcamBridge.Phone.FramedOutbound.Kept
import MobileWebcamBridge.Phone.FramedOutbound.Units
import MobileWebcamBridge.Phone.FramedOutbound.Replay
import MobileWebcamBridge.Phone.FramedOutbound.Chain
import MobileWebcamBridge.Phone.ClientAuthorization
import MobileWebcamBridge.Phone.ClientRepository
import MobileWebcamBridge.Phone.PhoneAuthorization
import MobileWebcamBridge.Phone.PhoneAuthorization.Sections
import MobileWebcamBridge.Phone.PhoneAuthorization.Proofs
import MobileWebcamBridge.Phone.PhoneAuthorization.Approvals
import MobileWebcamBridge.Phone.PhoneAuthorization.Journal
import MobileWebcamBridge.Phone.PhoneAuthorization.Grant
import MobileWebcamBridge.Phone.PhoneAuthorization.Latch
import MobileWebcamBridge.Phone.PhoneAuthorization.Unlisted
import MobileWebcamBridge.Phone.PhoneAuthorization.Revocation
import MobileWebcamBridge.Phone.PhoneAuthorization.Results
import MobileWebcamBridge.Phone.SessionControl
import MobileWebcamBridge.Phone.AuthorizedMediaSession
import MobileWebcamBridge.Phone.FramedOutbound.Line
import MobileWebcamBridge.Phone.FramedOutbound.Permits
import MobileWebcamBridge.Phone.FramedOutbound.Conservation
import MobileWebcamBridge.Phone.FramedOutbound.ConfigFirst
import MobileWebcamBridge.Phone.FramedOutbound.ConfigInTime
import MobileWebcamBridge.Host.Wire.RoundTrip
import MobileWebcamBridge.Host.ClientAuth
import MobileWebcamBridge.Phone.WireCodec
import MobileWebcamBridge.Transcript
import MobileWebcamBridge.WireAgreement
import MobileWebcamBridge.Phone.ClientStore
import MobileWebcamBridge.Phone.ClientStore.Reset
import MobileWebcamBridge.Host.Settings.Credentials
import MobileWebcamBridge.Host.Settings.Saves
import MobileWebcamBridge.Host.IdentityStore.Publication
import MobileWebcamBridge.MutualAuthorization.Agreement
import MobileWebcamBridge.Host.Quality.Runs
import MobileWebcamBridge.Host.Session.Stopping
import MobileWebcamBridge.Host.ReceiveStream.Output
import MobileWebcamBridge.Host.ReceiveStream.Notes
import MobileWebcamBridge.Phone.ClientRepository.Runs
import MobileWebcamBridge.Phone.PhoneAuthorization.Deadlines
import MobileWebcamBridge.Phone.PhoneQualityController.Runs
import MobileWebcamBridge.Host.Preview.Seqlock
import MobileWebcamBridge.Phone.CaptureCancellation.Ownership
import MobileWebcamBridge.Phone.CaptureCancellation.Closed
import MobileWebcamBridge.Host.Preview.Sizes
import MobileWebcamBridge.Phone.H264AnnexB
import MobileWebcamBridge.Host.Video.Letterbox
import MobileWebcamBridge.PreferenceAgreement
import MobileWebcamBridge.Host.UsbStream
import MobileWebcamBridge.Host.Redial.Refusals
import MobileWebcamBridge.Phone.CameraEncoderSession
import MobileWebcamBridge.Phone.CameraEncoderSession.Closing
import MobileWebcamBridge.Lib.Der
import MobileWebcamBridge.Phone.ClientAuthorization.SignatureDer
import MobileWebcamBridge.Lib.Reader
import MobileWebcamBridge.Phone.ClientRepository.Codec
import MobileWebcamBridge.DecisionAgreement
import MobileWebcamBridge.Host.Session.Failures
import MobileWebcamBridge.Host.Settings.Atomicity
import MobileWebcamBridge.Host.Control.Channel
import MobileWebcamBridge.Host.Redial.Selection
import MobileWebcamBridge.Host.Redial.Payment
import MobileWebcamBridge.Phone.FramedOutbound.Outcome
import MobileWebcamBridge.Phone.AuthorizedMediaSession.Gate
import MobileWebcamBridge.Phone.LanServer.OneSession
import MobileWebcamBridge.Phone.MainActivity.Consent
import MobileWebcamBridge.QualityAgreement.Applied
