import RestApiOut.Library.Run
import RestApiOut.Library.Protocol
import RestApiOut.Library.History
import RestApiOut.Library.Base64
import RestApiOut.Library.HmacSha256
import RestApiOut.Secret
import RestApiOut.Sample
import RestApiOut.FinishedReply
import RestApiOut.Reentrancy
import RestApiOut.Waiting
import RestApiOut.LatestPost
import RestApiOut.Retransmission
import RestApiOut.Account
import RestApiOut.SerialUse
import RestApiOut.Signing
import RestApiOut.Termination
import RestApiOut.Lifetime
import RestApiOut.Threads
import RestApiOut.Buffers
import RestApiOut.Library.FreedBlocks
import RestApiOut.Residue
import RestApiOut.Answer
import RestApiOut.TimeWindow
import RestApiOut.UpdateCycle
import RestApiOut.KeyBuffer
import RestApiOut.Framing
import RestApiOut.Endpoint
import RestApiOut.Synchrony
import RestApiOut.Session
import RestApiOut.Isolation
import RestApiOut.Wire
import RestApiOut.Settling
import RestApiOut.Ownership
import RestApiOut.Traffic
import RestApiOut.Provenance
import RestApiOut.LastWord
import RestApiOut.Silence
import RestApiOut.WebHook.SigningKey
import RestApiOut.WebHook.Model
import RestApiOut.WebHook.Sample
import RestApiOut.WebHook.Step
import RestApiOut.WebHook.Moment
import RestApiOut.WebHook.Session
import RestApiOut.WebHook.Conclusions
import RestApiOut.WebHook.Settling
import RestApiOut.WebHook.Reentry
