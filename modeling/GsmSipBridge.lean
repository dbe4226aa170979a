import GsmSipBridge.Ims.RtpReorder.Order
import GsmSipBridge.Ims.MediaStats
import GsmSipBridge.AmrForward.Transparency
import GsmSipBridge.Ims.Rtcp
import GsmSipBridge.Ims.Body.Framing
import GsmSipBridge.Ims.Sdp.Reread
import GsmSipBridge.Ims.SipClient.Response
import GsmSipBridge.Ims.Agent
import GsmSipBridge.Ims.SmsPdu.Deliver
import GsmSipBridge.Sms.Retry
import GsmSipBridge.Modules.Pool.Agreement
import GsmSipBridge.Modules.Pool.Tasks
import GsmSipBridge.Ims.Agent.Origination.Relays
import GsmSipBridge.Ims.Agent.Registration.Holdoff
import GsmSipBridge.Ims.Agent.Inbound.Finals
import GsmSipBridge.Ims.Agent.Inbound.Waits
import GsmSipBridge.Modules.Worker.Urcs
import GsmSipBridge.Modules.Worker.Hangups
import GsmSipBridge.Ims.Agent.RegSubscription.Progress
import GsmSipBridge.Ims.Agent.PcscfPool.Startup
import GsmSipBridge.Ims.GmIpsec.Generations
import GsmSipBridge.Sip.Server.Auth.Replay
import GsmSipBridge.Sip.Server
import GsmSipBridge.Ims.Agent.Watchdog
import GsmSipBridge.Modules.Scheduler.Cycle
import GsmSipBridge.Supervise.Shutdown
import GsmSipBridge.Supervise.Underlay
import GsmSipBridge.Vowifi.UsimBridge
import GsmSipBridge.Ims.Transcode
import GsmSipBridge.Ims.Identity
import GsmSipBridge.Store.Events
