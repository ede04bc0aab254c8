import AnonGuard.SessionEmission
import AnonGuard.SessionFailure
import AnonGuard.SessionDrain
import AnonGuard.CircuitSetup
import AnonGuard.AuthorityAdmission
import AnonGuard.LinkTiming
import AnonGuard.TransportOrder
import AnonGuard.SessionLimits
import AnonGuard.SingleStreamDelivery
import AnonGuard.RelayConnections
import AnonGuard.OnionReplay
import AnonGuard.SessionClosing
import AnonGuard.SessionFairness
import AnonGuard.AuthorityConvergence
import AnonGuard.GatewayClient
import AnonGuard.ChainGuarantees
import AnonGuard.ConsensusDigest
import AnonGuard.ExitNames
import AnonGuard.VoteReload
import AnonGuard.GatewayAccept
import AnonGuard.SlotReclaim
import AnonGuard.DocumentFraming
import AnonGuard.Multipath
import AnonGuard.JitterCopy
import AnonGuard.LinkFlush
import AnonGuard.TrackerDirectory
import AnonGuard.ModulusCheck
import AnonGuard.PowSearch
import AnonGuard.TransportArguments
import AnonGuard.OutgoingPacking
import AnonGuard.IdentityFile
