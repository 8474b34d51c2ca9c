import WebOfTrust.DocLogWipe
import WebOfTrust.CatchUpComplete
import WebOfTrust.RelayAdmins
import WebOfTrust.RelayStore
import WebOfTrust.RelayRedelivery
import WebOfTrust.SecureRemovalPhases
import WebOfTrust.GroupKeysWriteOnce
import WebOfTrust.InboxReplay
import WebOfTrust.MultiBrokerReceipts
import WebOfTrust.OutboxDelivery
import WebOfTrust.BrokerAuthOnce
import WebOfTrust.WebSocketInstances
import WebOfTrust.KeyCache
import WebOfTrust.ProfileRollback
import WebOfTrust.DiscoveryPublish
import WebOfTrust.RotationCoverage
import WebOfTrust.SpaceGenerations
import WebOfTrust.MembershipCommit
import WebOfTrust.SessionSync
import WebOfTrust.VaultSnapshots
import WebOfTrust.SpaceMap
import WebOfTrust.UnloggedUpdates
import WebOfTrust.RotationBuffer
import WebOfTrust.SingleSend
import WebOfTrust.HolderHost
import WebOfTrust.LastAccess
import WebOfTrust.MembershipMerge
import WebOfTrust.KeyRotationResume
import WebOfTrust.InstalledKeys
import WebOfTrust.SinglePaginationRuns
import WebOfTrust.PersonalDocFlush
import WebOfTrust.DidKey
import WebOfTrust.SpentChallenges
import WebOfTrust.ProfileRequests
import WebOfTrust.SendReceipts
import WebOfTrust.Delegation
import WebOfTrust.BlockedReplay
import WebOfTrust.InitialCatchUp
import WebOfTrust.DocPersistence
import WebOfTrust.SpaceDocMerge
import WebOfTrust.SpaceCoordinators
import WebOfTrust.EventKeyCodec
import WebOfTrust.ProtectionFlow
import WebOfTrust.CatchUpComplete
