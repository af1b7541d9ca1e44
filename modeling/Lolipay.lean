import Lolipay.Coordinator.Desk
import Lolipay.Coordinator.Binding
import Lolipay.Async.Scheduling
import Lolipay.Escrow.Authority
import Lolipay.Escrow.Deadlines
import Lolipay.Escrow.TwoRuns
import Lolipay.Escrow.Roles
import Lolipay.Joint.Slash
import Lolipay.Escrow.Rounds
import Lolipay.Coordinator.Services
import Lolipay.Coordinator.Creation
import Lolipay.Coordinator.Steps
import Lolipay.Coordinator.Guards
import Lolipay.Coordinator.BoundRows
import Lolipay.Coordinator.Verdicts
import Lolipay.Coordinator.Reservations
import Lolipay.Coordinator.Transactions
import Lolipay.Coordinator.Capacity
import Lolipay.Coordinator.DailyLimit
import Lolipay.Escrow.Phases
import Lolipay.Coordinator.Replica
import Lolipay.Coordinator.Following
import Lolipay.Coordinator.Scenes
import Lolipay.Coordinator.SlashWindow
import Lolipay.Coordinator.Convergence
import Lolipay.Coordinator.Attribution
import Lolipay.Coordinator.Challenges
import Lolipay.Coordinator.ConfigCaches
import Lolipay.Coordinator.Prices
import Lolipay.Coordinator.Standing
import Lolipay.Coordinator.StoodDown
import Lolipay.Coordinator.Wallets
import Lolipay.Coordinator.WalletLinks
import Lolipay.Coordinator.Identity
import Lolipay.Coordinator.IdentityGate
import Lolipay.Coordinator.Expiry
import Lolipay.Coordinator.Exposure
import Lolipay.Coordinator.Signing
import Lolipay.Coordinator.Windows
import Lolipay.Coordinator.Delivery
import Lolipay.Coordinator.Gateway
import Lolipay.Coordinator.Rooms
import Lolipay.Coordinator.Sockets
import Lolipay.Coordinator.Announcements
import Lolipay.Coordinator.Rebuild
import Lolipay.Coordinator.Evidence
import Lolipay.Coordinator.Attestation
import Lolipay.Coordinator.Receipts
import Lolipay.Coordinator.Limits
import Lolipay.Coordinator.RateGuard
import Lolipay.Coordinator.Sep24
import Lolipay.Escrow.EarlyRelease
import Lolipay.Joint.Traps
import Lolipay.Coordinator.CooldownFloor
import Lolipay.Coordinator.SlashTx
import Lolipay.Coordinator.ConfigPatches
import Lolipay.Coordinator.DeliveryOrder
import Lolipay.Coordinator.OneOrder
import Lolipay.Coordinator.AlertTurns
import Lolipay.Coordinator.OrphanWalk
import Lolipay.Coordinator.RefundTicks
import Lolipay.Coordinator.Screening
import Lolipay.Coordinator.Payloads
import Lolipay.Coordinator.UploadStages
import Lolipay.Coordinator.AttestOutcome
import Lolipay.Coordinator.UsdcText
import Lolipay.Coordinator.FiatText
import Lolipay.Coordinator.Statements
import Lolipay.Coordinator.IndexerLoop
import Lolipay.Coordinator.CatchUp
import Lolipay.Coordinator.Credentials
import Lolipay.Coordinator.Publication
import Lolipay.Coordinator.Sparing
import Lolipay.Coordinator.PolledRows
import Lolipay.Coordinator.ConfigSound
import Lolipay.Coordinator.VerificationBudget
import Lolipay.Coordinator.ChainReads
import Lolipay.Coordinator.AttestorTurns
import Lolipay.Coordinator.ClaimPaid
import Lolipay.Coordinator.Webhooks
