import KyberPipe.Crypto.Crdt
import KyberPipe.Crypto.HandleInvariant
import KyberPipe.Crypto.KemHandle
import KyberPipe.Crypto.ShamirInputs
import KyberPipe.Ratchet.Bounds
import KyberPipe.Ratchet.ChainWalks
import KyberPipe.Ratchet.GapRecovery
import KyberPipe.Ratchet.Import
import KyberPipe.Ratchet.ProposalLifetime
import KyberPipe.Ratchet.ReceiveEntries
import KyberPipe.Ratchet.RekeyAad
import KyberPipe.Ratchet.ResyncBudget
import KyberPipe.Ratchet.RetainedKeys
import KyberPipe.Ratchet.SnapshotImport
import KyberPipe.Ratchet.Straddling
import KyberPipe.Ratchet.SyncAuthenticity
import KyberPipe.Ratchet.SyncBurst
import KyberPipe.Ratchet.TlvCursor
import KyberPipe.Pair.Agreement
import KyberPipe.Desktop.AckDelivery
import KyberPipe.Desktop.Base32
import KyberPipe.Desktop.Clipboard
import KyberPipe.Desktop.CrashAtomicity
import KyberPipe.Desktop.DirtyTracking
import KyberPipe.Desktop.FeedGuard
import KyberPipe.Desktop.OpenUrl
import KyberPipe.Desktop.ScriptWorkers
import KyberPipe.Desktop.SettingsSaves
import KyberPipe.Desktop.TorControl
import KyberPipe.Pairing.BinaryFrame
import KyberPipe.Pairing.FailedConfirmation
import KyberPipe.Pairing.Forgetting
import KyberPipe.Pairing.NonceUse
import KyberPipe.Pairing.PairedState
import KyberPipe.Pairing.Promotion
import KyberPipe.Pairing.RateLimit
import KyberPipe.Pairing.Rejection
import KyberPipe.Android.EpochSeparation
import KyberPipe.Android.PairingCommit
import KyberPipe.Android.PollPersistence
import KyberPipe.Android.RollbackGuards
import KyberPipe.Android.Rotation
import KyberPipe.Network.BeaconPanics
import KyberPipe.Network.BeaconReplay
import KyberPipe.Network.InFlight
import KyberPipe.Network.Reconnect
import KyberPipe.Network.StunFingerprint
