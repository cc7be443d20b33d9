import ConstructCore.Cfe.Envelope
import ConstructCore.Handshake.Agreement
import ConstructCore.Handshake.PrekeyAge
import ConstructCore.History.Records
import ConstructCore.History.RefusedMedia
import ConstructCore.Media.Blob
import ConstructCore.Orchestration.Arrivals
import ConstructCore.Orchestration.IdentityProof
import ConstructCore.Orchestration.Pins
import ConstructCore.Orchestration.Prekeys
import ConstructCore.PrivacyPass.Oprf
import ConstructCore.Ratchet.DerivedKeys
import ConstructCore.Ratchet.EpochLimit
import ConstructCore.Ratchet.Invariants
import ConstructCore.Ratchet.LastRatchet
import ConstructCore.Ratchet.SkippedLimit
import ConstructCore.Recovery.Mnemonic
import ConstructCore.Recovery.SafetyNumber
import ConstructCore.SealedSender.FirstFlight
import ConstructCore.SealedSender.SealedInner
import ConstructCore.Store.Paging
import ConstructCore.Trust.Signables
import ConstructCore.Trust.Vouching
import ConstructCore.Wire.Knst
