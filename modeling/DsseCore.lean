import DsseCore.AgentRollout.Control
import DsseCore.AgentRollout.Window
import DsseCore.AgentUpdate.Delivery
import DsseCore.AgentUpdate.DropLedger
import DsseCore.AgentUpdate.Poison
import DsseCore.AgentUpdate.ReplayFloor
import DsseCore.AgentUpdate.Sequencing
import DsseCore.Authorization.Denial
import DsseCore.Authorization.Terminal
import DsseCore.Decision.AddressConditions
import DsseCore.Decision.Locality
import DsseCore.Decision.Noninterference
import DsseCore.Decision.Precedence
import DsseCore.Decision.Soundness
import DsseCore.Dlp.Transparency
import DsseCore.EnrolledInventory.OneEnrolment
import DsseCore.EnrolledInventory.Reenrolment
import DsseCore.GrantStore.Denials
import DsseCore.GrantStore.Generations
import DsseCore.GrantStore.MergeJoin
import DsseCore.PolicyRule.EastWest
import DsseCore.PolicyRule.Identity
import DsseCore.PolicyRule.Inspection
import DsseCore.PolicyStore.Fidelity
import DsseCore.PolicyStore.GrantUse
import DsseCore.PolicyStore.Undo
import DsseCore.Revocation.Calls
import DsseCore.Revocation.Sync
import DsseCore.SeatAllocation.Pool
import DsseCore.TenantCA.Consistency
import DsseCore.TenantTrust.Cache
import DsseCore.VendorLicense.Views
import DsseCore.Watchdog.Recovery
