import PortageEngine.Build.ResolvedContext
import PortageEngine.Build.ChargedResources
import PortageEngine.Ledger.Settlement
import PortageEngine.Ledger.Quota
import PortageEngine.Replica.Fencing
import PortageEngine.Packages.Merge
import PortageEngine.Packages.Versions
import PortageEngine.Publication.History
import PortageEngine.Ledger.RetryBudget
import PortageEngine.Ledger.Starvation
import PortageEngine.Capacity.Dwell
import PortageEngine.Capacity.Guards
import PortageEngine.Capacity.Drain
import PortageEngine.Ledger.StormGate
import PortageEngine.Ledger.Reclaim
import PortageEngine.Compile.SlotSafety
import PortageEngine.Gateway.Results
import PortageEngine.Gateway.UploadDurability
import PortageEngine.Reports.FailureTexts
import PortageEngine.Iam.Logout
import PortageEngine.Machines.StateRetention
import PortageEngine.Signing.Recovery
import PortageEngine.Routing.HardRouting
import PortageEngine.Ledger.ArtifactBudgets
import PortageEngine.Ledger.BuildTotals
import PortageEngine.Builder.SingleUse
import PortageEngine.Builder.LogIngestion
import PortageEngine.Builder.Collection
import PortageEngine.Builder.JobFile
import PortageEngine.Egress.Firewall
import PortageEngine.RuntimeCache.TokenBucket
import PortageEngine.Server.ClientAddress
