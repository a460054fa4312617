import StreamingTts.Client.AnchorOrder
import StreamingTts.Client.AudioHonesty
import StreamingTts.Client.BrowserInput
import StreamingTts.Client.BrowserRuns
import StreamingTts.Client.CursorProgress
import StreamingTts.Client.KeepingUp
import StreamingTts.Client.LeaseExclusivity
import StreamingTts.Client.PoolAccounting
import StreamingTts.Client.RealtimePool
import StreamingTts.Client.RealtimeReplay
import StreamingTts.Client.ResumeServer
import StreamingTts.Engine.AdmissionPriority
import StreamingTts.Engine.CursorDisplay
import StreamingTts.Engine.ResultDelivery
import StreamingTts.Engine.SamplingNoise
import StreamingTts.Engine.SlicePartition
import StreamingTts.Engine.Upkeep
import StreamingTts.Frontend.CausalFrontier
import StreamingTts.Frontend.CommitCoordinates
import StreamingTts.Frontend.Dispatch
import StreamingTts.Frontend.FailedStart
import StreamingTts.Frontend.GuardedDelivery
import StreamingTts.Frontend.JournalMaps
import StreamingTts.Frontend.PrefixSafety
import StreamingTts.Frontend.TextActor
import StreamingTts.Gateway.ConnectionReuse
import StreamingTts.Gateway.DeliveryAgreement
import StreamingTts.Gateway.GrpcOrder
import StreamingTts.Gateway.InputAgreement
import StreamingTts.Gateway.InputInterleaving
import StreamingTts.Gateway.ResumeAdditive
import StreamingTts.Gateway.SessionShim
import StreamingTts.Gateway.VadChunking
import StreamingTts.Gateway.VadConservation
import StreamingTts.Session.Orphans
import StreamingTts.Session.PlaybackProgress
import StreamingTts.Split.ForcedBoundaries
import StreamingTts.Split.Packing
import StreamingTts.Split.RatioRuns
import StreamingTts.Split.TextOrder
