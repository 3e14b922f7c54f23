import Dexa.Lib.Machine
import Dexa.Lib.ArraySlices
import Dexa.Segments.SessionSoundness
import Dexa.Segments.ReusePlan
import Dexa.Segments.Selection
import Dexa.Segments.Reattach
import Dexa.Engine.ConnectorRoundTrip
import Dexa.Engine.ConnectorLoads
import Dexa.Engine.PrefixKeys
import Dexa.Engine.SaveFailures
import Dexa.Engine.LoadCompletions
import Dexa.Engine.ResidentSession
import Dexa.Engine.IncrementalDecoding
import Dexa.Engine.NativeLoad
import Dexa.Engine.RecomputeBudget
import Dexa.Engine.SelectiveBlend
import Dexa.Engine.SelectiveCall
import Dexa.Platform.ExactRepeatCache
import Dexa.Platform.CreditGate
import Dexa.Platform.MeteringRaces
import Dexa.Platform.ResolverRaces
import Dexa.Platform.SignupRaces
import Dexa.Platform.KeyLifecycle
import Dexa.Platform.TierOrder
import Dexa.Platform.SessionContexts
import Dexa.Edge.TurnRaces
import Dexa.Edge.ByocRouting
import Dexa.Edge.KeyCache
import Dexa.Edge.SessionPort
import Dexa.Edge.CreditRuns
import Dexa.Memory.WorkingMemoryBounds
import Dexa.Memory.StoreLru
import Dexa.Memory.StoreIsolation
import Dexa.Memory.OversizePuts
import Dexa.Bench.LMCache
import Dexa.Session.Bf16Rounding
import Dexa.Session.NativeCodec
import Dexa.Session.StoreMap
import Dexa.Session.RoundTrip
import Dexa.Session.Compacted
import Dexa.Session.InterruptedSaves
import Dexa.Serving.FailedTurns
import Dexa.Platform.RestoreSavings
import Dexa.Edge.RestoreSavings
import Dexa.Segments.Rephasing
import Dexa.Engine.AdaptiveLoads
import Dexa.Platform.ImageBilling
import Dexa.Platform.FrameHistory
import Dexa.Edge.SessionIds
import Dexa.Lib.Greedy
import Dexa.Compaction.AttentionMatching
import Dexa.Compaction.HeadBudgets
import Dexa.Compaction.Selectors
import Dexa.Lib.Ridge
import Dexa.Compaction.Selections
import Dexa.Compaction.Fitting
import Dexa.Compaction.KeptTokens
import Dexa.Memory.HeadShares
import Dexa.Memory.SensitiveBudgets
import Dexa.Engine.LosslessCompaction
import Dexa.Engine.CausalAttention
import Dexa.Memory.MemoryAnswers
import Dexa.Cartridges.Distillation
import Dexa.Cartridges.Paging
import Dexa.Platform.UsageBooks
import Dexa.Compaction.ValueFit
import Dexa.Serving.SessionsOnDisk
import Dexa.Compaction.HeavyHitters
