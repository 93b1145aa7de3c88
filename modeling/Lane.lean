import Lane.Contract.BulkAdd
import Lane.Contract.CandidateOwnership
import Lane.Contract.ChildCollection
import Lane.Contract.ClaimDiscipline
import Lane.Contract.CommandConservation
import Lane.Contract.DateTexts
import Lane.Contract.DeadlineBoost
import Lane.Contract.DeduplicationOwnership
import Lane.Contract.DependencyViews
import Lane.Contract.DispatchOrder
import Lane.Contract.FailureAtomicity
import Lane.Contract.FailurePropagation
import Lane.Contract.FinalizationOwnership
import Lane.Contract.FlowAcyclicity
import Lane.Contract.GracefulShutdown
import Lane.Contract.LaneCapacity
import Lane.Contract.LastingFailures
import Lane.Contract.LeaseCleanup
import Lane.Contract.LeaseExclusivity
import Lane.Contract.LeaseRegistry
import Lane.Contract.LifecycleCoherence
import Lane.Contract.LinkSymmetry
import Lane.Contract.LocalDurability
import Lane.Contract.LogRanges
import Lane.Contract.MinuteMetrics
import Lane.Contract.PartitionBalance
import Lane.Contract.PoolDelivery
import Lane.Contract.RedisClaims
import Lane.Contract.RedisLeases
import Lane.Contract.RedisLimits
import Lane.Contract.RetentionAgreement
import Lane.Contract.RetryBudget
import Lane.Contract.SchedulePunctuality
import Lane.Contract.SequenceRebasing
import Lane.Contract.SeriesOwnership
import Lane.Contract.SnapshotFiles
import Lane.Contract.StableOrder
import Lane.Contract.StorageFiles
import Lane.Contract.TokenArithmetic
import Lane.Contract.TokenIssue
import Lane.Contract.TokenSpending
import Lane.Contract.WindowAdmission
import Lane.Redis.ScoreRange
