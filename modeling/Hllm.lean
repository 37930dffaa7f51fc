import Hllm.RunInvariants
import Hllm.LargestSums
import Hllm.JsonText
import Hllm.SchedulerModel
import Hllm.SchedulerTickets
import Hllm.SchedulerDelivery
import Hllm.SchedulerFairness
import Hllm.MemoryAccounting
import Hllm.WireMessages
import Hllm.PlanValidation
import Hllm.ControlModel
import Hllm.ControlTransitions
import Hllm.ControlTable
import Hllm.ControlReservations
import Hllm.ControlAdmission
import Hllm.SchedulerBatches
import Hllm.WorkerModel
import Hllm.WorkerMemory
import Hllm.ControlResidency
import Hllm.PlannerModels
import Hllm.KeyedRanks
import Hllm.PlannerPlacement
import Hllm.PlannerRanking
import Hllm.PlanDigest
import Hllm.PlanAcceptance
import Hllm.ControlHistory
import Hllm.ControlRetirement
import Hllm.OrderedDict
import Hllm.QualificationModel
import Hllm.QualificationAcceptance
import Hllm.QualificationMemory
import Hllm.ControlTimeline
import Hllm.QualificationOverlap
import Hllm.RowTransducers
import Hllm.SamplingModel
import Hllm.CpuModel
import Hllm.CpuPrefill
import Hllm.RequestIsolation
import Hllm.TextMatches
import Hllm.StopStrings
import Hllm.BoundaryCodec
import Hllm.ControlAtomicity
import Hllm.SequenceMemory
import Hllm.KvEstimates
import Hllm.DenseLoader
import Hllm.OrderedMap
import Hllm.WeightEstimates
import Hllm.FitAssessment
import Hllm.FitComparisons
import Hllm.FitMonotone
import Hllm.FitTelemetry
import Hllm.SweepModel
import Hllm.SweepVerdicts
import Hllm.SweepResume
import Hllm.LinkProbe
import Hllm.LinkQualification
import Hllm.SequenceReservations
import Hllm.SortedLists
import Hllm.Traversals
import Hllm.SafetensorsReader
import Hllm.SafetensorsAcceptance
import Hllm.WeightChunks
import Hllm.WeightLoading
import Hllm.ServingAdmission
import Hllm.ServingLedger
import Hllm.MeasuredProfiles
import Hllm.MeasuredEvaluation
import Hllm.MeasuredTotals
import Hllm.MeasuredActivation
import Hllm.AcceleratorModel
import Hllm.AcceleratorPasses
import Hllm.AcceleratorRuns
import Hllm.CumulativeWeights
import Hllm.SamplingDistribution
import Hllm.BinaryFormats
import Hllm.HalfPrecision
import Hllm.FixedRows
import Hllm.DecodeBatch
import Hllm.ListPositions
import Hllm.BufferPool
import Hllm.MirroredConversions
import Hllm.ManifestModels
import Hllm.WireMapping
import Hllm.GenerationModel
import Hllm.GenerationEvents
import Hllm.HandlerSites
import Hllm.ExecutionSteps
import Hllm.GenerationPipeline
import Hllm.GenerationLockstep
import Hllm.LockstepRuns
import Hllm.ModelPreparation
import Hllm.PreparedManifests
import Hllm.StageInspection
import Hllm.PreparedLoading
import Hllm.RequestAccounts
import Hllm.ManifestAccounts
import Hllm.ClientRelays
