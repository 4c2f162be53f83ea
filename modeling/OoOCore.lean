import OoOCore.Lib.Ring
import OoOCore.Lib.Renaming
import OoOCore.Lib.Overwrite
import OoOCore.Lib.Fold
import OoOCore.Lib.Rv32
import OoOCore.Lib.Rv32Machine
import OoOCore.Lib.Recency
import OoOCore.Lib.Serial
import OoOCore.Lib.Path
import OoOCore.Types
import OoOCore.Decode
import OoOCore.Rename
import OoOCore.ReorderBuffer
import OoOCore.IssueQueue
import OoOCore.StoreBuffer
import OoOCore.LoadStoreQueue
import OoOCore.Execute
import OoOCore.Retire
import OoOCore.CsrFrame
import OoOCore.Backend
import OoOCore.Core
import OoOCore.IssueSelection
import OoOCore.ControlFlow
import OoOCore.RobWindow
import OoOCore.LsqWindow
import OoOCore.Dispatch
import OoOCore.IssueStep
import OoOCore.Retirement
import OoOCore.RobStep
import OoOCore.Places
import OoOCore.InFlight
import OoOCore.MemoryOrder
import OoOCore.RenameRefinement
import OoOCore.Sources
import OoOCore.Isolation
import OoOCore.StoreFifo
import OoOCore.History
import OoOCore.StoreOrder
import OoOCore.Values
import OoOCore.Traps
import OoOCore.LoadBytes
import OoOCore.StoreQuery
import OoOCore.LoadQuery
import OoOCore.StoreAddresses
import OoOCore.LoadOrder
import OoOCore.LoadValues
import OoOCore.Operands
import OoOCore.Producers
import OoOCore.LsqForwarding
import OoOCore.StoreForwarding
import OoOCore.DataCache
import OoOCore.CacheMemory
import OoOCore.CacheControl
import OoOCore.CacheCoherence
import OoOCore.CacheResponses
import OoOCore.CacheProgress
import OoOCore.DataMemory
import OoOCore.CachedMemory
import OoOCore.BranchTables
import OoOCore.TargetBuffer
import OoOCore.FoldedHistory
import OoOCore.TageTables
import OoOCore.HashMatrix
import OoOCore.LoopPredictor
import OoOCore.LoopLog
import OoOCore.LoopIterations
import OoOCore.TopCpu
import OoOCore.Drain
import OoOCore.Resolution
import OoOCore.Training
import OoOCore.StatisticalCorrector
import OoOCore.TableReads
import OoOCore.CorrectorFolds
import OoOCore.TagePredictor
import OoOCore.Allocation
import OoOCore.BranchPredictionUnit
import OoOCore.ReturnStack
import OoOCore.Serialization
import OoOCore.TageKeys
import OoOCore.Revalidation
import OoOCore.InstructionCache
import OoOCore.FrontEnd
import OoOCore.InsnLines
import OoOCore.FetchIntegrity
import OoOCore.FetchOrder
import OoOCore.HistoryRecovery
import OoOCore.InstructionSet
import OoOCore.RobHistory
import OoOCore.OutstandingLoads
import OoOCore.DispatchAtomicity
import OoOCore.IntegerExecution
import OoOCore.IssueAge
import OoOCore.IssueSteering
import OoOCore.RetiredCount
import OoOCore.CommitAgreement
import OoOCore.Dataflow
import OoOCore.RetiredExecution
import OoOCore.MemoryOperands
import OoOCore.RetiredMemory
import OoOCore.RetiredLoads
import OoOCore.MachineStep
import OoOCore.FaultReports
import OoOCore.FetchPath
import OoOCore.ProgramPath
import OoOCore.CacheTwin
import OoOCore.CoreRefinement
import OoOCore.CommitReports
