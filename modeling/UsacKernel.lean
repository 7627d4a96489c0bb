import UsacKernel.Computation.WordAlign
import UsacKernel.Computation.Mealy
import UsacKernel.Computation.LockedObject
import UsacKernel.Computation.KeyedList
import UsacKernel.Computation.Intervals
import UsacKernel.Computation.TestThenAct
import UsacKernel.Computation.LockProgram
import UsacKernel.Computation.LockTriple
import UsacKernel.Computation.ByteImage
import UsacKernel.Computation.IntExpr
import UsacKernel.Computation.Declaration
import UsacKernel.Computation.GapSearch
import UsacKernel.Computation.Retry
import UsacKernel.Model.Machine
import UsacKernel.Model.AddressSpace
import UsacKernel.Model.Task
import UsacKernel.Model.MemoryLimit
import UsacKernel.Model.Mapping
import UsacKernel.Model.SystemCalls
import UsacKernel.Model.FreeRange
import UsacKernel.Model.ProcessLife
import UsacKernel.Model.LockPrograms
import UsacKernel.Model.ProcessStats
import UsacKernel.Model.StatsArithmetic
import UsacKernel.Model.UserDeclarations
import UsacKernel.Model.LimitRecords
import UsacKernel.Model.SyscallUsage
import UsacKernel.Model.SystemInfo
import UsacKernel.Interface.LimitMap
import UsacKernel.Interface.InsertionTimes
import UsacKernel.Analysis.RegistryRefinement
import UsacKernel.Analysis.RegistryErasure
import UsacKernel.Analysis.Accounting
import UsacKernel.Analysis.Layout
import UsacKernel.Analysis.LimitEnforcement
import UsacKernel.Analysis.ProcessIdentity
import UsacKernel.Analysis.ConcurrentMmap
import UsacKernel.Analysis.LimitLifetime
import UsacKernel.Analysis.LockDiscipline
import UsacKernel.Analysis.ProgramRuns
import UsacKernel.Analysis.ProcessStatistics
import UsacKernel.Analysis.LimitListing
import UsacKernel.Analysis.UninitialisedBytes
import UsacKernel.Analysis.RequestTest
import UsacKernel.Analysis.SyscallCounting
import UsacKernel.Analysis.CpuReadings
import UsacKernel.Analysis.MemorySnapshot
import UsacKernel.Analysis.NegativeLimits
import UsacKernel.Analysis.TamallocContract
import UsacKernel.Analysis.UserDecoding
import UsacKernel.Analysis.UsageFigures
import UsacKernel.Analysis.FreeRangeSearch
import UsacKernel.Analysis.FreeRangeMethods
import UsacKernel.Analysis.AreaInvariant
import UsacKernel.Analysis.AreaMerge
import UsacKernel.Analysis.AreaSplit
import UsacKernel.Analysis.AreaUnmap
import UsacKernel.Analysis.PageCounts
import UsacKernel.Analysis.RegionExpand
import UsacKernel.Analysis.RegionMap
import UsacKernel.Analysis.AreaContracts
import UsacKernel.Analysis.MmapRegion
import UsacKernel.Analysis.HeapBreak
import UsacKernel.Analysis.StackGrowth
import UsacKernel.Analysis.KernelCallers
import UsacKernel.Analysis.SpaceRuns
import UsacKernel.Analysis.LimitedRuns
import UsacKernel.Analysis.ListMeaning
import UsacKernel.Analysis.ListRelation
import UsacKernel.Analysis.ListMapping
import UsacKernel.Analysis.ListBreak
import UsacKernel.Analysis.TwoModels
