import Cpueaxh.ProbeSearch
import Cpueaxh.IntervalTable
import Cpueaxh.Transition
import Cpueaxh.Program
import Cpueaxh.Trace
import Cpueaxh.HostMemory
import Cpueaxh.MemoryManager
import Cpueaxh.RegionTable
import Cpueaxh.RegionStorage
import Cpueaxh.PageMap
import Cpueaxh.RegionEdit
import Cpueaxh.PageEdit
import Cpueaxh.RangeLoop
import Cpueaxh.LayoutRuns
import Cpueaxh.PageRefinement
import Cpueaxh.LayoutFailure
import Cpueaxh.MemoryAccess
import Cpueaxh.MemoryCalls
import Cpueaxh.CpuContext
import Cpueaxh.CpuAccess
import Cpueaxh.GuestMemory
import Cpueaxh.FarTransfer
import Cpueaxh.Escapes
import Cpueaxh.Executor
import Cpueaxh.EmuStart
import Cpueaxh.EngineApi
import Cpueaxh.StepFrame
import Cpueaxh.Fetch
import Cpueaxh.SampleInstructions
import Cpueaxh.EngineFrame
import Cpueaxh.EngineRuns
import Cpueaxh.CodeRuns
import Cpueaxh.CacheRuns
import Cpueaxh.CacheFree
import Cpueaxh.Operands
import Cpueaxh.PatchTable
import Cpueaxh.PatchOverlay
import Cpueaxh.PatchRuns
import Cpueaxh.FarOutcome
import Cpueaxh.IretFrame
import Cpueaxh.ControlFlow
import Cpueaxh.CompatRip
import Cpueaxh.SlotScan
import Cpueaxh.HookTable
import Cpueaxh.HookDispatch
import Cpueaxh.EscapeTable
import Cpueaxh.EscapeMarks
import Cpueaxh.SegmentLoad
import Cpueaxh.LegalLoad
import Cpueaxh.FarRoundTrip
import Cpueaxh.Repetition
import Cpueaxh.SubtractionFlags
import Cpueaxh.StringOps
import Cpueaxh.StringElement
import Cpueaxh.RepTurns
import Cpueaxh.RepSteps
import Cpueaxh.RepRestart
import Cpueaxh.EffectiveAddress
import Cpueaxh.AddressLaw
import Cpueaxh.LeaLaw
import Cpueaxh.OperandLength
import Cpueaxh.Pop
import Cpueaxh.PopOutcome
import Cpueaxh.PopLaw
import Cpueaxh.ByteOrder
import Cpueaxh.LinearBytes
import Cpueaxh.WideAccess
import Cpueaxh.FloatState
import Cpueaxh.FloatRestore
import Cpueaxh.AccessTrace
import Cpueaxh.Lanes
import Cpueaxh.MaskedLanes
import Cpueaxh.MaskedAccess
import Cpueaxh.MaskedLaw
import Cpueaxh.MaskedInstructions
import Cpueaxh.Evex
import Cpueaxh.EvexOperands
import Cpueaxh.EvexRuns
import Cpueaxh.EvexLaw
import Cpueaxh.HostCalls
import Cpueaxh.HostAtomicity
import Cpueaxh.PublicContext
import Cpueaxh.HostedEngine
import Cpueaxh.EscapeEncoding
import Cpueaxh.EscapeDispatch
import Cpueaxh.HostedFrame
import Cpueaxh.Redirect
import Cpueaxh.HostedRuns
import Cpueaxh.HookChanges
import Cpueaxh.Surroundings
import Cpueaxh.VisibleContext
import Cpueaxh.AlikeSteps
import Cpueaxh.ContextRestore
import Cpueaxh.RestoringDivision
import Cpueaxh.RegisterWords
import Cpueaxh.RegisterOperands
import Cpueaxh.FlagWords
import Cpueaxh.Division
import Cpueaxh.DivisionLaw
import Cpueaxh.Rotate
import Cpueaxh.RotateLaw
import Cpueaxh.CarryArithmetic
import Cpueaxh.Arithmetic
import Cpueaxh.ArithmeticLaw
import Cpueaxh.DoubleShift
import Cpueaxh.DoubleShiftLaw
import Cpueaxh.StackTransfers
import Cpueaxh.AtomicAccess
import Cpueaxh.BitTest
import Cpueaxh.BitTestLaw
import Cpueaxh.CompareExchange
import Cpueaxh.CompareExchangeLaw
import Cpueaxh.BlindPrograms
import Cpueaxh.InlineBranches
import Cpueaxh.InlineLaw
import Cpueaxh.Copies
import Cpueaxh.EnterLaw
import Cpueaxh.BitMoves
import Cpueaxh.Crc32
import Cpueaxh.Sha256
import Cpueaxh.InvalidHooks
import Cpueaxh.InvalidHooksCost
import Cpueaxh.InvalidHooksLaw
import Cpueaxh.Shift
import Cpueaxh.ShiftLaw
import Cpueaxh.FlagImage
import Cpueaxh.FlagImageLaw
import Cpueaxh.ReplayLaw
import Cpueaxh.PackedLaw
import Cpueaxh.StringBlocks
import Cpueaxh.Conditions
import Cpueaxh.MultiplyLaw
import Cpueaxh.Resumption
import Cpueaxh.InPlace
import Cpueaxh.InPlaceLaw
import Cpueaxh.Interleaving
import Cpueaxh.TaskRules
import Cpueaxh.SharedMemory
import Cpueaxh.LockedCounter
import Cpueaxh.BitScan
