import LibCxxRt.Exception.Lemmas.ActionRecord
import LibCxxRt.Exception.Impl.Personality
import LibCxxRt.Exception.Impl.Unwinder
import LibCxxRt.Exception.Frame
import LibCxxRt.Exception.Lemmas.Heap
import LibCxxRt.Exception.Lemmas.Personality
import LibCxxRt.Exception.Lemmas.Unwinder
import LibCxxRt.Exception.Lemmas.Resolve
import LibCxxRt.Exception.Lemmas.Frame
import LibCxxRt.Exception.Cleanup
import LibCxxRt.Exception.TwoPhase
import LibCxxRt.Exception.Agreement
import LibCxxRt.Exception.AdjustedPtr
import LibCxxRt.Exception.Client
import LibCxxRt.Util.Chain
import LibCxxRt.Util.Grouped
import LibCxxRt.Exception.Invariant
import LibCxxRt.Exception.Lemmas.Activity
import LibCxxRt.Exception.Lemmas.Owner
import LibCxxRt.Exception.Lemmas.Thread
import LibCxxRt.Exception.Lemmas.View
import LibCxxRt.Exception.Lemmas.Runtime
import LibCxxRt.Exception.Lemmas.State
import LibCxxRt.Exception.Lemmas.Step
import LibCxxRt.Exception.CxxOnly
import LibCxxRt.Exception.RefCount
import LibCxxRt.Exception.CaughtStack
import LibCxxRt.Exception.Tag
import LibCxxRt.Exception.Uncaught
import LibCxxRt.Exception.Disposal
import LibCxxRt.Guard.Impl
import LibCxxRt.Guard.Lemmas.Basic
import LibCxxRt.Guard.Refinement
import LibCxxRt.Guard.Lemmas.SingleWord
import LibCxxRt.Guard.Lemmas.DoubleWord
import LibCxxRt.Guard.Acquire
import LibCxxRt.Emergency.Impl
import LibCxxRt.Emergency.Lemmas.Slots
import LibCxxRt.Emergency.Lemmas.Basic
import LibCxxRt.Emergency.Isolation
import LibCxxRt.Util.Census
import LibCxxRt.Emergency.Lemmas.Runs
import LibCxxRt.Emergency.WakeUp
import LibCxxRt.Emergency.Quota
import LibCxxRt.Util.Traced
import LibCxxRt.Exception.Impl.Access
import LibCxxRt.Exception.Lemmas.Access
import LibCxxRt.Exception.ForeignAccess
import LibCxxRt.Exception.Lemmas.Origin
import LibCxxRt.Exception.Layout
import LibCxxRt.Exception.Lemmas.Transition
import LibCxxRt.Exception.CurrentType
import LibCxxRt.Exception.Construction
import LibCxxRt.Exception.ForeignRethrow
import LibCxxRt.Handlers.Impl
import LibCxxRt.Handlers.ThreadLocal
import LibCxxRt.DwarfEh.Lemmas.Mem
import LibCxxRt.Util.Leb128
import LibCxxRt.Util.Hierarchy
import LibCxxRt.DwarfEh.Lemmas.Leb128
import LibCxxRt.DwarfEh.Lemmas.Value
import LibCxxRt.DwarfEh.Callsite
import LibCxxRt.DwarfEh.Impl.Shift
import LibCxxRt.DwarfEh.RoundTrip
import LibCxxRt.Guard.Assertion
import LibCxxRt.Exception.ActionChain
import LibCxxRt.Exception.Impl.SpecScan
import LibCxxRt.Exception.Specification
import LibCxxRt.TypeInfo.Hierarchy
import LibCxxRt.TypeInfo.Upcast
import LibCxxRt.TypeInfo.Impl.DynamicCast
import LibCxxRt.TypeInfo.DynamicCast
import LibCxxRt.TypeInfo.PointerCatch
import LibCxxRt.TypeInfo.MemberCatch
import LibCxxRt.Exception.Impl.PointerReads
import LibCxxRt.Exception.Lemmas.PointerReads
import LibCxxRt.Exception.NullPointer
import LibCxxRt.Exception.Diagnostics
import LibCxxRt.DwarfEh.Header
import LibCxxRt.Emergency.Impl.Allocation
import LibCxxRt.Emergency.OutOfMemory
import LibCxxRt.ArmCleanup.Impl
import LibCxxRt.ArmCleanup.Nesting
import LibCxxRt.AtExit.Impl
import LibCxxRt.AtExit.Lemmas
import LibCxxRt.AtExit.Order
import LibCxxRt.AtExit.Reentry
import LibCxxRt.Demangle.Contract
import LibCxxRt.Demangle.Gnu3.Impl.Text
import LibCxxRt.Util.Discipline
import LibCxxRt.Util.Growable
import LibCxxRt.Demangle.Gnu3.Impl.Data
import LibCxxRt.Demangle.Gnu3.Impl.Number
import LibCxxRt.Demangle.Gnu3.Impl.Qualifier
import LibCxxRt.Demangle.Gnu3.Impl.Parse
import LibCxxRt.Demangle.Gnu3.Impl
import LibCxxRt.Demangle.Gnu3.Termination
import LibCxxRt.Demangle.Gnu3.RoundTrip
import LibCxxRt.Demangle.Gnu3.Mangling
