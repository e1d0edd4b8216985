import LibCxxRt.Guard.Lemmas.DoubleWord
import LibCxxRt.Guard.Lemmas.SingleWord

/-!
This module contains the main theorem about the initialisation of static variables. It holds for both
guards, wherever their bits are.
-/

namespace LibCxxRt

open Util

theorem guard_initialisesOnce
    : (∀ w, ∀ layout : GuardLayout w, InitialisesOnce SingleWordGuard.init (SingleWordGuard.step layout))
      ∧ ∀ layout, InitialisesOnce DoubleWordGuard.init (DoubleWordGuard.step layout) := by
  constructor
  . intro w layout
    exact (SingleWordGuard.refinement layout).initialisesOnce
  . intro layout
    exact (DoubleWordGuard.refinement layout).initialisesOnce

-- thread 0 aborts, thread 1 initialises the variable, and thread 2 finds it initialised
theorem guard_initialisesOnce_three
    : ((run (SingleWordGuard.step .lp64LittleEndian) SingleWordGuard.init
          [(0, .acquire), (0, .run false), (0, .run false), (0, .abort), (0, .run false),
            (1, .acquire), (1, .run false), (1, .run false), (1, .release), (1, .run false),
            (2, .acquire), (2, .run false)]).map (·.log)
        = some [.acquired 0 true, .aborting 0, .left 0, .acquired 1 true, .releasing 1, .stored 1,
            .left 1, .acquired 2 false]
        ∧ InitialisesOnce SingleWordGuard.init (SingleWordGuard.step .lp64LittleEndian))
      ∧ (run (DoubleWordGuard.step .ilp32LittleEndian) DoubleWordGuard.init
          [(0, .acquire), (0, .run false), (0, .run false), (0, .run false), (0, .abort),
            (0, .run false), (0, .run false), (0, .run false), (1, .acquire), (1, .run false),
            (1, .run false), (1, .run false), (1, .release), (1, .run false), (1, .run false),
            (1, .run false), (2, .acquire), (2, .run false)]).map (·.log)
        = some [.acquired 0 true, .aborting 0, .left 0, .acquired 1 true, .releasing 1, .stored 1,
            .left 1, .acquired 2 false]
        ∧ InitialisesOnce DoubleWordGuard.init (DoubleWordGuard.step .ilp32LittleEndian) := by
  exact ⟨⟨by decide, guard_initialisesOnce.1 64 .lp64LittleEndian⟩, by decide,
    guard_initialisesOnce.2 .ilp32LittleEndian⟩

end LibCxxRt
