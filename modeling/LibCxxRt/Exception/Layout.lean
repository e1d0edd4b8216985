import LibCxxRt.Exception.Impl.Access
import LibCxxRt.Exception.Lemmas.Heap

/-!
This module contains `__cxa_exception` as it lies in memory. It takes up 128 bytes, the thrown object
begins right behind it. Of `unwindHeader`, which begins at offset 96, only the class of the exception
is a word that the model knows.
-/

namespace LibCxxRt

namespace CountWord

def word (img : Image) : CountWord → Addr
  | .referenceCount n => BitVec.ofNat 64 n
  | .primaryException p => (p.map img.addr).getD 0

end CountWord

namespace CxaException

-- the word at an offset, `handlerCount` and `handlerSwitchValue` share one
def word (img : Image) (e : CxaException) : Int → Option Addr
  | 8 => some (e.countWord.word img)
  | 16 => some e.exceptionType
  | 24 => some e.exceptionDestructor
  | 32 => some e.unexpectedHandler
  | 40 => some e.terminateHandler
  | 48 => some ((e.nextException.map img.addr).getD 0)
  | 56 => some (e.handlerSwitchValue ++ BitVec.ofInt 32 e.handlerCount)
  | 64 => some e.actionRecord
  | 72 => some e.languageSpecificData
  | 80 => some e.catchTemp
  | 88 => some e.adjustedPtr
  | 96 => some e.unwindHeader.exceptionClass
  | _ => none

end CxaException

namespace Heap

def word (img : Image) (h : Heap) (p : Ptr) : Option Addr :=
  match h p.block with
  | some (.cxx e) => e.word img p.off
  | _ => none

variable {h : Heap} {b : Nat} {e : CxaException}

theorem word_of_cxx (img : Image) (hb : h b = some (.cxx e)) (o : Int)
    : h.word img ⟨b, o⟩ = e.word img o := by
  unfold word
  rw [hb]

/--
`p->exceptionType` is the word 16 bytes behind `p`, be `p` a pointer to the header or one to its field
`unexpectedHandler`.
-/
theorem exceptionTypeAt_eq_word (img : Image) (hb : h b = some (.cxx e)) {o : Int}
    (ho : o = 0 ∨ o = 32)
    : (h.exceptionTypeAt img ⟨b, o⟩).toOption
        =
      h.word img (Ptr.add ⟨b, o⟩ Access.exceptionType) := by
  rw [Ptr.add_mk, word_of_cxx img hb]
  rcases ho with rfl | rfl
  . unfold exceptionTypeAt
    rw [if_neg (by simp), Heap.cxa_of_cxx hb]
    rfl
  . unfold exceptionTypeAt
    rw [if_pos rfl, Ptr.add_mk]
    erw [Heap.tail_of_cxx hb]
    rfl

end Heap

end LibCxxRt
