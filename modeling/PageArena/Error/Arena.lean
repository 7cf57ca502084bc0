/-
What goes wrong in managing memory: in regions, in the allocators over them, and in the
calls to the operating system on their behalf.

Each error is a cause with its numbers.  The wording, the category and the written form are
functions of it, so no text is built anywhere else.
-/
import PageArena.Error.Cause
import PageArena.Error.Host
import PageArena.OsCall
import PageArena.Word

namespace PageArena

/-- The arithmetic of addresses that can leave the words. -/
inductive Arithmetic where
  | add
  | sub
  | mul
  | roundUp
  deriving DecidableEq, Repr

instance : Worded Arithmetic where
  words
    | .add => "add"
    | .sub => "sub"
    | .mul => "mul"
    | .roundUp => "align_up"

/-- What a layout can be refused for. -/
inductive LayoutFault where
  | emptyRegion
  deriving DecidableEq, Repr

instance : Worded LayoutFault where
  words
    | .emptyRegion => "region size must be greater than 0"

/-- Use of an object that is not in a state for it. -/
inductive StateFault where
  | regionClosed
  | regionAlreadyClosed
  | noCheckpoints
  /-- The handle is not that of the newest checkpoint. -/
  | staleHandle (index depth : Nat)
  | heapClosed
  | heapAlreadyClosed
  | poolClosed
  | poolAlreadyClosed
  deriving DecidableEq, Repr

instance : Worded StateFault where
  words
    | .regionClosed => "region is closed"
    | .regionAlreadyClosed => "region already closed"
    | .noCheckpoints => "region has no checkpoints"
    | .staleHandle index depth => s!"corrupted checkpoint index {index} (depth {depth})"
    | .heapClosed => "heap allocator is closed"
    | .heapAlreadyClosed => "heap allocator already closed"
    | .poolClosed => "pool allocator is closed"
    | .poolAlreadyClosed => "pool allocator already closed"

/-- What a tuning can be refused for. -/
inductive TuningFault where
  | emptyBatch
  | thresholdBelowBatch
  | noCheckpointCapacity
  | noLogCapacity
  deriving DecidableEq, Repr

instance : Worded TuningFault where
  words
    | .emptyBatch => "decommit_pages must be greater than 0"
    | .thresholdBelowBatch => "decommit_threshold_pages must be at least decommit_pages"
    | .noCheckpointCapacity => "checkpoint_capacity must be greater than 0"
    | .noLogCapacity => "log_capacity must be greater than 0"

instance : Worded OsCall where
  words := OsCall.name

/-- An error of a region, an allocator or the calls beneath them. -/
inductive ArenaError where
  | allocationFailed (size align : Nat)
  | invalidLayout (why : Cause LayoutFault)
  | sizeOverflow (operation : Cause Arithmetic)
  | invalidAlignment (align : Nat)
  /-- A slice would end at `requested` in a region of `capacity` bytes. -/
  | outOfBounds (requested capacity : Nat)
  | invalidState (why : Cause StateFault)
  /-- A call to the operating system failed with an error number. -/
  | osFailure (call : Cause OsCall) (code : Int)
  | unsupportedPlatform (os : String)
  | invalidTuning (why : Cause TuningFault)
  /-- The host failed first. -/
  | host (error : HostError)
  deriving DecidableEq, Repr

namespace ArenaError

/-- The error's category. -/
def code : ArenaError → String
  | .allocationFailed _ _ => "MEM:ALLOC:FAILED"
  | .invalidLayout _ => "MEM:ALLOC:LAYOUT"
  | .sizeOverflow _ => "MEM:ALLOC:OVERFLOW"
  | .invalidAlignment _ => "MEM:ALLOC:ALIGN"
  | .outOfBounds _ _ => "MEM:REGION:BOUNDS"
  | .invalidState _ => "MEM:SYSTEM:STATE"
  | .osFailure _ _ => "MEM:OS:FAILED"
  | .unsupportedPlatform _ => "MEM:OS:UNSUPPORTED"
  | .invalidTuning _ => "MEM:CONFIG:INVALID"
  | .host _ => "MEM:SYSTEM"

/-- The error in a sentence.  An error of the host speaks for itself. -/
def message : ArenaError → String
  | .allocationFailed size align =>
    s!"Memory allocation failed: {size} bytes with {align} byte alignment"
  | .invalidLayout why => "Invalid memory layout: " ++ why.words
  | .sizeOverflow operation => "Size overflow during operation: " ++ operation.words
  | .invalidAlignment align => s!"Invalid alignment: {align}"
  | .outOfBounds requested capacity =>
    s!"Region capacity exceeded: cursor would reach {requested} bytes of {capacity}"
  | .invalidState why => "Invalid state: " ++ why.words
  | .osFailure call code => s!"OS operation '{call.words}' failed (code {code})"
  | .unsupportedPlatform os => "Unsupported platform: " ++ os
  | .invalidTuning why => "Invalid configuration: " ++ why.words
  | .host error => error.message

/-- Whether an object was used in a state that does not allow it. -/
def isInvalidState : ArenaError → Bool
  | .invalidState _ => true
  | _ => false

/-- Whether a slice would have passed the end of its region. -/
def isOutOfBounds : ArenaError → Bool
  | .outOfBounds _ _ => true
  | _ => false

/-- The error written out with its parts. -/
def describe (e : ArenaError) : String :=
  let one (name field text : String) := Text.record .compact name [(field, text)] false
  match e with
  | .allocationFailed size align =>
    Text.record .compact "AllocationFailed"
      [("size", toString size), ("align", toString align)] false
  | .invalidLayout why => one "InvalidLayout" "reason" (Text.quoted why.words)
  | .sizeOverflow operation => one "SizeOverflow" "operation" (Text.quoted operation.words)
  | .invalidAlignment align => one "InvalidAlignment" "alignment" (toString align)
  | .outOfBounds requested capacity =>
    Text.record .compact "OutOfBounds"
      [("requested", toString requested), ("capacity", toString capacity)] false
  | .invalidState why => one "InvalidState" "reason" (Text.quoted why.words)
  | .osFailure call code =>
    Text.record .compact "OsOperation"
      [("operation", Text.quoted call.words), ("code", toString code)] false
  | .unsupportedPlatform os => one "UnsupportedPlatform" "os" (Text.quoted os)
  | .invalidTuning why => one "InvalidConfig" "reason" (Text.quoted why.words)
  | .host error => Text.tuple .compact "System" [error.describe]

end ArenaError

/-! ### Arithmetic that reports what it cannot do -/

namespace Arithmetic

/-- The result of an operation on words, or the overflow of that operation. -/
def result (operation : Arithmetic) (value : Option Nat) : Except ArenaError Nat :=
  match value with
  | some n => .ok n
  | none => .error (.sizeOverflow operation)

end Arithmetic

namespace Checked

/-- The sum, or the overflow. -/
def add (a b : Nat) : Except ArenaError Nat :=
  Arithmetic.add.result (Word.add? a b)

/-- The difference, or the overflow when it would be negative. -/
def sub (a b : Nat) : Except ArenaError Nat :=
  Arithmetic.sub.result (Word.sub? a b)

/-- The product, or the overflow. -/
def mul (a b : Nat) : Except ArenaError Nat :=
  Arithmetic.mul.result (Word.mul? a b)

/-- The next multiple of a power of two, or the overflow. -/
def roundUp (value align : Nat) : Except ArenaError Nat :=
  Arithmetic.roundUp.result (Word.roundUp? value align)

/-- Rounding, where it is defined: the alignment must be a power of two. -/
def roundUp? (value align : Nat) : Option (Except ArenaError Nat) :=
  if Word.isPowerOfTwo align then some (roundUp value align) else none

/-- The test for a multiple, where it is defined: the alignment must not be zero. -/
def isMultiple? (value align : Nat) : Option Bool :=
  if align = 0 then none else some (Word.isMultiple value align)

/-- Refuses an alignment that is no power of two. -/
def alignment (align : Nat) : Except ArenaError Unit :=
  if Word.isPowerOfTwo align then .ok () else .error (.invalidAlignment align)

end Checked

end PageArena
