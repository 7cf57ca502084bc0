/-
Buffers of raw memory, used directly.

A caller numbers the buffers it allocates from the heap and works on their bytes.  Fresh
bytes are set to zero first, so nothing that is read here depends on what the heap held.
Every access has to stay within its buffer, and an access that does not is refused.

Copying between ranges that overlap breaks the condition under which copying may be used;
that is a defect of the caller and not an error, and it is answered as one.
-/
import PageArena.Raw.Surface
import PageArena.Session.Slots

namespace PageArena

/-- An allocation with the size its owner asked for. -/
structure Buffer where
  allocation : Allocation
  size : Nat
  deriving DecidableEq, Repr

/-- The buffers of one caller. -/
abbrev Buffers := Slots Buffer

namespace Buffers

/-- A part of a buffer: its number, and where the part begins. -/
structure Place where
  buffer : Nat
  offset : Nat
  deriving DecidableEq, Repr

/-- One step with buffers. -/
inductive Step where
  | allocate (size : Nat)
  | allocateAligned (size align : Nat)
  | resize (buffer size : Nat)
  | release (buffer : Nat)
  | releaseBatch (buffers : List Nat)
  | write (target : Place) (bytes : Array UInt8)
  | read (source : Place) (length : Nat)
  | fill (target : Place) (byte : UInt8) (length : Nat)
  | copy (target source : Place) (length : Nat)
  | move (target source : Place) (length : Nat)
  | compare (first second : Place) (length : Nat)
  | find (source : Place) (byte : UInt8) (length : Nat)
  /-- A step that cannot be understood, and whether it would have made a buffer. -/
  | malformed (makes : Bool)
  deriving DecidableEq, Repr

/-- Whether a step takes the next number. -/
def Step.makes : Step → Bool
  | .allocate .. | .allocateAligned .. => true
  | .malformed makes => makes
  | _ => false

/-- What a step answers when it succeeds. -/
inductive Value where
  | nothing
  | buffer (number : Nat) (aligned : Bool)
  | size (bytes : Nat)
  | kinds (kinds : List Primitive)
  | bytes (values : Array UInt8)
  | order (order : Ordering)
  | position (offset : Option Nat)
  deriving DecidableEq, Repr

/-- Why a step did not succeed. -/
inductive Failure where
  /-- The step names a buffer that is not there or reaches beyond it; nothing was done. -/
  | refused
  /-- Ranges overlap that must not; nothing was done. -/
  | overlapping
  | error (error : HostError)
  deriving DecidableEq, Repr

/-- What is answered to a step. -/
structure Answer where
  outcome : Except Failure Value
  log : List Event

/-- A step at work. -/
abbrev Work (α : Type) : Type := Act Failure Buffers α

/-- The buffer of a number, or a refusal. -/
def buffer (number : Nat) : Work Buffer := do
  match (← Act.self).find? number with
  | some b => return b
  | none => Act.fail .refused

/-- The address of a part of a buffer that holds so many bytes, or a refusal. -/
def locate (place : Place) (length : Nat) : Work Nat := do
  let b ← buffer place.buffer
  if place.offset + length ≤ b.size then return b.allocation.address + place.offset
  else Act.fail .refused

/-- Works on the bytes of the heap. -/
def onBytes {α : Type} (change : Memory → α × Memory) : Work α :=
  Act.heap fun h =>
    let (answer, memory) := change h.memory
    (answer, { h with memory := memory })

/-- Sets fresh bytes to zero. -/
def clear (start length : Nat) : Work Unit :=
  onBytes fun m => ((), m.fill start length 0)

/-- Takes the next number for an allocation that was just made. -/
def keep (a : Allocation) (size align : Nat) : Work Value := do
  clear a.address size
  let number := (← Act.self).next
  Act.update fun s => s.push (some ⟨a, size⟩)
  return .buffer number (a.address % align == 0)

/-- Carries out a step. -/
def perform (step : Step) : Work Value := do
  match step with
  | .allocate size =>
    let address ← (RawSource.FromHeap.allocate size).mapError .error
    keep ⟨address, .plain⟩ size Primitive.naturalAlign
  | .allocateAligned size align =>
    let address ← (RawSource.FromHeap.allocateAligned size align).mapError .error
    keep ⟨address, .aligned⟩ size align
  | .resize number size =>
    let b ← buffer number
    if b.allocation.kind = .aligned then Act.fail .refused
    else
      Act.update fun s => s.put number none
      let address ← (RawSource.FromHeap.resize b.allocation.address size).mapError .error
      clear (address + b.size) (size - b.size)
      Act.update fun s => s.put number (some ⟨⟨address, .plain⟩, size⟩)
      return .size size
  | .release number =>
    let b ← buffer number
    RawSource.heap.release b.allocation
    Act.update fun s => s.put number none
    return .nothing
  | .releaseBatch numbers =>
    let entries ← numbers.mapM fun number => return (← buffer number).allocation
    if numbers.Nodup then
      RawSource.heap.releaseBatch entries
      Act.update fun s => numbers.foldl (fun s number => s.put number none) s
      return .kinds (entries.map Allocation.kind)
    else Act.fail .refused
  | .write target bytes =>
    let start ← locate target bytes.size
    onBytes fun m => (.nothing, m.store start bytes)
  | .read source length =>
    let start ← locate source length
    onBytes fun m => (.bytes (m.load start length), m)
  | .fill target byte length =>
    let start ← locate target length
    onBytes fun m => (.nothing, m.fill start length byte)
  | .copy target source length =>
    let target ← locate target length
    let source ← locate source length
    match RawBytes.copy? (← Act.world).heap.memory target source length with
    | some memory => onBytes fun _ => (.nothing, memory)
    | none => Act.fail .overlapping
  | .move target source length =>
    let target ← locate target length
    let source ← locate source length
    onBytes fun m => (.nothing, RawBytes.move m target source length)
  | .compare first second length =>
    let first ← locate first length
    let second ← locate second length
    onBytes fun m => (.order (RawBytes.compare m first second length), m)
  | .find source byte length =>
    let start ← locate source length
    onBytes fun m => (.position (RawBytes.find? m start byte length), m)
  | .malformed _ => Act.fail .refused

/-- Carries out a step and answers it; if it fails, the number of the buffer it would have
made is used up. -/
def answer (step : Step) (w : World Buffers) : Answer × World Buffers :=
  match (perform step).run { w with log := [] } with
  | (.ok value, w) => (⟨.ok value, w.log⟩, w)
  | (.error failure, w) =>
    (⟨.error failure, w.log⟩, if step.makes then { w with self := w.self.push none } else w)

/-- Carries out steps one after another. -/
def run : List Step → World Buffers → List Answer
  | [], _ => []
  | step :: rest, w =>
    let (first, w) := answer step w
    first :: run rest w

/-- The answers to steps, from nothing. -/
def serve (steps : List Step) : List Answer :=
  run steps { self := {} }

end Buffers

end PageArena
