/-
Tuning of regions and heap allocators.

A tuning is plain data.  It starts from a preset and is adjusted one setting at a time; no
setting is refused when it is made.  Whether the whole makes sense is asked once, by
`validate`, which names the first rule that is broken: a batch holds at least one page, the
threshold is not below the batch, and capacities are not zero.

The second rule is what makes giving pages back safe: pages are only given back when more
than a threshold of them lies idle, so a batch never reaches below what is in use.

Capacities have no upper rule.  Room that no object can have is asked for by mistake, and it
is found when the object is made: `fits` says whether the room can be had, and nothing is
made where it cannot.
-/
import PageArena.Duration
import PageArena.Error.Arena

namespace PageArena

/-- Tuning of a region. -/
structure RegionTuning where
  /-- Pages given back at once. -/
  batchPages : Nat := 32
  /-- A rollback considers giving pages back when more than this many lie idle. -/
  thresholdPages : Nat := 64
  /-- The least time between giving pages back twice. -/
  cooldown : Duration := Duration.ofMilliseconds 200
  /-- How many checkpoints the stack has room for at first. -/
  checkpointCapacity : Nat := 4
  deriving DecidableEq, Repr

namespace RegionTuning

/-- Named starting points. -/
inductive Preset where
  | standard
  | lowMemory
  | throughput
  deriving DecidableEq, Repr

/-- The tuning of a preset: low memory gives pages back as soon as a whole batch lies idle,
throughput keeps them longer. -/
def Preset.tuning : Preset → RegionTuning
  | .standard => {}
  | .lowMemory => { thresholdPages := 32, cooldown := Duration.ofMilliseconds 50 }
  | .throughput => { cooldown := Duration.ofSeconds 1 }

/-- One adjustment of a tuning. -/
inductive Setting where
  | batchPages (pages : Nat)
  | thresholdPages (pages : Nat)
  | cooldown (time : Duration)
  | checkpointCapacity (entries : Nat)
  /-- Batch and threshold together. -/
  | pages (batch threshold : Nat)
  deriving DecidableEq, Repr

/-- The tuning with one adjustment made. -/
def adjust (t : RegionTuning) : Setting → RegionTuning
  | .batchPages pages => { t with batchPages := pages }
  | .thresholdPages pages => { t with thresholdPages := pages }
  | .cooldown time => { t with cooldown := time }
  | .checkpointCapacity entries => { t with checkpointCapacity := entries }
  | .pages batch threshold => { t with batchPages := batch, thresholdPages := threshold }

/-- A preset with adjustments made in their order. -/
def ofPreset (preset : Preset) (settings : List Setting) : RegionTuning :=
  settings.foldl adjust preset.tuning

/-- Accepts the tuning, or names the first rule that it breaks. -/
def validate (t : RegionTuning) : Except ArenaError Unit :=
  if t.batchPages = 0 then .error (.invalidTuning TuningFault.emptyBatch)
  else if t.thresholdPages < t.batchPages then
    .error (.invalidTuning TuningFault.thresholdBelowBatch)
  else if t.checkpointCapacity = 0 then
    .error (.invalidTuning TuningFault.noCheckpointCapacity)
  else .ok ()

/-- Bytes of a saved cursor, which is a word. -/
def cursorBytes : Nat := 8

/-- Whether the stack of checkpoints can have its room. -/
def fits (t : RegionTuning) : Bool :=
  Word.hasRoom t.checkpointCapacity cursorBytes

/-- The room of a preset can always be had. -/
theorem Preset.fits_tuning (p : Preset) : p.tuning.fits = true := by
  cases p <;> rfl

/-- The tuning written out with its parts. -/
def describe (t : RegionTuning) : String :=
  Text.record .compact "RegionConfig"
    [("decommit_pages", toString t.batchPages),
     ("decommit_threshold_pages", toString t.thresholdPages),
     ("decommit_cooldown", t.cooldown.text),
     ("checkpoint_capacity", toString t.checkpointCapacity)] false

end RegionTuning

/-- Tuning of a heap allocator. -/
structure HeapTuning where
  /-- How many allocations the log has room for at first. -/
  logCapacity : Nat := 4
  deriving DecidableEq, Repr

namespace HeapTuning

/-- Accepts the tuning, or names the rule that it breaks. -/
def validate (t : HeapTuning) : Except ArenaError Unit :=
  if t.logCapacity = 0 then .error (.invalidTuning TuningFault.noLogCapacity) else .ok ()

/-- Bytes of an entry of the log: an address and a kind, in two words. -/
def entryBytes : Nat := 16

/-- Whether the log can have its room. -/
def fits (t : HeapTuning) : Bool :=
  Word.hasRoom t.logCapacity entryBytes

/-- The tuning written out with its parts. -/
def describe (t : HeapTuning) : String :=
  Text.record .compact "HeapConfig" [("log_capacity", toString t.logCapacity)] false

end HeapTuning

/-- Tuning of everything together. -/
structure Tuning where
  region : RegionTuning := {}
  heap : HeapTuning := {}
  deriving DecidableEq, Repr

namespace Tuning

/-- Accepts the tuning, or names the first rule that it breaks; the region comes first. -/
def validate (t : Tuning) : Except ArenaError Unit :=
  match t.region.validate with
  | .error e => .error e
  | .ok () => t.heap.validate

/-- The tuning written out with its parts. -/
def describe (t : Tuning) : String :=
  Text.record .compact "MemoryConfig"
    [("region", t.region.describe), ("heap", t.heap.describe)] false

end Tuning

end PageArena
