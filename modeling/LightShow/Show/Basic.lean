import LightShow.Layout.Standard
import LightShow.Mixing
import LightShow.Show.Event

namespace LightShow

/-!
# Compiled shows

* `Options` — how densely and with which means a project is sampled;
* `Frame`, `frameAt` — the colors of all suits at a sample;
* `Options.batchStarts` — the batches in which samples are resolved at the same time;
* `Encoder` — turns a sequence of frames into the events between them;
* `Show`, `Project.compile` — a project with its events.

Samples are taken at the multiples of the step, from zero up to the length of the show. All LEDs are
black before the first sample, and idle LEDs are black.
-/

/-! ### Options -/

/-- How a project is sampled. -/
structure Options where
  /-- The time between samples in milliseconds. -/
  step : UInt32 := 50
  /-- Whether samples are resolved at the same time. -/
  parallel : Bool := false
  /-- The number of threads that may be used for that. -/
  threads : Option Nat := none
  /-- The number of samples that are resolved at the same time; at least one. -/
  batch : Nat := 64
  deriving DecidableEq

/-- What is wrong with the options: the step first, then the threads. -/
def Options.fault? (options : Options) : Option Fault :=
  if options.step = 0 then some .zeroStep
  else if options.threads = some 0 then some .zeroThreads
  else none

/-! ### Frames -/

/-- The colors of the LEDs of all suits, in the order of the project's suits. -/
abbrev Frame := List (List Color)

/-- The frame before the first sample. -/
def darkFrame (p : Project) : Frame :=
  p.suits.map fun s => List.replicate s.ledCount.toNat .black

/-- The colors that the LEDs show at a time in milliseconds. -/
def frameAt (p : Project) (layout : Layout) (time : UInt32) : Frame :=
  p.suits.map fun s => (s.states layout p.cues time.toFloat).map LedState.output

/-- The number of samples. -/
def sampleCount (p : Project) (options : Options) : Nat :=
  p.duration.toNat / options.step.toNat + 1

/-- The time of a sample. -/
def sampleTime (options : Options) (index : Nat) : UInt32 :=
  UInt32.ofNat (index * options.step.toNat)

/-! ### Batches of samples -/

namespace Options

/-- The number of samples in a full batch. -/
def batchSize (options : Options) : Nat := max options.batch 1

/-- Where a batch ends that begins at `first`, if there are `count` samples. -/
def batchEnd (options : Options) (count first : Nat) : Nat := min (first + options.batchSize) count

/-- The samples of the batch that begins at `first`. -/
def batchSamples (options : Options) (count first : Nat) : List Nat :=
  List.range' first (options.batchEnd count first - first)

/-- Where the batches begin, from `first` on. Every batch begins where the one before it ends. -/
def batchStarts (options : Options) (count first : Nat) : List Nat :=
  if first < count then first :: options.batchStarts count (options.batchEnd count first) else []
termination_by count - first
decreasing_by simp only [batchEnd, batchSize]; omega

end Options

/-! ### Events between frames -/

/-- The events for the LEDs of one suit whose colors differ. -/
def suitChanges (time : UInt32) (suit : UInt8) (before after : List Color) : List Event :=
  ((before.zip after).zipIdx.filter fun led => led.1.1 != led.1.2).map fun led =>
    ⟨time, suit, led.2.toUInt16, led.1.2⟩

/-- The events for all LEDs whose colors differ. -/
def changes (time : UInt32) (suits : List UInt8) (before after : Frame) : List Event :=
  (suits.zip (before.zip after)).flatMap fun suit =>
    suitChanges time suit.1 suit.2.1 suit.2.2

/-- The frame sent last and the events sent so far. -/
structure Encoder where
  last : Frame
  sent : Array Event

/-- The encoder before the first sample. -/
def Encoder.start (p : Project) : Encoder := ⟨darkFrame p, #[]⟩

/-- Sends the changes to a frame. -/
def Encoder.push (p : Project) (encoder : Encoder) (time : UInt32) (frame : Frame) : Encoder :=
  ⟨frame, encoder.sent ++ changes time (p.suits.map (·.id)) encoder.last frame⟩

/-! ### Compilation -/

/-- Resolves and sends samples one after another. -/
def encodeInTurn (p : Project) (layout : Layout) (options : Options) (encoder : Encoder)
    (samples : List Nat) : Encoder :=
  samples.foldl (fun encoder i =>
    encoder.push p (sampleTime options i) (frameAt p layout (sampleTime options i))) encoder

/-- Resolves samples at the same time and sends them in their order. -/
def encodeTogether (p : Project) (layout : Layout) (options : Options) (encoder : Encoder)
    (samples : List Nat) : Encoder :=
  let tasks := samples.map fun i =>
    (sampleTime options i, Task.spawn fun _ => frameAt p layout (sampleTime options i))
  tasks.foldl (fun encoder task => encoder.push p task.1 task.2.get) encoder

/-- Resolves and sends `count` samples, batch after batch. -/
def encodeInBatches (p : Project) (layout : Layout) (options : Options) (encoder : Encoder)
    (count : Nat) : Encoder :=
  (options.batchStarts count 0).foldl (fun encoder first =>
    encodeTogether p layout options encoder (options.batchSamples count first)) encoder

/-- The events of a project. -/
def encodeEvents (p : Project) (layout : Layout) (options : Options) : List Event :=
  let count := sampleCount p options
  let encoder :=
    if options.parallel then encodeInBatches p layout options (.start p) count
    else encodeInTurn p layout options (.start p) (List.range count)
  encoder.sent.toList

/-- What was counted while a project was compiled. -/
structure Stats where
  /-- Samples. -/
  samples : Nat
  /-- LEDs of all suits over all samples. -/
  ledsResolved : Nat
  /-- Events. -/
  events : Nat
  /-- Cues for suits that the project does not have. -/
  orphanCues : Nat
  deriving DecidableEq

/-- A project with its events. -/
structure Show where
  /-- The project, as it was given. -/
  project : Project
  /-- The events, by time, then by suit in the project's order, then by LED. -/
  events : List Event
  /-- What was counted. -/
  stats : Stats
  deriving DecidableEq

namespace Show

/-- The number of events. -/
def frameCount (s : Show) : Nat := s.events.length

/-- The length of the show in milliseconds. -/
def totalDuration (s : Show) : UInt32 := s.project.duration

end Show

/-- The number of cues for suits that the project does not have. -/
def Project.orphanCues (p : Project) : Nat := p.cues.countP fun c => (p.suit? c.suitId).isNone

/-- The number of LEDs of all suits together. -/
def Project.ledTotal (p : Project) : Nat := p.suits.foldl (fun n suit => n + suit.ledCount.toNat) 0

/-- The events of a project with what was counted on the way. -/
def Project.compile (p : Project) (layout : Layout) (options : Options) :
    Except ShowError Show :=
  match options.fault? with
  | some fault => .error (.invalid fault)
  | none =>
    let events := encodeEvents p layout options
    let samples := sampleCount p options
    .ok {
      project := p
      events := events
      stats := {
        samples := samples
        ledsResolved := samples * p.ledTotal
        events := events.length
        orphanCues := p.orphanCues } }

end LightShow
