import AudioBus.Binary.Arithmetic
import AudioBus.Quantity

/-!
The mapping between global time and positions on a receiver's timeline.
-/

namespace AudioBus

class TimeScale (τ : Type) extends Add τ, Sub τ, Mul τ, Div τ, NatCast τ where
  /-- The position nearest to a number of samples: halves go up, what is below zero or not a
  number is the first position, and what is beyond the last one is the last. -/
  nearestIndex : τ → SampleIndex

instance : TimeScale Seconds where
  nearestIndex x :=
    if x.isNaN || x.negative then SampleIndex.zero
    else if x.isInfinite then SampleIndex.clamp lastIndex
    else SampleIndex.clamp x.nearestNat

/-- A timeline of positions at a sample rate.  It is anchored once: from then on `reference` is
the time of the first position. -/
structure Timeline (τ : Type) where
  reference : Option τ
  rate : SampleRate
deriving DecidableEq

namespace Timeline

variable {τ : Type}

def unanchored (rate : SampleRate) : Timeline τ where
  reference := none
  rate := rate

def isAnchored (timeline : Timeline τ) : Bool :=
  timeline.reference.isSome

variable [TimeScale τ]

def frequency (timeline : Timeline τ) : τ :=
  (timeline.rate.hertz : τ)

def offsetOf (timeline : Timeline τ) (index : SampleIndex) : τ :=
  (index.value : τ) / timeline.frequency

/-- Makes position `index` happen at `time`, unless the timeline is anchored already.  The second
result says whether it was not. -/
def anchor (timeline : Timeline τ) (time : τ) (index : SampleIndex) : Timeline τ × Bool :=
  match timeline.reference with
  | some _ => (timeline, false)
  | none => ({ timeline with reference := some (time - timeline.offsetOf index) }, true)

def indexOf? (timeline : Timeline τ) (time : τ) : Option SampleIndex :=
  timeline.reference.map fun reference =>
    TimeScale.nearestIndex ((time - reference) * timeline.frequency)

def timeOf? (timeline : Timeline τ) (index : SampleIndex) : Option τ :=
  timeline.reference.map fun reference => reference + timeline.offsetOf index

end Timeline

end AudioBus
