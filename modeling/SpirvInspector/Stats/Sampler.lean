/-!
# Running statistics

Mean and variance of a stream of samples, updated sample by sample without keeping the samples.
-/

set_option autoImplicit false

namespace SpirvInspector

structure Sampler where
  size : Nat := 0
  mean : Float := 0
  /-- The sum of the squared distances from the mean. -/
  spread : Float := 0
  min : Float := 0
  max : Float := 0
  sum : Float := 0

namespace Sampler

def add (sampler : Sampler) (x : Float) : Sampler :=
  if sampler.size = 0 then
    { size := 1, mean := x, spread := 0, min := x, max := x, sum := sampler.sum + x }
  else
    let mean := sampler.mean + (x - sampler.mean) / Float.ofNat (sampler.size + 1)
    { size := sampler.size + 1
      mean
      spread := sampler.spread + (x - sampler.mean) * (x - mean)
      min := if x < sampler.min then x else sampler.min
      max := if sampler.max < x then x else sampler.max
      sum := sampler.sum + x }

/-- The mean, which no samples do not have. -/
def average (sampler : Sampler) : Float :=
  if sampler.size = 0 then 0 / 0 else sampler.mean

/-- The biased variance. -/
def variance (sampler : Sampler) : Float :=
  if sampler.size = 0 then 0 else sampler.spread / Float.ofNat sampler.size

def deviation (sampler : Sampler) : Float :=
  sampler.variance.sqrt

end Sampler

end SpirvInspector
