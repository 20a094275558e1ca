import InputScript.Number.Binary64
import InputScript.Random.Twister

namespace InputScript.Random

inductive Noise where
  | listed (values : Array Rat) (place : Nat)
  | seeded (source : Normal)

namespace Noise

def ofList (values : List Rat) : Noise :=
  .listed values.toArray 0

def ofSeed (seed : Int) : Noise :=
  .seeded (.ofSeed seed)

def draw : Noise → Rat × Noise
  | .listed values place => (values.getD place 0, .listed values ((place + 1) % values.size))
  | .seeded source =>
    let (z, source) := source.draw
    ((Number.Binary64.ofBits? z.toBits).getD 0, .seeded source)

end Noise

def spread : Rat := 1 / 8

def deviation? (ms : Int) (z : Rat) : Option Rat := do
  let scaled ← Number.Binary64.round? (z * spread)
  let duration ← Number.Binary64.round? ms
  Number.Binary64.round? (scaled * duration)

/-- A sleep of `ms` milliseconds with its deviation for the draw `z`, unless that would last without
end. A deviation that would leave nothing of the sleep is dropped. -/
def jittered? (ms : Int) (z : Rat) : Option Int :=
  match deviation? ms z with
  | some deviation => some (if ms ≤ -deviation then ms else ms + Number.truncate deviation)
  | none => if z < 0 then some ms else none

end InputScript.Random
