/-!
The Mersenne Twister with words of 32 bits, seeded with an array of words, and the numbers drawn from
it: evenly between zero and one, and normally around zero.
-/

namespace InputScript.Random

structure Twister where
  words : Array UInt32
  index : Nat
deriving DecidableEq

namespace Twister

def size : Nat := 624

def word (words : Array UInt32) (i : Nat) : UInt32 :=
  words.getD i 0

def scramble (previous : UInt32) : UInt32 :=
  previous ^^^ (previous >>> 30)

def initialWords (seed : UInt32) : Array UInt32 :=
  (List.range (size - 1)).foldl
    (fun words i => words.push (1812433253 * scramble (word words i) + UInt32.ofNat (i + 1))) #[seed]

def put (words : Array UInt32) (i : Nat) (value : UInt32) : Array UInt32 × Nat :=
  let words := words.setIfInBounds i value
  if i + 1 < size then (words, i + 1)
  else (words.setIfInBounds 0 (word words (size - 1)), 1)

def mixKey (key : Array UInt32) (words : Array UInt32) (place : Nat) (step : Nat) :
    Array UInt32 × Nat :=
  let j := step % key.size
  put words place
    ((word words place ^^^ (scramble (word words (place - 1)) * 1664525)) + word key j +
      UInt32.ofNat j)

def mixPlace (words : Array UInt32) (place : Nat) : Array UInt32 × Nat :=
  put words place
    ((word words place ^^^ (scramble (word words (place - 1)) * 1566083941)) - UInt32.ofNat place)

def ofKey (key : Array UInt32) : Twister :=
  let (words, place) := (List.range (max size key.size)).foldl
    (fun (words, place) step => mixKey key words place step) (initialWords 19650218, 1)
  let (words, _) := (List.range (size - 1)).foldl
    (fun (words, place) _ => mixPlace words place) (words, place)
  ⟨words.setIfInBounds 0 0x80000000, size⟩

def keyOfNat (n : Nat) : Array UInt32 :=
  if n < 4294967296 then #[UInt32.ofNat n]
  else #[UInt32.ofNat (n % 4294967296)] ++ keyOfNat (n / 4294967296)
termination_by n
decreasing_by omega

def ofSeed (seed : Int) : Twister :=
  ofKey (keyOfNat seed.natAbs)

def twist (words : Array UInt32) (i : Nat) : Array UInt32 :=
  let y := (word words i &&& 0x80000000) ||| (word words ((i + 1) % size) &&& 0x7fffffff)
  let shifted := word words ((i + 397) % size) ^^^ (y >>> 1)
  words.setIfInBounds i (if y &&& 1 = 0 then shifted else shifted ^^^ 0x9908b0df)

def refill (g : Twister) : Twister :=
  if g.index < size then g else ⟨(List.range size).foldl twist g.words, 0⟩

def temper (y : UInt32) : UInt32 :=
  let y := y ^^^ (y >>> 11)
  let y := y ^^^ ((y <<< 7) &&& 0x9d2c5680)
  let y := y ^^^ ((y <<< 15) &&& 0xefc60000)
  y ^^^ (y >>> 18)

def next (g : Twister) : UInt32 × Twister :=
  let g := g.refill
  (temper (word g.words g.index), ⟨g.words, g.index + 1⟩)

def uniform (g : Twister) : Float × Twister :=
  let (a, g) := g.next
  let (b, g) := g.next
  (((a >>> 5).toFloat * 67108864.0 + (b >>> 6).toFloat) / 9007199254740992.0, g)

end Twister

structure Normal where
  generator : Twister
  kept : Option Float

namespace Normal

def ofSeed (seed : Int) : Normal :=
  ⟨.ofSeed seed, none⟩

def draw (s : Normal) : Float × Normal :=
  match s.kept with
  | some z => (z, ⟨s.generator, none⟩)
  | none =>
    let (u, g) := s.generator.uniform
    let (v, g) := g.uniform
    let angle := u * 6.283185307179586
    let radius := Float.sqrt (-2.0 * Float.log (1.0 - v))
    (Float.cos angle * radius, ⟨g, some (Float.sin angle * radius)⟩)

end Normal

end InputScript.Random
