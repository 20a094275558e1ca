import InputScript.Text.Digits

namespace InputScript.Text

inductive Utf8Reason where
  | invalidStart
  | invalidContinuation
  | unexpectedEnd
deriving DecidableEq

structure Utf8Fault where
  byte : Nat
  start : Nat
  length : Nat
  reason : Utf8Reason
deriving DecidableEq

def Utf8Reason.text : Utf8Reason → String
  | .invalidStart => "invalid start byte"
  | .invalidContinuation => "invalid continuation byte"
  | .unexpectedEnd => "unexpected end of data"

def Utf8Fault.message (f : Utf8Fault) : String :=
  "'utf-8' codec can't decode " ++
    (if f.length = 1 then "byte 0x" ++ hex 2 f.byte ++ " in position " ++ decimal f.start
    else "bytes in position " ++ decimal f.start ++ "-" ++ decimal (f.start + f.length - 1)) ++
    ": " ++ f.reason.text

structure Utf8Pending where
  first : Nat
  start : Nat
  taken : Nat
  remaining : Nat
  low : Nat
  high : Nat
  value : Nat
deriving DecidableEq

structure Utf8Decoder where
  position : Nat
  chars : List Char
  pending : Option Utf8Pending
deriving DecidableEq

def utf8Lead? (start byte : Nat) : Option Utf8Pending :=
  let lead (remaining low high value : Nat) := some ⟨byte, start, 1, remaining, low, high, value⟩
  if byte < 0xc2 then none
  else if byte < 0xe0 then lead 1 0x80 0xbf (byte - 0xc0)
  else if byte = 0xe0 then lead 2 0xa0 0xbf 0
  else if byte = 0xed then lead 2 0x80 0x9f 13
  else if byte < 0xf0 then lead 2 0x80 0xbf (byte - 0xe0)
  else if byte = 0xf0 then lead 3 0x90 0xbf 0
  else if byte < 0xf4 then lead 3 0x80 0xbf (byte - 0xf0)
  else if byte = 0xf4 then lead 3 0x80 0x8f 4
  else none

namespace Utf8Pending

def fault (p : Utf8Pending) (reason : Utf8Reason) : Utf8Fault :=
  ⟨p.first, p.start, p.taken, reason⟩

def take (p : Utf8Pending) (byte : Nat) : Except Utf8Fault (Utf8Pending ⊕ Char) :=
  if p.low ≤ byte ∧ byte ≤ p.high then
    let value := p.value * 64 + byte % 64
    if p.remaining ≤ 1 then .ok (.inr (Char.ofNat value))
    else .ok (.inl ⟨p.first, p.start, p.taken + 1, p.remaining - 1, 0x80, 0xbf, value⟩)
  else
    .error (p.fault .invalidContinuation)

end Utf8Pending

namespace Utf8Decoder

def step (d : Utf8Decoder) (byte : UInt8) : Except Utf8Fault Utf8Decoder :=
  let b := byte.toNat
  match d.pending with
  | none =>
    if b < 0x80 then .ok ⟨d.position + 1, Char.ofNat b :: d.chars, none⟩
    else
      match utf8Lead? d.position b with
      | some p => .ok ⟨d.position + 1, d.chars, some p⟩
      | none => .error ⟨b, d.position, 1, .invalidStart⟩
  | some p => do
    match ← p.take b with
    | .inl p => return ⟨d.position + 1, d.chars, some p⟩
    | .inr c => return ⟨d.position + 1, c :: d.chars, none⟩

def finish (d : Utf8Decoder) : Except Utf8Fault (List Char) :=
  match d.pending with
  | none => .ok d.chars.reverse
  | some p => .error (p.fault .unexpectedEnd)

end Utf8Decoder

def decodeUtf8 (bytes : List UInt8) : Except Utf8Fault (List Char) := do
  (← bytes.foldlM Utf8Decoder.step ⟨0, [], none⟩).finish

def unifyNewlines : List Char → List Char
  | '\r' :: '\n' :: rest => '\n' :: unifyNewlines rest
  | '\r' :: rest => '\n' :: unifyNewlines rest
  | c :: rest => c :: unifyNewlines rest
  | [] => []

inductive LineEnds where
  | unified
  | kept
deriving DecidableEq

def LineEnds.read : LineEnds → List Char → List Char
  | unified, cs => unifyNewlines cs
  | kept, cs => cs

def ofBytes (ends : LineEnds) (bytes : List UInt8) : Except Utf8Fault String := do
  return String.ofList (ends.read (← decodeUtf8 bytes))

example : decodeUtf8 [0x61, 0xe2, 0x82, 0xac] = .ok ['a', '€'] := by rfl
example : decodeUtf8 [0xe2, 0x82, 0x61] = .error ⟨0xe2, 0, 2, .invalidContinuation⟩ := by rfl
example : decodeUtf8 [0xed, 0xa0, 0x80] = .error ⟨0xed, 0, 1, .invalidContinuation⟩ := by rfl
example : decodeUtf8 [0x61, 0xff] = .error ⟨0xff, 1, 1, .invalidStart⟩ := by rfl
example : unifyNewlines ['\r', '\n', '\r', 'a', '\n'] = ['\n', '\n', 'a', '\n'] := by decide

end InputScript.Text
