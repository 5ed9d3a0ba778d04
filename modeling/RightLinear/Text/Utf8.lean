import RightLinear.Text.Quoted

namespace RightLinear.Text

inductive Utf8Reason
  | startByte
  | continuationByte
  | truncated
deriving DecidableEq, Repr

-- The faulty bytes from `position` on, of which there are `width`; `byte` is the first of them.
structure Utf8Error where
  byte : Nat
  position : Nat
  width : Nat
  reason : Utf8Reason
deriving DecidableEq, Repr

namespace Utf8Error

def reasonText : Utf8Reason → String
  | .startByte => "invalid start byte"
  | .continuationByte => "invalid continuation byte"
  | .truncated => "unexpected end of data"

def message (e : Utf8Error) : String :=
  let place :=
    if e.width = 1 then s!"byte 0x{String.ofList (hex 2 e.byte)} in position {e.position}"
    else s!"bytes in position {e.position}-{e.position + e.width - 1}"
  s!"'utf-8' codec can't decode {place}: {reasonText e.reason}"

end Utf8Error

-- The bytes that may follow a first byte: the range of the second byte, and the number of bytes.
def sequenceShape (b : Nat) : Option ((Nat × Nat) × Nat) :=
  if 0xc2 ≤ b && b ≤ 0xdf then some ((0x80, 0xbf), 2)
  else if b = 0xe0 then some ((0xa0, 0xbf), 3)
  else if b = 0xed then some ((0x80, 0x9f), 3)
  else if 0xe1 ≤ b && b ≤ 0xef then some ((0x80, 0xbf), 3)
  else if b = 0xf0 then some ((0x90, 0xbf), 4)
  else if b = 0xf4 then some ((0x80, 0x8f), 4)
  else if 0xf1 ≤ b && b ≤ 0xf3 then some ((0x80, 0xbf), 4)
  else none

-- How many of the wanted continuation bytes are there, and whether the bytes end with them.
def continuations (range : Nat × Nat) : (wanted : Nat) → List Nat → Nat × Bool
  | 0, _ => (0, false)
  | _, [] => (0, true)
  | n + 1, b :: bs =>
    if range.1 ≤ b && b ≤ range.2 then
      let (k, ended) := continuations (0x80, 0xbf) n bs
      (k + 1, ended)
    else (0, false)

-- The first fault; the bytes of a character that was just read are passed over by `skip`.
def firstFault (skip position : Nat) : List Nat → Option Utf8Error
  | [] => none
  | b :: bs =>
    match skip with
    | k + 1 => firstFault k (position + 1) bs
    | 0 =>
      if b < 0x80 then firstFault 0 (position + 1) bs
      else match sequenceShape b with
        | none => some ⟨b, position, 1, .startByte⟩
        | some (range, size) =>
          let (k, ended) := continuations range (size - 1) bs
          if k = size - 1 then firstFault k (position + 1) bs
          else if ended then some ⟨b, position, bs.length + 1, .truncated⟩
          else some ⟨b, position, k + 1, .continuationByte⟩

-- Bytes without a fault are an encoding, so the last case never arises.
def decodeUtf8 (bytes : ByteArray) : Except Utf8Error String :=
  match String.fromUTF8? bytes with
  | some s => .ok s
  | none =>
    match firstFault 0 0 (bytes.data.toList.map (·.toNat)) with
    | some e => .error e
    | none => .error ⟨0, bytes.size, 1, .truncated⟩

-- The first surrogates that stand one after another; they have no encoding.
structure SurrogateError where
  code : Nat
  position : Nat
  width : Nat
deriving DecidableEq, Repr

def SurrogateError.message (e : SurrogateError) : String :=
  let place :=
    if e.width = 1 then
      "character '\\u" ++ String.ofList (hex 4 e.code) ++ s!"' in position {e.position}"
    else s!"characters in position {e.position}-{e.position + e.width - 1}"
  s!"'utf-8' codec can't encode {place}: surrogates not allowed"

-- The string of a text without surrogates.
def string? (ps : Points) : Except SurrogateError String :=
  let isCharacter (p : CodePoint) : Bool := p.char?.isSome
  match ps.dropWhile isCharacter with
  | [] => .ok (ofPoints ps)
  | p :: rest =>
    let width := (rest.takeWhile (!isCharacter ·)).length + 1
    .error ⟨p.code, (ps.takeWhile isCharacter).length, width⟩

end RightLinear.Text
