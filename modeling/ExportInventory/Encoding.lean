import ExportInventory.Text.Basic

/-!
Encoded texts. Decoding puts U+FFFD for whatever an encoding does not allow; the strict reading of
UTF-8 says what is wrong instead. The codecs that stand here are those that come with the library;
what a file is decoded with is a choice of its reader.
-/
namespace ExportInventory

abbrev Bytes := List UInt8

namespace Encoding

def replacement : Char := Char.ofNat 0xFFFD

inductive FaultReason where
  | badStart
  | badContinuation
  | cutShort
deriving DecidableEq, Repr

structure Fault where
  position : Nat
  length : Nat
  byte : UInt8
  reason : FaultReason
deriving DecidableEq, Repr

/-- A character of which some bytes have been read: the bits so far, the first byte, the number of
bytes read and still to come, and the bounds of the next one. -/
structure Pending where
  value : Nat
  first : UInt8
  read : Nat
  need : Nat
  low : UInt8
  high : UInt8
deriving Repr

def lead (b : UInt8) : Option (Char ⊕ Pending) :=
  let n := b.toNat
  if n < 0x80 then some (.inl (Char.ofNat n))
  else if n < 0xC2 then none
  else if n < 0xE0 then some (.inr ⟨n - 0xC0, b, 1, 1, 0x80, 0xBF⟩)
  else if n < 0xF0 then
    some (.inr ⟨n - 0xE0, b, 1, 2, if n = 0xE0 then 0xA0 else 0x80, if n = 0xED then 0x9F else 0xBF⟩)
  else if n < 0xF5 then
    some (.inr ⟨n - 0xF0, b, 1, 3, if n = 0xF0 then 0x90 else 0x80, if n = 0xF4 then 0x8F else 0xBF⟩)
  else none

def readFrom (pending : Option Pending) (position : Nat) : Bytes → List (Except Fault Char)
  | [] =>
    match pending with
    | none => []
    | some p => [.error ⟨position - p.read, p.read, p.first, .cutShort⟩]
  | b :: rest =>
    match pending with
    | some p =>
      if p.low ≤ b ∧ b ≤ p.high then
        let value := p.value * 64 + (b.toNat - 0x80)
        if p.need ≤ 1 then .ok (Char.ofNat value) :: readFrom none (position + 1) rest
        else readFrom (some ⟨value, p.first, p.read + 1, p.need - 1, 0x80, 0xBF⟩) (position + 1) rest
      else
        .error ⟨position - p.read, p.read, p.first, .badContinuation⟩ ::
          match lead b with
          | none => .error ⟨position, 1, b, .badStart⟩ :: readFrom none (position + 1) rest
          | some (.inl c) => .ok c :: readFrom none (position + 1) rest
          | some (.inr q) => readFrom (some q) (position + 1) rest
    | none =>
      match lead b with
      | none => .error ⟨position, 1, b, .badStart⟩ :: readFrom none (position + 1) rest
      | some (.inl c) => .ok c :: readFrom none (position + 1) rest
      | some (.inr q) => readFrom (some q) (position + 1) rest

def orReplacement : Except Fault Char → Char
  | .ok c => c
  | .error _ => replacement

/-- UTF-8, with one substitute for each longest start of a character that is not finished. -/
def utf8 (bytes : Bytes) : List Char :=
  (readFrom none 0 bytes).map orReplacement

def utf8Strict (bytes : Bytes) : Except Fault (List Char) :=
  (readFrom none 0 bytes).mapM id

def encode (cs : List Char) : Bytes := cs.flatMap String.utf8EncodeChar

def encode? (t : Text) : Option Bytes := t.chars?.map encode

def ascii (bytes : Bytes) : List Char :=
  bytes.map (fun b => if b < 0x80 then Char.ofNat b.toNat else replacement)

def latin1 (bytes : Bytes) : List Char :=
  bytes.map (fun b => Char.ofNat b.toNat)

def westernTable : List Nat :=
  [0x20AC, 0xFFFD, 0x201A, 0x0192, 0x201E, 0x2026, 0x2020, 0x2021,
    0x02C6, 0x2030, 0x0160, 0x2039, 0x0152, 0xFFFD, 0x017D, 0xFFFD,
    0xFFFD, 0x2018, 0x2019, 0x201C, 0x201D, 0x2022, 0x2013, 0x2014,
    0x02DC, 0x2122, 0x0161, 0x203A, 0x0153, 0xFFFD, 0x017E, 0x0178]

def western (bytes : Bytes) : List Char :=
  bytes.map (fun b =>
    Char.ofNat (if 0x80 ≤ b ∧ b < 0xA0 then westernTable.getD (b.toNat - 0x80) 0xFFFD else b.toNat))

def units (bigEndian : Bool) : Bytes → List Nat × Bool
  | [] => ([], false)
  | [_] => ([], true)
  | a :: b :: rest =>
    let (us, odd) := units bigEndian rest
    ((if bigEndian then a.toNat * 256 + b.toNat else b.toNat * 256 + a.toNat) :: us, odd)

private def isHigh (u : Nat) : Bool := 0xD800 ≤ u && u < 0xDC00

private def isLow (u : Nat) : Bool := 0xDC00 ≤ u && u < 0xE000

/-- The characters of UTF-16 units. A surrogate without its partner is replaced; an odd byte is
replaced too, together with a first surrogate right before it. -/
def ofUnits (odd : Bool) : List Nat → List Char
  | [] => if odd then [replacement] else []
  | [u] =>
    if isHigh u then [replacement]
    else (if isLow u then replacement else Char.ofNat u) :: (if odd then [replacement] else [])
  | u :: v :: rest =>
    if isHigh u then
      if isLow v then
        Char.ofNat (0x10000 + (u - 0xD800) * 0x400 + (v - 0xDC00)) :: ofUnits odd rest
      else replacement :: ofUnits odd (v :: rest)
    else (if isLow u then replacement else Char.ofNat u) :: ofUnits odd (v :: rest)

def utf16 (bigEndian : Bool) (bytes : Bytes) : List Char :=
  let (us, odd) := units bigEndian bytes
  ofUnits odd us

def utf16Marked : Bytes → List Char
  | 0xFF :: 0xFE :: rest => utf16 false rest
  | 0xFE :: 0xFF :: rest => utf16 true rest
  | bytes => utf16 false bytes

def utf8Marked : Bytes → List Char
  | 0xEF :: 0xBB :: 0xBF :: rest => utf8 rest
  | bytes => utf8 bytes

/-- Why a codec gives no text: there is none of its name for texts, or it fails. -/
inductive CodecFailure where
  | unknown
  | failed (message : String)
deriving DecidableEq, Repr

def decode (name : String) (bytes : Bytes) : Except CodecFailure Text :=
  let text (cs : List Char) : Except CodecFailure Text := .ok (cs.map .scalar)
  if name.toList.contains (Char.ofNat 0) then .error (.failed "embedded null character")
  else
    match String.ofList (name.toList.map fun c => if c == '_' || c == ' ' then '-' else c.toLower) with
    | "utf-8" | "utf8" => text (utf8 bytes)
    | "utf-8-sig" => text (utf8Marked bytes)
    | "ascii" | "us-ascii" => text (ascii bytes)
    | "iso-8859-1" | "latin-1" | "latin1" => text (latin1 bytes)
    | "windows-1252" | "cp1252" => text (western bytes)
    | "utf-16" => text (utf16Marked bytes)
    | "utf-16-le" | "utf-16le" => text (utf16 false bytes)
    | "utf-16-be" | "utf-16be" => text (utf16 true bytes)
    | _ => .error .unknown

def ofMark : Bytes → Option String
  | 0xEF :: 0xBB :: 0xBF :: _ => some "utf-8-sig"
  | 0xFF :: 0xFE :: _ => some "utf-16"
  | 0xFE :: 0xFF :: _ => some "utf-16"
  | _ => none

end Encoding
end ExportInventory
