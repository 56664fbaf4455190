/-! # Characters as bytes

Texts are stored as bytes in the encoding of Unicode that spends one to four bytes on a
character. This module holds

* `Utf8.encode`: the bytes of a text;
* `Utf8.decode`: the text of some bytes, or the `Utf8.Fault` that says where they stop being a
  text and how many bytes are at fault. -/

namespace TypedCsv.Utf8

/-- Why some bytes are no text. -/
inductive Fault where
  /-- The `length` bytes from `index` on start no character. -/
  | invalid (index length : Nat)
  /-- The bytes end inside the character that starts at `index`. -/
  | incomplete (index : Nat)
deriving Repr, DecidableEq

namespace Fault

/-- The number of bytes before the fault; they are a text. -/
def index : Fault → Nat
  | invalid index _ => index
  | incomplete index => index

/-- The wording of a fault. -/
def message : Fault → String
  | invalid index length => s!"invalid utf-8 sequence of {length} bytes from index {index}"
  | incomplete index => s!"incomplete utf-8 byte sequence from index {index}"

end Fault

/-- The bytes of a text. -/
def encode (text : List Char) : List UInt8 :=
  text.flatMap String.utf8EncodeChar

/-- The empty text has no bytes. -/
@[simp] theorem encode_nil : encode [] = [] := rfl

/-- The bytes of a text are those of its characters, one after the other. -/
@[simp] theorem encode_cons (c : Char) (text : List Char) :
    encode (c :: text) = String.utf8EncodeChar c ++ encode text := rfl

/-- The bytes of two texts stand one behind the other. -/
@[simp] theorem encode_append (s t : List Char) : encode (s ++ t) = encode s ++ encode t := by
  simp [encode]

/-- Whether a byte may follow the first bytes of a longer character. -/
def isContinuation (byte : UInt8) : Bool :=
  0x80 ≤ byte && byte ≤ 0xBF

/-- The second bytes that may follow the first byte of a character of three bytes: no character
has a shorter form, and the surrogates are no characters. -/
def isSecondOfThree (lead second : UInt8) : Bool :=
  if lead = 0xE0 then 0xA0 ≤ second && second ≤ 0xBF
  else if lead = 0xED then 0x80 ≤ second && second ≤ 0x9F
  else isContinuation second

/-- The second bytes that may follow the first byte of a character of four bytes: no character
has a shorter form, and none lies beyond the last plane. -/
def isSecondOfFour (lead second : UInt8) : Bool :=
  if lead = 0xF0 then 0x90 ≤ second && second ≤ 0xBF
  else if lead = 0xF4 then 0x80 ≤ second && second ≤ 0x8F
  else isContinuation second

/-- The six bits that a byte after the first one carries. -/
def payload (byte : UInt8) : Nat :=
  byte.toNat % 64

/-- The character that the given bytes, all found fit, stand for. -/
def assemble (lead : Nat) (others : List UInt8) : Char :=
  Char.ofNat (others.foldl (fun n byte => n * 64 + payload byte) lead)

/-- Reads the text of the bytes that follow the first `index` bytes of an input. -/
def decodeFrom (index : Nat) : List UInt8 → Except Fault (List Char)
  | [] => .ok []
  | a :: rest =>
    -- a character of one byte
    if a < 0x80 then
      return Char.ofNat a.toNat :: (← decodeFrom (index + 1) rest)
    -- of two bytes
    else if 0xC2 ≤ a && a ≤ 0xDF then
      match rest with
      | [] => .error (.incomplete index)
      | b :: rest =>
        if isContinuation b then
          return assemble (a.toNat % 32) [b] :: (← decodeFrom (index + 2) rest)
        else .error (.invalid index 1)
    -- of three bytes
    else if 0xE0 ≤ a && a ≤ 0xEF then
      match rest with
      | [] => .error (.incomplete index)
      | b :: rest =>
        if isSecondOfThree a b then
          match rest with
          | [] => .error (.incomplete index)
          | c :: rest =>
            if isContinuation c then
              return assemble (a.toNat % 16) [b, c] :: (← decodeFrom (index + 3) rest)
            else .error (.invalid index 2)
        else .error (.invalid index 1)
    -- of four bytes
    else if 0xF0 ≤ a && a ≤ 0xF4 then
      match rest with
      | [] => .error (.incomplete index)
      | b :: rest =>
        if isSecondOfFour a b then
          match rest with
          | [] => .error (.incomplete index)
          | c :: rest =>
            if isContinuation c then
              match rest with
              | [] => .error (.incomplete index)
              | d :: rest =>
                if isContinuation d then
                  return assemble (a.toNat % 8) [b, c, d] :: (← decodeFrom (index + 4) rest)
                else .error (.invalid index 3)
            else .error (.invalid index 2)
        else .error (.invalid index 1)
    -- no character starts with such a byte
    else .error (.invalid index 1)

/-- Reads bytes as a text. -/
def decode (bytes : List UInt8) : Except Fault (List Char) :=
  decodeFrom 0 bytes

/-- Without bytes the text is empty. -/
@[simp] theorem decode_nil : decode [] = .ok [] := rfl

end TypedCsv.Utf8
