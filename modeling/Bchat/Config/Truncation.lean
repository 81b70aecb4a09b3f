import Bchat.Attachments.Encrypt

/-!
# Cutting strings

`utf8_truncate` of `include/bchat/util.hpp`, `utf16_count_truncated_to_codepoints` of `src/util.cpp`
and `copy_c_str` of `include/bchat/config/base.hpp`.
-/

namespace Bchat.Config

open Attachments

/-- The loop of `utf8_truncate`, absent where it reads behind the end. -/
def cutBack (val : Bytes) : Nat → Option Nat
  | 0 => some 0
  | n + 1 => do
    let b ← val[n + 1]?
    if b &&& 0b11000000 = 0b10000000 then cutBack val n else some (n + 1)

/-- `utf8_truncate`. -/
def utf8Truncate (val : Bytes) (n : Nat) : Option Bytes :=
  if val.length ≤ n then some val else (cutBack val n).map val.take

def isUtf16LowSurrogate (c : UInt16) : Bool := c ≥ 0xDC00 ∧ c ≤ 0xDFFF

def isUtf16HighSurrogate (c : UInt16) : Bool := c ≥ 0xD800 ∧ c ≤ 0xDBFF

/-- The loop from index `i` on, absent where an assertion fails. -/
def countCodepoints (size codepointLen : Nat) : List UInt16 → Nat → Bool → Nat → Option Nat
  | [], _, _, _ => some size
  | c :: rest, counted, expectingLow, i =>
    let (ok, counted, expectingLow) :=
      if isUtf16HighSurrogate c then (!expectingLow, counted, true)
      else if isUtf16LowSurrogate c then (expectingLow, counted + 1, false)
      else (!expectingLow, counted + 1, expectingLow)
    if !ok then none
    else if counted = codepointLen then some (i + 1)
    else countCodepoints size codepointLen rest counted expectingLow (i + 1)

/-- `utf16_count_truncated_to_codepoints`, with `simdutf::count_utf16` as a parameter. -/
def utf16CountTruncatedToCodepoints (countUtf16 : List UInt16 → Nat) (utf16String : List UInt16)
    (codepointLen : Nat) : Option Nat :=
  if utf16String.length ≤ codepointLen then some utf16String.length
  else if codepointLen = 0 then some 0
  else if countUtf16 utf16String ≤ codepointLen then some utf16String.length
  else countCodepoints utf16String.length codepointLen utf16String 0 false 0

/-- An access outside an array. -/
inductive OutOfBounds
  | read
  | write
  deriving DecidableEq

/-- The array after the copy. -/
def copyCStr (dest src : Bytes) : Except OutOfBounds Bytes :=
  let size :=
    if src.length ≥ dest.length then
      sizeSub src.length (sizeSub (sizeSub src.length dest.length) 1)
    else src.length
  if size > src.length then .error .read
  else if size ≥ dest.length then .error .write
  else .ok (src.take size ++ 0 :: dest.drop (size + 1))

/-- What is returned, and `last_error`. -/
def wrapExceptions {α : Type} (errorBuf : Bytes) (errorReturn : α) :
    Except Bytes α → Except OutOfBounds (α × Option Bytes)
  | .ok a => .ok (a, none)
  | .error what => do
    let errorBuf ← copyCStr errorBuf what
    .ok (errorReturn, some errorBuf)

end Bchat.Config
