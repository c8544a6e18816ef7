import Mathlib.Data.String.Basic
import Mathlib.Algebra.Order.Ring.Int

/-!
# Canonical names

The tokens of which namespaces, events and rooms are made, and the looser identifiers of messages
and metadata. Lengths are in bytes. The code tests the bytes of a name; as all bytes of a character
beyond ASCII are beyond ASCII, this is a test of its characters.
-/

namespace Lily.Websocket

def maxCanonicalEventBytes : Nat := 256

def maxCanonicalNamespaceBytes : Nat := 128

def maxCanonicalRoomBytes : Nat := 128

def maxCanonicalIdBytes : Nat := 128

def maxCanonicalMetadataEntries : Nat := 32

def maxCanonicalMetadataKeyBytes : Nat := 128

def maxCanonicalMetadataValueBytes : Nat := 1024

def maxCanonicalContentTypeBytes : Nat := 128

/-- A letter or digit of ASCII, or one of the three other characters of a token. -/
def isTokenChar (c : Char) : Bool :=
  c.isAlphanum || c == '-' || c == '_' || c == '.'

variable (value : String) (maxLen : Nat)

def isCanonicalRouteToken : Bool :=
  value.utf8ByteSize ≠ 0 && value.utf8ByteSize ≤ maxLen && value.toList.all isTokenChar

def isCanonicalNamespace : Bool :=
  isCanonicalRouteToken value maxCanonicalNamespaceBytes

def isCanonicalRoom (configuredMaxLen : Nat) : Bool :=
  isCanonicalRouteToken value (min configuredMaxLen maxCanonicalRoomBytes)

/-- A namespace and an action with one colon between them. -/
def isCanonicalEvent (event : String) : Bool :=
  event.utf8ByteSize ≠ 0 && event.utf8ByteSize ≤ maxCanonicalEventBytes &&
    match event.toList.splitOn ':' with
    | [first, second] =>
      isCanonicalRouteToken (String.ofList first) maxCanonicalNamespaceBytes &&
        isCanonicalRouteToken (String.ofList second) maxCanonicalEventBytes
    | _ => false

def isAsciiControl (c : Char) : Bool := c.val < 0x20 || c.val == 0x7f

def isBoundedIdentifier : Bool :=
  value.utf8ByteSize ≠ 0 && value.utf8ByteSize ≤ maxLen && !value.toList.any isAsciiControl

/-- Printable ASCII that neither begins nor ends with a blank. -/
def isValidContentType : Bool :=
  value.utf8ByteSize ≠ 0 && value.utf8ByteSize ≤ maxCanonicalContentTypeBytes &&
    value.toList.head? ≠ some ' ' && value.toList.getLast? ≠ some ' ' &&
    value.toList.all fun c => 0x20 ≤ c.val && c.val ≤ 0x7e

end Lily.Websocket
