import BoardMarkup.Base64
import BoardMarkup.Style.Directive
import BoardMarkup.Text.Trim
import BoardMarkup.Text.Quoted

/-! The set of directives a style activates, stored as base64 text. -/
namespace BoardMarkup.Style

open Text

/-- Bit `n` lives in byte `n / 8`, the most significant bit first. -/
structure Bitfield where
  bytes : List UInt8 := []
  deriving DecidableEq

structure BitfieldError where
  value : String
  fault : Base64.Fault
  deriving DecidableEq

def BitfieldError.message (e : BitfieldError) : String :=
  "invalid bitfield " ++ quote e.value ++ ": " ++ e.fault.message

namespace Bitfield

def empty : Bitfield := {}

instance : Inhabited Bitfield := ⟨empty⟩

def get (f : Bitfield) (n : Nat) : Bool :=
  match f.bytes[n / 8]? with
  | some b => b.toNat.testBit (7 - n % 8)
  | none => false

/-- Sets a bit, with as many zero bytes before it as it needs. -/
def set (f : Bitfield) (n : Nat) : Bitfield :=
  let grown := f.bytes ++ List.replicate (n / 8 + 1 - f.bytes.length) 0
  ⟨grown.modify (n / 8) fun b => UInt8.ofNat (b.toNat ||| 1 <<< (7 - n % 8))⟩

def ofBase64? (value : String) : Except BitfieldError Bitfield :=
  match Base64.decode (trim value).toUTF8.toList with
  | .ok bytes => .ok ⟨bytes⟩
  | .error fault => .error ⟨value, fault⟩

/-- Writes base64 without the final zero bytes. -/
def toBase64 (f : Bitfield) : String :=
  String.ofList (Base64.encode (f.bytes.reverse.dropWhile (· == 0)).reverse)

/-- Sets the bits of the named directives. Names without a bit are ignored. -/
def ofNames (names : List String) : Bitfield :=
  names.foldl (fun f name =>
    match Directive.find? name with
    | some { activation := .bit n, .. } => f.set n
    | _ => f) empty

/-- Whether a rule of activation holds. A directive can follow only one that has a bit. -/
def activates (f : Bitfield) : Activation → Bool
  | .bit n => f.get n
  | .follows leader =>
    match Directive.find? leader with
    | some { activation := .bit n, .. } => f.get n
    | _ => false

def isActive (f : Bitfield) (name : String) : Bool :=
  match Directive.find? name with
  | some d => f.activates d.activation
  | none => false

def activeNames (f : Bitfield) : List String :=
  (catalog.filter fun d => f.isActive d.name).map (·.name)

end Bitfield
end BoardMarkup.Style
