/-! Base64 with the standard alphabet, padded when written, padded or not when read. -/
namespace BoardMarkup.Base64

def digit (n : Nat) : Char :=
  if n < 26 then Char.ofNat (65 + n)
  else if n < 52 then Char.ofNat (97 + (n - 26))
  else if n < 62 then Char.ofNat (48 + (n - 52))
  else if n = 62 then '+'
  else '/'

def value? (b : UInt8) : Option Nat :=
  let n := b.toNat
  if 65 ≤ n ∧ n ≤ 90 then some (n - 65)
  else if 97 ≤ n ∧ n ≤ 122 then some (n - 97 + 26)
  else if 48 ≤ n ∧ n ≤ 57 then some (n - 48 + 52)
  else if n = 43 then some 62
  else if n = 47 then some 63
  else none

/-- Three bytes make four digits; what is missing from the last group is padding. -/
def encode : List UInt8 → List Char
  | a :: b :: c :: rest =>
    let n := a.toNat * 65536 + b.toNat * 256 + c.toNat
    digit (n / 262144) :: digit (n / 4096 % 64) :: digit (n / 64 % 64) :: digit (n % 64) ::
      encode rest
  | [a, b] =>
    let n := a.toNat * 1024 + b.toNat * 4
    [digit (n / 4096), digit (n / 64 % 64), digit (n % 64), '=']
  | [a] =>
    let n := a.toNat * 16
    [digit (n / 64), digit (n % 64), '=', '=']
  | [] => []

/-- Why a text is not read. Offsets count bytes. -/
inductive Fault where
  | symbol (byte : UInt8) (offset : Nat)
  | length (n : Nat)
  | lastSymbol (byte : UInt8) (offset : Nat)
  deriving DecidableEq

def Fault.message : Fault → String
  | .symbol byte offset => "Invalid symbol " ++ toString byte.toNat ++ ", offset " ++ toString offset ++ "."
  | .length n => "Invalid input length: " ++ toString n
  | .lastSymbol byte offset =>
    "Invalid last symbol " ++ toString byte.toNat ++ ", offset " ++ toString offset ++ "."

def padding : UInt8 := 61

def digitAt (offset : Nat) (b : UInt8) : Except Fault Nat :=
  match value? b with
  | some n => .ok n
  | none => .error (.symbol b offset)

/--
The values in the last group from its `index`-th byte on. Padding stands behind two digits at
least, and only padding behind it; `padded` is where it began.
-/
def lastDigits (start : Nat) : Nat → Option Nat → List UInt8 → Except Fault (List (UInt8 × Nat))
  | _, _, [] => .ok []
  | index, padded, b :: rest =>
    if b = padding then
      if index < 2 then .error (.symbol b (start + index))
      else lastDigits start (index + 1) (padded.or (some index)) rest
    else
      match padded with
      | some first => .error (.symbol padding (start + first))
      | none => do
        let n ← digitAt (start + index) b
        return (b, n) :: (← lastDigits start (index + 1) none rest)

/-- The bytes of the last group. Bits that fill no byte must be zero. -/
def decodeLast (start : Nat) (group : List UInt8) : Except Fault (List UInt8) := do
  match ← lastDigits start 0 none group with
  | [] => if group.isEmpty then .ok [] else .error (.length start)
  | [_] => .error (.length (start + 1))
  | [(_, p), (b, q)] =>
    if q % 16 = 0 then .ok [UInt8.ofNat (p * 4 + q / 16)] else .error (.lastSymbol b (start + 1))
  | [(_, p), (_, q), (b, r)] =>
    let n := (p * 4096 + q * 64 + r) / 4
    if r % 4 = 0 then .ok [UInt8.ofNat (n / 256), UInt8.ofNat (n % 256)]
    else .error (.lastSymbol b (start + 2))
  | (_, p) :: (_, q) :: (_, r) :: (_, s) :: _ =>
    let n := p * 262144 + q * 4096 + r * 64 + s
    .ok [UInt8.ofNat (n / 65536), UInt8.ofNat (n / 256 % 256), UInt8.ofNat (n % 256)]

/-- The bytes from `start` on, in groups of four of which the last may be shorter. -/
def decodeFrom (start : Nat) : List UInt8 → Except Fault (List UInt8)
  | a :: b :: c :: d :: e :: rest => do
    let p ← digitAt start a
    let q ← digitAt (start + 1) b
    let r ← digitAt (start + 2) c
    let s ← digitAt (start + 3) d
    let n := p * 262144 + q * 4096 + r * 64 + s
    return UInt8.ofNat (n / 65536) :: UInt8.ofNat (n / 256 % 256) :: UInt8.ofNat (n % 256) ::
      (← decodeFrom (start + 4) (e :: rest))
  | group => decodeLast start group

/-- A lone last byte that is no digit is found first, then faults from left to right. -/
def decode (bytes : List UInt8) : Except Fault (List UInt8) :=
  match bytes.getLast? with
  | some b =>
    if bytes.length % 4 = 1 ∧ b ≠ padding ∧ value? b = none then
      .error (.symbol b (bytes.length - 1))
    else decodeFrom 0 bytes
  | none => .ok []

end BoardMarkup.Base64
