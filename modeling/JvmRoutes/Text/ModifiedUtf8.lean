/-!
The text encoding of class files: characters above U+FFFF may be written as two surrogates of
three bytes each, and NUL as the two bytes C0 80.
-/
namespace JvmRoutes.Text.ModifiedUtf8

def isTail (b : UInt8) : Bool := 0x80 ≤ b && b ≤ 0xBF

/-- The number that the low bits of a first byte and the bytes after it carry. -/
def payload (lead : Nat) (tail : List UInt8) : Nat :=
  tail.foldl (fun n b => n * 64 + (b.toNat - 0x80)) lead

/-- A two-byte form: NUL, or a character from U+0080 to U+07FF. -/
def two? (a b : UInt8) : Option Char :=
  if a = 0xC0 && b = 0x80 then some '\x00'
  else if 0xC2 ≤ a && a ≤ 0xDF && isTail b then
    some (Char.ofNat (payload (a.toNat - 0xC0) [b]))
  else none

/-- A sixteen-bit unit in its three-byte form, surrogates included. -/
def unit? (a b c : UInt8) : Option Nat :=
  if 0xE0 ≤ a && a ≤ 0xEF && isTail b && isTail c then
    let n := payload (a.toNat - 0xE0) [b, c]
    if 0x800 ≤ n then some n else none
  else none

def isHigh (n : Nat) : Bool := 0xD800 ≤ n && n ≤ 0xDBFF

def isLow (n : Nat) : Bool := 0xDC00 ≤ n && n ≤ 0xDFFF

def pair? (high low : Nat) : Option Char :=
  if isHigh high && isLow low then
    some (Char.ofNat (0x10000 + (high - 0xD800) * 1024 + (low - 0xDC00)))
  else none

/-- A four-byte form: a character from U+10000 to U+10FFFF. -/
def four? (a b c d : UInt8) : Option Char :=
  if 0xF0 ≤ a && a ≤ 0xF4 && isTail b && isTail c && isTail d then
    let n := payload (a.toNat - 0xF0) [b, c, d]
    if 0x10000 ≤ n && n ≤ 0x10FFFF then some (Char.ofNat n) else none
  else none

/-- The text of the bytes, if they are a sequence of legal forms. -/
def decode? : List UInt8 → Option (List Char)
  | [] => some []
  | a :: rest =>
    if a < 0x80 then (decode? rest).map (Char.ofNat a.toNat :: ·)
    else match rest with
    | [] => none
    | b :: rest =>
      if a < 0xE0 then do
        let ch ← two? a b
        (decode? rest).map (ch :: ·)
      else match rest with
      | [] => none
      | c :: rest =>
        if a < 0xF0 then do
          let n ← unit? a b c
          if !isHigh n && !isLow n then (decode? rest).map (Char.ofNat n :: ·)
          else match rest with
          | d :: e :: f :: rest => do
            let low ← unit? d e f
            let ch ← pair? n low
            (decode? rest).map (ch :: ·)
          | _ => none
        else match rest with
        | [] => none
        | d :: rest => do
          let ch ← four? a b c d
          (decode? rest).map (ch :: ·)

end JvmRoutes.Text.ModifiedUtf8
