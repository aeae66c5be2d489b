namespace Cutscene.Utf8

def following (n : Nat) : UInt8 := UInt8.ofNat (0x80 + n % 0x40)

def encodeChar (c : Char) : List UInt8 :=
  let n := c.toNat
  if n < 0x80 then [UInt8.ofNat n]
  else if n < 0x800 then [UInt8.ofNat (0xC0 + n / 0x40), following n]
  else if n < 0x10000 then
    [UInt8.ofNat (0xE0 + n / 0x1000), following (n / 0x40), following n]
  else
    [UInt8.ofNat (0xF0 + n / 0x40000), following (n / 0x1000), following (n / 0x40), following n]

def encode (cs : List Char) : List UInt8 := cs.flatMap encodeChar

/-- Why bytes do not begin with a character: no character begins with the first `length` of them, or
they end within one. -/
inductive Fault where
  | invalid (length : Nat)
  | incomplete
  deriving DecidableEq, Repr

/-- The code point of `count` more bytes after the `seen` first ones gave `value`. The next byte
lies in `low` to `high`. -/
def tail (value seen : Nat) (low high : UInt8) :
    Nat → List UInt8 → Except Fault (Nat × List UInt8)
  | 0, bs => .ok (value, bs)
  | _ + 1, [] => .error .incomplete
  | count + 1, b :: bs =>
      if low ≤ b ∧ b ≤ high then tail (value * 0x40 + b.toNat % 0x40) (seen + 1) 0x80 0xBF count bs
      else .error (.invalid seen)

def codePoint : List UInt8 → Except Fault (Nat × List UInt8)
  | [] => .error .incomplete
  | b :: bs =>
      if b < 0x80 then .ok (b.toNat, bs)
      else if b < 0xC2 then .error (.invalid 1)
      else if b < 0xE0 then tail (b.toNat - 0xC0) 1 0x80 0xBF 1 bs
      else if b < 0xF0 then
        tail (b.toNat - 0xE0) 1 (if b = 0xE0 then 0xA0 else 0x80)
          (if b = 0xED then 0x9F else 0xBF) 2 bs
      else if b < 0xF5 then
        tail (b.toNat - 0xF0) 1 (if b = 0xF0 then 0x90 else 0x80)
          (if b = 0xF4 then 0x8F else 0xBF) 3 bs
      else .error (.invalid 1)

def decodeChar (bs : List UInt8) : Except Fault (Char × List UInt8) :=
  (codePoint bs).map fun (n, rest) => (Char.ofNat n, rest)

/-- The characters of the longest readable beginning, and the bytes after it; at most `fuel`
characters. -/
def decodePrefix : Nat → List UInt8 → List Char × List UInt8
  | 0, bs => ([], bs)
  | fuel + 1, bs =>
      match decodeChar bs with
      | .ok (c, rest) =>
          let (cs, left) := decodePrefix fuel rest
          (c :: cs, left)
      | .error _ => ([], bs)

structure Malformed where
  validUpTo : Nat
  fault : Fault
  deriving DecidableEq, Repr

def Malformed.message (m : Malformed) : String :=
  match m.fault with
  | .invalid length =>
      "invalid utf-8 sequence of " ++ toString length ++ " bytes from index " ++
        toString m.validUpTo
  | .incomplete => "incomplete utf-8 byte sequence from index " ++ toString m.validUpTo

def decode (bs : List UInt8) : Except Malformed (List Char) :=
  match decodePrefix bs.length bs with
  | (cs, []) => .ok cs
  | (_, left) =>
      match decodeChar left with
      | .error fault => .error ⟨bs.length - left.length, fault⟩
      | .ok _ => .error ⟨bs.length - left.length, .incomplete⟩

end Cutscene.Utf8
