import Cutscene.Text.Utf8

namespace Cutscene.Control

/-- Where a byte stands: between sequences or within one. A `sequence` ends at a letter, and a
`string`, with or without a `header`, at a byte of its own. A `command` is one to the system that
the terminal runs on. -/
inductive Place where
  | ground
  | escape
  | escapeIntermediate
  | sequence
  | header
  | headerParameters
  | headerIntermediate
  | string
  | command
  deriving DecidableEq, Repr

def within (low high b : UInt8) : Bool := low ≤ b && b ≤ high

def isSpacing (b : UInt8) : Bool := b == 0x09 || b == 0x0A || b == 0x0C || b == 0x0D

/-- How many more bytes the character has whose first byte this is. A character of a single byte
has no first byte in this sense. -/
def following? (b : UInt8) : Option Nat :=
  if within 0xC2 0xDF b then some 1
  else if within 0xE0 0xEF b then some 2
  else if within 0xF0 0xF4 b then some 3
  else none

def isVisible (b : UInt8) : Bool := within 0x20 0x7E b || isSpacing b || (following? b).isSome

/-- Spacing shows in the middle of a sequence too, but not in that of a string. -/
def Place.shows : Place → UInt8 → Bool
  | .ground, b => isVisible b
  | .escape, b | .escapeIntermediate, b | .sequence, b => isSpacing b
  | _, _ => false

def afterEscape (b : UInt8) : Place :=
  if b == 0x5B then .sequence
  else if b == 0x5D then .command
  else if b == 0x50 then .header
  else if b == 0x58 || b == 0x5E || b == 0x5F then .string
  else if within 0x20 0x2F b then .escapeIntermediate
  else if within 0x30 0x7E b then .ground
  else .escape

/-- The place after a byte. Two bytes break a sequence off and one begins a sequence, wherever they
stand. -/
def Place.after (p : Place) (b : UInt8) : Place :=
  if b == 0x18 || b == 0x1A then .ground
  else if b == 0x1B then .escape
  else
    match p with
    | .ground => .ground
    | .escape => afterEscape b
    | .escapeIntermediate => if within 0x30 0x7E b then .ground else p
    | .sequence => if within 0x40 0x7E b then .ground else p
    | .header =>
        if within 0x20 0x2F b then .headerIntermediate
        else if within 0x30 0x3F b then .headerParameters
        else if within 0x40 0x7E b then .string
        else p
    | .headerParameters =>
        if within 0x20 0x2F b then .headerIntermediate
        else if within 0x3C 0x7E b then .string
        else p
    | .headerIntermediate => if within 0x30 0x7E b then .string else p
    | .string => if b == 0x9C then .ground else p
    | .command => if b == 0x07 then .ground else p

structure Reader where
  place : Place := .ground
  /-- Whether the last byte was shown. The next one then shows if it would between sequences, and
  the place waits for a byte that does not show. -/
  showing : Bool := false
  left : Nat := 0
  deriving DecidableEq, Repr

namespace Reader

def shows (r : Reader) (b : UInt8) : Bool :=
  r.left != 0 || if r.showing then isVisible b else r.place.shows b

def next (r : Reader) (b : UInt8) : Reader :=
  if r.left != 0 then { r with left := r.left - 1 }
  else if r.shows b then
    match following? b with
    | some left => { showing := true, left }
    | none => { r with showing := true }
  else { place := r.place.after b }

def read (r : Reader) : List UInt8 → List UInt8
  | [] => []
  | b :: bs => if r.shows b then b :: (r.next b).read bs else (r.next b).read bs

end Reader

def shown (cs : List Char) : List Char :=
  let bytes := Reader.read {} (Utf8.encode cs)
  (Utf8.decodePrefix bytes.length bytes).1

end Cutscene.Control
