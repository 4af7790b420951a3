import Wavr.Events

/-!
# LD2450 report frames

The radar reports up to three targets in thirty bytes, each relative to itself.
-/

namespace Wavr.Mmwave
open Fusion (Target)

def HEADER : List UInt8 := [0xaa, 0xff, 0x03, 0x00]

def TAIL : List UInt8 := [0x55, 0xcc]

/-- Faster than this is walking. -/
def WALK_MS : ℚ := 25 / 100

/-- `_signmag`: the top bit says positive. -/
def signmag (raw : ℕ) : ℤ := if raw &&& 0x8000 ≠ 0 then (raw &&& 0x7FFF : ℕ) else -raw

/-- `struct.unpack("<HHHH", slot)`. -/
def unpack : List UInt8 → List ℕ
  | lo :: hi :: slot => (lo.toNat + 256 * hi.toNat) :: unpack slot
  | _ => []

variable {R : Type} (lit : ℚ → R)

/-- One slot of a report. -/
def slotTarget (i : ℕ) (slot : List UInt8) : Option (Target R) :=
  if slot = List.replicate 8 0 then none
  else
    match unpack slot with
    | [rx, ry, rs, _] =>
      let vel : ℚ := |(signmag rs : ℚ) / 100|
      some
        { id := i + 1
          x := some (lit (signmag rx / 1000))
          y := some (lit (signmag ry / 1000))
          z := none
          posture := if WALK_MS < vel then some "walking" else none
          velocity := some (lit vel)
          confidence := lit (9 / 10)
          frame := "sensor" }
    -- a slot of a whole frame is eight bytes
    | _ => none

def parseLd2450Frame (frame : List UInt8) : List (Target R) :=
  if frame.length ≠ 30 ∨ ¬ HEADER.isPrefixOf frame ∨ ¬ TAIL.isSuffixOf frame then []
  else (List.range 3).filterMap fun i => slotTarget lit i ((frame.drop (4 + i * 8)).take 8)

end Wavr.Mmwave
