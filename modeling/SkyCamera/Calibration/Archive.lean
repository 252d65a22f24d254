import SkyCamera.Calibration.Record

/-!
The archive of a record: the bytes of the long names, an array with a cell for each name, the
standard errors, and the root with everything else. The root ends the archive; it says where the
arrays are, counted from the place where it says so. Integers are little endian and numbers are
their 64 bits, so a record is archived as it stands, whatever its numbers are.
-/
namespace SkyCamera.Archive

abbrev Bytes := List UInt8

def rootSize : Nat := 192

def littleEndian (width n : Nat) : Bytes :=
  (List.range width).map fun i => (n / Nat.pow 256 i).toUInt8

def ofLittleEndian (bytes : Bytes) : Nat := bytes.foldr (fun b n => b.toNat + 256 * n) 0

/-- The distance from `place` to `target` in 32 bits. -/
def relative (place target : Nat) : Bytes :=
  littleEndian 4 (((target : Int) - place) % Nat.pow 2 32).toNat

/-- The next multiple of `unit`. -/
def aligned (unit n : Nat) : Nat := (n + unit - 1) / unit * unit

def zeros (n : Nat) : Bytes := .replicate n 0

def nameBytes (name : String) : Bytes := name.toUTF8.toList

/-- A name of up to eight bytes stands in its cell. -/
def isShort (name : Bytes) : Bool := name.length ≤ 8

/-- The cell at `place` of a name, whose bytes are at `target` if it is long. -/
def cell (place target : Nat) (name : Bytes) : Bytes :=
  if isShort name then name ++ .replicate (8 - name.length) 0xff
  else
    let n := name.length
    littleEndian 4 (n % 64 + 128 + n / 64 * 256) ++ relative place target

/-- The cells of names from `place` on; the bytes of the long ones are from `target` on. -/
def cells : (place target : Nat) → List Bytes → Bytes
  | _, _, [] => []
  | place, target, name :: rest =>
    cell place target name ++
      cells (place + 8) (if isShort name then target else target + name.length) rest

def word (w : UInt64) : Bytes := littleEndian 8 w.toNat

/-- The root at `place`, with the arrays where they are. -/
def root (place names errors : Nat) (r : CalibrationRecord UInt64) : Bytes :=
  word r.epoch.toUInt64 ++
  word r.site.longitude ++ word r.site.latitude ++ word r.site.altitude ++
  littleEndian 4 r.width.toNat ++ littleEndian 4 r.height.toNat ++
  word r.fi ++ word r.fj ++ word r.pi ++ word r.pj ++
  word r.k1 ++ word r.k2 ++ word r.k3 ++
  littleEndian 8 r.radialTerms.toNat ++
  word r.quaternion.w ++ word r.quaternion.x ++ word r.quaternion.y ++ word r.quaternion.z ++
  littleEndian 8 r.numStars.toNat ++
  word r.rms ++ word r.chi2 ++
  littleEndian 8 (if r.reducedChi2.isSome then 1 else 0) ++ word (r.reducedChi2.getD 0) ++
  relative (place + 176) names ++ littleEndian 4 r.names.length ++
  relative (place + 184) errors ++ littleEndian 4 r.standardErrors.length

def encode (r : CalibrationRecord UInt64) : Bytes :=
  let names := r.names.map nameBytes
  let long := (names.filter (¬ isShort ·)).flatten
  let cellsAt := aligned 4 long.length
  let cellsEnd := cellsAt + 8 * names.length
  let errorsAt := aligned 8 cellsEnd
  let rootAt := errorsAt + 8 * r.standardErrors.length
  long ++ zeros (cellsAt - long.length) ++ cells cellsAt 0 names ++
    zeros (errorsAt - cellsEnd) ++ r.standardErrors.flatMap word ++
    root rootAt cellsAt errorsAt r

/-- The part of an archive that may be looked at. -/
structure Window where
  low : Nat
  high : Nat

/-- The place of `size` bytes, if they are aligned and lie in the window. -/
def Window.place? (w : Window) (unit size : Nat) (place : Int) : Option Nat :=
  if w.low ≤ place ∧ place + size ≤ w.high ∧ place % unit = 0 then some place.toNat else none

def slice (bytes : Bytes) (place size : Nat) : Bytes := (bytes.drop place).take size

def natAt (bytes : Bytes) (place size : Nat) : Nat := ofLittleEndian (slice bytes place size)

def wordAt (bytes : Bytes) (place : Nat) : UInt64 := (natAt bytes place 8).toUInt64

/-- Where the distance written at `place` leads, as seen from `origin`. -/
def targetAt (bytes : Bytes) (origin place : Nat) : Int :=
  let n := natAt bytes place 4
  origin + (if n < Nat.pow 2 31 then (n : Int) else n - Nat.pow 2 32)

def textOf (bytes : Bytes) : Option String := String.fromUTF8? ⟨bytes.toArray⟩

/-- The name in the cell at `place`. The bytes of a long name must lie in the window, which then
begins behind them. -/
def name? (bytes : Bytes) (w : Window) (place : Nat) : Option (String × Window) := do
  let inCell := slice bytes place 8
  if natAt bytes place 1 / 64 = 2 then
    let v := natAt bytes place 4
    let size := v % 64 + v / 256 * 64
    if size ≤ 8 then none
    else
      let start ← w.place? 1 size (targetAt bytes place (place + 4))
      return (← textOf (slice bytes start size), { w with low := start + size })
  else return (← textOf (inCell.takeWhile (· ≠ 0xff)), w)

/-- The names in `count` cells from `place` on. -/
def names? (bytes : Bytes) : Window → Nat → (count : Nat) → Option (List String)
  | _, _, 0 => some []
  | w, place, count + 1 => do
    let (name, w) ← name? bytes w place
    return name :: (← names? bytes w (place + 8) count)

/-- The record of an archive. The names must lie before their cells and the errors behind them,
all of them before the root; other bytes are not looked at. -/
def decode (bytes : Bytes) : Option (CalibrationRecord UInt64) := do
  let size := bytes.length
  if size < rootSize ∨ size % 8 ≠ 0 then none
  else
    let rootAt := size - rootSize
    let whole : Window := ⟨0, rootAt⟩
    let tag := natAt bytes (rootAt + 160) 1
    if 1 < tag then none
    else
      let nameCount := natAt bytes (rootAt + 180) 4
      let cellsAt ← whole.place? 4 (8 * nameCount) (targetAt bytes (rootAt + 176) (rootAt + 176))
      let names ← names? bytes { whole with high := cellsAt } cellsAt nameCount
      let errorCount := natAt bytes (rootAt + 188) 4
      let behind : Window := { whole with low := cellsAt + 8 * nameCount }
      let errorsAt ← behind.place? 8 (8 * errorCount) (targetAt bytes (rootAt + 184) (rootAt + 184))
      let word (offset : Nat) := wordAt bytes (rootAt + offset)
      return {
        epoch := (word 0).toInt64
        site := ⟨word 8, word 16, word 24⟩
        width := (natAt bytes (rootAt + 32) 4).toUInt32
        height := (natAt bytes (rootAt + 36) 4).toUInt32
        fi := word 40
        fj := word 48
        pi := word 56
        pj := word 64
        k1 := word 72
        k2 := word 80
        k3 := word 88
        radialTerms := (natAt bytes (rootAt + 96) 1).toUInt8
        quaternion := ⟨word 104, word 112, word 120, word 128⟩
        numStars := (natAt bytes (rootAt + 136) 4).toUInt32
        rms := word 144
        chi2 := word 152
        reducedChi2 := if tag = 1 then some (word 168) else none
        names := names
        standardErrors := (List.range errorCount).map fun i => wordAt bytes (errorsAt + 8 * i) }

end SkyCamera.Archive
