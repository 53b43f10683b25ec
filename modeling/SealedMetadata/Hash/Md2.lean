import SealedMetadata.Bytes

/-!
MD2 on byte strings: a checksum block is appended, and each block is stirred through forty-eight
bytes in eighteen sweeps.
-/

namespace SealedMetadata.Md2

/-- A fixed permutation of the bytes, drawn from the digits of the circle number. -/
def substitution : Array UInt8 := #[
    41, 46, 67, 201, 162, 216, 124, 1, 61, 54, 84, 161, 236, 240, 6, 19,
    98, 167, 5, 243, 192, 199, 115, 140, 152, 147, 43, 217, 188, 76, 130, 202,
    30, 155, 87, 60, 253, 212, 224, 22, 103, 66, 111, 24, 138, 23, 229, 18,
    190, 78, 196, 214, 218, 158, 222, 73, 160, 251, 245, 142, 187, 47, 238, 122,
    169, 104, 121, 145, 21, 178, 7, 63, 148, 194, 16, 137, 11, 34, 95, 33,
    128, 127, 93, 154, 90, 144, 50, 39, 53, 62, 204, 231, 191, 247, 151, 3,
    255, 25, 48, 179, 72, 165, 181, 209, 215, 94, 146, 42, 172, 86, 170, 198,
    79, 184, 56, 210, 150, 164, 125, 182, 118, 252, 107, 226, 156, 116, 4, 241,
    69, 157, 112, 89, 100, 113, 135, 32, 134, 91, 207, 101, 230, 45, 168, 2,
    27, 96, 37, 173, 174, 176, 185, 246, 28, 70, 97, 105, 52, 64, 126, 15,
    85, 71, 163, 35, 221, 81, 175, 58, 195, 92, 249, 206, 186, 197, 234, 38,
    44, 83, 13, 110, 133, 40, 132, 9, 211, 223, 205, 244, 65, 129, 77, 82,
    106, 220, 55, 200, 108, 193, 171, 250, 36, 225, 123, 8, 12, 189, 177, 74,
    120, 136, 149, 139, 227, 99, 232, 109, 233, 203, 213, 254, 59, 0, 29, 57,
    242, 239, 183, 14, 102, 88, 208, 228, 166, 119, 114, 248, 235, 117, 75, 10,
    49, 68, 80, 180, 143, 237, 31, 26, 219, 153, 141, 51, 159, 17, 131, 20]

def substitute (b : UInt8) : UInt8 := substitution.getD b.toNat 0

/-- Fills the last block with as many bytes of value `n` as it lacks, sixteen if it is full. -/
def padded (m : Bytes) : Bytes :=
  let n := 16 - m.length % 16
  m ++ List.replicate n n.toUInt8

/-- One pass over the checksum with a block: each byte is changed by the block's byte and by the
checksum byte before it; the last one is returned too. -/
def mixChecksum : UInt8 → Bytes → Bytes → Bytes × UInt8
  | last, c :: cs, b :: bs =>
    let c' := c ^^^ substitute (b ^^^ last)
    let r := mixChecksum c' cs bs
    (c' :: r.1, r.2)
  | last, _, _ => ([], last)

def checksum (blocks : List Bytes) : Bytes :=
  (blocks.foldl (fun (s : Bytes × UInt8) b => mixChecksum s.2 s.1 b)
    (List.replicate 16 0, 0)).1

/-- One sweep: each byte is changed by the image of the byte before it; the last one is returned
too. -/
def sweep : UInt8 → Bytes → Bytes × UInt8
  | t, [] => ([], t)
  | t, x :: xs =>
    let y := x ^^^ substitute t
    let r := sweep y xs
    (y :: r.1, r.2)

/-- The sixteen chaining bytes after one more block. -/
def compress (s b : Bytes) : Bytes :=
  ((List.range 18).foldl
    -- each sweep starts from what the one before ended with, plus its number
    (fun (xt : Bytes × UInt8) j =>
      let r := sweep xt.2 xt.1
      (r.1, r.2 + j.toUInt8))
    (s ++ b ++ s.xor b, 0)).1.take 16

/-- A byte string cut into pieces of sixteen bytes. -/
def blocks (m : Bytes) : List Bytes :=
  (List.range (m.length / 16)).map fun i => (m.drop (16 * i)).take 16

def digest (m : Bytes) : Bytes :=
  let bs := blocks (padded m)
  (bs ++ [checksum bs]).foldl compress (List.replicate 16 0)

end SealedMetadata.Md2
