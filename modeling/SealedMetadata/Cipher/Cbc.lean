import SealedMetadata.Cipher.Aes

/-!
AES in chained blocks, with the text filled up to a whole number of blocks: as many bytes as are
missing, each of that value, and a full block of them if none is.
-/

namespace SealedMetadata.Cbc

open Aes (Block)

/-- Each block is added to the encrypted block before it, the first to `iv`, and encrypted. -/
def encryptBlocks (keys : List Block) : Block → List Block → List Block
  | _, [] => []
  | iv, p :: ps =>
    let c := Aes.encrypt keys (p.xor iv)
    c :: encryptBlocks keys c ps

def decryptBlocks (keys : List Block) : Block → List Block → List Block
  | _, [] => []
  | iv, c :: cs => (Aes.decrypt keys c).xor iv :: decryptBlocks keys c cs

/-- The text filled up to whole blocks. -/
def fill (text : Bytes) : Bytes :=
  let n := 16 - text.length % 16
  text ++ List.replicate n n.toUInt8

/-- The text without its filling: the last byte says how many bytes fill the last block, and
they all have its value. -/
def unfill? (filled : Bytes) : Option Bytes := do
  let last ← filled.getLast?
  let n := last.toNat
  let kept := filled.length - n
  guard (1 ≤ n ∧ n ≤ 16 ∧ n ≤ filled.length ∧ (filled.drop kept).all (· = last))
  return filled.take kept

/-- The first block of a byte string, zeros where it ends early. -/
def firstBlock (b : Bytes) : Block :=
  match Aes.columns (b.take 16) with
  | [c₀, c₁, c₂, c₃] => ⟨c₀, c₁, c₂, c₃⟩
  | _ => .zero

def encrypt (key iv text : Bytes) : Bytes :=
  let blocks := (Aes.blocks? (fill text)).getD []
  (encryptBlocks (Aes.roundKeys key) (firstBlock iv) blocks).flatMap Block.bytes

/-- The text of a chained encryption, if it is whole blocks that end in a filling. -/
def decrypt? (key iv body : Bytes) : Option Bytes := do
  let blocks ← Aes.blocks? body
  unfill? ((decryptBlocks (Aes.roundKeys key) (firstBlock iv) blocks).flatMap Block.bytes)

end SealedMetadata.Cbc
