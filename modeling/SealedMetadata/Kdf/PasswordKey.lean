import SealedMetadata.Failure
import SealedMetadata.Kdf.DigestStream
import SealedMetadata.Kdf.Pbkdf2
import SealedMetadata.Secret

/-!
Keys derived from passwords: by PBKDF2 in two lengths, and from a digest stream.
-/

namespace SealedMetadata.PasswordKey

/-- The iterations that passwords get, and that stand in where a count is not positive. -/
def defaultIterations : Nat := 200000

/-- The iterations that a requested count stands for. -/
def iterationsOf (count : Int) : Nat := if count ≤ 0 then defaultIterations else count.toNat

def lengths : List Nat := [32, 64]

def derive256 (password salt : Secret) (iterations : Int) : Bytes :=
  Pbkdf2.derive password.content salt.content (iterationsOf iterations) 32

def derive512 (password salt : Secret) (iterations : Int) : Bytes :=
  Pbkdf2.derive password.content salt.content (iterationsOf iterations) 64

/-- A key of one of the two lengths; the length is judged first. -/
def derive (password salt : Secret) (iterations length : Int) : Except Failure Bytes :=
  if length = 32 then .ok (derive256 password salt iterations)
  else if length = 64 then .ok (derive512 password salt iterations)
  else .error (.keyLength lengths length)

/-- A key and an initial vector from a digest stream, an absent salt being empty. -/
def keyAndVector (password : Secret) (salt : Option Bytes) (iterations keyLength ivLength : Int) :
    Except Failure (Bytes × Bytes) :=
  if iterations < 1 then .error (.invalidValue .iterationCount)
  else .ok (DigestStream.keyAndVector password.content (salt.getD []) iterations.toNat keyLength
    ivLength)

end SealedMetadata.PasswordKey
