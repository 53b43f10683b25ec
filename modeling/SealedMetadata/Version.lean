import SealedMetadata.Failure

/-!
The two formats of encrypted metadata, and versions as callers name them.
-/

namespace SealedMetadata

/-- A format of encrypted metadata: chained blocks, or counter mode with a tag. -/
inductive Version
  | cbc
  | gcm
  deriving DecidableEq

/-- A version as it was asked for: the whole number that it equals, if it equals one, and the
text that it shows as. -/
structure RequestedVersion where
  number? : Option Int
  shown : String
  deriving DecidableEq

namespace RequestedVersion

/-- A whole number asked for as a version. -/
def ofInt (n : Int) : RequestedVersion := ⟨some n, toString n⟩

end RequestedVersion

namespace Version

def number : Version → Nat
  | cbc => 1
  | gcm => 2

/-- The version asked for, if its number is one or two. -/
def ofRequest (r : RequestedVersion) : Except Failure Version :=
  if r.number? = some 1 then .ok cbc
  else if r.number? = some 2 then .ok gcm
  else .error (.unsupportedVersion r.shown)

def request (v : Version) : RequestedVersion := .ofInt v.number

/-- The three ASCII digits of a version's number. -/
def marker (v : Version) : Bytes := [48, 48, 48 + v.number.toUInt8]

@[simp] theorem ofRequest_request (v : Version) : ofRequest v.request = .ok v := by
  cases v <;> rfl

end Version

end SealedMetadata
