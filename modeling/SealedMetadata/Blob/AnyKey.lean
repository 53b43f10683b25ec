import SealedMetadata.Blob.Basic

/-!
Several keys tried in order on one blob. Metadata from before a change of keys is still encrypted
with an older one.
-/

namespace SealedMetadata.Blob

/-- The outcome of trying keys, and how many were taken. -/
structure Search (α : Type) where
  tried : Nat
  result : Except Failure α

/-- The first success among the keys, `tried` of which were taken before. Only a failure to
decrypt moves on to the next key. -/
def searchFrom {α : Type} (tryKey : Secret → Action α) : Nat → List Secret → Action (Search α)
  | tried, [] => return ⟨tried, .error (.allKeysFailed tried)⟩
  | tried, key :: keys => do
    match ← (tryKey key).attempt with
    | .ok a =>
      Action.log (.keyMatched (tried + 1))
      return ⟨tried + 1, .ok a⟩
    | .error e =>
      -- any other failure lies in the blob, so no further key is tried
      if e.isDecryption then searchFrom tryKey (tried + 1) keys
      else return ⟨tried + 1, .error e⟩

/-- The text of a blob under the first key that decrypts it. -/
def decryptWithAny (blob : Bytes) (keys : List Secret) : Action (Search Bytes) :=
  searchFrom (decrypt blob) 0 keys

/-- The text in a field under the first key that decrypts it. -/
def decryptTextWithAny (field : Secret) (keys : List Secret) : Action (Search String) :=
  searchFrom (decryptText field) 0 keys

end SealedMetadata.Blob
