import SealedMetadata.Blob.Basic
import SealedMetadata.Text.Pieces

/-!
The set of a user's master keys: one text with bars between the keys, encrypted with the last of
them.
-/

namespace SealedMetadata.MasterKeys

def separator : Char := '|'

/-- The keys in the text of a field. -/
def keysIn (text : String) : List String :=
  (Text.split separator text.toList).map String.ofList

/-- The keys in a sealed text, each in a buffer of its own. The whole text is emptied once they
are copied out of it. -/
def cut (whole : Sealed) : Vaulted (List Sealed) := do
  let text ← Vaulted.inspect fun v => whole.text v
  let keys ← (keysIn text).mapM fun k => Vaulted.keep .text (Utf8.encode k)
  Vaulted.wipe whole
  Vaulted.perform (Action.log (.masterKeysRead keys.length))
  return keys

/-- The keys in a field, none if it is absent or empty. -/
def readSealed (field : Option Secret) (key : Secret) : Vaulted (List Sealed) :=
  match field with
  | none => return []
  | some f =>
    if f.isEmpty then return []
    else do
      let whole ← Blob.decryptSealed (.ok f) (.ok key)
      cut whole

/-- The keys in a field as texts. -/
def decrypt (field : Option Secret) (key : Secret) : Action (List String) := do
  let (keys, v) ← (readSealed field key).run .empty
  Action.ofExcept (keys.mapM fun k => k.text v)

def texts (keys : List Secret) : Except Failure (List String) :=
  keys.mapM fun k =>
    match k.text? with
    | some s => .ok s
    | none => .error (.malformed .masterKeyNotUtf8)

/-- The text of the whole set. No key may hold a bar. -/
def joinedText (keys : List Secret) : Except Failure String := do
  let ts ← texts keys
  if ts.any fun t => t.toList.contains separator then .error (.malformed .masterKeyWithSeparator)
  else .ok (String.ofList (Text.join separator (ts.map String.toList)))

def encrypt (keys : List Secret) (key : Secret) (version : RequestedVersion) : Action String := do
  let text ← Action.ofExcept (joinedText keys)
  Blob.encryptText (.text text) key version

end SealedMetadata.MasterKeys
