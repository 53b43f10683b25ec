import SealedMetadata.Session.Operation
import SealedMetadata.Session.Reply

/-!
Operations on blobs and fields, carried out.
-/

namespace SealedMetadata.Session

/-- The version that an argument asks for, judged. -/
def judgedVersion (names : Names) (a : Arg) : Vaulted Version := do
  let requested ← evalVersion names (some a)
  Vaulted.perform (Action.ofExcept (Version.ofRequest requested))

/-- The reply to a search among keys, its find being kept by `keep`. -/
def replySearch {α : Type} (search : Blob.Search α) (keep : α → Vaulted Object) :
    Vaulted Reply := do
  match search.result with
  | .ok a => return .search search.tried (.ok (← keep a))
  | .error e => return .search search.tried (.error e)

def BlobOperation.run (names : Names) : BlobOperation → Vaulted Reply
  | coerce version => do
    let v ← judgedVersion names version
    return .ofValue (.version v)
  | marker version => do
    let v ← judgedVersion names version
    return .ofBytes v.marker
  | sniff data => do
    let blob ← data.evalBytes names
    let v ← Vaulted.perform (Action.ofExcept (Blob.sniff blob))
    return .ofValue (.version v)
  | encryptSalted data password salt => do
    let text ← data.evalBytes names
    let key ← password.evalSecret names
    let s ← evalBytes? names salt
    let blob ← Vaulted.perform (Blob.Salted.encrypt key s text)
    return .ofBytes blob
  | decryptSalted data password => do
    let blob ← data.evalBytes names
    let key ← password.evalSecret names
    let text ← Vaulted.perform (Action.ofExcept (Blob.Salted.decrypt key blob))
    return .ofBytes text
  | encryptAuthenticated data password => do
    let text ← data.evalBytes names
    let key ← password.evalSecret names
    let body ← Vaulted.perform (Blob.Authenticated.encrypt key text)
    return .ofBytes body
  | decryptAuthenticated data password => do
    let body ← data.evalBytes names
    let key ← password.evalSecret names
    let text ← Vaulted.perform (Action.ofExcept (Blob.Authenticated.decrypt key body))
    return .ofBytes text
  | encrypt data key version salt => do
    let text ← data.evalBytes names
    let k ← key.evalSecret names
    let requested ← evalVersion names (some version)
    let s ← evalBytes? names salt
    let blob ← Vaulted.perform (Blob.encrypt text k requested s)
    return .ofBytes blob
  | decrypt data key => do
    let blob ← data.evalBytes names
    let k ← key.evalSecret names
    let text ← Vaulted.perform (Blob.decrypt blob k)
    return .ofBytes text
  | encryptText data key version => do
    let text ← data.evalSecret names
    let k ← key.evalSecret names
    let requested ← evalVersion names (some version)
    let field ← Vaulted.perform (Blob.encryptText text k requested)
    return .ofText field
  | decryptText data key => do
    let field ← data.evalSecret names
    let k ← key.evalSecret names
    let text ← Vaulted.perform (Blob.decryptText field k)
    Reply.keepText text
  | decryptWithAny data keys => do
    let blob ← data.evalBytes names
    let ks ← keys.evalSecrets names
    let search ← Vaulted.perform (Blob.decryptWithAny blob ks)
    replySearch search fun b => return .value (.bytes b)
  | decryptTextWithAny data keys => do
    let field ← data.evalSecret names
    let ks ← keys.evalSecrets names
    let search ← Vaulted.perform (Blob.decryptTextWithAny field ks)
    replySearch search fun s => do
      return .value (.sealed (← Vaulted.keep .text (Utf8.encode s)))
  | decryptMasterKeys data key => do
    let field ← evalSecret? names data
    let k ← key.evalSecret names
    let keys ← MasterKeys.readSealed field k
    return .ofValue (.list (keys.map .sealed))
  | encryptMasterKeys keys key version => do
    let ks ← keys.evalSecrets names
    let k ← key.evalSecret names
    let requested ← evalVersion names version
    let field ← Vaulted.perform (MasterKeys.encrypt ks k requested)
    return .ofText field
  | decryptPrivateKey data key => do
    let field ← evalSecret? names data
    let k ← key.evalSecret names
    let s ← PrivateKey.readSealed field k
    return .ofValue (.sealed s)
  | newLinkKey key version => do
    let k ← key.evalSecret names
    let requested ← evalVersion names version
    let made ← Vaulted.perform (Link.newKey k requested)
    let s ← Vaulted.keep .text (Utf8.encode made.1)
    return .ofValue (.tuple [.sealed s, .text made.2])
  | hashLinkPassword password => do
    let p ← password.evalSecret names
    let hashed ← Vaulted.perform (Link.hashPassword p)
    return .ofValue (.tuple [.text hashed.1, .text hashed.2])
  | noPassword => return .ofValue (.tuple [.text Link.noPassword, .text Link.noPasswordHash])

end SealedMetadata.Session
