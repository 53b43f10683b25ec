import SealedMetadata.Session.Operation
import SealedMetadata.Session.Reply

/-!
Questions to sealed values, and operations on login credentials, carried out.
-/

namespace SealedMetadata.Session

def sizeOf (v : Vault) : Value → Except Failure Nat
  | .text s => .ok s.length
  | .bytes b => .ok b.length
  | .sealed s => .ok (v.content s).length
  | .list items | .tuple items => .ok items.length
  | .record fields => .ok fields.length
  | _ => .error .wrongType

def natValue (n : Nat) : Value := .int n

/-- The reply to a question that leaves the vault alone. -/
def SecretQuery.answer (v : Vault) (x : Value) : SecretQuery → Except Failure Value
  | identity => .ok x
  | content => do
    let secret ← x.toSecret v "bytes"
    return .bytes secret.content
  | reveal =>
    match x with
    | .sealed s =>
      match s.kind with
      | .bytes => .ok (.bytes (v.content s))
      | .text => (s.text v).map .text
    | _ => .error .missingAttribute
  | revealBytes =>
    match x with
    | .sealed ⟨.text, slot⟩ => .ok (.bytes (v.content ⟨.text, slot⟩))
    | _ => .error .missingAttribute
  | hex =>
    match x with
    | .sealed s => .ok (.text (Hex.encode (v.content s)))
    | .bytes b => .ok (.text (Hex.encode b))
    | _ => .error .missingAttribute
  | size => (sizeOf v x).map natValue
  | nonEmpty => .ok (.bool (x.countsAsTrue v))
  | quoted => .ok (.text (x.quoted v))
  | display => .ok (.text (x.display v))
  | serialize =>
    match x with
    | .sealed s => .error (.notSerializable s.kind.name)
    | _ => .error .wrongType
  | hash | wipe | scope => .error .wrongType

/-- The reply to a question to a value. Wiping empties the buffer, and so does leaving a scope. -/
def SecretQuery.run (names : Names) (value : Arg) (query : SecretQuery) : Vaulted Reply := do
  let o ← value.eval names
  match query, o with
  | .identity, o => return .object o
  | .wipe, .value (.sealed s) =>
    Vaulted.wipe s
    return .ofValue .none
  | .wipe, _ => Vaulted.fail .missingAttribute
  | .scope, .value (.sealed s) =>
    let before ← Vaulted.within s (Vaulted.inspect fun v => sizeOf v (.sealed s))
    let after ← Vaulted.inspect fun v => sizeOf v (.sealed s)
    return .ofValue (.list [natValue before, natValue after])
  | query, o =>
    let x ← Vaulted.perform (Action.ofExcept o.toValue)
    let answer ← Vaulted.inspect fun v => query.answer v x
    return .ofValue answer

/-- The two halves of credentials in hexadecimal, as they are now. -/
def bothHex (c : SealedCredentials) : Vaulted Value :=
  Vaulted.inspect fun v => do
    let masterKey ← (c.contents v).masterKeyHex
    let sentPassword ← (c.contents v).sentPasswordHex
    return .list [.text masterKey, .text sentPassword]

def CredentialOperation.run (names : Names) : CredentialOperation → Vaulted Reply
  | ofPassword password => do
    let p ← password.evalSecret names
    let c ← SealedCredentials.keep (Credentials.ofPassword p)
    return .object (.credentials c)
  | ofPasswordAndSalt password salt => do
    let p ← password.evalSecret names
    let s ← salt.evalSecret names
    let c ← Vaulted.perform (Action.ofExcept (Credentials.ofPasswordAndSalt p s))
    let kept ← SealedCredentials.keep c
    return .object (.credentials kept)
  | ofDerivedKey key => do
    let b ← key.evalBytes names
    let c ← Vaulted.perform (Action.ofExcept (Credentials.ofDerivedKey b))
    let kept ← SealedCredentials.keep c
    return .object (.credentials kept)
  | forVersion version password salt => do
    let x ← version.evalValue names
    let requested ← Vaulted.inspect fun v => .ok (x.requestedAuthVersion v)
    let p ← password.evalSecret names
    let s ← evalOption names salt
    let v ← get
    let c ← Vaulted.perform (Credentials.forVersion requested p (s.toSecret? v))
    let kept ← SealedCredentials.keep c
    return .object (.credentials kept)
  | identity credentials => do
    let o ← credentials.eval names
    return .object o
  | wipe credentials => do
    let c ← credentials.evalCredentials names
    c.wipe
    return .ofValue .none
  | quoted credentials => do
    let o ← credentials.eval names
    let s ← Vaulted.inspect fun v => o.quoted v
    return .ofText s
  | hash credentials => do
    let _ ← credentials.eval names
    Vaulted.fail .wrongType
  | scope credentials => do
    let c ← credentials.evalCredentials names
    let before ← c.within (bothHex c)
    let after ← bothHex c
    return .ofValue (.list [before, after])

end SealedMetadata.Session
