import SealedMetadata.Session.Operation
import SealedMetadata.Session.Reply

/-!
Operations on payloads, carried out.
-/

namespace SealedMetadata.Session

/-- An argument that may be absent, with a value in its place. -/
def evalDefault (names : Names) (a : Option Arg) (default : Value) : Vaulted Value :=
  match a with
  | none => return default
  | some a => a.evalValue names

/-- The choices of a link request, judged in order. -/
def evalLinkChoices (names : Names) (button expiration : Option Arg) :
    Vaulted (DownloadButton × Expiration) := do
  let b ← evalChoice names button DownloadButton.enable
  let e ← evalChoice names expiration Expiration.never
  return (b, e)

def ModelOperation.run (names : Names) : ModelOperation → Vaulted Reply
  | quoted model => do
    let o ← model.eval names
    let s ← Vaulted.inspect fun v => o.quoted v
    return .ofText s
  | toFields model => do
    let m ← model.evalModel names
    let fields ← Vaulted.inspect fun v => m.toFields v
    return .ofValue fields
  | newAuthInfo email version salt => do
    let e ← evalDefault names email (.text "")
    let n ← evalDefault names version (.int 1)
    let s ← evalOption names salt
    return .ofModel (.authInfo ⟨e, n, s⟩)
  | readAuthInfo data => do
    let x ← data.evalValue names
    let m ← Vaulted.inspect fun v => AuthInfo.ofFields v x
    return .ofModel (.authInfo m)
  | deriveCredentials model password => do
    match ← model.evalModel names with
    | .authInfo m =>
      let p ← password.evalSecret names
      let c ← m.derive p
      return .object (.credentials c)
    | _ => Vaulted.fail .missingAttribute
  | newLoginRequest email password twoFactorKey version => do
    let e ← email.evalValue names
    let p ← password.evalValue names
    let k ← evalOption names twoFactorKey
    let n ← evalDefault names version (.int 2)
    let m ← LoginRequest.new e p k n
    return .ofModel (.loginRequest m)
  | loginRequestFor email credentials twoFactorKey => do
    let e ← email.evalValue names
    let c ← credentials.evalCredentials names
    let k ← evalOption names twoFactorKey
    let m ← LoginRequest.forCredentials e c k
    return .ofModel (.loginRequest m)
  | readLoginResponse data => do
    let x ← data.evalValue names
    let m ← LoginResponse.ofFields x
    return .ofModel (.loginResponse m)
  | responseMasterKeys model key => do
    match ← model.evalModel names with
    | .loginResponse m =>
      let k ← key.evalSecret names
      let keys ← m.decryptMasterKeys k
      return .ofValue (.list (keys.map .sealed))
    | _ => Vaulted.fail .missingAttribute
  | responsePrivateKey model key => do
    match ← model.evalModel names with
    | .loginResponse m =>
      let k ← key.evalSecret names
      let s ← m.decryptPrivateKey k
      return .ofValue (.sealed s)
    | _ => Vaulted.fail .missingAttribute
  | newLinkEdit apiKey uuid button expiration password => do
    let (b, e) ← evalLinkChoices names button expiration
    let key ← apiKey.evalValue names
    let item ← uuid.evalValue names
    let p ← evalGivenSecret names password
    let m ← LinkEdit.new key item b e p
    return .ofModel (.linkEdit m)
  | linkEditOf apiKey button expiration state hashed salt uuid => do
    let (b, e) ← evalLinkChoices names button expiration
    let p ← evalChoice names state PasswordState.empty
    let key ← apiKey.evalValue names
    let h ← hashed.evalValue names
    let s ← salt.evalValue names
    let item ← uuid.evalValue names
    let m ← LinkEdit.ofParts key b e p h s item
    return .ofModel (.linkEdit m)
  | newLinkAdd apiKey uuid metadata parent linkType key linkKey version => do
    let kind ← evalChoice names linkType ItemKind.file
    let api ← apiKey.evalValue names
    let item ← uuid.evalValue names
    let data ← metadata.evalValue names
    let folder ← parent.evalValue names
    let masterKey ← key.evalSecret names
    let given ← evalGivenSecret names linkKey
    let requested ← evalVersion names version
    let m ← LinkAdd.new api item data folder kind masterKey given (some requested)
    return .ofModel (.linkAdd m)
  | linkAddOf apiKey keyMetadata metadata parent linkType uuid linkUuid button expiration => do
    let (b, e) ← evalLinkChoices names button expiration
    let kind ← evalChoice names linkType ItemKind.file
    let api ← apiKey.evalValue names
    let field ← keyMetadata.evalValue names
    let data ← metadata.evalValue names
    let folder ← parent.evalValue names
    let item ← uuid.evalValue names
    let link ← evalOption names linkUuid
    let m ← LinkAdd.ofParts api field data folder kind item link b e
    return .ofModel (.linkAdd m)
  | readLinkStatus data => do
    let x ← data.evalValue names
    let m ← Vaulted.inspect fun v => LinkStatus.ofFields v x
    return .ofModel (.linkStatus m)
  | hasPassword model => do
    match ← model.evalModel names with
    | .linkStatus m =>
      let b ← Vaulted.inspect fun v => .ok (m.hasPassword v)
      return .ofValue (.bool b)
    | _ => Vaulted.fail .missingAttribute
  | readLinkKey model keys => do
    match ← model.evalModel names with
    | .linkStatus m =>
      let ks ← keys.evalSecrets names
      let v ← get
      match ← Vaulted.perform (m.decryptLinkKey v ks) with
      | none => return .ofValue .none
      | some key => Reply.keepText key
    | _ => Vaulted.fail .missingAttribute

end SealedMetadata.Session
