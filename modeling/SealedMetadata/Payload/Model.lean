import SealedMetadata.Payload.AuthInfo
import SealedMetadata.Payload.LinkAdd
import SealedMetadata.Payload.LinkEdit
import SealedMetadata.Payload.LinkStatus
import SealedMetadata.Payload.Login

/-!
The payloads together, with what they have in common: a name, attributes, a form in messages and
the fields that are sent.
-/

namespace SealedMetadata

/-- A payload of any kind. -/
inductive Model
  | authInfo (m : AuthInfo)
  | loginRequest (m : LoginRequest)
  | loginResponse (m : LoginResponse)
  | linkEdit (m : LinkEdit)
  | linkAdd (m : LinkAdd)
  | linkStatus (m : LinkStatus)

namespace Model

def name : Model → String
  | authInfo _ => "AuthInfoResponseData"
  | loginRequest _ => "LoginRequestPayload"
  | loginResponse _ => "LoginResponseData"
  | linkEdit _ => "LinkEditRequestPayload"
  | linkAdd _ => "LinkAddRequestPayload"
  | linkStatus _ => "LinkStatusResponseData"

def attributes : Model → List (String × Value)
  | authInfo m => m.attributes
  | loginRequest m => m.attributes
  | loginResponse m => m.attributes
  | linkEdit m => m.attributes
  | linkAdd m => m.attributes
  | linkStatus m => m.attributes

def quoted (v : Vault) : Model → String
  | authInfo m => m.quoted v
  | loginRequest m => m.quoted v
  | loginResponse _ => LoginResponse.quoted
  | linkEdit m => m.quoted v
  | linkAdd m => m.quoted v
  | linkStatus m => m.quoted v

/-- The fields that are sent; answers to login and link requests are never sent back. -/
def toFields (v : Vault) : Model → Except Failure Value
  | authInfo m => .ok m.toFields
  | loginRequest m => m.toFields v
  | linkEdit m => m.toFields v
  | linkAdd m => m.toFields v
  | loginResponse _ | linkStatus _ => .error .missingAttribute

/-- Whether two payloads are equal, which only descriptions of accounts can be. -/
def same (v : Vault) : Model → Model → Bool
  | authInfo m, authInfo n => m.same v n
  | _, _ => false

end Model

end SealedMetadata
