import PennyCore.Contracts.Value
import PennyCore.Lib.Text

/-!
# Customer and event contracts

`src/contracts/customers.py` and `events.py`: the records that the context engine stores. The ids
that the server draws are strings of no fixed length (`Runtime.hex`), so the length bounds on them,
which the drawn ids meet, are left out.
-/

namespace PennyCore

open Lib

/-! ## Customers -/

inductive IdentityKind where
  | email | phone | externalId | chatHandle
  deriving DecidableEq, Repr

def IdentityKind.value : IdentityKind → String
  | .email => "email"
  | .phone => "phone"
  | .externalId => "external_id"
  | .chatHandle => "chat_handle"

structure Customer where
  id : String
  tenantId : Str 1 64
  displayName : Option (Str 0 128)

/-- The contract's checks. -/
def Customer.new (id tenantId : String) (displayName : Option String) :
    Except ValidationError Customer := do
  let tenantId ← Str.check 1 64 "Customer" "tenant_id" tenantId
  let displayName ← Str.checkOpt 128 "Customer" "display_name" displayName
  return { id, tenantId, displayName }

structure CustomerIdentity where
  id : String
  tenantId : Str 1 64
  customerId : String
  identityKind : IdentityKind
  identityValue : String

namespace CustomerIdentity

/-- What `_normalize_value` makes of a value that is not blank. -/
def normalizeValue (D : CaseData) (kind : IdentityKind) (value : String) : String :=
  match kind with
  | .email | .chatHandle => D.lower (strip value)
  | .phone | .externalId => strip value

/-- The contract's checks: the length of the value as given, and that it is not blank. -/
def new (D : CaseData) (id tenantId customerId : String) (kind : IdentityKind) (value : String) :
    Except ValidationError CustomerIdentity := do
  let tenantId ← Str.check 1 64 "CustomerIdentity" "tenant_id" tenantId
  let value ← Str.check 1 256 "CustomerIdentity" "identity_value" value
  if strip value.1 = "" then .error ⟨"CustomerIdentity", "identity_value"⟩
  else
    return { id, tenantId, customerId, identityKind := kind
             identityValue := normalizeValue D kind value.1 }

end CustomerIdentity

/-! ## Events -/

inductive ChannelType where
  | chat | email | sms | voice | api
  deriving DecidableEq, Repr

def ChannelType.value : ChannelType → String
  | .chat => "chat"
  | .email => "email"
  | .sms => "sms"
  | .voice => "voice"
  | .api => "api"

inductive EventType where
  | messageReceived | documentUploaded | statusChanged | anomalyDetected | systemEvent
  deriving DecidableEq, Repr

def EventType.value : EventType → String
  | .messageReceived => "message_received"
  | .documentUploaded => "document_uploaded"
  | .statusChanged => "status_changed"
  | .anomalyDetected => "anomaly_detected"
  | .systemEvent => "system_event"

structure Event where
  id : String
  tenantId : Str 1 64
  customerId : Option String
  channelCode : ChannelType
  eventType : EventType
  idempotencyKey : Str 1 128
  payload : Payload
  receivedAt : Time

end PennyCore
