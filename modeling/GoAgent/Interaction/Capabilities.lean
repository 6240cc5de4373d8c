import GoAgent.Foundation.Raising
import GoAgent.Interaction.Contracts

/-!
# The capability catalog

A catalog lists the registered capabilities and the dispatch keys that are bound. `getAvailable`
answers a code only with a capability that is enabled and allowed to the given permissions, and
only while every registered capability can be dispatched. `validateCapabilityInputs` checks
inputs against the schema of a capability.
-/

namespace GoAgent.Interaction

open GoAgent.Foundation

inductive ConfirmationPolicy where
  | always | conditional | never
  deriving DecidableEq

structure PlatformCapability where
  code : String
  capabilityType : CapabilityType
  description : String
  inputSchema : Inputs
  requiredFields : List String
  confirmationPolicy : ConfirmationPolicy
  permission : List String
  enabled : Bool
  dispatchKey : String

/-- `CapabilityPrincipal.from_permissions` -/
def normalizedPermissions (permissions : List String) : List String :=
  (permissions.filter fun p => !isBlank p).map strip

def PlatformCapability.isAllowed (c : PlatformCapability) (permissions : List String) : Bool :=
  c.permission.all fun p => p ∈ permissions

structure CapabilityDispatchBinding where
  dispatchKey : String
  capabilityType : CapabilityType

structure PlatformCapabilityCatalog where
  registered : List PlatformCapability
  bindings : List CapabilityDispatchBinding

namespace PlatformCapabilityCatalog

/-- `dispatch_registry.validate` -/
def dispatchable (catalog : PlatformCapabilityCatalog) (c : PlatformCapability) : Bool :=
  match catalog.bindings.find? fun b => b.dispatchKey = c.dispatchKey with
  | some b => b.capabilityType = c.capabilityType
  | none => false

def validateRegistered (catalog : PlatformCapabilityCatalog) : Except BaseException Unit :=
  require (catalog.registered.all catalog.dispatchable = true)
    (.exception "CapabilityDispatchConfigurationError")

def getAvailable (catalog : PlatformCapabilityCatalog) (code : String)
    (permissions : List String) : Except BaseException (Option PlatformCapability) := do
  catalog.validateRegistered
  let principal := normalizedPermissions permissions
  match catalog.registered.find? fun c => c.code = code ∧ c.enabled = true with
  | some c => pure (if c.isAllowed principal then some c else none)
  | none => pure none

/-- The catalog offers a capability under a code, to a subject with the permissions. -/
structure Offers (catalog : PlatformCapabilityCatalog) (code : String) (permissions : List String)
    (c : PlatformCapability) : Prop where
  registered : c ∈ catalog.registered
  code : c.code = code
  enabled : c.enabled = true
  allowed : ∀ p ∈ c.permission, p ∈ normalizedPermissions permissions

theorem offers_of_getAvailable {catalog : PlatformCapabilityCatalog} {code : String}
    {permissions : List String} {c : PlatformCapability}
    (h : catalog.getAvailable code permissions = .ok (some c)) :
    catalog.Offers code permissions c := by
  unfold getAvailable at h
  cases hvalid : catalog.validateRegistered with
  | error e =>
    rw [hvalid] at h
    cases h
  | ok u =>
    rw [hvalid] at h
    cases hfind : catalog.registered.find? fun c => c.code = code ∧ c.enabled = true with
    | none =>
      rw [hfind] at h
      cases h
    | some c' =>
      rw [hfind] at h
      have hc : (if c'.isAllowed (normalizedPermissions permissions) then some c' else none) =
          some c := Except.ok.inj h
      have hprop := List.find?_some hfind
      simp only [decide_eq_true_eq] at hprop
      split_ifs at hc with hallowed
      obtain rfl := Option.some.inj hc
      refine ⟨List.mem_of_find?_eq_some hfind, hprop.1, hprop.2, fun p hp => ?_⟩
      have hall := List.all_eq_true.1 hallowed p hp
      exact of_decide_eq_true hall

end PlatformCapabilityCatalog

/-! ## Inputs -/

structure InputValidationResult where
  missingFields : List String := []
  unknownFields : List String := []
  invalidFields : List String := []
  deriving DecidableEq

def InputValidationResult.valid (r : InputValidationResult) : Bool :=
  r.missingFields.isEmpty && r.unknownFields.isEmpty && r.invalidFields.isEmpty

def Value.isAttachment : Value → Bool
  | attachment _ => true
  | _ => false

/-- `schema.get(name)` -/
def Value.field (name : String) : Value → Option Value
  | dict fields => fields.lookup name
  | _ => none

def isResolvedAttachmentValue (value schema : Value) : Bool :=
  match schema.field "x-attachment" with
  | none => false
  | some _ =>
    match schema.field "type", value with
    | some (.str "string"), _ => value.isAttachment
    | some (.str "array"), .tuple items => !items.isEmpty && items.all Value.isAttachment
    | _, _ => false

def matchesJsonType (value : Value) (expected : String) : Bool :=
  match expected, value with
  | "string", .str _ | "integer", .int _ | "number", .int _ | "number", .float _
  | "boolean", .bool _ | "array", .list _ | "object", .dict _ | "null", .none => true
  | "string", _ | "integer", _ | "number", _ | "boolean", _ | "array", _ | "object", _
  | "null", _ => false
  | _, _ => true

/-- `_matches_json_type`, for whatever a schema gives as a type. -/
def matchesTypeItem (value item : Value) : Except BaseException Bool :=
  match item with
  | .str expected => .ok (matchesJsonType value expected)
  -- a value that cannot be hashed is no key
  | .list _ | .dict _ => .error (.exception "TypeError")
  | _ => .ok true

def matchesAny (value : Value) : List Value → Except BaseException Bool
  | [] => .ok false
  | item :: items => do
    if ← matchesTypeItem value item then pure true else matchesAny value items

def matchesSchemaType (value schema : Value) : Except BaseException Bool :=
  match schema.field "type" with
  | none | some .none => .ok true
  | some (.str expected) => matchesAny value [.str expected]
  | some (.list items) | some (.tuple items) => matchesAny value items
  | some (.dict fields) => matchesAny value (fields.map fun f => .str f.1)
  | some _ => .error (.exception "TypeError")

def isMissingValue : Value → Bool
  | .none => true
  | .str s => isBlank s
  | .list [] => true
  | _ => false

def isInvalidField (declared : Inputs) (field : String × Value) : Except BaseException Bool :=
  match declared.lookup field.1 with
  | none => .ok false
  | some schema =>
    if isResolvedAttachmentValue field.2 schema then .ok false
    else do pure (!(← matchesSchemaType field.2 schema))

def PlatformCapability.declaredProperties (c : PlatformCapability) : Inputs :=
  match c.inputSchema.lookup "properties" with
  | some (.dict properties) => properties
  | _ => []

def PlatformCapability.allowsAdditional (c : PlatformCapability) : Bool :=
  match c.inputSchema.lookup "additionalProperties" with
  | some (.bool true) => true
  | _ => false

def validateCapabilityInputs (c : PlatformCapability) (inputs : Inputs) :
    Except BaseException InputValidationResult := do
  let declared := c.declaredProperties
  let unknown := if c.allowsAdditional then []
    else (inputs.map Prod.fst).filter fun name => (declared.lookup name).isNone
  let invalid ← keepIf (isInvalidField declared) inputs
  pure {
    missingFields := c.requiredFields.filter fun name =>
      match inputs.lookup name with
      | none => true
      | some value => isMissingValue value
    unknownFields := unknown.insertionSort (· ≤ ·)
    invalidFields := (invalid.map Prod.fst).insertionSort (· ≤ ·) }

/-- The inputs satisfy the schema of the capability. -/
def PlatformCapability.Accepts (c : PlatformCapability) (inputs : Inputs) : Prop :=
  ∃ validation, validateCapabilityInputs c inputs = .ok validation ∧ validation.valid = true

/-- Fields with an `x-attachment`; the schema of a capability has been checked when it was made. -/
def attachmentFields (c : PlatformCapability) : List String :=
  (c.declaredProperties.filter fun f =>
    match f.2.field "x-attachment" with
    | none | some .none => false
    | some _ => true).map Prod.fst

end GoAgent.Interaction
