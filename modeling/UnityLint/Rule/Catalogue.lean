import UnityLint.Diagnostic.Basic

/-! # The catalogue of diagnostics -/

namespace UnityLint.Catalogue

def category : String := "Unity.StrictRules"

def acquisitionOutsideStart : Descriptor where
  id := "SR0001"
  name := "get-component-outside-init"
  title := "GetComponent Outside Awake/Start"
  template := "'\x7b0\x7d' is only allowed in Awake or Start. Found in '\x7b1\x7d'. Use cached field or DI instead."
  category := category
  severity := .warning
  enabled := true
  description := "GetComponent-family calls are only allowed in Awake or Start. Calling them from Update and friends allocates every frame and hurts performance badly."
  help := "cache the component in a field during Awake/Start, or inject it"

def sceneLookup : Descriptor where
  id := "SR0002"
  name := "forbidden-find-method"
  title := "Forbidden Find Method"
  template := "'\x7b0\x7d' is forbidden. Use DI (VContainer) or SerializeField instead."
  category := category
  severity := .warning
  enabled := true
  description := "Find-family methods scan the whole scene, and string-based lookups are brittle. Resolve references through dependency injection or serialized fields."
  help := "resolve the reference once through DI or a [SerializeField] field"

def guardedAcquisition : Descriptor where
  id := "SR0003"
  name := "null-guard-after-get-component"
  title := "Null Guard After GetComponent"
  template := "Null check after GetComponent violates Fail-Fast principle. Use [RequireComponent] and access directly."
  category := category
  severity := .warning
  enabled := true
  description := "A null check after GetComponent hides a wiring mistake. A missing required component should fail immediately; declare it with [RequireComponent]."
  help := "add [RequireComponent] to the class and drop the null check"

def guardedInjection : Descriptor where
  id := "SR0004"
  name := "null-guard-after-injection"
  title := "Null Guard After DI Injection"
  template := "Null check after DI injection ([Inject] or [SerializeField]) violates Fail-Fast principle."
  category := category
  severity := .warning
  enabled := true
  description := "The container guarantees injected dependencies. An unset dependency is a design error and should crash at once; fallback paths breed bugs."
  help := "remove the null check and let a missing dependency fail fast"

def all : List Descriptor :=
  [acquisitionOutsideStart, sceneLookup, guardedAcquisition, guardedInjection]

def find? (id : String) : Option Descriptor :=
  all.find? (·.id = id)

end UnityLint.Catalogue
