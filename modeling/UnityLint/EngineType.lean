import UnityLint.Rule.Basic
import UnityLint.Symbol

/-! # The types of the game engine

The spine of the component model and the methods declared on it. A type that is not listed is
unknown. -/

namespace UnityLint

inductive EngineType where
  | object
  | gameObject
  | component
  | transform
  | rigidbody
  | behaviour
  | camera
  | monoBehaviour
  | scriptableObject
deriving DecidableEq, Repr

namespace EngineType

def all : List EngineType :=
  [.object, .gameObject, .component, .transform, .rigidbody, .behaviour, .camera, .monoBehaviour,
    .scriptableObject]

theorem mem_all (type : EngineType) : type ∈ all := by
  cases type <;> decide

def name : EngineType → String
  | .object => "Object"
  | .gameObject => "GameObject"
  | .component => "Component"
  | .transform => "Transform"
  | .rigidbody => "Rigidbody"
  | .behaviour => "Behaviour"
  | .camera => "Camera"
  | .monoBehaviour => "MonoBehaviour"
  | .scriptableObject => "ScriptableObject"

def ofName? (name : String) : Option EngineType :=
  all.find? (·.name = name)

theorem ofName?_name (type : EngineType) : ofName? type.name = some type := by
  cases type <;> decide

def ancestors : EngineType → List EngineType
  | .object => []
  | .gameObject => [.object]
  | .component => [.object]
  | .transform => [.component, .object]
  | .rigidbody => [.component, .object]
  | .behaviour => [.component, .object]
  | .camera => [.behaviour, .component, .object]
  | .monoBehaviour => [.behaviour, .component, .object]
  | .scriptableObject => [.object]

def methods : EngineType → List String
  | .object =>
      ["FindObjectOfType", "FindObjectsOfType", "FindAnyObjectByType", "FindObjectsByType",
        "FindFirstObjectByType", "Instantiate", "Destroy", "DestroyImmediate", "DontDestroyOnLoad"]
  | .gameObject =>
      ["Find", "FindWithTag", "FindGameObjectWithTag", "FindGameObjectsWithTag", "GetComponent",
        "GetComponents", "GetComponentInChildren", "GetComponentsInChildren",
        "GetComponentInParent", "GetComponentsInParent", "TryGetComponent", "AddComponent",
        "SetActive", "CompareTag"]
  | .component =>
      ["GetComponent", "GetComponents", "GetComponentInChildren", "GetComponentsInChildren",
        "GetComponentInParent", "GetComponentsInParent", "TryGetComponent", "CompareTag"]
  | .transform => ["Find", "GetChild", "SetParent", "LookAt", "Translate", "Rotate"]
  | .rigidbody => ["AddForce", "MovePosition", "MoveRotation"]
  | .behaviour => []
  | .camera => ["ScreenToWorldPoint", "WorldToScreenPoint", "ScreenPointToRay"]
  | .monoBehaviour =>
      ["StartCoroutine", "StopCoroutine", "StopAllCoroutines", "Invoke", "InvokeRepeating",
        "CancelInvoke"]
  | .scriptableObject => ["CreateInstance"]

def typeName (type : EngineType) : TypeName :=
  ⟨type.name, some engineNamespace⟩

/-- The method `name` of a type, declared or inherited; its container is the type that declares it. -/
def method? (type : EngineType) (name : String) : Option Symbol :=
  ((type :: type.ancestors).find? (name ∈ ·.methods)).map fun owner =>
    { name, kind := .method, container := some owner.typeName,
      namespaceName := some engineNamespace }

end EngineType

end UnityLint
