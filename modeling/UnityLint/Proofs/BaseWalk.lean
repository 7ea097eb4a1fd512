import Mathlib.Data.List.Basic
import UnityLint.Declaration.Lookup

/-! # Walks along base types

The bases, the methods and the members of a type are found by three bounded searches. All of them follow
one walk: from a declared type to the declared type that its base refers to, up to a type whose base
does not refer to a declared type. -/

namespace UnityLint

inductive BaseEnd where
  | absent
  | unknown (written : String)
  | builtIn (type : EngineType)

namespace BaseEnd

def ref? : BaseEnd → Option TypeRef
  | .absent => none
  | .unknown _ => none
  | .builtIn type => some (.builtIn type)

def typeNames : BaseEnd → List TypeName
  | .absent => []
  | .unknown written =>
      [⟨String.ofList (Text.afterLast (· = '.') (bareTypeName written).toList), none⟩]
  | .builtIn type => (type :: type.ancestors).map EngineType.typeName

def method? (name : String) : BaseEnd → Option Symbol
  | .absent => none
  | .unknown _ => none
  | .builtIn type => type.method? name

end BaseEnd

namespace Declarations

variable (declarations : Declarations)

def DeclaredBase (info base : TypeInfo) : Prop :=
  info.base.bind declarations.lookup = some (.declared base)

def EndsWith (info : TypeInfo) : BaseEnd → Prop
  | .absent => info.base = none
  | .unknown written => info.base = some written ∧ declarations.lookup written = none
  | .builtIn type => info.base.bind declarations.lookup = some (.builtIn type)

/-- From a type, the bases lead through the declared types `passed`, nearest first, to an end. -/
inductive BaseWalk : TypeInfo → List TypeInfo → BaseEnd → Prop
  | stop {info ending} (ends : declarations.EndsWith info ending) : BaseWalk info [] ending
  | step {info next passed ending} (base : declarations.DeclaredBase info next)
      (rest : BaseWalk next passed ending) : BaseWalk info (next :: passed) ending

variable {declarations} {info : TypeInfo} {passed : List TypeInfo} {ending : BaseEnd} {depth : Nat}
  {name : String}

theorem EndsWith.bind_lookup (ends : declarations.EndsWith info ending) :
    info.base.bind declarations.lookup = ending.ref? := by
  cases ending with
  | absent =>
      have absent : info.base = none := ends
      rw [absent]
      rfl
  | unknown written =>
      rw [ends.1]
      exact ends.2
  | builtIn type => exact ends

/-! ## The three searches -/

/-- Induction over a walk together with a search that visits one type more than the walk passes. -/
@[elab_as_elim]
theorem BaseWalk.search_induction {motive : Nat → TypeInfo → List TypeInfo → BaseEnd → Prop}
    (stop : ∀ {depth info ending}, declarations.EndsWith info ending →
      motive (depth + 1) info [] ending)
    (step : ∀ {depth info next passed ending}, declarations.DeclaredBase info next →
      motive depth next passed ending → motive (depth + 1) info (next :: passed) ending)
    (walk : declarations.BaseWalk info passed ending) (enough : passed.length < depth) :
    motive depth info passed ending := by
  induction walk generalizing depth with
  | stop ends =>
      cases depth with
      | zero => cases enough
      | succ depth => exact stop ends
  | step base rest induction =>
      cases depth with
      | zero => cases enough
      | succ depth => exact step base (induction (Nat.lt_of_succ_lt_succ enough))

theorem BaseWalk.basesWithin_eq (walk : declarations.BaseWalk info passed ending)
    (enough : passed.length < depth) :
    declarations.basesWithin depth info.base =
      passed.map TypeInfo.typeName ++ ending.typeNames := by
  refine walk.search_induction ?_ ?_ enough
  · intro depth info ending ends
    cases ending with
    | absent =>
        have absent : info.base = none := ends
        rw [absent]
        rfl
    | unknown written =>
        rw [ends.1, basesWithin, ends.2]
        rfl
    | builtIn type =>
        obtain ⟨written, stated, found⟩ := Option.bind_eq_some_iff.mp ends
        rw [stated, basesWithin, found]
        rfl
  · intro depth info next passed ending base induction
    obtain ⟨written, stated, found⟩ := Option.bind_eq_some_iff.mp base
    rw [stated, basesWithin, found]
    exact congrArg _ induction

theorem BaseWalk.methodWithin_eq (walk : declarations.BaseWalk info passed ending)
    (enough : passed.length < depth) (name : String) :
    declarations.methodWithin name depth info =
      (((info :: passed).find? (name ∈ ·.methods)).map (·.symbol name .method)).or
        (ending.method? name) := by
  refine walk.search_induction ?_ ?_ enough
  · intro depth info ending ends
    rw [methodWithin, ends.bind_lookup]
    by_cases declares : name ∈ info.methods
    · simp [declares]
    · rw [if_neg declares]
      cases ending <;> simp [declares, BaseEnd.ref?, BaseEnd.method?]
  · intro depth info next passed ending base induction
    rw [methodWithin, base]
    by_cases declares : name ∈ info.methods
    · simp [declares]
    · rw [if_neg declares, List.find?_cons_of_neg (by simpa using declares)]
      exact induction

theorem BaseWalk.memberWithin_eq (walk : declarations.BaseWalk info passed ending)
    (enough : passed.length < depth) (name : String) :
    declarations.memberWithin name depth info =
      (info :: passed).findSome? fun owner =>
        (owner.members.find? (·.name = name)).map fun member =>
          owner.symbol name member.kind member.attributes := by
  refine walk.search_induction ?_ ?_ enough
  · intro depth info ending ends
    rw [memberWithin, ends.bind_lookup]
    cases found : info.members.find? (·.name = name) with
    | none => cases ending <;> simp [found, BaseEnd.ref?]
    | some member => simp [found]
  · intro depth info next passed ending base induction
    rw [memberWithin, base, List.findSome?_cons]
    cases found : info.members.find? (·.name = name) with
    | none => exact induction
    | some member => rfl

theorem name_ne_of_memberWithin_eq_none (missing : declarations.memberWithin name depth info = none)
    (chain : (info :: passed).IsChain declarations.DeclaredBase) (enough : passed.length < depth) :
    ∀ owner ∈ info :: passed, ∀ member ∈ owner.members, member.name ≠ name := by
  induction depth generalizing info passed with
  | zero => cases enough
  | succ depth induction =>
      rw [memberWithin] at missing
      cases found : info.members.find? (·.name = name) with
      | some member =>
          rw [found] at missing
          cases missing
      | none =>
          have own : ∀ member ∈ info.members, member.name ≠ name := by
            simpa using List.find?_eq_none.mp found
          cases passed with
          | nil =>
              intro owner member
              rw [List.mem_singleton.mp member]
              exact own
          | cons next rest =>
              rcases List.isChain_cons_cons.mp chain with ⟨base, further⟩
              rw [found, base] at missing
              intro owner member
              rcases List.mem_cons.mp member with rfl | later
              · exact own
              · exact induction missing further (Nat.lt_of_succ_lt_succ enough) owner later

/-- The three searches agree with the walk, if it passes fewer types than they visit. The bases are the
declared types that it passes, and then what it ends with. The method of a name is that of the first
type that declares it, or else the one inherited from the engine. The member of a name is the first one
of the first type that declares it. -/
theorem searches_eq_of_baseWalk (walk : declarations.BaseWalk info passed ending)
    (short : passed.length ≤ 31) :
    declarations.bases info = passed.map TypeInfo.typeName ++ ending.typeNames ∧
      (∀ name, declarations.method? info name =
        (((info :: passed).find? (name ∈ ·.methods)).map fun owner =>
          ({ name, kind := .method, container := some owner.typeName,
             namespaceName := owner.namespaceName } : Symbol)).or (ending.method? name)) ∧
      ∀ name, declarations.member? info name =
        (info :: passed).findSome? fun owner =>
          (owner.members.find? (·.name = name)).map fun member =>
            ({ name, kind := member.kind, container := some owner.typeName,
               namespaceName := owner.namespaceName,
               attributes := member.attributes } : Symbol) := by
  have enough : passed.length < baseLimit := Nat.lt_succ_of_le short
  exact ⟨walk.basesWithin_eq enough, walk.methodWithin_eq enough, walk.memberWithin_eq enough⟩

/-! A boss that derives from an enemy by a dotted name with type arguments, and through an alias from a
behaviour of the engine. -/

def enemyBase : TypeInfo where
  name := "EnemyBase"
  namespaceName := some "Game"
  base := some "MonoBehaviour"
  members := [⟨"health", .field, ["SerializeField", "Min"]⟩]
  methods := ["Hit"]

def enemy : TypeInfo where
  name := "Enemy"
  namespaceName := some "Game"
  base := some "Base"
  methods := ["Move"]

def boss : TypeInfo where
  name := "Boss"
  base := some "global::Game.Enemy<int>"

def ofBoss : Declarations where
  usings := ["UnityEngine"]
  aliases := [("Base", "Game.EnemyBase")]
  types := [(3, enemyBase), (5, enemy), (8, boss)]

theorem searches_eq_of_baseWalk_boss :
    ofBoss.BaseWalk boss [enemy, enemyBase] (.builtIn .monoBehaviour) ∧
      ofBoss.bases boss =
        [⟨"Enemy", some "Game"⟩, ⟨"EnemyBase", some "Game"⟩, ⟨"MonoBehaviour", some "UnityEngine"⟩,
          ⟨"Behaviour", some "UnityEngine"⟩, ⟨"Component", some "UnityEngine"⟩,
          ⟨"Object", some "UnityEngine"⟩] ∧
      (ofBoss.method? boss "Hit").bind Symbol.container = some ⟨"EnemyBase", some "Game"⟩ ∧
      (ofBoss.method? boss "FindObjectOfType").bind Symbol.container =
        some ⟨"Object", some "UnityEngine"⟩ ∧
      (ofBoss.member? boss "health").map Symbol.attributes = some ["SerializeField", "Min"] := by
  have walk : ofBoss.BaseWalk boss [enemy, enemyBase] (.builtIn .monoBehaviour) := by
    refine .step ?_ (.step ?_ (.stop ?_))
    · show _ = _
      decide
    · show _ = _
      decide
    · show _ = _
      decide
  obtain ⟨bases, methods, members⟩ := searches_eq_of_baseWalk walk (by decide)
  refine ⟨walk, bases, ?_, ?_, ?_⟩
  · rw [methods]
    decide
  · rw [methods]
    decide
  · rw [members]
    decide

end Declarations

end UnityLint
