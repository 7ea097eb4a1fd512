import Mathlib.Logic.Relation
import UnityLint.Proofs.BaseWalk
import UnityLint.Proofs.Declarations

/-! # Circular bases

Declared types may derive from one another in a circle. The bases of a type are listed all the same: the
list stops after a fixed number of declared types, and a walk that gets that far lists declared types
only. So no type on a circle passes for a type of the engine. -/

namespace UnityLint

theorem EngineType.length_ancestors_le (type : EngineType) : type.ancestors.length ≤ 3 := by
  cases type <;> decide

namespace Declarations

variable {declarations : Declarations} {info base : TypeInfo} {passed : List TypeInfo} {depth : Nat}

/-! ## Walks that go on -/

theorem DeclaredBase.mem_values (derives : declarations.DeclaredBase info base) :
    base ∈ declarations.types.values := by
  rcases Option.bind_eq_some_iff.mp derives with ⟨written, _, found⟩
  exact mem_values_of_lookup found

theorem mem_values_of_isChain (chain : (info :: passed).IsChain declarations.DeclaredBase) :
    ∀ type ∈ passed, type ∈ declarations.types.values := by
  induction passed generalizing info with
  | nil => simp
  | cons next rest induction =>
      rcases List.isChain_cons_cons.mp chain with ⟨derives, further⟩
      exact List.forall_mem_cons.mpr ⟨derives.mem_values, induction further⟩

theorem basesWithin_of_isChain (chain : (info :: passed).IsChain declarations.DeclaredBase)
    (enough : depth ≤ passed.length) :
    declarations.basesWithin depth info.base = (passed.take depth).map TypeInfo.typeName := by
  induction depth generalizing info passed with
  | zero => rfl
  | succ depth induction =>
      cases passed with
      | nil => cases enough
      | cons next rest =>
          rcases List.isChain_cons_cons.mp chain with ⟨derives, further⟩
          rcases Option.bind_eq_some_iff.mp derives with ⟨written, stated, found⟩
          have others := induction further (Nat.le_of_succ_le_succ enough)
          rw [stated, basesWithin, found]
          exact congrArg _ others

/-- Only the last declared type that is visited can have a base of the engine, which brings up to three
more with it. -/
theorem length_basesWithin_le (depth : Nat) (written : Option String) :
    (declarations.basesWithin depth written).length ≤ depth + 3 := by
  induction depth generalizing written with
  | zero => simp [basesWithin]
  | succ depth induction =>
      cases written with
      | none => simp [basesWithin]
      | some written =>
          rw [basesWithin]
          split
          · rename_i info _
            have others := induction info.base
            rw [List.length_cons]
            omega
          · rename_i type _
            have ancestors := type.length_ancestors_le
            rw [List.length_cons, List.length_map]
            omega
          · rw [List.length_singleton]
            omega

/-! ## Circles -/

def Circular (declarations : Declarations) (info : TypeInfo) : Prop :=
  Relation.TransGen declarations.DeclaredBase info info

def LeadsToCircle (declarations : Declarations) (info : TypeInfo) : Prop :=
  ∃ other, Relation.ReflTransGen declarations.DeclaredBase info other ∧ declarations.Circular other

theorem Circular.leadsToCircle (circular : declarations.Circular info) :
    declarations.LeadsToCircle info :=
  ⟨info, .refl, circular⟩

theorem Circular.mem_values (circular : declarations.Circular info) :
    info ∈ declarations.types.values := by
  rcases Relation.TransGen.tail'_iff.mp circular with ⟨previous, _, derives⟩
  exact derives.mem_values

theorem LeadsToCircle.exists_base (leads : declarations.LeadsToCircle info) :
    ∃ base, declarations.DeclaredBase info base ∧ declarations.LeadsToCircle base := by
  rcases leads with ⟨other, path, circular⟩
  rcases path.cases_head with rfl | ⟨base, derives, rest⟩
  · rcases Relation.TransGen.head'_iff.mp circular with ⟨base, derives, back⟩
    exact ⟨base, derives, info, back, circular⟩
  · exact ⟨base, derives, other, rest, circular⟩

theorem LeadsToCircle.exists_isChain (leads : declarations.LeadsToCircle info) (count : Nat) :
    ∃ passed, (info :: passed).IsChain declarations.DeclaredBase ∧ passed.length = count := by
  induction count generalizing info with
  | zero => exact ⟨[], .singleton info, rfl⟩
  | succ count induction =>
      rcases leads.exists_base with ⟨base, derives, further⟩
      rcases induction further with ⟨passed, chain, length⟩
      exact ⟨base :: passed, List.isChain_cons_cons.mpr ⟨derives, chain⟩, congrArg (· + 1) length⟩

/-! ## The bases of a type -/

def AllDeclared (declarations : Declarations) (names : List TypeName) : Prop :=
  ∀ name ∈ names, ∃ type ∈ declarations.types.values, name = type.typeName

theorem allDeclared_of_isChain (chain : (info :: passed).IsChain declarations.DeclaredBase)
    (count : Nat) : declarations.AllDeclared ((passed.take count).map TypeInfo.typeName) := by
  intro name member
  rcases List.mem_map.mp member with ⟨type, taken, rfl⟩
  exact ⟨type, mem_values_of_isChain chain type (List.mem_of_mem_take taken), rfl⟩

theorem exists_declared_of_derivesFrom {name space : String} (member : info ∈ declarations.types.values)
    (declared : declarations.AllDeclared (declarations.bases info))
    (derives : (declarations.typeSymbol info).derivesFrom name space) :
    ∃ type ∈ declarations.types.values, type.name = name ∧ type.namespaceName = some space := by
  have matching {type : TypeInfo} (named : type.typeName.matches? name space) :
      type.name = name ∧ type.namespaceName = some space := of_decide_eq_true named
  rw [Symbol.derivesFrom, Bool.or_eq_true, List.any_eq_true] at derives
  rcases derives with own | ⟨base, listed, named⟩
  · exact ⟨info, member, matching own⟩
  · rcases declared base listed with ⟨type, inFile, rfl⟩
    exact ⟨type, inFile, matching named⟩

/-- The bases of a type are at most 35, whatever the file declares. If the walk along them passes 32
declared types or more, as it does when it leads into a circle, they are exactly the first 32 of these.
So a type on a circle derives from a behaviour of the engine only if the file declares a type of that
name in that namespace. -/
theorem bases_bounded (declarations : Declarations) (info : TypeInfo) :
    (declarations.bases info).length ≤ 35 ∧
      (∀ passed, (info :: passed).IsChain declarations.DeclaredBase → 32 ≤ passed.length →
        declarations.bases info = (passed.take 32).map TypeInfo.typeName ∧
          (declarations.bases info).length = 32 ∧
          declarations.AllDeclared (declarations.bases info)) ∧
      (declarations.LeadsToCircle info →
        (declarations.bases info).length = 32 ∧
          declarations.AllDeclared (declarations.bases info)) ∧
      (declarations.Circular info →
        (declarations.typeSymbol info).derivesFrom "MonoBehaviour" "UnityEngine" →
          ∃ type ∈ declarations.types.values,
            type.name = "MonoBehaviour" ∧ type.namespaceName = some "UnityEngine") := by
  have long : ∀ passed, (info :: passed).IsChain declarations.DeclaredBase → 32 ≤ passed.length →
      declarations.bases info = (passed.take 32).map TypeInfo.typeName ∧
        (declarations.bases info).length = 32 ∧
        declarations.AllDeclared (declarations.bases info) := by
    intro passed chain enough
    have equal : declarations.bases info = (passed.take 32).map TypeInfo.typeName :=
      basesWithin_of_isChain chain enough
    refine ⟨equal, ?_, ?_⟩
    · rw [equal, List.length_map, List.length_take, Nat.min_eq_left enough]
    · rw [equal]
      exact allDeclared_of_isChain chain 32
  have circle (leads : declarations.LeadsToCircle info) :
      (declarations.bases info).length = 32 ∧
        declarations.AllDeclared (declarations.bases info) := by
    rcases leads.exists_isChain 32 with ⟨passed, chain, length⟩
    exact (long passed chain (Nat.le_of_eq length.symm)).2
  refine ⟨length_basesWithin_le baseLimit info.base, long, circle, ?_⟩
  intro circular derives
  exact exists_declared_of_derivesFrom circular.mem_values (circle circular.leadsToCircle).2 derives

/-! Three types that derive from one another in a circle, by a name with type arguments, through an alias
and by a dotted name, beside an import of the engine. -/

def ringFirst : TypeInfo where
  name := "First"
  namespaceName := some "Game"
  base := some "Second<int>"

def ringSecond : TypeInfo where
  name := "Second"
  base := some "Next"

def ringThird : TypeInfo where
  name := "MonoBehaviour"
  namespaceName := some "Game"
  base := some "global::Game.First"

def ofRing : Declarations where
  usings := ["UnityEngine"]
  aliases := [("Next", "Game.MonoBehaviour")]
  types := [(3, ringFirst), (5, ringSecond), (8, ringThird)]

theorem bases_bounded_ofRing :
    ofRing.Circular ringFirst ∧ (ofRing.bases ringFirst).length = 32 ∧
      ofRing.AllDeclared (ofRing.bases ringFirst) ∧
      (ofRing.typeSymbol ringFirst).derivesFrom "MonoBehaviour" "UnityEngine" = false := by
  have first : ofRing.DeclaredBase ringFirst ringSecond := by
    show _ = _
    decide
  have second : ofRing.DeclaredBase ringSecond ringThird := by
    show _ = _
    decide
  have third : ofRing.DeclaredBase ringThird ringFirst := by
    show _ = _
    decide
  have circular : ofRing.Circular ringFirst := .head first (.head second (.single third))
  obtain ⟨_, _, circle, taken⟩ := bases_bounded ofRing ringFirst
  refine ⟨circular, (circle circular.leadsToCircle).1, (circle circular.leadsToCircle).2, ?_⟩
  rw [← Bool.not_eq_true]
  intro derives
  have undeclared : ¬∃ type ∈ ofRing.types.values,
      type.name = "MonoBehaviour" ∧ type.namespaceName = some "UnityEngine" := by
    decide
  exact undeclared (taken circular derives)

end Declarations

end UnityLint
