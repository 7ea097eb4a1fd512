import UnityLint.Rule.Acquisition
import UnityLint.Rule.NullGuard
import UnityLint.Rule.SceneLookup

/-! # Groups of rules -/

namespace UnityLint

inductive Preset where
  | all
  | performance
  | failFast
deriving DecidableEq, Repr

def Preset.rules : Preset → List Rule
  | .all => [Acquisition.rule, SceneLookup.rule, NullGuard.rule]
  | .performance => [Acquisition.rule, SceneLookup.rule]
  | .failFast => [NullGuard.rule]

end UnityLint
