import UnityLint.Declaration.Resolver
import UnityLint.Frontend.Basic
import UnityLint.GeneratedCode
import UnityLint.Outline.Lowering

/-! # The C# frontend -/

namespace UnityLint.Frontend

def csharp (parser : String → Option ParseTree) : Frontend where
  language := "csharp"
  extensions := ["cs"]
  isGenerated := GeneratedCode.isGenerated
  parse path source :=
    match parser source with
    | none => .error (.unparsable path "parser returned no tree")
    | some root =>
        let unit := SourceUnit.ofParseTree path source root
        .ok { tree := unit.tree, resolver := unit.declarations.resolver }

end UnityLint.Frontend
