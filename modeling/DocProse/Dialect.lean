import DocProse.Path

/-!
# Dialects

A source file is TypeScript, without or with markup in expressions.  The
extension decides: `tsx` in any case of its letters, whatever number of dots
stands before it, selects the dialect with markup.
-/

namespace DocProse

/-- What a source file is written in. -/
inductive Dialect where
  /-- Without markup. -/
  | typeScript
  /-- With markup in expressions. -/
  | tsx
  deriving DecidableEq, Repr, Inhabited

namespace Dialect

/-- The dialect of files with an extension. -/
def ofExtension (extension : String) : Dialect :=
  if (dropDots extension.toList).map Char.toLower = ['t', 's', 'x'] then .tsx else .typeScript

/-- The name of a dialect. -/
def name : Dialect → String
  | .typeScript => "TypeScript"
  | .tsx => "TSX"

end Dialect

end DocProse
