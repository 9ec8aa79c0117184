import DocProse.Processor
import DocProse.Source.Comments

/-!
# The TypeScript processor

Handles files with the extensions `.ts` and `.tsx` and those that the settings
add.  The extension of a file decides on the dialect; nothing else about the
file but its text has an influence on the document.

The processor works with any grammar.  The one that is used scans for comments
(`Source.scanner`).
-/

namespace DocProse

namespace TypeScript

/-- The extensions that need no settings. -/
def defaultExtensions : List String := [".ts", ".tsx"]

/-- The path in the report about a file without one. -/
def placeholderPath : String := "<typescript>"

end TypeScript

/-! ## With any grammar -/

namespace Grammar

/-- The document of a text in a dialect. -/
def document (g : Grammar) (dialect : Dialect) (text : String) : Except Error Document :=
  (g.parse dialect).document text

/-- The hooks for files with an extension. -/
def hooks (g : Grammar) (extension : String) : Hooks where
  preProcess text _ := g.document (Dialect.ofExtension extension) text
  postProcess messages path := ⟨messages, path.getD TypeScript.placeholderPath⟩

/-- The processor with some settings. -/
def processor (g : Grammar) (settings : Settings) : Processor where
  name := "TypeScript"
  extensions := TypeScript.defaultExtensions ++ settings.extensions
  hooks := g.hooks

/-- The registry with all built-in processors. -/
def registry (g : Grammar) (settings : Settings) : Registry :=
  Registry.register [] (g.processor settings)

end Grammar

/-! ## With the scanner -/

/-- The processor with some settings. -/
def TypeScript.processor (settings : Settings) : Processor := Source.scanner.processor settings

/-- The registry with all built-in processors. -/
def defaultRegistry (settings : Settings) : Registry := Source.scanner.registry settings

end DocProse
